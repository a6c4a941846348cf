import NativeLink.Text.Hex
import NativeLink.Text.Shapeless

/-!
# Inspection texts

Errors, bindings and contexts can be inspected: written so that their structure
shows.  An inspection is a small tree of words, quoted texts, records, tuples and
lists, and it is written either on one line or spread over several.

* `Inspect.line` writes `Name { field: value, .. }`, `Name(value)` and
  `[value, value]`.
* `Inspect.block` writes one field or item a line, four blanks deeper than the
  line that opens it, each followed by a comma.

A record may be open: it ends in two dots, which stand for fields that are not
shown.  Text is quoted with the usual escapes, and whatever has no shape of its
own is written as a number.
-/

namespace NativeLink

namespace Text

/-- A character inside double quotes. -/
def escape (c : Char) : List Char :=
  if c = '"' then ['\\', '"']
  else if c = '\\' then ['\\', '\\']
  else if c = '\n' then ['\\', 'n']
  else if c = '\t' then ['\\', 't']
  else if c = '\r' then ['\\', 'r']
  else if c = '\x00' then ['\\', '0']
  else if isShapeless c then ['\\', 'u', '\x7b'] ++ Hex.digits c.toNat ++ ['\x7d']
  else [c]

/-- A text between double quotes. -/
def quote (text : String) : String :=
  "\"" ++ String.ofList (text.toList.flatMap escape) ++ "\""

end Text

/-- The structure of a value that is shown to a reader. -/
inductive Inspect where
  | word (text : String)
  | quoted (text : String)
  /-- A record; an open one has fields that are not shown. -/
  | record (name : String) (fields : List (String × Inspect)) (isOpen : Bool)
  | tuple (name : String) (items : List Inspect)
  | list (items : List Inspect)

namespace Inspect

mutual

/-- The inspection on one line. -/
def line : Inspect → String
  | .word text => text
  | .quoted text => Text.quote text
  | .record name fields isOpen =>
    name ++ " \x7b " ++
      String.intercalate ", " (lineFields fields ++ if isOpen then [".."] else []) ++ " \x7d"
  | .tuple name items => name ++ "(" ++ String.intercalate ", " (lineItems items) ++ ")"
  | .list items => "[" ++ String.intercalate ", " (lineItems items) ++ "]"

/-- The fields of a record, each with its name. -/
def lineFields : List (String × Inspect) → List String
  | [] => []
  | (name, value) :: rest => (name ++ ": " ++ line value) :: lineFields rest

/-- The items of a tuple or list. -/
def lineItems : List Inspect → List String
  | [] => []
  | value :: rest => line value :: lineItems rest

end

/-- The blanks before a line at the given depth. -/
def indent (depth : Nat) : String := String.ofList (List.replicate (4 * depth) ' ')

/-- Lines one level deeper than `depth`, between an opening and a closing text. -/
def enclose (depth : Nat) (opening closing : String) (lines : List String) : String :=
  opening ++ "\n" ++
    String.join (lines.map fun line => indent (depth + 1) ++ line ++ "\n") ++
    indent depth ++ closing

mutual

/-- The inspection over several lines, the first of which stands at `depth`. -/
def block (depth : Nat) : Inspect → String
  | .word text => text
  | .quoted text => Text.quote text
  | .record name fields isOpen =>
    enclose depth (name ++ " \x7b") "\x7d"
      (blockFields (depth + 1) fields ++ if isOpen then [".."] else [])
  | .tuple name items => enclose depth (name ++ "(") ")" (blockItems (depth + 1) items)
  | .list [] => "[]"
  | .list (item :: items) => enclose depth "[" "]" (blockItems (depth + 1) (item :: items))

/-- The fields of a record at `depth`, each with its name and a comma. -/
def blockFields (depth : Nat) : List (String × Inspect) → List String
  | [] => []
  | (name, value) :: rest =>
    (name ++ ": " ++ block depth value ++ ",") :: blockFields depth rest

/-- The items of a tuple or list at `depth`, each with a comma. -/
def blockItems (depth : Nat) : List Inspect → List String
  | [] => []
  | value :: rest => (block depth value ++ ",") :: blockItems depth rest

end

/-- The inspection on one line or, if `spread`, over several. -/
def render (spread : Bool) (i : Inspect) : String := if spread then i.block 0 else i.line

end Inspect

end NativeLink
