import NativeLink.Config.Basic
import NativeLink.Config.Ignored

/-!
# Reading configurations

The text of a configuration is a record, with or without the name `FfiConfig`, of
any of the fields `libraries`, `aliases`, `search_default` and `builtins` in any
order.  A field that is missing has its default; a known field that is written
twice is an error; an unknown field is ignored.  Before the record may stand
attributes that switch extensions of the notation on.

What is the notation's and what is the configuration's are kept apart.  `fieldsOf`
reads the fields of a record, in the order they are written; `parseWith` makes a
configuration of what such a reader finds, with the defaults for the rest.
-/

namespace NativeLink

namespace Notation

/-! ## Attributes -/

/-- Fixed tokens with blanks after each. -/
def tokens : List (List Char) → List Char → Option (List Char)
  | [], t => some t
  | token :: others, t => ((consume token t).bind blanks).bind (tokens others)

/-- The extensions that can be switched on. -/
def extensions : List String := ["unwrap_newtypes", "implicit_some", "unwrap_variant_newtypes"]

/-- The names of extensions, separated by commas. -/
def extensionNames (t : List Char) : Option (List String × List Char) :=
  match identifier t with
  | none => none
  | some (name, rest) =>
    let name := String.ofList name
    if name ∉ extensions then none
    else match blanks rest with
      | none => none
      | some (',' :: after) =>
        match blanks after with
        | none => none
        | some next =>
          if startsWith continuesName next then
            if _h : next.length < t.length then
              match extensionNames next with
              | some (names, final) => some (name :: names, final)
              | none => none
            else none
          else some ([name], next)
      | some next => if startsWith continuesName next then none else some ([name], next)
termination_by t.length

/-- The attributes in front of the text, and the names they switch on. -/
def attributes (t : List Char) : Option (List String × List Char) :=
  match blanks t with
  | none => none
  | some ('#' :: rest) =>
    match ((blanks rest).bind (tokens [['!'], ['['], "enable".toList, ['(']])).bind
      extensionNames with
    | none => none
    | some (names, after) =>
      match tokens [[')'], [']']] after with
      | none => none
      | some next =>
        if _h : next.length < t.length then
          match attributes next with
          | some (others, final) => some (names ++ others, final)
          | none => none
        else none
  | some rest => some ([], rest)
termination_by t.length

/-! ## Values of known fields -/

/-- A list of texts. -/
def texts : Reader (List String)
  | '[' :: rest => items ']' quoted rest
  | _ => none

/-- A map from texts to texts. -/
def textMap : Reader (List (String × String))
  | '\x7b' :: rest =>
    items '\x7d' (entry quoted fun key t => (quoted t).map fun (value, more) => ((key, value), more))
      rest
  | _ => none

/-- A truth value. -/
def flag : Reader Bool := fun t =>
  match consume "true".toList t with
  | some rest => some (true, rest)
  | none =>
    match consume "false".toList t with
    | some rest => some (false, rest)
    | none => none

end Notation

namespace Config

open Notation

/-- A field of a configuration text. -/
inductive Field where
  | libraries (paths : List String)
  | aliases (entries : List (String × String))
  | searchDefault (on : Bool)
  | builtins (on : Bool)
  /-- A field this library does not know. -/
  | other

/-- The units of depth that are left for the value of a field. -/
def fieldBudget : Nat := 126

/-- The value of the field with the given name. -/
def field (implicit : Bool) (name : List Char) : Reader Field := fun t =>
  let name := String.ofList name
  if name = "libraries" then (texts t).map fun (paths, rest) => (.libraries paths, rest)
  else if name = "aliases" then (textMap t).map fun (entries, rest) => (.aliases entries, rest)
  else if name = "search_default" then (flag t).map fun (on, rest) => (.searchDefault on, rest)
  else if name = "builtins" then (flag t).map fun (on, rest) => (.builtins on, rest)
  else (value implicit fieldBudget t).map fun rest => (.other, rest)

/-- The fields that were written so far. -/
structure Draft where
  libraries : Option (List String) := none
  aliases : Option (List (String × String)) := none
  searchDefault : Option Bool := none
  builtins : Option Bool := none

namespace Draft

/-- A draft with one more field, unless it has that field already. -/
def add (d : Draft) : Field → Option Draft
  | .libraries paths =>
    if d.libraries.isSome then none else some { d with libraries := some paths }
  | .aliases entries => if d.aliases.isSome then none else some { d with aliases := some entries }
  | .searchDefault on =>
    if d.searchDefault.isSome then none else some { d with searchDefault := some on }
  | .builtins on => if d.builtins.isSome then none else some { d with builtins := some on }
  | .other => some d

/-- A draft with more fields. -/
def addAll (d : Draft) : List Field → Option Draft
  | [] => some d
  | f :: rest => (d.add f).bind fun d => d.addAll rest

/-- The configuration with defaults for the fields that are missing. -/
def finish (d : Draft) : Config where
  libraries := d.libraries.getD []
  aliases := aliasesOfList (d.aliases.getD [])
  searchDefault := d.searchDefault.getD true
  builtins := d.builtins.getD true

end Draft

/-- The name in front of the record, if there is one. -/
def recordName (t : List Char) : Option (List Char) :=
  if startsWith continuesName t then
    match identifier t with
    | some (name, rest) => if String.ofList name = "FfiConfig" then some rest else none
    | none => none
  else some t

/-- The fields of a record. -/
def record (implicit : Bool) (t : List Char) : Option (List Field × List Char) :=
  match (recordName t).bind blanks with
  | some ('(' :: rest) => items ')' (entry identifier (field implicit)) rest
  | _ => none

/-- The fields of the record that a text denotes. -/
def fieldsOf (text : String) : Option (List Field) :=
  match attributes text.toList with
  | none => none
  | some (names, rest) =>
    match record (names.contains "implicit_some") rest with
    | none => none
    | some (fields, after) =>
      match blanks after with
      | some [] => some fields
      | _ => none

/-! ## Configurations -/

/-- The configuration in a text of a notation, of which `reader` reads the records. -/
def parseWith (reader : String → Option (List Field)) (text : String) :
    Except ConfigError Config :=
  match (reader text).bind (Draft.addAll {}) with
  | some draft => .ok draft.finish
  | none => .error .malformed

/-- The configuration a text denotes. -/
def parse (text : String) : Except ConfigError Config := parseWith fieldsOf text

end Config

end NativeLink
