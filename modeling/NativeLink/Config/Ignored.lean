import NativeLink.Config.Lexical

/-!
# Values of fields that are ignored

A configuration may have fields that this library does not know.  Their values do
not matter, but they have to be well formed: numbers, texts, characters, names,
optional values, lists, maps, tuples and records, nested to a limited depth.

Depth is a budget.  A list, map, tuple or record takes one unit, and one more while
something inside it is read; an optional value takes one unit.  A value that needs
more than there is left is an error.
-/

namespace NativeLink

namespace Notation

/-- A reader that only skips. -/
abbrev Skip : Type := List Char → Option (List Char)

/-- A skipping reader as a reader of nothing in particular. -/
def Skip.reader (skip : Skip) : Reader Unit := fun t => (skip t).map ((), ·)

/-- What of the budget is left for the parts of a value. -/
structure Inside where
  /-- Whether brackets of any kind may be opened. -/
  brackets : Bool
  /-- The values between brackets. -/
  part : Skip
  /-- The value of an optional one. -/
  optional : Skip

/-- The rest after the closing character of some items. -/
def closeItems (inside : Inside) (closing : Char) (item : Reader Unit) : Skip := fun t =>
  if inside.brackets then (items closing item t).map Prod.snd else none

/-- Whether a name and a colon follow, as in a record. -/
def beginsRecord (t : List Char) : Bool :=
  match (blanks t).bind identifier with
  | some (_, rest) => ((blanks rest).map (startsWith (· == ':'))).getD false
  | none => false

/-- The fields of a record or the parts of a tuple, after the opening parenthesis. -/
def group (inside : Inside) : Skip := fun t =>
  if beginsRecord t then closeItems inside ')' (entry identifier fun _ => inside.part.reader) t
  else closeItems inside ')' inside.part.reader t

/-- The rest after an optional comma and a closing parenthesis. -/
def closeOptional (t : List Char) : Option (List Char) :=
  match blanks t with
  | some (',' :: rest) => (blanks rest).bind (consume [')'])
  | some rest => consume [')'] rest
  | none => none

/-- An optional value, after the word `Some`. -/
def someValue (implicit : Bool) (inside : Inside) : Skip := fun t =>
  match blanks t with
  | none => none
  | some ('(' :: rest) => ((blanks rest).bind inside.optional).bind closeOptional
  | some rest => if implicit then inside.optional rest else none

/-- A value that begins with neither a word of its own nor a name. -/
def bare (inside : Inside) : Skip
  | '(' :: rest => group inside rest
  | '[' :: rest => closeItems inside ']' inside.part.reader rest
  | '\x7b' :: rest =>
    closeItems inside '\x7d' (entry inside.part.reader fun _ => inside.part.reader) rest
  | '.' :: rest => float ('.' :: rest)
  | '"' :: rest => (quoted ('"' :: rest)).map Prod.snd
  | 'r' :: rest => (quoted ('r' :: rest)).map Prod.snd
  | '\'' :: rest => character ('\'' :: rest)
  | c :: rest => if c.isDigit || c == '+' || c == '-' then number (c :: rest) else none
  | [] => none

/-- A name, with a tuple or record after it if a parenthesis follows. -/
def named (inside : Inside) (t : List Char) : Option (List Char) :=
  match blanks t with
  | some ('(' :: rest) => group inside rest
  | rest? => rest?

/-- The rest after a word that is a value, the longest of which come first. -/
def wordValue (t : List Char) : Option (List Char) :=
  ["true", "false", "None", "inf", "-inf", "NaN"].findSome? fun token => word token t

/-- A value whose parts are read by `inside`.  With `implicit`, the value of an optional one may
stand without parentheses. -/
def valueWith (implicit : Bool) (inside : Inside) : Skip := fun t =>
  match wordValue t with
  | some rest => some rest
  | none =>
    match word "Some" t with
    | some rest => someValue implicit inside rest
    | none =>
      match consume ['(', ')'] t with
      | some rest => some rest
      | none =>
        match identifier t with
        | some (_, rest) => named inside rest
        | none => bare inside t

/-- The rest after a value that needs at most `budget` units. -/
def value (implicit : Bool) : Nat → Skip
  | 0 => valueWith implicit ⟨false, fun _ => none, fun _ => none⟩
  | 1 => valueWith implicit ⟨true, fun _ => none, value implicit 0⟩
  | budget + 2 =>
    valueWith implicit ⟨true, value implicit budget, value implicit (budget + 1)⟩

end Notation

end NativeLink
