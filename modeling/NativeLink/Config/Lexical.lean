import NativeLink.Text.Hex

/-!
# The pieces of a configuration text

A configuration is written in an object notation with blanks and comments between
its tokens.  A reader takes the text from the front and gives what it read with
the rest, or nothing if the text is not of its form.

* `blanks` skips blanks and comments.
* `identifier` reads a name, plain or raw.
* `quoted` reads a text between double quotes, with escapes, or a raw one, in which
  nothing is special.
* `character` and `number` read what stands in fields that are ignored.
* `items` reads items separated by commas up to a closing character.
-/

namespace NativeLink

namespace Notation

/-- A reader of values. -/
abbrev Reader (α : Type) : Type := List Char → Option (α × List Char)

/-! ## Blanks and comments -/

/-- Where a position between tokens is: outside comments, in a comment up to the end of the line,
or in a bracketed comment that has others around it. -/
inductive Gap where
  | plain
  | line
  | bracketed (around : Nat)

/-- Skips blanks and comments.  A slash that begins no comment is an error, and so is a bracketed
comment without an end. -/
def skip : Gap → List Char → Option (List Char)
  | .plain, [] => some []
  | .plain, '/' :: '/' :: rest => skip .line rest
  | .plain, '/' :: '*' :: rest => skip (.bracketed 0) rest
  | .plain, '/' :: _ => none
  | .plain, c :: rest =>
    if c = ' ' ∨ c = '\t' ∨ c = '\n' ∨ c = '\r' then skip .plain rest else some (c :: rest)
  | .line, [] => some []
  | .line, c :: rest => if c = '\n' then skip .plain rest else skip .line rest
  | .bracketed _, [] => none
  | .bracketed n, '/' :: '*' :: rest => skip (.bracketed (n + 1)) rest
  | .bracketed 0, '*' :: '/' :: rest => skip .plain rest
  | .bracketed (n + 1), '*' :: '/' :: rest => skip (.bracketed n) rest
  | .bracketed n, _ :: rest => skip (.bracketed n) rest

/-- Skips blanks and comments between two tokens. -/
def blanks (t : List Char) : Option (List Char) := skip .plain t

/-! ## Fixed tokens and names -/

/-- The rest after a fixed text. -/
def consume (token : List Char) (t : List Char) : Option (List Char) :=
  if token.isPrefixOf t then some (t.drop token.length) else none

/-- Letters and the underscore begin a name. -/
def beginsName (c : Char) : Bool := c.isAlpha || c == '_'

/-- Letters, digits and the underscore continue a name. -/
def continuesName (c : Char) : Bool := c.isAlphanum || c == '_'

/-- A raw name has other characters besides. -/
def continuesRawName (c : Char) : Bool := continuesName c || c == '.' || c == '+' || c == '-'

/-- Whether the first character, if there is one, satisfies a test. -/
def startsWith (test : Char → Bool) : List Char → Bool
  | [] => false
  | c :: _ => test c

/-- The rest after a whole word. -/
def word (token : String) (t : List Char) : Option (List Char) :=
  match consume token.toList t with
  | some rest => if startsWith continuesName rest then none else some rest
  | none => none

/-- A plain name, which must not run on into a raw one. -/
def plainName (t : List Char) : Option (List Char × List Char) :=
  let rest := t.dropWhile continuesName
  if startsWith continuesRawName rest then none else some (t.takeWhile continuesName, rest)

/-- A name.  After `r#` it is a raw one; `r` before a quote begins a raw text and no name. -/
def identifier : Reader (List Char)
  | 'r' :: '"' :: _ => none
  | 'r' :: '#' :: rest =>
    if startsWith continuesRawName rest then
      some (rest.takeWhile continuesRawName, rest.dropWhile continuesRawName)
    else none
  | t => if startsWith beginsName t then plainName t else none

/-! ## Texts -/

/-- The character that `\x` and two digits stand for. -/
def byteEscape : Reader Char
  | a :: b :: rest =>
    match Hex.digitValue? a, Hex.digitValue? b with
    | some high, some low => some (Char.ofNat (16 * high + low), rest)
    | _, _ => none
  | _ => none

/-- The character with a number, unless the number is that of a surrogate or too large. -/
def scalar? (n : Nat) : Option Char := if n.isValidChar then some (Char.ofNat n) else none

/-- The character that `\u` and one to six digits in braces stand for. -/
def scalarEscape : Reader Char
  | '\x7b' :: t =>
    let digits := t.takeWhile fun c => (Hex.digitValue? c).isSome
    if digits.isEmpty ∨ 6 < digits.length then none
    else match t.dropWhile fun c => (Hex.digitValue? c).isSome with
      | '\x7d' :: rest =>
        match (Hex.value? 0 digits).bind scalar? with
        | some c => some (c, rest)
        | none => none
      | _ => none
  | _ => none

/-- The character an escape stands for, after its backslash. -/
def escaped : Reader Char
  | '\'' :: rest => some ('\'', rest)
  | '"' :: rest => some ('"', rest)
  | '\\' :: rest => some ('\\', rest)
  | 'n' :: rest => some ('\n', rest)
  | 'r' :: rest => some ('\r', rest)
  | 't' :: rest => some ('\t', rest)
  | '0' :: rest => some ('\x00', rest)
  | 'x' :: rest => byteEscape rest
  | 'u' :: rest => scalarEscape rest
  | _ => none

theorem length_byteEscape {t rest : List Char} {c : Char} (h : byteEscape t = some (c, rest)) :
    rest.length ≤ t.length := by
  unfold byteEscape at h
  split at h
  · split at h
    · simp only [Option.some.injEq, Prod.mk.injEq] at h
      simp [← h.2]
      omega
    · simp at h
  · simp at h

theorem length_scalarEscape {t rest : List Char} {c : Char}
    (h : scalarEscape t = some (c, rest)) : rest.length ≤ t.length := by
  unfold scalarEscape at h
  split at h
  · rename_i digits
    simp only at h
    split at h
    · simp at h
    · split at h
      · rename_i after hafter
        split at h
        · simp only [Option.some.injEq, Prod.mk.injEq] at h
          have shorter := (List.dropWhile_suffix (l := digits)
            fun c => (Hex.digitValue? c).isSome).length_le
          rw [hafter] at shorter
          rw [← h.2]
          simp only [List.length_cons] at shorter ⊢
          omega
        · simp at h
      · simp at h
  · simp at h

/-- An escape gives nothing back to the text. -/
theorem length_escaped {t rest : List Char} {c : Char} (h : escaped t = some (c, rest)) :
    rest.length ≤ t.length := by
  unfold escaped at h
  split at h
  case h_8 => exact Nat.le_succ_of_le (length_byteEscape h)
  case h_9 => exact Nat.le_succ_of_le (length_scalarEscape h)
  case h_10 => simp at h
  all_goals
    simp only [Option.some.injEq, Prod.mk.injEq] at h
    simp [← h.2]

/-- The rest of a text in which escapes count, up to its closing quote. -/
def quotedRest (t : List Char) : Option (List Char × List Char) :=
  match t with
  | [] => none
  | '"' :: rest => some ([], rest)
  | '\\' :: rest =>
    match h : escaped rest with
    | none => none
    | some (c, after) =>
      have := length_escaped h
      match quotedRest after with
      | some (text, more) => some (c :: text, more)
      | none => none
  | c :: rest =>
    match quotedRest rest with
    | some (text, more) => some (c :: text, more)
    | none => none
termination_by t.length

/-- The rest of a raw text, up to the first quote that `closing` follows. -/
def rawRest (closing : List Char) : Reader (List Char)
  | [] => none
  | c :: rest =>
    match if c = '"' then consume closing rest else none with
    | some after => some ([], after)
    | none =>
      match rawRest closing rest with
      | some (text, more) => some (c :: text, more)
      | none => none

/-- A text between quotes, or a raw one. -/
def quoted : Reader String
  | '"' :: rest =>
    match quotedRest rest with
    | some (text, more) => some (String.ofList text, more)
    | none => none
  | 'r' :: rest =>
    match rest.dropWhile (· = '#') with
    | '"' :: inner =>
      match rawRest (rest.takeWhile (· = '#')) inner with
      | some (text, more) => some (String.ofList text, more)
      | none => none
    | _ => none
  | _ => none

/-- One character or one escape between apostrophes. -/
def character : List Char → Option (List Char)
  | '\'' :: '\\' :: rest =>
    match escaped rest with
    | some (_, '\'' :: more) => some more
    | _ => none
  | '\'' :: c :: '\'' :: more => if c = '\'' then none else some more
  | _ => none

/-! ## Numbers -/

/-- Whether a character may stand in a number with a fraction or an exponent. -/
def isFloatChar (c : Char) : Bool :=
  c.isDigit || c == 'e' || c == 'E' || c == '.' || c == '+' || c == '-' || c == '_'

/-- Whether a character may stand in a whole number in some base. -/
def isIntegerChar (c : Char) : Bool := (Hex.digitValue? c).isSome || c == '_'

/-- The rest after a sign, if there is one. -/
def dropSign : List Char → List Char
  | '+' :: rest => rest
  | '-' :: rest => rest
  | t => t

/-- Whether what follows is an exponent with at least one digit, and nothing more. -/
def isExponent : List Char → Bool
  | [] => true
  | c :: rest =>
    (c == 'e' || c == 'E') && !(dropSign rest).isEmpty && (dropSign rest).all Char.isDigit

/-- Whether a text is a decimal number: digits with a point somewhere among or around them, and
perhaps an exponent. -/
def isDecimal (t : List Char) : Bool :=
  let t := dropSign t
  let whole := t.takeWhile Char.isDigit
  match t.dropWhile Char.isDigit with
  | '.' :: rest =>
    let fraction := rest.takeWhile Char.isDigit
    !(whole.isEmpty && fraction.isEmpty) && isExponent (rest.dropWhile Char.isDigit)
  | rest => !whole.isEmpty && isExponent rest

/-- The rest after a floating-point value that has a word in place of digits.  A sign may stand
before the word, also where it says nothing. -/
def namedFloat (t : List Char) : Option (List Char) :=
  ["inf", "+inf", "-inf", "NaN", "+NaN", "-NaN"].findSome? fun token => word token t

/-- A number read as a floating-point one. -/
def float (t : List Char) : Option (List Char) :=
  match namedFloat t with
  | some rest => some rest
  | none =>
    if isDecimal (t.takeWhile isFloatChar) then some (t.dropWhile isFloatChar) else none

/-- The value of digits in a base; an underscore between them does not count. -/
def valueIn (base : Nat) : Nat → List Char → Option Nat
  | n, [] => some n
  | n, c :: rest =>
    if c = '_' then valueIn base n rest
    else match Hex.digitValue? c with
      | some d => if d < base then valueIn base (base * n + d) rest else none
      | none => none

/-- The value of a whole number without a sign, in the base its first characters name. -/
def magnitude (t : List Char) : Option (Nat × List Char) :=
  let (base, t) : Nat × List Char :=
    match t with
    | '0' :: 'x' :: rest => (16, rest)
    | '0' :: 'b' :: rest => (2, rest)
    | '0' :: 'o' :: rest => (8, rest)
    | _ => (10, t)
  let digits := t.takeWhile isIntegerChar
  if digits.isEmpty || startsWith (· == '_') digits then none
  else match valueIn base 0 digits with
    | some n => some (n, t.dropWhile isIntegerChar)
    | none => none

/-- The rest after a whole number that fits into sixty-four bits. -/
def integer : List Char → Option (List Char)
  | '+' :: rest =>
    (magnitude rest).bind fun (n, more) => if n < UInt64.size / 2 then some more else none
  | '-' :: rest =>
    (magnitude rest).bind fun (n, more) => if n ≤ UInt64.size / 2 then some more else none
  | t => (magnitude t).bind fun (n, more) => if n < UInt64.size then some more else none

/-- The rest after a number.  A whole number that is out of range, or that turns out not to be
one, is read as a floating-point number; so is a sign with a word after it. -/
def number (t : List Char) : Option (List Char) :=
  let body := dropSign t
  if (body.takeWhile isIntegerChar).length < (body.takeWhile isFloatChar).length then float t
  else (integer t).or (float t)

/-! ## Items -/

/-- At most `limit` items up to the closing character, with a comma after each; the last may do
without. -/
def itemsUpTo {α : Type} (closing : Char) (item : Reader α) : Nat → Reader (List α)
  | 0, _ => none
  | limit + 1, t =>
    match blanks t with
    | none => none
    | some [] => none
    | some (c :: rest) =>
      if c = closing then some ([], rest)
      else match item (c :: rest) with
        | none => none
        | some (a, after) =>
          match blanks after with
          | none => none
          | some [] => none
          | some (d :: more) =>
            if d = ',' then
              match itemsUpTo closing item limit more with
              | some (as, final) => some (a :: as, final)
              | none => none
            else if d = closing then some ([a], more)
            else none

/-- Items up to the closing character.  Each comma takes a character of the text, and so does the
closing one, so a text has no room for more than that. -/
def items {α : Type} (closing : Char) (item : Reader α) : Reader (List α) := fun t =>
  itemsUpTo closing item t.length t

/-- A key and its value, with a colon between them. -/
def entry {α β : Type} (key : Reader α) (value : α → Reader β) : Reader β := fun t =>
  match key t with
  | none => none
  | some (k, after) =>
    match blanks after with
    | some (':' :: rest) =>
      match blanks rest with
      | some rest => value k rest
      | none => none
    | _ => none

end Notation

end NativeLink
