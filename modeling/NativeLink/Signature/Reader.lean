import NativeLink.Error
import NativeLink.Signature.Basic
import NativeLink.Text.Blank

/-!
# Reading signatures

The text of a signature may have blanks around it, around each argument, and
around the colon.  The reader looks for the opening parenthesis, for the first
closing one after it, for the colon and for the kind of the result; only then
does it read the arguments, from the left.  The first of these that fails is the
fault that is reported, so a bad result wins over a bad argument.

* `Signature.read` reads a list of characters and answers a `Signature.Fault`.
* `Signature.parse` reads a text and answers the error a caller sees.
-/

namespace NativeLink

namespace Signature

/-- What is wrong with the text of a signature. -/
inductive Fault where
  | noOpening
  | noClosing
  | noColon
  | unknownResult (text : String)
  | voidArgument
  | unknownArgument (text : String)
  deriving DecidableEq

/-- The reason that is given for a fault. -/
def Fault.reason : Fault → String
  | noOpening => "expected '('"
  | noClosing => "missing ')'"
  | noColon => "expected ':' before the return kind"
  | unknownResult text => "unknown return kind '" ++ text ++ "'"
  | voidArgument => "VOID is not a valid argument kind"
  | unknownArgument text => "unknown argument kind '" ++ text ++ "'"

/-- The text of a piece without the blanks around it. -/
def trimmed (piece : List Char) : String := String.ofList (Text.trim piece)

/-- The pieces between commas; there is always one. -/
def pieces : List Char → List (List Char)
  | [] => [[]]
  | c :: rest =>
    if c = ',' then [] :: pieces rest
    else match pieces rest with
      | [] => [[c]]
      | piece :: others => (c :: piece) :: others

@[simp] theorem pieces_nil : pieces [] = [[]] := rfl

@[simp] theorem pieces_comma (rest : List Char) :
    pieces (',' :: rest) = [] :: pieces rest := by simp [pieces]

theorem pieces_ne_nil (t : List Char) : pieces t ≠ [] := by
  cases t with
  | nil => simp
  | cons c rest => rw [pieces]; split <;> (try split) <;> simp

/-- The kind of one argument. -/
def readArgument (piece : List Char) : Except Fault Kind :=
  match Kind.ofName? (trimmed piece) with
  | some .void => .error .voidArgument
  | some kind => .ok kind
  | none => .error (.unknownArgument (trimmed piece))

/-- The kinds of arguments, read from the left. -/
def readEach : List (List Char) → Except Fault (List Kind)
  | [] => .ok []
  | piece :: others =>
    match readArgument piece with
    | .error fault => .error fault
    | .ok kind =>
      match readEach others with
      | .error fault => .error fault
      | .ok kinds => .ok (kind :: kinds)

/-- The arguments between the parentheses.  Blanks alone are no argument. -/
def readArguments (body : List Char) : Except Fault (List Kind) :=
  if Text.trim body = [] then .ok [] else readEach (pieces body)

/-- The signature a text denotes. -/
def read (text : List Char) : Except Fault Signature :=
  match Text.trim text with
  | '(' :: rest =>
    match rest.dropWhile (· ≠ ')') with
    | [] => .error .noClosing
    | _ :: tail =>
      match Text.trimStart tail with
      | ':' :: result =>
        match Kind.ofName? (trimmed result) with
        | none => .error (.unknownResult (trimmed result))
        | some kind =>
          match readArguments (rest.takeWhile (· ≠ ')')) with
          | .error fault => .error fault
          | .ok kinds => .ok ⟨kinds, kind⟩
      | _ => .error .noColon
  | _ => .error .noOpening

/-- The signature a text denotes, or the error that quotes the text as it was given. -/
def parse (text : String) : Except ResolveError Signature :=
  match read text.toList with
  | .ok signature => .ok signature
  | .error fault => .error (.invalidSignature text fault.reason)

end Signature

end NativeLink
