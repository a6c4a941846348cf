import NativeLink.Kind
import NativeLink.Text.Inspect

/-!
# Signatures

A signature lists the kinds of a native routine's arguments and the kind of its
result.  Its canonical text is `(KIND,KIND):KIND`, without blanks.  A signature
that is built by hand may have `VOID` among its arguments; no text reads as one.
-/

namespace NativeLink

/-- The kinds of the arguments of a routine, and that of its result. -/
structure Signature where
  params : List Kind
  result : Kind
  deriving DecidableEq

namespace Signature

/-- The number of arguments. -/
def arity (s : Signature) : Nat := s.params.length

/-- The names of kinds with a comma between them. -/
def renderParams : List Kind → List Char
  | [] => []
  | [k] => k.name.toList
  | k :: rest => k.name.toList ++ ',' :: renderParams rest

/-- The characters of the canonical text. -/
def render (s : Signature) : List Char :=
  '(' :: renderParams s.params ++ ')' :: ':' :: s.result.name.toList

/-- The canonical text. -/
def text (s : Signature) : String := String.ofList s.render

@[simp] theorem toList_text (s : Signature) : s.text.toList = s.render := String.toList_ofList

def inspect (s : Signature) : Inspect :=
  .record "Signature"
    [("params", .list (s.params.map fun k => .word k.label)), ("ret", .word s.result.label)] false

end Signature

end NativeLink
