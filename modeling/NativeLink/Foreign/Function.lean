import NativeLink.Binding
import NativeLink.Foreign.Word

/-!
# Foreign functions

A foreign function is a native routine at an address, prepared for a signature.
Arguments are checked before anything happens: first their number, then their
kinds from the left.  A call that passes the check is made exactly once, and its
result is read as the kind the signature names.

A routine is what the machine does: it takes words and the state `π` of the
process, and leaves a word and another state.
-/

namespace NativeLink

/-- What native code does with argument words. -/
abbrev Routine (π : Type) : Type := List UInt64 → π → UInt64 × π

/-- A native routine prepared for a signature. -/
structure ForeignFunction (π : Type) where
  /-- The name it is called under. -/
  symbol : String
  signature : Signature
  address : Address
  routine : Routine π

namespace ForeignFunction

variable {π : Type}

/-- The word for the argument at a position. -/
def marshal (position : Nat) (expected : Kind) (value : Value) : Except TransportError UInt64 :=
  if value.kind ≠ expected then .error (.argumentKind position expected value.kind)
  else if value = .void then .error (.unsupported ("argument " ++ toString position ++ " is VOID"))
  else .ok value.word

/-- The words for arguments, the first of which stands at `position`. -/
def marshalFrom (position : Nat) : List Kind → List Value → Except TransportError (List UInt64)
  | expected :: kinds, value :: values =>
    match marshal position expected value with
    | .error error => .error error
    | .ok word =>
      match marshalFrom (position + 1) kinds values with
      | .error error => .error error
      | .ok words => .ok (word :: words)
  | _, _ => .ok []

/-- The words for the arguments of a call. -/
def prepare (signature : Signature) (args : List Value) : Except TransportError (List UInt64) :=
  if args.length ≠ signature.params.length then
    .error (.argumentCount signature.params.length args.length)
  else marshalFrom 0 signature.params args

/-- Calls the function, unless its arguments are refused. -/
def call (f : ForeignFunction π) (args : List Value) :
    Reaction π (Except TransportError Value) := fun process =>
  match prepare f.signature args with
  | .error error => (.returned (.error error), [], process)
  | .ok words =>
    let (word, process) := f.routine words process
    (.returned (.ok (.ofWord word f.signature.result)), [.foreignCall f.symbol f.address], process)

def inspect (f : ForeignFunction π) : Inspect :=
  .record "FfiFunction"
    [("symbol", .quoted f.symbol), ("signature", .quoted f.signature.text),
      ("address", f.address.inspect)] false

end ForeignFunction

end NativeLink
