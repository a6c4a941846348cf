import NativeLink.Invoker

/-!
# Typed operations

Three native routines implement what an interpreted program cannot express: the
canonical null pointer, the cast of an object along its dynamic type, and the
release of an exception object.  Each operation has a fixed name, signature and
arity, and a form of its own that marshals arguments and reads the result.
-/

namespace NativeLink

/-- The routines with a typed operation. -/
inductive Operation where
  | nullPointer
  | dynamicCast
  | freeException
  deriving DecidableEq

namespace Operation

/-- The name the routine is resolved under. -/
def symbol : Operation → String
  | nullPointer => "@getNullPointer"
  | dynamicCast => "@__dynamic_cast"
  | freeException => "@__cxa_free_exception"

/-- The kinds of the routine. -/
def signature : Operation → Signature
  | nullPointer => ⟨[], .pointer⟩
  | dynamicCast => ⟨[.pointer, .pointer, .pointer, .uint64], .pointer⟩
  | freeException => ⟨[.pointer], .void⟩

/-- The number of arguments. -/
def arity : Operation → Nat
  | nullPointer => 0
  | dynamicCast => 4
  | freeException => 1

theorem arity_signature (o : Operation) : o.signature.arity = o.arity := by cases o <;> rfl

/-- The feature that is missing without the routine. -/
def feature : Operation → String
  | nullPointer => "null-pointer"
  | dynamicCast => "rtti"
  | freeException => "exceptions"

/-- The word an inspection shows for an operation. -/
def label : Operation → String
  | nullPointer => "NullPointerOp"
  | dynamicCast => "DynamicCastOp"
  | freeException => "FreeExceptionOp"

/-- The inspection of an operation over an invoker. -/
def inspect {σ : Type} (o : Operation) (invoker : Invoker σ o.arity) : Inspect :=
  .record o.label [("invoker", invoker.inspect)] false

end Operation

namespace Invoker

variable {σ : Type}

/-- The null pointer as the routine answers it. -/
def nullPointer (invoker : Invoker σ 0) : Reaction σ Value := invoker.invoke #v[]

/-- Casts `object` from one type descriptor to another.  The hint goes through as it is.  A
result that is no pointer is a defect; a null pointer is not. -/
def cast (invoker : Invoker σ 4) (object source target : Address) (hint : UInt64) :
    Reaction σ Address := fun world =>
  match invoker.invoke #v[.pointer object, .pointer source, .pointer target, .uint64 hint] world with
  | (.returned value, events, world) =>
    match value.asPointer with
    | .ok address => (.returned address, events, world)
    | .error found =>
      let (outcome, raised, world) := raise (.resultShape invoker.symbol found) world
      (outcome, events ++ raised, world)
  | (.panicked cause, events, world) => (.panicked cause, events, world)
  | (.stuck, events, world) => (.stuck, events, world)

/-- Releases the exception object at an address.  Whatever the routine returns is dropped. -/
def free (invoker : Invoker σ 1) (address : Address) : Reaction σ Unit := fun world =>
  match invoker.invoke #v[.pointer address] world with
  | (outcome, events, world) => (outcome.map fun _ => (), events, world)

end Invoker

end NativeLink
