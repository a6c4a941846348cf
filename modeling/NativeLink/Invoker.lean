import NativeLink.Binding

/-!
# Invokers

An invoker calls a binding with a fixed number of arguments.  The number is part
of its type and is checked once, when the invoker is made, so that no call made
through it can have the wrong number of arguments.

A call that the transport refuses is a defect: whoever holds an invoker relies on
the binding to take its arguments.  A defect is told and then ends the operation.
-/

namespace NativeLink

/-- Ends an operation with a defect, which is told first. -/
def raise {σ α : Type} (d : Defect) : Reaction σ α := fun world =>
  (.panicked (.defect d), [.defect d], world)

/-- A binding that takes exactly `n` arguments. -/
structure Invoker (σ : Type) (n : Nat) where
  binding : Binding σ
  arity_eq : binding.arity = n

namespace Invoker

variable {σ : Type} {n : Nat}

/-- The invoker of a binding with `n` arguments. -/
def make (n : Nat) (b : Binding σ) : Except ResolveError (Invoker σ n) :=
  if h : b.arity = n then .ok ⟨b, h⟩ else .error (.arityMismatch b.name b.arity n)

/-- There is at most one invoker of a binding with `n` arguments. -/
theorem make_eq_ok_iff {b : Binding σ} {invoker : Invoker σ n} :
    make n b = .ok invoker ↔ invoker.binding = b := by
  unfold make
  split
  · rw [Except.ok.injEq, eq_comm]
    cases invoker
    simp
  · next h =>
    constructor
    · intro hm
      cases hm
    · rintro rfl
      exact absurd invoker.arity_eq h

/-- The name that is called. -/
def symbol (invoker : Invoker σ n) : String := invoker.binding.name

/-- Calls the binding.  What it returns is passed on as it is. -/
def invoke (invoker : Invoker σ n) (args : Vector Value n) : Reaction σ Value := fun world =>
  let called := Event.nativeCall invoker.symbol args.toList
  match invoker.binding.callable args.toList world with
  | (.returned (.ok value), events, world) => (.returned value, called :: events, world)
  | (.returned (.error refusal), events, world) =>
    let (outcome, raised, world) := raise (.transport invoker.symbol refusal) world
    (outcome, called :: (events ++ raised), world)
  | (.panicked cause, events, world) => (.panicked cause, called :: events, world)
  | (.stuck, events, world) => (.stuck, called :: events, world)

def inspect (invoker : Invoker σ n) : Inspect :=
  .record "Invoker" [("binding", invoker.binding.inspect)] false

end Invoker

end NativeLink
