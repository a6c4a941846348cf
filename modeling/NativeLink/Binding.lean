import NativeLink.Log
import NativeLink.Signature.Reader
import NativeLink.Value

/-!
# Callables and bindings

A callable is the native side of a bound name.  It takes arguments and the state
`σ` of the world it lives in, and gives an outcome, the events it tells, and the
state it leaves behind; the library never looks into `σ`.

A binding ties a name to a callable and to the signature it was first resolved
with.  Bindings have identity: each carries a number that no other one has, so
that "the same binding" means more than "an equal binding".
-/

namespace NativeLink

/-- How an activity ended. -/
inductive Outcome (α : Type) where
  | returned (a : α)
  | panicked (cause : Panic)
  /-- It never ends. -/
  | stuck
  deriving DecidableEq

namespace Outcome

/-- The outcome with its value changed. -/
def map {α β : Type} (f : α → β) : Outcome α → Outcome β
  | returned a => returned (f a)
  | panicked cause => panicked cause
  | stuck => stuck

end Outcome

/-- An activity in the world: its outcome, the events it tells, and the world it leaves. -/
abbrev Reaction (σ α : Type) : Type := σ → Outcome α × List Event × σ

/-- What a callable does with arguments. -/
abbrev Callable (σ : Type) : Type := List Value → Reaction σ (Except TransportError Value)

/-- A name bound to a callable. -/
structure Binding (σ : Type) where
  /-- The number that tells this binding from all others. -/
  id : Nat
  name : String
  /-- The signature the name was first resolved with. -/
  signature : Signature
  /-- The text of the signature, kept for quick comparison. -/
  canonical : String
  callable : Callable σ

namespace Binding

variable {σ : Type}

/-- A binding of `name`; its canonical text is that of its signature. -/
def make (id : Nat) (name : String) (signature : Signature) (callable : Callable σ) : Binding σ :=
  ⟨id, name, signature, signature.text, callable⟩

/-- The number of arguments. -/
def arity (b : Binding σ) : Nat := b.signature.arity

/-- Whether a text denotes the signature of the binding.  The canonical text does so without
being read. -/
def isBoundWith (b : Binding σ) (requested : String) : Bool :=
  requested == b.canonical ||
    match Signature.parse requested with
    | .ok signature => signature == b.signature
    | .error _ => false

/-- The warning that goes with a request for the name under another signature. -/
def conflict (b : Binding σ) (requested : String) : List Event :=
  if b.isBoundWith requested then [] else [.conflict b.name b.signature requested]

/-- The callable does not show in an inspection. -/
def inspect (b : Binding σ) : Inspect :=
  .record "SymbolBinding"
    [("name", .quoted b.name), ("signature", .quoted b.signature.text)] true

end Binding

end NativeLink
