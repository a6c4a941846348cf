import NativeLink.Client

/-!
# Crossings

A crossing is one call across the border to native code, in one of the four forms it can take: as it
is, through an invoker, or as one of the operations, which choose the arguments and read the result.
Crossings put the four forms side by side, so that what holds of calls can be said of all of them
and of lists in which they alternate.

Invokers have no state, and a copy of an invoker is the same invoker.  Whatever a callable remembers
from one call to the next is in the world.
-/

namespace NativeLink

variable {σ : Type}

/-- An activity with its value changed. -/
def Reaction.map {α β : Type} (f : α → β) (reaction : Reaction σ α) : Reaction σ β := fun world =>
  let (outcome, events, world) := reaction world
  (outcome.map f, events, world)

theorem Reaction.map_eq {α β : Type} {f : α → β} {reaction : Reaction σ α} {outcome : Outcome α}
    {events : List Event} {world left : σ} (h : reaction world = (outcome, events, left)) :
    Reaction.map f reaction world = (outcome.map f, events, left) := by
  rw [Reaction.map, h]

/-- A call through an invoker or an operation, with what it is given. -/
inductive Crossing (σ : Type) where
  | invoke {n : Nat} (invoker : Invoker σ n) (args : Vector Value n)
  | nullPointer (invoker : Invoker σ 0)
  | cast (invoker : Invoker σ 4) (object source target : Address) (hint : UInt64)
  | free (invoker : Invoker σ 1) (address : Address)

namespace Crossing

/-- The binding that is called. -/
def binding : Crossing σ → Binding σ
  | invoke invoker _ => invoker.binding
  | nullPointer invoker => invoker.binding
  | cast invoker _ _ _ _ => invoker.binding
  | free invoker _ => invoker.binding

/-- The arguments that arrive at the callable. -/
def args : Crossing σ → List Value
  | invoke _ args => args.toList
  | nullPointer _ => []
  | cast _ object source target hint =>
    [.pointer object, .pointer source, .pointer target, .uint64 hint]
  | free _ address => [.pointer address]

/-- Makes the call. -/
def make : Crossing σ → Reaction σ Result
  | invoke invoker args => Reaction.map .value (invoker.invoke args)
  | nullPointer invoker => Reaction.map .value invoker.nullPointer
  | cast invoker object source target hint =>
    Reaction.map .address (invoker.cast object source target hint)
  | free invoker address => Reaction.map (fun _ => .done) (invoker.free address)

/-- Makes calls one after the other.  Whatever one of them ends with, the next finds the world as it
was left. -/
def makeAll : List (Crossing σ) → σ → List (Outcome Result) × List Event × σ
  | [], world => ([], [], world)
  | x :: rest, world =>
    let (outcome, events, world) := x.make world
    let (outcomes, later, world) := makeAll rest world
    (outcome :: outcomes, events ++ later, world)

end Crossing

/-! ## Callables under watch -/

/-- The calls that were made: the numbers of the bindings, with the arguments. -/
abbrev Journal : Type := List (Nat × List Value)

/-- The binding with a callable that notes each of its calls. -/
def Binding.watched (b : Binding σ) : Binding (σ × Journal) where
  id := b.id
  name := b.name
  signature := b.signature
  canonical := b.canonical
  callable args := fun (world, journal) =>
    let (reply, events, world) := b.callable args world
    (reply, events, world, journal ++ [(b.id, args)])

def Invoker.watched {n : Nat} (invoker : Invoker σ n) : Invoker (σ × Journal) n :=
  ⟨invoker.binding.watched, invoker.arity_eq⟩

def Crossing.watched : Crossing σ → Crossing (σ × Journal)
  | invoke invoker args => invoke invoker.watched args
  | nullPointer invoker => nullPointer invoker.watched
  | cast invoker object source target hint => cast invoker.watched object source target hint
  | free invoker address => free invoker.watched address

/-! ## Crossings of a client -/

/-- The call of an operation with numbers for its arguments. -/
def Made.crossing (m : Made σ) (numbers : List UInt64) : Crossing σ :=
  let number (i : Nat) : UInt64 := numbers.getD i 0
  match m with
  | ⟨.nullPointer, invoker⟩ => .nullPointer invoker
  | ⟨.dynamicCast, invoker⟩ => .cast invoker ⟨number 0⟩ ⟨number 1⟩ ⟨number 2⟩ (number 3)
  | ⟨.freeException, invoker⟩ => .free invoker ⟨number 0⟩

/-- Whether a command only uses what has been handed out: it makes or copies an operation, or calls
one or an invoker. -/
def Command.uses : Command σ → Bool
  | .make _ _ => true
  | .copy _ => true
  | .run _ _ => true
  | .invoke _ _ _ => true
  | _ => false

/-- What the client is told of the result of a crossing. -/
def Crossing.respond : Crossing σ → Result → Response σ
  | .invoke invoker _, .value value =>
    .invoked invoker.symbol value invoker.binding.name
  | _, result => .result result

/-- The crossing that a command makes, if it makes one. -/
def Client.crossing? (c : Client σ) : Command σ → Option (Crossing σ)
  | .run operation numbers => (c.operations[operation]?).map (·.crossing numbers)
  | .invoke binding n args =>
    (c.bindings[binding]?).bind fun b =>
      if h : b.arity = n ∧ args.toArray.size = n then
        some (.invoke ⟨b, h.1⟩ ⟨args.toArray, h.2⟩)
      else none
  | _ => none

end NativeLink
