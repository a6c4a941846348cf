import Mathlib.Logic.Relation
import NativeLink.Cache.Trail
import NativeLink.Context
import NativeLink.Proofs.Session.Course

/-!
# The life of a context

A context lives from its making, when nothing is bound in it, through calls that come one
after the other: names are bound, operations are made, support is probed.  Each call may
meet a resolver that answers differently from all before.  Between two calls things happen
elsewhere: routines and operations are called, other contexts are worked in, routines are
registered.  That may change the world as it likes, but not the table of the context.

Resolvers may call the context they work for.  So a life has moments within calls as well,
at which the resolvers of some names are at work, and there it goes on in the same way.
`Session.Alive names s` says that `s` is a moment of a life with the resolvers of `names` at
work; between two calls there are none.  `Session.Later s t` says that `t` comes after `s`,
with calls done in between or come to their ends, and `Session.Onward` adds the moments
within the calls that are made later.  Calls that never end have nothing after them.

The visits of a call are those of its requests, one request after the other, as long as the
call goes on.
-/

namespace NativeLink

variable {σ : Type}

/-- The operations in the order in which a probe makes them. -/
def Operation.inTurn : List Operation := [.nullPointer, .dynamicCast, .freeException]

namespace Resolver

variable (resolver : Resolver σ)

/-- The visits when an operation is made. -/
def constructVisits (o : Operation) : Session σ → List Visit :=
  resolver.visits o.symbol o.signature.text

/-- The visits of a probe. -/
def probeVisits : Session σ → List Visit :=
  (Session.attempt resolver .nullPointer).visitsThen (resolver.constructVisits .nullPointer)
    fun _ =>
  (Session.attempt resolver .dynamicCast).visitsThen (resolver.constructVisits .dynamicCast)
    fun _ =>
  resolver.constructVisits .freeException

end Resolver

namespace Session

/-- The moments within a call that binds a name, when resolvers are at work. -/
def pointsWithin (resolver : Resolver σ) (name text : String) : Session σ → List (Session σ) :=
  points name text fun signature => (resolver name signature).points

/-- One call on a context, or something that happened elsewhere. -/
inductive Step : Session σ → Session σ → Prop where
  | resolve {resolver : Resolver σ} {name text : String} {s u : Session σ}
    {outcome : Outcome (Answer σ)} (call : resolve resolver name text s = (outcome, u))
    (ended : outcome ≠ .stuck) : Step s u
  | construct {resolver : Resolver σ} {o : Operation} {s u : Session σ}
    {outcome : Outcome (Except ResolveError (Invoker σ o.arity))}
    (call : construct resolver o s = (outcome, u)) (ended : outcome ≠ .stuck) : Step s u
  | probe {resolver : Resolver σ} {s u : Session σ} {outcome : Outcome Support}
    (call : probe resolver s = (outcome, u)) (ended : outcome ≠ .stuck) : Step s u
  | elsewhere {s u : Session σ} (table : u.table = s.table) : Step s u

/-- A moment in the life of a context, with the resolvers of these names at work, the innermost
first. -/
inductive Alive : List String → Session σ → Prop where
  | start (world : σ) : Alive [] (.start world)
  | step {names : List String} {s u : Session σ} (rest : Alive names s) (step : Step s u) :
    Alive names u
  /-- A resolver begins its work. -/
  | enter {names : List String} {name text : String} {signature : Signature} {s : Session σ}
    (rest : Alive names s) (empty : s.table.cellOf name = .empty)
    (parsed : Signature.parse text = .ok signature) :
    Alive (name :: names) (s.begun name signature)

/-- At the first moment some call is at work, which has come to its end at the second. -/
inductive Ends : Session σ → Session σ → Prop where
  | resolve {resolver : Resolver σ} {name text : String} {names : List String}
    {s p u : Session σ} {outcome : Outcome (Answer σ)} (alive : Alive names s)
    (point : p ∈ pointsWithin resolver name text s)
    (call : Session.resolve resolver name text s = (outcome, u)) (ended : outcome ≠ .stuck) :
    Ends p u

/-- The second moment comes later in the life of a context, or is the same. -/
def Later : Session σ → Session σ → Prop :=
  Relation.ReflTransGen fun s t => Step s t ∨ Ends s t

/-- The second moment comes later, or lies within a call that begins later. -/
def Onward (s t : Session σ) : Prop :=
  ∃ r, Later s r ∧ (t = r ∨ ∃ (resolver : Resolver σ) (name text : String),
    t ∈ pointsWithin resolver name text r)

/-- The session in which a probe comes to an operation; `Operation.inTurn` is the order. -/
def turn (resolver : Resolver σ) (s : Session σ) : Operation → Session σ
  | .nullPointer => s
  | .dynamicCast => (construct resolver .nullPointer s).2
  | .freeException =>
    (construct resolver .dynamicCast (construct resolver .nullPointer s).2).2

end Session

end NativeLink
