import NativeLink.Cache.Plan
import NativeLink.Cache.Table

/-!
# Requests on one thread

A request for a name answers the binding of the name.  The first request resolves
the name; every later one answers the same binding, whatever signature it comes
with, and warns if that signature is another one.  A failed resolution leaves the
name unbound, so that it may be tried again.

A request runs through these steps.

1. It holds the slot of the name.  If the slot is bound, that is the answer.
2. It marks the slot busy and reads the text of the signature.
3. It runs the resolver.  If that gives a callable, the slot becomes bound.
4. After an error the slot is emptied and, if nobody else holds it, taken out of
   the table.  After a panic it is only emptied.

A slot that is busy already belongs to an enclosing request of the same thread,
which cannot go on before this one has ended: such a request is stuck.
-/

namespace NativeLink

/-- A cache at work: its table, the world, the number of bindings made so far, and the log. -/
structure Session (σ : Type) where
  table : Table σ
  world : σ
  fresh : Nat
  log : List Event

/-- Something done in a session. -/
abbrev Act (σ α : Type) : Type := Session σ → Outcome α × Session σ

/-- One thing done after another, unless the first does not return. -/
def Act.andThen {σ α β : Type} (act : Act σ α) (next : α → Act σ β) : Act σ β := fun s =>
  match act s with
  | (.returned a, s) => next a s
  | (.panicked cause, s) => (.panicked cause, s)
  | (.stuck, s) => (.stuck, s)

namespace Session

variable {σ : Type}

/-- A new cache in a world. -/
def start (world : σ) : Session σ := ⟨.empty, world, 0, []⟩

/-- The session after some events. -/
def tell (s : Session σ) (events : List Event) : Session σ := { s with log := s.log ++ events }

/-- The session with another table. -/
def withTable (s : Session σ) (table : Table σ) : Session σ := { s with table := table }

/-- A request for `name` under the signature `text`, to be resolved by `resolve`. -/
def request (name text : String)
    (resolve : Signature → Act σ (Except ResolveError (Callable σ))) : Act σ (Answer σ) := fun s =>
  let (i, table) := s.table.acquire name
  match table.cell i with
  | .bound binding =>
    (.returned (.ok binding), (s.withTable (table.release i)).tell (binding.conflict text))
  | .busy => (.stuck, s.withTable table)
  | .empty =>
    match Signature.parse text with
    | .error error =>
      (.returned (.error error),
        s.withTable (((table.setCell i .empty).discardUnbound name i).release i))
    | .ok signature =>
      match resolve signature
        ((s.withTable (table.setCell i .busy)).tell [.resolving name signature]) with
      | (.returned (.ok callable), s) =>
        let binding := Binding.make s.fresh name signature callable
        (.returned (.ok binding),
          { s with
            table := (s.table.setCell i (.bound binding)).release i
            fresh := s.fresh + 1 })
      | (.returned (.error error), s) =>
        (.returned (.error error),
          s.withTable (((s.table.setCell i .empty).discardUnbound name i).release i))
      | (.panicked cause, s) =>
        (.panicked cause, s.withTable ((s.table.setCell i .empty).release i))
      | (.stuck, s) => (.stuck, s)

end Session

namespace Plan

variable {σ : Type}

/-- Runs a plan to its end. -/
def run : Plan σ → Act σ (Except ResolveError (Callable σ))
  | .answer result => fun s => (.returned result, s)
  | .panic cause => fun s => (.panicked cause, s)
  | .stuck => fun s => (.stuck, s)
  | .tell event next => fun s => next.run (s.tell [event])
  | .step change next => fun s => (next s.world).run { s with world := change s.world }
  | .look name next => fun s => (next (s.table.get? name)).run s
  | .request name text work next =>
    (Session.request name text fun signature => (work signature).run).andThen fun given =>
      (next given).run

end Plan

end NativeLink
