import NativeLink.Cache.Visits
import NativeLink.Invoker

/-!
# Resolvers that take notes

A session says what is bound, not how often a resolver was asked for it.  To see that, a
resolver is made to take notes.  Its world is the world as it was together with a list, and
to that list it adds a note whenever it is asked for a name and whenever it answers.  The
notes are steps of its plans like any other, so they are made when the cache runs those
plans, once for each time it does.

Nothing ever looks at the notes.  A resolver that takes them therefore does what the
resolver does: every plan, every callable and every binding has its counterpart in the
larger world, and `Proofs.Session.Notes` shows that runs agree and what is noted.
-/

namespace NativeLink

/-- A world, and what was noted in it so far. -/
abbrev Noted (σ : Type) : Type := σ × List Visit

variable {σ : Type}

/-- Adds a note. -/
def note (visit : Visit) : Noted σ → Noted σ := fun w => (w.1, w.2 ++ [visit])

/-- Whether a visit is noted: the resolver is asked, or has answered.  Only the cache knows of the
other visits, and a panic or a run without an end passes the resolver by. -/
def Visit.isNoted : Visit → Bool
  | asked _ _ => true
  | answered _ (.returned _) => true
  | _ => false

/-- The callable in the larger world. -/
def Callable.noted (callable : Callable σ) : Callable (Noted σ) := fun args w =>
  let (outcome, events, world) := callable args w.1
  (outcome, events, world, w.2)

/-- What a callable of the larger world does if nothing has been noted. -/
def Callable.plain (callable : Callable (Noted σ)) : Callable σ := fun args world =>
  let (outcome, events, w) := callable args (world, [])
  (outcome, events, w.1)

@[simp] theorem Callable.plain_noted (callable : Callable σ) : callable.noted.plain = callable :=
  rfl

/-- The binding in the larger world. -/
def Binding.noted (b : Binding σ) : Binding (Noted σ) :=
  ⟨b.id, b.name, b.signature, b.canonical, b.callable.noted⟩

/-- The binding that a binding of the larger world stands for. -/
def Binding.plain (b : Binding (Noted σ)) : Binding σ :=
  ⟨b.id, b.name, b.signature, b.canonical, b.callable.plain⟩

@[simp] theorem Binding.plain_noted (b : Binding σ) : b.noted.plain = b := rfl

@[simp] theorem Binding.conflict_noted (b : Binding σ) (text : String) :
    b.noted.conflict text = b.conflict text := rfl

/-- The invoker in the larger world. -/
def Invoker.noted {n : Nat} (invoker : Invoker σ n) : Invoker (Noted σ) n :=
  ⟨invoker.binding.noted, invoker.arity_eq⟩

/-- The plan of a resolver of `own` that takes notes.  It notes its answer, and what it asks the
cache for notes for itself. -/
def Plan.noted : String → Plan σ → Plan (Noted σ)
  | own, .answer result =>
    .step (note (.answered own (.returned (result.map fun _ => ())))) fun _ =>
      .answer (result.map Callable.noted)
  | _, .panic cause => .panic cause
  | _, .stuck => .stuck
  | own, .tell event next => .tell event (next.noted own)
  | own, .step change next => .step (fun w => (change w.1, w.2)) fun w => (next w.1).noted own
  | own, .look name next => .look name fun found => (next (found.map Binding.plain)).noted own
  | own, .request name text work next =>
    .request name text
      (fun signature => .step (note (.asked name signature)) fun _ => (work signature).noted name)
      fun answer => (next (answer.map Binding.plain)).noted own

/-- The resolver, taking notes. -/
def Resolver.noted (resolver : Resolver σ) : Resolver (Noted σ) := fun name signature =>
  .step (note (.asked name signature)) fun _ => (resolver name signature).noted name

/-- The cell in the larger world. -/
def Cell.noted : Cell σ → Cell (Noted σ)
  | empty => .empty
  | busy => .busy
  | bound binding => .bound binding.noted

/-- The slot in the larger world. -/
def Slot.noted (slot : Slot σ) : Slot (Noted σ) := ⟨slot.cell.noted, slot.holders⟩

/-- The table in the larger world. -/
def Table.noted (t : Table σ) : Table (Noted σ) := ⟨t.index, t.slots.map Slot.noted⟩

/-- The session in the larger world, with these notes. -/
def Session.noted (s : Session σ) (notes : List Visit) : Session (Noted σ) :=
  ⟨s.table.noted, (s.world, notes), s.fresh, s.log⟩

/-- What is noted when something is done with a resolver that takes notes. -/
def Act.notes {α : Type} (act : Act (Noted σ) α) (s : Session σ) : List Visit :=
  (act (s.noted [])).2.world.2

end NativeLink
