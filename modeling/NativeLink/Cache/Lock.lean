import NativeLink.Cache.Interleaving

/-!
# The lock of the table

An interleaving takes a section under the lock of the table as one step, so that in it
nobody is ever seen holding the lock.  Here the lock is seen: a thread whose next step
is made under the lock first takes it, which it can do only while it is free, and gives
it back with that step.  All other steps are made without the lock.

There are three such sections.  A request looks its slot up, it takes its slot out after
an error, and a plan looks a name up.

* `reaches_state`: whatever happens here happens in an interleaving.
* `reaches_of_interleaving`: every interleaving happens here, each step under the lock
  right after the lock was taken.

So the two have the same runs, and differ in when a thread can be held up.
-/

namespace NativeLink

namespace Interleaving

variable {σ : Type}

/-- Whether the next step of a request at this stage is made under the lock. -/
def Stage.needsLock : Stage σ → Bool
  | entering => true
  | failing _ _ => true
  | running _ _ (.look _ _) => true
  | _ => false

/-- Whether the next step of thread `i` is made under the lock. -/
def State.needsLock (s : State σ) (i : Nat) : Bool :=
  match s.threads[i]? with
  | some ⟨call :: _, _⟩ => call.stage.needsLock
  | _ => false

/-- Threads at work on one cache, and the thread that holds the lock of its table. -/
structure Locked (σ : Type) where
  state : State σ
  owner : Option Nat

namespace Locked

/-- One step of thread `i`, if it can make one. -/
def step? (g : Locked σ) (i : Nat) : Option (Locked σ) :=
  if g.state.needsLock i then
    match g.owner with
    | none => some { g with owner := some i }
    | some j => if j = i then (Interleaving.step? g.state i).map (⟨·, none⟩) else none
  else (Interleaving.step? g.state i).map (⟨·, g.owner⟩)

/-- What can be reached, whatever thread makes each step. -/
inductive Reaches : Locked σ → Locked σ → Prop where
  | refl (g : Locked σ) : Reaches g g
  | tail {g h k : Locked σ} {i : Nat} : Reaches g h → step? h i = some k → Reaches g k

/-- A step takes the lock, or it is a step of the interleaving. -/
theorem step?_state {g h : Locked σ} {i : Nat} (hstep : g.step? i = some h) :
    (g.state.needsLock i ∧ g.owner = none ∧ h = ⟨g.state, some i⟩) ∨
      Interleaving.step? g.state i = some h.state ∧
        ((g.state.needsLock i ∧ g.owner = some i ∧ h.owner = none) ∨
          (g.state.needsLock i = false ∧ h.owner = g.owner)) := by
  unfold step? at hstep
  split at hstep
  · next hneeds =>
    cases howner : g.owner with
    | none =>
      rw [howner] at hstep
      exact .inl ⟨hneeds, rfl, (Option.some.inj hstep).symm⟩
    | some j =>
      simp only [howner] at hstep
      split at hstep
      · next hj =>
        obtain ⟨s, hs, rfl⟩ := Option.map_eq_some_iff.mp hstep
        exact .inr ⟨hs, .inl ⟨hneeds, by rw [hj], rfl⟩⟩
      · cases hstep
  · next hneeds =>
    obtain ⟨s, hs, rfl⟩ := Option.map_eq_some_iff.mp hstep
    exact .inr ⟨hs, .inr ⟨by simpa using hneeds, rfl⟩⟩

/-- **What is reached with the lock is reached in an interleaving.** -/
theorem reaches_state {g h : Locked σ} (hr : Reaches g h) :
    Interleaving.Reaches g.state h.state := by
  induction hr with
  | refl => exact .refl _
  | tail _ hstep ih =>
    rcases step?_state hstep with ⟨-, -, rfl⟩ | ⟨hs, -⟩
    · exact ih
    · exact ih.tail hs

/-- **What is reached in an interleaving is reached with the lock**, and then the lock is free. -/
theorem reaches_of_interleaving {s t : State σ} (hr : Interleaving.Reaches s t) :
    Reaches ⟨s, none⟩ ⟨t, none⟩ := by
  induction hr with
  | refl => exact .refl _
  | @tail t u i _ hstep ih =>
    by_cases hneeds : t.needsLock i
    · have htake : step? ⟨t, none⟩ i = some ⟨t, some i⟩ := by simp [step?, hneeds]
      have hgive : step? ⟨t, some i⟩ i = some ⟨u, none⟩ := by simp [step?, hneeds, hstep]
      exact (ih.tail htake).tail hgive
    · have hfree : step? ⟨t, none⟩ i = some ⟨u, none⟩ := by simp [step?, hneeds, hstep]
      exact ih.tail hfree

end Locked

end Interleaving

end NativeLink
