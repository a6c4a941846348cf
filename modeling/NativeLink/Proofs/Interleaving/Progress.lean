import NativeLink.Cache.Lock
import NativeLink.Proofs.Interleaving.Nesting
import NativeLink.Proofs.Interleaving.Soundness

/-!
# Nested requests do not block each other for ever

A thread can be held up in two places: before a section under the lock, while another
thread holds it, and at a busy cell.  Neither lasts.

The lock is held for one step only.  Its owner is about to make that step, and can make
it, for none of the sections waits for anything.

A busy cell is being worked in by another request for the same name (`exists_worker`).
That request is on another thread, and if it is not on top there, what is on top is for
a name below.  So if all threads are held up at busy cells, from each name that is
waited for there is a way down to another one, and the order of names would have to
descend for ever (`not_all_waiting`).

Both halves need the order.  Without it two threads could each wait for the name the
other is resolving.
-/

namespace NativeLink

namespace Interleaving

variable {σ : Type}

/-- A thread has made all its requests. -/
def Thread.Done (thread : Thread σ) : Prop := thread.calls = [] ∧ thread.todo = []

/-- The topmost request of thread `i` waits at slot `slot`, which is busy. -/
def State.WaitsAt (s : State σ) (i : Nat) (call : Call σ) (below : List (Call σ)) (slot : Nat) :
    Prop :=
  (∃ todo, s.threads[i]? = some ⟨call :: below, todo⟩) ∧ call.stage = .waiting slot ∧
    s.table.cell slot = .busy

/-- The request `other`, on thread `j`, is for `name` and works in slot `slot`. -/
def State.WorksIn (s : State σ) (j : Nat) (other : Call σ) (name : String) (slot : Nat) : Prop :=
  (∃ thread, s.threads[j]? = some thread ∧ other ∈ thread.calls) ∧ other.request.name = name ∧
    other.stage.phase.work? = some slot

/-! ## The lock -/

/-- A step of a thread leaves the other threads as they are. -/
theorem threads_of_step? {s t : State σ} {i j : Nat} (h : step? s i = some t) (hj : j ≠ i) :
    t.threads[j]? = s.threads[j]? := by
  have hset : ∀ new : Thread σ, (s.threads.set i new)[j]? = s.threads[j]? := fun new =>
    List.getElem?_set_ne (Ne.symm hj)
  cases move_of_step? h with
  | start thread => exact hset _
  | nest thread stage => exact hset _
  | shift thread shift => exact hset _
  | leave thread stage => exact hset _

theorem needsLock_of_step? {s t : State σ} {i j : Nat} (h : step? s i = some t) (hj : j ≠ i) :
    t.needsLock j = s.needsLock j := by
  unfold State.needsLock
  rw [threads_of_step? h hj]

/-- **No section under the lock waits for anything.** -/
theorem step?_isSome_of_needsLock {s : State σ} {i : Nat} (h : s.needsLock i) :
    ∃ t, step? s i = some t := by
  unfold State.needsLock at h
  split at h
  · next call below todo thread =>
    cases hstep : step? s i with
    | some t => exact ⟨t, rfl⟩
    | none =>
      rcases held_up_of_step?_eq_none thread hstep with ⟨slot, stage, -⟩ | ⟨slot, signature, stage⟩
      · rw [stage] at h
        cases h
      · rw [stage] at h
        cases h
  · cases h

/-- **Whoever holds the lock is about to make the step it is held for.** -/
theorem needsLock_of_owner {g h : Locked σ} (hr : Locked.Reaches g h) (hfree : g.owner = none)
    {i : Nat} (howner : h.owner = some i) : h.state.needsLock i := by
  induction hr generalizing i with
  | refl =>
    rw [hfree] at howner
    cases howner
  | @tail h k j _ hstep ih =>
    rcases Locked.step?_state hstep with ⟨hneeds, -, rfl⟩ | ⟨hs, ⟨-, -, hnone⟩ | ⟨hnot, hsame⟩⟩
    · rw [← Option.some.inj howner]
      exact hneeds
    · rw [hnone] at howner
      cases howner
    · -- the step was made without the lock, so it was not made by the owner
      rw [hsame] at howner
      have hold := ih howner
      have hne : i ≠ j := by
        rintro rfl
        rw [hnot] at hold
        cases hold
      rw [needsLock_of_step? hs hne]
      exact hold

/-- A thread that cannot move waits for the lock, or could not move without it either. -/
theorem held_up_of_locked {g : Locked σ} {i : Nat} (h : g.step? i = none) :
    (g.state.needsLock i ∧ ∃ j, j ≠ i ∧ g.owner = some j) ∨ step? g.state i = none := by
  unfold Locked.step? at h
  split at h
  · next hneeds =>
    obtain ⟨t, ht⟩ := step?_isSome_of_needsLock hneeds
    cases hg : g.owner with
    | none => simp [hg] at h
    | some j =>
      refine .inl ⟨hneeds, j, ?_, rfl⟩
      rintro rfl
      simp [hg, ht] at h
  · exact .inr (Option.map_eq_none_iff.mp h)

/-! ## Busy cells -/

variable {r : String → String → Prop}

/-- A thread with work to do that cannot move waits at a busy cell. -/
theorem waits_of_step?_eq_none {s : State σ} {i : Nat} {thread : Thread σ}
    (hthread : s.threads[i]? = some thread) (hdescends : thread.Descends r)
    (hdone : ¬ thread.Done) (h : step? s i = none) :
    ∃ call below slot, thread.calls = call :: below ∧ s.WaitsAt i call below slot := by
  obtain ⟨calls, todo⟩ := thread
  cases calls with
  | nil =>
    cases todo with
    | nil => exact absurd ⟨rfl, rfl⟩ hdone
    | cons request todo => simp [step?, hthread] at h
  | cons call below =>
    rcases held_up_of_step?_eq_none hthread h with ⟨slot, stage, hbusy⟩ | ⟨slot, signature, stage⟩
    · exact ⟨call, below, slot, rfl, ⟨todo, hthread⟩, stage, hbusy⟩
    · -- a plan that descends is not stuck
      exact absurd ((hdescends.calls call List.mem_cons_self).rest _ _ _ stage) id

/-- **In a busy cell works a request for the name that is waited for**, and it is not on top of a
thread that waits. -/
theorem exists_worker {s : State σ} (hs : s.scene.Sound) {i : Nat} {call : Call σ}
    {below : List (Call σ)} {slot : Nat} (h : s.WaitsAt i call below slot) :
    ∃ j other, s.WorksIn j other call.request.name slot := by
  obtain ⟨⟨todo, hthread⟩, hstage, hbusy⟩ := h
  have hcall : call.outline ∈ s.scene.flight :=
    mem_inFlight.mpr ⟨_, List.mem_of_getElem? hthread, call, List.mem_cons_self, rfl⟩
  have hseat : call.outline.phase.seat? = some slot := by
    rw [Call.outline, hstage]
    rfl
  obtain ⟨o, ho, hwork⟩ := hs.exists_work hbusy
  obtain ⟨thread, hmem, other, hother, rfl⟩ := mem_inFlight.mp ho
  obtain ⟨j, hj⟩ := List.getElem?_of_mem hmem
  -- both are seated in the slot, and a slot has one name
  have hname := hs.wellFormed.apart (hs.seated _ ho slot (Phase.seat?_of_work? hwork))
    (hs.seated _ hcall slot hseat)
  exact ⟨j, other, ⟨thread, hj, hother⟩, hname, hwork⟩

/-- A request that works in a cell under a waiting one was asked for a name above it. -/
theorem transGen_of_worksIn {s : State σ} {j : Nat} {call other : Call σ} {below : List (Call σ)}
    {name : String} {slot i : Nat} (hwaits : s.WaitsAt j call below slot)
    (hdescends : ∀ thread ∈ s.threads, thread.Descends r) (hworks : s.WorksIn j other name i) :
    Relation.TransGen r call.request.name name := by
  obtain ⟨⟨todo, hthread⟩, hstage, -⟩ := hwaits
  obtain ⟨⟨thread, hj, hother⟩, rfl, hwork⟩ := hworks
  rw [hthread] at hj
  cases hj
  rcases List.mem_cons.mp hother with rfl | hbelow
  · rw [hstage] at hwork
    cases hwork
  · exact (hdescends _ (List.mem_of_getElem? hthread)).transGen hbelow

/-- **Not all threads with work to do wait at busy cells**, if the order is well-founded. -/
theorem not_all_waiting {s : State σ} (hwf : WellFounded r) (hs : s.scene.Sound)
    (hdescends : ∀ thread ∈ s.threads, thread.Descends r)
    (hall : ∀ i thread, s.threads[i]? = some thread → ¬ thread.Done →
      ∃ call below slot, thread.calls = call :: below ∧ s.WaitsAt i call below slot)
    (name : String) :
    ∀ i call below slot, call.request.name = name → ¬ s.WaitsAt i call below slot := by
  -- down the names, from one that is waited for to one on top of the thread that resolves it
  induction name using hwf.transGen.induction with
  | _ name ih =>
    rintro i call below slot rfl hwaits
    obtain ⟨j, other, hworks⟩ := exists_worker hs hwaits
    obtain ⟨thread, hj, hother⟩ := hworks.1
    have hdone : ¬ thread.Done := by
      intro hdone
      rw [hdone.1] at hother
      cases hother
    obtain ⟨top, under, at_, -, htop⟩ := hall j thread hj hdone
    exact ih top.request.name (transGen_of_worksIn htop hdescends hworks) j top under at_ rfl htop

/-! ## The result -/

/-- **Some thread can always go on.**  Let plans request only names below the one they resolve, in a
well-founded order.  Then in whatever is reached with some thread not done, some thread can make a
step.  Who holds the lock is at one of the short sections that need it, never in the middle of a
plan; and a thread that cannot move is before such a section while another thread holds the lock,
or waits for a name in whose cell a request for the same name works, on another thread. -/
theorem progress_of_reaches (hwf : WellFounded r) {world : σ} {threads : List (List (Request σ))}
    (hdescends : ∀ requests ∈ threads, ∀ request ∈ requests, request.Descends r) {g : Locked σ}
    (h : Locked.Reaches ⟨.start world threads, none⟩ g) :
    ((∃ thread ∈ g.state.threads, ¬ thread.Done) → ∃ i k, g.step? i = some k) ∧
      (∀ i, g.owner = some i → g.state.needsLock i) ∧
      ∀ i thread, g.state.threads[i]? = some thread → ¬ thread.Done → g.step? i = none →
        (g.state.needsLock i ∧ ∃ j, j ≠ i ∧ g.owner = some j) ∨
          ∃ call below slot j other, thread.calls = call :: below ∧
            g.state.WaitsAt i call below slot ∧ j ≠ i ∧
            g.state.WorksIn j other call.request.name slot := by
  have hreaches := Locked.reaches_state h
  have hsound := sound_of_reaches hreaches
  have hthreads := descends_of_reaches hreaches hdescends
  have howner : ∀ i, g.owner = some i → g.state.needsLock i := fun i hi =>
    needsLock_of_owner h rfl hi
  refine ⟨?_, howner, fun i thread hthread hdone hstep => ?_⟩
  · rintro ⟨thread, hthread, hdone⟩
    by_contra hnone
    have hstuck : ∀ i, g.step? i = none := fun i =>
      Option.eq_none_iff_forall_ne_some.mpr fun k hk => hnone ⟨i, k, hk⟩
    -- nobody holds the lock, for the owner could go on
    have hfree : ∀ i, g.owner ≠ some i := by
      intro i hi
      obtain ⟨t, ht⟩ := step?_isSome_of_needsLock (howner i hi)
      have hi' := hstuck i
      simp [Locked.step?, howner i hi, hi, ht] at hi'
    have hall : ∀ i thread, g.state.threads[i]? = some thread → ¬ thread.Done →
        ∃ call below slot, thread.calls = call :: below ∧ g.state.WaitsAt i call below slot := by
      intro i thread hi hdone
      rcases held_up_of_locked (hstuck i) with ⟨-, j, -, hj⟩ | hnot
      · exact absurd hj (hfree j)
      · exact waits_of_step?_eq_none hi (hthreads thread (List.mem_of_getElem? hi)) hdone hnot
    obtain ⟨i, hi⟩ := List.getElem?_of_mem hthread
    obtain ⟨call, below, slot, -, hwaits⟩ := hall i thread hi hdone
    exact not_all_waiting hwf hsound hthreads hall _ i call below slot rfl hwaits
  · rcases held_up_of_locked hstep with hlock | hnot
    · exact .inl hlock
    · obtain ⟨call, below, slot, hcalls, hwaits⟩ := waits_of_step?_eq_none hthread
        (hthreads thread (List.mem_of_getElem? hthread)) hdone hnot
      obtain ⟨j, other, hworks⟩ := exists_worker hsound hwaits
      refine .inr ⟨call, below, slot, j, other, hcalls, hwaits, ?_, hworks⟩
      rintro rfl
      have hcycle := transGen_of_worksIn hwaits hthreads hworks
      exact hwf.transGen.asymmetric _ _ hcycle hcycle

/-- A request that finds nothing. -/
def inner : Request Unit := ⟨"@f", "():VOID", fun _ => .answer (.error (.symbolNotFound "@f"))⟩

/-- A request whose plan makes the former first. -/
def outer : Request Unit :=
  ⟨"@f.g", "():VOID", fun _ => .request inner.name inner.text inner.work fun _ =>
    .answer (.error (.symbolNotFound "@f.g"))⟩

/-- Thread 1 resolves the name that the plan on thread 0 waits for. -/
def nested : State Unit :=
  follow [1, 1, 1, 1, 0, 0, 0, 0, 0, 0, 0, 0] (.start () [[outer], [inner]])

/-- Thread 0 is held up, and names that get shorter and shorter are a well-founded order. -/
theorem progress_nested :
    WellFounded (fun name other : String => name.length < other.length) ∧
      outer.Descends (fun name other => name.length < other.length) ∧ step? nested 0 = none ∧
      ∃ i k, Locked.step? ⟨nested, none⟩ i = some k := by
  have hwf : WellFounded (fun name other : String => name.length < other.length) :=
    InvImage.wf String.length Nat.lt_wfRel.wf
  have hinner : inner.Descends (fun name other => name.length < other.length) :=
    fun _ => trivial
  have houter : outer.Descends (fun name other => name.length < other.length) :=
    fun _ => ⟨by decide, fun _ => trivial, fun _ => trivial⟩
  refine ⟨hwf, houter, rfl, (progress_of_reaches hwf ?_
    (Locked.reaches_of_interleaving (reaches_follow _ _))).1 ?_⟩
  · rintro requests hrequests request hrequest
    rcases List.mem_pair.mp hrequests with rfl | rfl
    · rw [List.mem_singleton.mp hrequest]
      exact houter
    · rw [List.mem_singleton.mp hrequest]
      exact hinner
  · refine ⟨_, List.mem_of_getElem? (show nested.threads[1]? = some _ from rfl), ?_⟩
    rintro ⟨hcalls, -⟩
    cases hcalls

end Interleaving

end NativeLink
