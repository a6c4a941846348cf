import NativeLink.Cache.Interleaving

/-!
# The moves of a thread

`step?` says how a thread moves by running it.  This file says it the other way
round: if a thread has moved, then one of a few things has happened.

* `Move` is about the thread: it made its first request, or the plan of its topmost
  request made another one, or that request went on to another stage, or it left.
* `Shift` is about a request that goes on to another stage: which stage that is, and
  what else it changes.  This is where the rules of the cache are.

`move_of_step?` opens `step?` for what it does, and `step?_eq_some_iff` says that this
is all.  For what it does not do there is `held_up_of_step?_eq_none`: a thread in the
middle of a request that cannot move waits at a busy cell, or its plan never ends.
-/

namespace NativeLink

namespace Interleaving

variable {σ : Type}

/-- What a request that stays in flight changes, its own stage apart. -/
structure Change (σ : Type) where
  table : Table σ
  world : σ
  fresh : Nat
  /-- In the order they happened. -/
  moments : List (Moment σ)

namespace State

/-- The state after a change. -/
def change (s : State σ) (c : Change σ) : State σ :=
  { s with
    table := c.table
    world := c.world
    fresh := c.fresh
    history := c.moments.reverse ++ s.history }

/-- Nothing changes, though something may happen. -/
def still (s : State σ) (moments : List (Moment σ)) : Change σ :=
  ⟨s.table, s.world, s.fresh, moments⟩

/-- Only the table changes. -/
def altered (s : State σ) (table : Table σ) (moments : List (Moment σ)) : Change σ :=
  ⟨table, s.world, s.fresh, moments⟩

end State

/-- How a request goes on to its next stage. -/
inductive Shift (s : State σ) (call : Call σ) : Stage σ → Change σ → Prop where
  | enter (stage : call.stage = .entering) :
    Shift s call (.reading (s.table.acquire call.request.name).1)
      (s.altered (s.table.acquire call.request.name).2 [])
  | miss {slot : Nat} (stage : call.stage = .reading slot)
    (cell : (s.table.cell slot).binding? = none) :
    Shift s call (.waiting slot) (s.still [])
  /-- The cell is bound: that is the answer. -/
  | hit {slot : Nat} {binding : Binding σ}
    (stage : call.stage = .reading slot ∨ call.stage = .waiting slot)
    (cell : s.table.cell slot = .bound binding) :
    Shift s call (.leaving slot (.returned (.ok binding)))
      (s.still ((binding.conflict call.request.text).map (.told call.ticket)))
  | begin {slot : Nat} (stage : call.stage = .waiting slot) (cell : s.table.cell slot = .empty) :
    Shift s call (.opening slot)
      (s.altered (s.table.setCell slot .busy) [.began call.ticket call.request.name])
  | accept {slot : Nat} {signature : Signature} (stage : call.stage = .opening slot)
    (text : Signature.parse call.request.text = .ok signature) :
    Shift s call (.running slot signature (call.request.work signature))
      (s.still [.told call.ticket (.resolving call.request.name signature),
        .resolved call.ticket call.request.name signature])
  | reject {slot : Nat} {error : ResolveError} (stage : call.stage = .opening slot)
    (text : Signature.parse call.request.text = .error error) :
    Shift s call (.failing slot error)
      (s.altered (s.table.setCell slot .empty)
        [.ended call.ticket call.request.name (.returned (.error error))])
  | bind {slot : Nat} {signature : Signature} {callable : Callable σ}
    (stage : call.stage = .running slot signature (.answer (.ok callable))) :
    Shift s call
      (.leaving slot (.returned (.ok (.make s.fresh call.request.name signature callable))))
      { table := s.table.setCell slot (.bound (.make s.fresh call.request.name signature callable))
        world := s.world
        fresh := s.fresh + 1
        moments := [.ended call.ticket call.request.name
          (.returned (.ok (.make s.fresh call.request.name signature callable)))] }
  | refuse {slot : Nat} {signature : Signature} {error : ResolveError}
    (stage : call.stage = .running slot signature (.answer (.error error))) :
    Shift s call (.failing slot error)
      (s.altered (s.table.setCell slot .empty)
        [.ended call.ticket call.request.name (.returned (.error error))])
  | panic {slot : Nat} {signature : Signature} {cause : Panic}
    (stage : call.stage = .running slot signature (.panic cause)) :
    Shift s call (.leaving slot (.panicked cause))
      (s.altered (s.table.setCell slot .empty)
        [.ended call.ticket call.request.name (.panicked cause)])
  | tell {slot : Nat} {signature : Signature} {event : Event} {next : Plan σ}
    (stage : call.stage = .running slot signature (.tell event next)) :
    Shift s call (.running slot signature next) (s.still [.told call.ticket event])
  | step {slot : Nat} {signature : Signature} {act : σ → σ} {next : σ → Plan σ}
    (stage : call.stage = .running slot signature (.step act next)) :
    Shift s call (.running slot signature (next s.world))
      { table := s.table, world := act s.world, fresh := s.fresh, moments := [] }
  | look {slot : Nat} {signature : Signature} {other : String}
    {next : Option (Binding σ) → Plan σ}
    (stage : call.stage = .running slot signature (.look other next)) :
    Shift s call (.running slot signature (next (s.table.get? other))) (s.still [])
  | discard {slot : Nat} {error : ResolveError} (stage : call.stage = .failing slot error) :
    Shift s call (.leaving slot (.returned (.error error)))
      (s.altered (s.table.discardUnbound call.request.name slot)
        [.discarded call.ticket call.request.name (s.table.holders slot - 1)])

/-- How thread `i` moves. -/
inductive Move (s : State σ) (i : Nat) : State σ → Prop where
  | start {request : Request σ} {todo : List (Request σ)}
    (thread : s.threads[i]? = some ⟨[], request :: todo⟩) : Move s i (s.enter i [] todo request)
  /-- The plan of the topmost request makes a request. -/
  | nest {call : Call σ} {below : List (Call σ)} {todo : List (Request σ)} {slot : Nat}
    {signature : Signature} {name text : String} {work : Signature → Plan σ}
    {next : Answer σ → Plan σ} (thread : s.threads[i]? = some ⟨call :: below, todo⟩)
    (stage : call.stage = .running slot signature (.request name text work next)) :
    Move s i (s.enter i (call :: below) todo ⟨name, text, work⟩)
  | shift {call : Call σ} {below : List (Call σ)} {todo : List (Request σ)} {stage : Stage σ}
    {change : Change σ} (thread : s.threads[i]? = some ⟨call :: below, todo⟩)
    (shift : Shift s call stage change) :
    Move s i ((s.change change).setThread i ⟨{ call with stage := stage } :: below, todo⟩)
  | leave {call : Call σ} {below : List (Call σ)} {todo : List (Request σ)} {slot : Nat}
    {outcome : Outcome (Answer σ)} (thread : s.threads[i]? = some ⟨call :: below, todo⟩)
    (stage : call.stage = .leaving slot outcome) :
    Move s i ((s.change (s.altered (s.table.release slot)
      [.answered call.ticket call.request.name outcome])).setThread i ⟨deliver outcome below, todo⟩)

/-- What a step of the topmost request does to its thread. -/
theorem move_of_advance {s t : State σ} {i : Nat} {call : Call σ} {below : List (Call σ)}
    {todo : List (Request σ)} (thread : s.threads[i]? = some ⟨call :: below, todo⟩)
    (h : advance s i call below todo = some t) : Move s i t := by
  -- one case for each stage, and within a running plan one for each kind of node
  unfold advance at h
  dsimp only at h
  split at h
  · next stage =>
    rw [← Option.some.inj h]
    exact .shift thread (.enter stage)
  · next slot stage =>
    split at h
    · next binding hb =>
      have cell : s.table.cell slot = .bound binding := by
        cases hc : s.table.cell slot <;> simp_all [Cell.binding?]
      rw [← Option.some.inj h]
      exact .shift thread (.hit (.inl stage) cell)
    · next cell =>
      rw [← Option.some.inj h]
      exact .shift thread (.miss stage cell)
  · next slot stage =>
    split at h
    · cases h
    · next binding cell =>
      rw [← Option.some.inj h]
      exact .shift thread (.hit (.inr stage) cell)
    · next cell =>
      rw [← Option.some.inj h]
      exact .shift thread (.begin stage cell)
  · next slot stage =>
    split at h
    · next error text =>
      rw [← Option.some.inj h]
      exact .shift thread (.reject stage text)
    · next signature text =>
      rw [← Option.some.inj h]
      exact .shift thread (.accept stage text)
  · next slot signature rest stage =>
    cases rest with
    | answer result =>
      cases result with
      | ok callable =>
        rw [← Option.some.inj h]
        exact .shift thread (.bind stage)
      | error error =>
        rw [← Option.some.inj h]
        exact .shift thread (.refuse stage)
    | panic cause =>
      rw [← Option.some.inj h]
      exact .shift thread (.panic stage)
    | stuck => cases h
    | tell event next =>
      rw [← Option.some.inj h]
      exact .shift thread (.tell stage)
    | step act next =>
      rw [← Option.some.inj h]
      exact .shift thread (.step stage)
    | look other next =>
      rw [← Option.some.inj h]
      exact .shift thread (.look stage)
    | request name text work next =>
      rw [← Option.some.inj h]
      exact .nest thread stage
  · next slot error stage =>
    rw [← Option.some.inj h]
    exact .shift thread (.discard stage)
  · next slot outcome stage =>
    rw [← Option.some.inj h]
    exact .leave thread stage

/-- **A step of a thread is one of its moves.** -/
theorem move_of_step? {s t : State σ} {i : Nat} (h : step? s i = some t) : Move s i t := by
  unfold step? at h
  split at h
  · cases h
  · cases h
  · next request todo thread =>
    rw [← Option.some.inj h]
    exact .start thread
  · next call below todo thread => exact move_of_advance thread h

/-- A request that can go on to another stage does so with the next step of its thread. -/
theorem step?_of_shift {s : State σ} {i : Nat} {call : Call σ} {below : List (Call σ)}
    {todo : List (Request σ)} {stage : Stage σ} {c : Change σ}
    (thread : s.threads[i]? = some ⟨call :: below, todo⟩) (h : Shift s call stage c) :
    step? s i = some ((s.change c).setThread i ⟨{ call with stage := stage } :: below, todo⟩) := by
  obtain ⟨k, request, now⟩ := call
  rw [step?, thread]
  cases h with
  | enter stage => cases stage; rfl
  | miss stage cell =>
    cases stage
    simp only [advance, cell]
    rfl
  | hit stage cell =>
    rcases stage with stage | stage <;> cases stage
    · simp only [advance, cell, Cell.binding?]
      rfl
    · simp only [advance, cell]
      rfl
  | begin stage cell =>
    cases stage
    simp only [advance, cell]
    rfl
  | accept stage text =>
    cases stage
    simp only [advance, text]
    rfl
  | reject stage text =>
    cases stage
    simp only [advance, text]
    rfl
  | bind stage => cases stage; rfl
  | refuse stage => cases stage; rfl
  | panic stage => cases stage; rfl
  | tell stage => cases stage; rfl
  | step stage => cases stage; rfl
  | look stage => cases stage; rfl
  | discard stage => cases stage; rfl

/-- **The moves of a thread are its steps.** -/
theorem step?_eq_some_iff {s t : State σ} {i : Nat} : step? s i = some t ↔ Move s i t := by
  refine ⟨move_of_step?, fun h => ?_⟩
  cases h with
  | start thread => rw [step?, thread]
  | @nest call below todo slot signature name text work next thread stage =>
    obtain ⟨k, request, now⟩ := call
    cases stage
    rw [step?, thread]
    rfl
  | shift thread shift => exact step?_of_shift thread shift
  | @leave call below todo slot outcome thread stage =>
    obtain ⟨k, request, now⟩ := call
    cases stage
    rw [step?, thread]
    rfl

/-- **What can hold a thread up**: a busy cell, or a plan that never ends. -/
theorem held_up_of_step?_eq_none {s : State σ} {i : Nat} {call : Call σ} {below : List (Call σ)}
    {todo : List (Request σ)} (thread : s.threads[i]? = some ⟨call :: below, todo⟩)
    (h : step? s i = none) :
    (∃ slot, call.stage = .waiting slot ∧ s.table.cell slot = .busy) ∨
      ∃ slot signature, call.stage = .running slot signature .stuck := by
  simp only [step?, thread] at h
  unfold advance at h
  dsimp only at h
  split at h
  · cases h
  · split at h <;> cases h
  · next slot stage =>
    split at h
    · next cell => exact .inl ⟨slot, stage, cell⟩
    · cases h
    · cases h
  · split at h <;> cases h
  · next slot signature rest stage =>
    cases rest with
    | answer result => cases result <;> cases h
    | stuck => exact .inr ⟨slot, signature, stage⟩
    | _ => cases h
  · cases h
  · cases h

end Interleaving

end NativeLink
