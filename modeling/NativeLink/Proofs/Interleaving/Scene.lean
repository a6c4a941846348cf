import Mathlib.Algebra.Order.Group.Multiset
import NativeLink.Proofs.Interleaving.Moves

/-!
# Scenes

Most of what a state says does not matter for the cache: which thread a request
belongs to, what lies below it on that thread, how far its plan has come.  A
`Scene` keeps what does matter, namely the table, the history, and for each request
in flight its name and its `Phase`.  The requests in flight are a multiset, so there
are no threads any more, and requests come and go one by one.

* `Scene.Step` lists what can happen in a scene, each with its effect on the table.
* `scene_of_step?`: a step of a thread is such a step of the scene, or does not show.
* `Scene.Reaches` and `Scene.Reaches.invariant`: what every step keeps holds in the
  scene of every state that is reached.

A statement about all interleavings is proved by looking at the twelve kinds of step.
-/

namespace NativeLink

namespace Interleaving

variable {σ : Type}

/-- A stage without the plan. -/
inductive Phase (σ : Type) where
  | entering
  /-- It holds the slot and has neither found it bound nor begun. -/
  | seeking (slot : Nat)
  | opening (slot : Nat)
  | running (slot : Nat) (signature : Signature)
  | failing (slot : Nat) (error : ResolveError)
  | leaving (slot : Nat) (outcome : Outcome (Answer σ))

/-- The phase of a stage. -/
def Stage.phase : Stage σ → Phase σ
  | entering => .entering
  | reading slot => .seeking slot
  | waiting slot => .seeking slot
  | opening slot => .opening slot
  | running slot signature _ => .running slot signature
  | failing slot error => .failing slot error
  | leaving slot outcome => .leaving slot outcome

namespace Phase

/-- The slot a request holds. -/
def slot? : Phase σ → Option Nat
  | entering => none
  | seeking slot => some slot
  | opening slot => some slot
  | running slot _ => some slot
  | failing slot _ => some slot
  | leaving slot _ => some slot

/-- The slot of a request that is not done with it. -/
def seat? : Phase σ → Option Nat
  | entering => none
  | seeking slot => some slot
  | opening slot => some slot
  | running slot _ => some slot
  | failing slot _ => some slot
  | leaving _ _ => none

/-- The slot of a request that has begun and not ended. -/
def work? : Phase σ → Option Nat
  | entering => none
  | seeking _ => none
  | opening slot => some slot
  | running slot _ => some slot
  | failing _ _ => none
  | leaving _ _ => none

theorem slot?_of_seat? {p : Phase σ} {i : Nat} (h : p.seat? = some i) : p.slot? = some i := by
  cases p <;> simp_all [seat?, slot?]

theorem seat?_of_work? {p : Phase σ} {i : Nat} (h : p.work? = some i) : p.seat? = some i := by
  cases p <;> simp_all [seat?, work?]

end Phase

/-- What is kept of a request in flight. -/
structure Outline (σ : Type) where
  ticket : Nat
  name : String
  text : String
  phase : Phase σ

/-- The outline of a request in flight. -/
def Call.outline (call : Call σ) : Outline σ :=
  ⟨call.ticket, call.request.name, call.request.text, call.stage.phase⟩

/-- The outlines of requests. -/
def outlines (calls : List (Call σ)) : Multiset (Outline σ) := ↑(calls.map Call.outline)

/-- What was delivered to a request does not show in its outline. -/
@[simp] theorem outlines_deliver (outcome : Outcome (Answer σ)) (below : List (Call σ)) :
    outlines (deliver outcome below) = outlines below := by
  cases below with
  | nil => rfl
  | cons call below =>
    obtain ⟨ticket, request, stage⟩ := call
    cases stage <;> rfl

/-- The requests in flight on some threads. -/
def inFlight (threads : List (Thread σ)) : Multiset (Outline σ) :=
  ↑(threads.flatMap fun thread => thread.calls.map Call.outline)

theorem mem_inFlight {threads : List (Thread σ)} {o : Outline σ} :
    o ∈ inFlight threads ↔ ∃ thread ∈ threads, ∃ call ∈ thread.calls, call.outline = o := by
  simp [inFlight]

theorem mem_of_eq_cons {α : Type} {s rest : Multiset α} {a : α} (h : s = a ::ₘ rest) : a ∈ s := by
  rw [h]
  exact Multiset.mem_cons_self a rest

/-- A thread contributes what it has, whatever the others have. -/
theorem flatMap_set {α β : Type} {threads : List α} {i : Nat} {thread : α}
    (h : threads[i]? = some thread) (f : α → List β) :
    ∃ others : Multiset β, (threads.flatMap f : Multiset β) = f thread + others ∧
      ∀ changed : α, ((threads.set i changed).flatMap f : Multiset β) = f changed + others := by
  obtain ⟨hi, rfl⟩ := List.getElem?_eq_some_iff.mp h
  refine ⟨(threads.take i).flatMap f + (threads.drop (i + 1)).flatMap f, ?_, fun changed => ?_⟩
  · have hsplit : threads = threads.take i ++ threads[i] :: threads.drop (i + 1) := by simp
    conv_lhs => rw [hsplit]
    simp only [List.flatMap_append, List.flatMap_cons, ← Multiset.coe_add]
    exact add_left_comm _ _ _
  · rw [List.set_eq_take_append_cons_drop, if_pos hi]
    simp only [List.flatMap_append, List.flatMap_cons, ← Multiset.coe_add]
    exact add_left_comm _ _ _

theorem inFlight_set {threads : List (Thread σ)} {i : Nat} {thread : Thread σ}
    (h : threads[i]? = some thread) :
    ∃ others : Multiset (Outline σ), inFlight threads = outlines thread.calls + others ∧
      ∀ changed : Thread σ, inFlight (threads.set i changed) = outlines changed.calls + others :=
  flatMap_set h fun thread => thread.calls.map Call.outline

/-! ## Scenes and their steps -/

/-- A state as the cache sees it. -/
structure Scene (σ : Type) where
  table : Table σ
  fresh : Nat
  tickets : Nat
  flight : Multiset (Outline σ)
  history : List (Moment σ)

/-- The scene of a state. -/
def State.scene (s : State σ) : Scene σ :=
  ⟨s.table, s.fresh, s.tickets, inFlight s.threads, s.history⟩

namespace Scene

/-- What can happen in a scene. -/
inductive Step (x : Scene σ) : Scene σ → Prop where
  | ask (name text : String) :
    Step x { x with
      tickets := x.tickets + 1
      flight := ⟨x.tickets, name, text, .entering⟩ ::ₘ x.flight
      history := .asked x.tickets name text :: x.history }
  | enter {o : Outline σ} {rest : Multiset (Outline σ)} (flight : x.flight = o ::ₘ rest)
    (phase : o.phase = .entering) :
    Step x { x with
      table := (x.table.acquire o.name).2
      flight := { o with phase := .seeking (x.table.acquire o.name).1 } ::ₘ rest }
  | hit {o : Outline σ} {rest : Multiset (Outline σ)} {slot : Nat} {binding : Binding σ}
    (flight : x.flight = o ::ₘ rest) (phase : o.phase = .seeking slot)
    (cell : x.table.cell slot = .bound binding) :
    Step x { x with
      flight := { o with phase := .leaving slot (.returned (.ok binding)) } ::ₘ rest
      history := ((binding.conflict o.text).map (.told o.ticket)).reverse ++ x.history }
  | begin {o : Outline σ} {rest : Multiset (Outline σ)} {slot : Nat}
    (flight : x.flight = o ::ₘ rest) (phase : o.phase = .seeking slot)
    (cell : x.table.cell slot = .empty) :
    Step x { x with
      table := x.table.setCell slot .busy
      flight := { o with phase := .opening slot } ::ₘ rest
      history := .began o.ticket o.name :: x.history }
  | accept {o : Outline σ} {rest : Multiset (Outline σ)} {slot : Nat} {signature : Signature}
    (flight : x.flight = o ::ₘ rest) (phase : o.phase = .opening slot)
    (text : Signature.parse o.text = .ok signature) :
    Step x { x with
      flight := { o with phase := .running slot signature } ::ₘ rest
      history := .resolved o.ticket o.name signature ::
        .told o.ticket (.resolving o.name signature) :: x.history }
  | reject {o : Outline σ} {rest : Multiset (Outline σ)} {slot : Nat} {error : ResolveError}
    (flight : x.flight = o ::ₘ rest) (phase : o.phase = .opening slot)
    (text : Signature.parse o.text = .error error) :
    Step x { x with
      table := x.table.setCell slot .empty
      flight := { o with phase := .failing slot error } ::ₘ rest
      history := .ended o.ticket o.name (.returned (.error error)) :: x.history }
  | bind {o : Outline σ} {rest : Multiset (Outline σ)} {slot : Nat} {signature : Signature}
    (callable : Callable σ) (flight : x.flight = o ::ₘ rest)
    (phase : o.phase = .running slot signature) :
    Step x { x with
      table := x.table.setCell slot (.bound (.make x.fresh o.name signature callable))
      fresh := x.fresh + 1
      flight := { o with
        phase := .leaving slot (.returned (.ok (.make x.fresh o.name signature callable))) } ::ₘ rest
      history := .ended o.ticket o.name
        (.returned (.ok (.make x.fresh o.name signature callable))) :: x.history }
  | refuse {o : Outline σ} {rest : Multiset (Outline σ)} {slot : Nat} {signature : Signature}
    (error : ResolveError) (flight : x.flight = o ::ₘ rest)
    (phase : o.phase = .running slot signature) :
    Step x { x with
      table := x.table.setCell slot .empty
      flight := { o with phase := .failing slot error } ::ₘ rest
      history := .ended o.ticket o.name (.returned (.error error)) :: x.history }
  | panic {o : Outline σ} {rest : Multiset (Outline σ)} {slot : Nat} {signature : Signature}
    (cause : Panic) (flight : x.flight = o ::ₘ rest) (phase : o.phase = .running slot signature) :
    Step x { x with
      table := x.table.setCell slot .empty
      flight := { o with phase := .leaving slot (.panicked cause) } ::ₘ rest
      history := .ended o.ticket o.name (.panicked cause) :: x.history }
  | tell (ticket : Nat) (event : Event) :
    Step x { x with history := .told ticket event :: x.history }
  | discard {o : Outline σ} {rest : Multiset (Outline σ)} {slot : Nat} {error : ResolveError}
    (flight : x.flight = o ::ₘ rest) (phase : o.phase = .failing slot error) :
    Step x { x with
      table := x.table.discardUnbound o.name slot
      flight := { o with phase := .leaving slot (.returned (.error error)) } ::ₘ rest
      history := .discarded o.ticket o.name (x.table.holders slot - 1) :: x.history }
  | leave {o : Outline σ} {rest : Multiset (Outline σ)} {slot : Nat}
    {outcome : Outcome (Answer σ)} (flight : x.flight = o ::ₘ rest)
    (phase : o.phase = .leaving slot outcome) :
    Step x { x with
      table := x.table.release slot
      flight := rest
      history := .answered o.ticket o.name outcome :: x.history }

/-- Scenes that a scene can come to. -/
inductive Reaches : Scene σ → Scene σ → Prop where
  | refl (x : Scene σ) : Reaches x x
  | tail {x y z : Scene σ} : Reaches x y → Step y z → Reaches x z

/-- What every step keeps is kept for ever. -/
theorem Reaches.invariant {P : Scene σ → Prop} (step : ∀ {x y}, Step x y → P x → P y)
    {x y : Scene σ} (h : Reaches x y) (hx : P x) : P y := by
  induction h with
  | refl => exact hx
  | tail _ hstep ih => exact step hstep ih

/-- The scene before the first step. -/
def start : Scene σ := ⟨.empty, 0, 0, 0, []⟩

end Scene

@[simp] theorem scene_start (world : σ) (threads : List (List (Request σ))) :
    (State.start world threads).scene = .start := by
  simp [State.scene, State.start, Scene.start, inFlight, List.flatMap_map]

/-! ## Steps of threads are steps of scenes -/

/-- A request that goes on to its next stage makes a step of the scene, or only its plan goes on. -/
theorem scene_of_shift {s : State σ} {call : Call σ} {stage : Stage σ} {c : Change σ}
    {rest : Multiset (Outline σ)} (h : Shift s call stage c)
    (hflight : inFlight s.threads = call.outline ::ₘ rest) {y : Scene σ}
    (hy : y = ⟨c.table, c.fresh, s.tickets, { call.outline with phase := stage.phase } ::ₘ rest,
      c.moments.reverse ++ s.history⟩) : y = s.scene ∨ Scene.Step s.scene y := by
  have phase : ∀ {old : Stage σ}, call.stage = old → call.outline.phase = old.phase := by
    intro old hold
    rw [← hold]
    rfl
  -- a request that stays in its phase does not change the requests in flight
  have quiet : ∀ {new : Stage σ}, new.phase = call.stage.phase →
      ({ call.outline with phase := new.phase } : Outline σ) ::ₘ rest = inFlight s.threads := by
    intro new hnew
    rw [hflight, hnew]
    rfl
  subst hy
  cases h with
  | enter stage => exact .inr (.enter hflight (phase stage))
  | miss stage =>
    rw [quiet (by rw [stage]; rfl)]
    exact .inl rfl
  | hit stage cell =>
    refine .inr (.hit hflight ?_ cell)
    rcases stage with stage | stage <;> exact phase stage
  | begin stage cell => exact .inr (.begin hflight (phase stage) cell)
  | accept stage text => exact .inr (.accept hflight (phase stage) text)
  | reject stage text => exact .inr (.reject hflight (phase stage) text)
  | bind stage => exact .inr (.bind _ hflight (phase stage))
  | refuse stage => exact .inr (.refuse _ hflight (phase stage))
  | panic stage => exact .inr (.panic _ hflight (phase stage))
  | tell stage =>
    rw [quiet (by rw [stage]; rfl)]
    exact .inr (.tell _ _)
  | step stage =>
    rw [quiet (by rw [stage]; rfl)]
    exact .inl rfl
  | look stage =>
    rw [quiet (by rw [stage]; rfl)]
    exact .inl rfl
  | discard stage => exact .inr (.discard hflight (phase stage))

/-- A new request on top of a thread shows as one more request in flight. -/
theorem scene_enter {s : State σ} {i : Nat} {calls : List (Call σ)} {old todo : List (Request σ)}
    (thread : s.threads[i]? = some ⟨calls, old⟩) (request : Request σ) :
    Scene.Step s.scene (s.enter i calls todo request).scene := by
  obtain ⟨others, hs, hset⟩ := inFlight_set thread
  have hflight : inFlight (s.enter i calls todo request).threads =
      ⟨s.tickets, request.name, request.text, .entering⟩ ::ₘ inFlight s.threads := by
    rw [hs, ← Multiset.cons_add]
    exact hset _
  have hscene : (s.enter i calls todo request).scene =
      { s.scene with
        tickets := s.tickets + 1
        flight := ⟨s.tickets, request.name, request.text, .entering⟩ ::ₘ inFlight s.threads
        history := .asked s.tickets request.name request.text :: s.history } := by
    rw [← hflight]
    rfl
  rw [hscene]
  exact .ask _ _

/-- **A step of a thread is a step of the scene**, or does not show in it. -/
theorem scene_of_step? {s t : State σ} {i : Nat} (h : step? s i = some t) :
    t.scene = s.scene ∨ Scene.Step s.scene t.scene := by
  cases move_of_step? h with
  | start thread => exact .inr (scene_enter thread _)
  | nest thread stage => exact .inr (scene_enter thread _)
  | @shift call below todo stage change thread shift =>
    obtain ⟨others, hs, hset⟩ := inFlight_set thread
    have hflight : inFlight s.threads = call.outline ::ₘ (outlines below + others) := by
      rw [hs, ← Multiset.cons_add]
      rfl
    refine scene_of_shift shift hflight ?_
    rw [← Multiset.cons_add]
    exact congrArg (fun flight => Scene.mk _ _ _ flight _) (hset _)
  | @leave call below todo slot outcome thread stage =>
    obtain ⟨others, hs, hset⟩ := inFlight_set thread
    have hflight : s.scene.flight = call.outline ::ₘ (outlines below + others) := by
      rw [← Multiset.cons_add]
      exact hs
    have hphase : call.outline.phase = .leaving slot outcome := by
      rw [Call.outline, stage]
      rfl
    have hrest := hset ⟨deliver outcome below, todo⟩
    rw [outlines_deliver] at hrest
    have hstep := Scene.Step.leave hflight hphase
    rw [← hrest] at hstep
    exact .inr hstep

/-- **The scene of a state that is reached is reached in the same way.** -/
theorem scene_reaches {s t : State σ} (h : Reaches s t) : Scene.Reaches s.scene t.scene := by
  induction h with
  | refl => exact .refl _
  | tail _ hstep ih =>
    rcases scene_of_step? hstep with hsame | hscene
    · rw [hsame]
      exact ih
    · exact ih.tail hscene

end Interleaving

end NativeLink
