import NativeLink.Cache.Contest
import NativeLink.Proofs.Interleaving.Accounts
import NativeLink.Proofs.Interleaving.Plays

/-!
# The course of a contest

All requests of a contest are alike.  Their plans ask the resolver once and answer what
that decides (`Fits`), so there are few things such a request can do: its text is read
or refused, it consults the resolver, and it ends as the resolver decided.  `Turn` lists
them; in all other steps no plan runs before or after, and nothing is counted.

`Fair` keeps the books that do not depend on how the resolver decides.  The resolver is
asked once for each time it is given a signature (`runs`), and each time is told of once,
and nothing else is (`events`): whoever finds a name bound finds it bound with the text
it asked for itself, so there is no conflict to tell of.
-/

namespace NativeLink

open Interleaving

/-- Whether the resolver was given a signature, for a name that is counted. -/
def Interleaving.Moment.isResolved {σ : Type} (counted : String → Bool) : Moment σ → Bool
  | resolved _ name _ => counted name
  | _ => false

/-- A moment that is counted nowhere. -/
def Interleaving.Moment.isQuiet {σ : Type} : Moment σ → Bool
  | began _ _ => true
  | discarded _ _ _ => true
  | _ => false

namespace Contest

variable {c : Contest} {v : Verdicts} {s t : State Asked}

/-- The number of threads that ask for a name. -/
def share (c : Contest) (name : String) : Nat :=
  (List.range c.threads).countP fun i => c.name? i = some name

/-- Whether a plan is running. -/
def isRunning : Stage Asked → Bool
  | .running _ _ _ => true
  | _ => false

/-- Whether a plan is about to consult the resolver. -/
def isAsking : Stage Asked → Bool
  | .running _ _ (.step _ _) => true
  | _ => false

/-- A request of the contest, at a stage that it can come to. -/
structure Fits (c : Contest) (v : Verdicts) (call : Call Asked) : Prop where
  request : call.request = c.request v call.request.name
  plan : ∀ slot signature rest, call.stage = .running slot signature rest →
    Signature.parse c.text = .ok signature ∧
      (rest = resolver v c.failures call.request.name signature ∨ ∃ result, rest = .answer result)
  ends : ∀ slot outcome, call.stage = .leaving slot outcome → ∃ answer, outcome = .returned answer

theorem Fits.text {call : Call Asked} (h : Fits c v call) : call.request.text = c.text := by
  rw [h.request]
  rfl

/-- What a request of the contest does when it goes on to another stage. -/
inductive Turn (c : Contest) (v : Verdicts) (s : State Asked) (call : Call Asked)
    (stage : Stage Asked) (change : Change Asked) : Prop where
  /-- No plan runs before or after. -/
  | quiet (old : isRunning call.stage = false) (new : isRunning stage = false)
    (world : change.world = s.world) (moments : ∀ m ∈ change.moments, m.isQuiet)
  | accept {slot : Nat} {signature : Signature} (old : isRunning call.stage = false)
    (text : Signature.parse c.text = .ok signature)
    (new : stage = .running slot signature (resolver v c.failures call.request.name signature))
    (world : change.world = s.world)
    (moments : change.moments = [.told call.ticket (.resolving call.request.name signature),
      .resolved call.ticket call.request.name signature])
  | reject {error : ResolveError} (old : isRunning call.stage = false)
    (text : Signature.parse c.text = .error error) (new : isRunning stage = false)
    (world : change.world = s.world)
    (moments : change.moments = [.ended call.ticket call.request.name (.returned (.error error))])
  | consult {slot : Nat} {signature : Signature}
    (old : call.stage = .running slot signature
      (resolver v c.failures call.request.name signature))
    (new : stage = .running slot signature (.answer
      (v.verdict c.failures call.request.name (s.world.count call.request.name))))
    (world : change.world = call.request.name :: s.world) (moments : change.moments = [])
  | refuse {slot : Nat} {signature : Signature} {error : ResolveError}
    (old : call.stage = .running slot signature (.answer (.error error)))
    (new : isRunning stage = false) (world : change.world = s.world)
    (moments : change.moments = [.ended call.ticket call.request.name (.returned (.error error))])
  | bind {slot : Nat} {signature : Signature} {callable : Callable Asked} {binding : Binding Asked}
    (old : call.stage = .running slot signature (.answer (.ok callable)))
    (new : isRunning stage = false) (world : change.world = s.world)
    (moments : change.moments = [.ended call.ticket call.request.name (.returned (.ok binding))])

/-- **A request of the contest takes turns**, provided that the bindings it finds do not conflict
with the text of the contest. -/
theorem turn_of_shift {call : Call Asked} {stage : Stage Asked} {change : Change Asked}
    (h : Shift s call stage change) (hfits : Fits c v call)
    (hagree : ∀ slot binding, call.stage.phase.seat? = some slot →
      s.table.cell slot = .bound binding → binding.conflict c.text = []) :
    Turn c v s call stage change := by
  cases h with
  | enter stage =>
    refine .quiet (by rw [stage]; rfl) rfl rfl (by simp [State.altered])
  | miss stage => exact .quiet (by rw [stage]; rfl) rfl rfl (by simp [State.still])
  | @hit slot binding stage cell =>
    have hseat : call.stage.phase.seat? = some slot := by
      rcases stage with stage | stage <;> rw [stage] <;> rfl
    have hold : isRunning call.stage = false := by
      rcases stage with stage | stage <;> rw [stage] <;> rfl
    refine .quiet hold rfl rfl ?_
    rw [hfits.text, hagree slot binding hseat cell]
    simp [State.still]
  | begin stage cell =>
    exact .quiet (by rw [stage]; rfl) rfl rfl (by simp [State.altered, Moment.isQuiet])
  | @accept slot signature stage text =>
    rw [hfits.text] at text
    have hplan : call.request.work signature =
        resolver v c.failures call.request.name signature := by
      rw [hfits.request]
      rfl
    exact .accept (by rw [stage]; rfl) text (by rw [hplan]) rfl rfl
  | reject stage text =>
    rw [hfits.text] at text
    exact .reject (by rw [stage]; rfl) text rfl rfl rfl
  | bind stage => exact .bind stage rfl rfl rfl
  | refuse stage => exact .refuse stage rfl rfl rfl
  | panic stage =>
    obtain ⟨-, hrest | ⟨result, hrest⟩⟩ := hfits.plan _ _ _ stage <;> cases hrest
  | tell stage =>
    obtain ⟨-, hrest | ⟨result, hrest⟩⟩ := hfits.plan _ _ _ stage <;> cases hrest
  | @step slot signature act next stage =>
    obtain ⟨-, hrest | ⟨result, hrest⟩⟩ := hfits.plan _ _ _ stage
    · cases hrest
      exact .consult stage rfl rfl rfl
    · cases hrest
  | look stage =>
    obtain ⟨-, hrest | ⟨result, hrest⟩⟩ := hfits.plan _ _ _ stage <;> cases hrest
  | discard stage =>
    exact .quiet (by rw [stage]; rfl) rfl rfl (by simp [State.altered, Moment.isQuiet])

/-- **A request of the contest stays one.** -/
theorem Fits.shift {call : Call Asked} {stage : Stage Asked} {change : Change Asked}
    (hfits : Fits c v call) (h : Shift s call stage change) :
    Fits c v { call with stage := stage } := by
  -- where no plan runs afterwards, only the answer matters
  have hidle : ∀ {new : Stage Asked}, isRunning new = false →
      (∀ slot outcome, new = .leaving slot outcome → ∃ answer, outcome = .returned answer) →
      Fits c v { call with stage := new } := by
    intro new hnew hends
    refine ⟨hfits.request, fun slot signature rest hstage => ?_, hends⟩
    change new = _ at hstage
    rw [hstage] at hnew
    cases hnew
  cases h with
  | accept stage text =>
    refine ⟨hfits.request, fun i signature rest hrest => ?_, by simp⟩
    cases hrest
    rw [hfits.text] at text
    refine ⟨text, .inl ?_⟩
    rw [hfits.request]
    rfl
  | bind stage => exact hidle rfl fun i outcome houtcome => by cases houtcome; exact ⟨_, rfl⟩
  | hit stage cell => exact hidle rfl fun i outcome houtcome => by cases houtcome; exact ⟨_, rfl⟩
  | discard stage => exact hidle rfl fun i outcome houtcome => by cases houtcome; exact ⟨_, rfl⟩
  | panic stage =>
    obtain ⟨-, hrest | ⟨result, hrest⟩⟩ := hfits.plan _ _ _ stage <;> cases hrest
  | tell stage =>
    obtain ⟨-, hrest | ⟨result, hrest⟩⟩ := hfits.plan _ _ _ stage <;> cases hrest
  | step stage =>
    obtain ⟨htext, hplan | ⟨result, hplan⟩⟩ := hfits.plan _ _ _ stage
    · cases hplan
      refine ⟨hfits.request, fun i signature rest hrest => ?_, by simp⟩
      cases hrest
      exact ⟨htext, .inr ⟨_, rfl⟩⟩
    · cases hplan
  | look stage =>
    obtain ⟨-, hrest | ⟨result, hrest⟩⟩ := hfits.plan _ _ _ stage <;> cases hrest
  | _ => exact hidle rfl (by simp)

/-! ## The books -/

/-- The requests that are about to consult the resolver, for names that are counted. -/
def asking (counted : String → Bool) (calls : Multiset (Call Asked)) : Nat :=
  calls.countP fun call => counted call.request.name && isAsking call.stage

theorem asking_cons (counted : String → Bool) (call : Call Asked) (rest : Multiset (Call Asked)) :
    asking counted (call ::ₘ rest) = asking counted rest +
      if counted call.request.name && isAsking call.stage then 1 else 0 :=
  Multiset.countP_cons _ _ _

/-- What holds of the requests of a contest, made or not, and of what is counted of them. -/
structure Fair (c : Contest) (v : Verdicts) (s : State Asked) : Prop where
  pending : ∀ request ∈ s.pending, request = c.request v request.name
  calls : ∀ call ∈ s.calls, Fits c v call
  texts : ∀ k name text, .asked k name text ∈ s.history → text = c.text
  asks : ∀ name, s.pending.countP (·.name = name) + s.history.countP (Moment.isAsked name) =
    c.share name
  returns : ∀ name, s.history.countP (Moment.isAnswered name) = (answers name s.history).length
  runs : ∀ counted, s.history.countP (Moment.isResolved counted) =
    s.world.countP counted + asking counted s.calls
  events : s.history.countP isEvent = s.history.countP (Moment.isResolved fun _ => true)

/-- In a contest nobody finds a conflict. -/
theorem Fair.agree (h : Fair c v s) (hs : s.scene.Sound) (hr : s.scene.Recorded)
    {call : Call Asked} (hcall : call ∈ s.calls) {slot : Nat} {binding : Binding Asked}
    (hseat : call.stage.phase.seat? = some slot) (hcell : s.table.cell slot = .bound binding) :
    binding.conflict c.text = [] := by
  have hflight : call.outline ∈ s.scene.flight := by
    rw [flight_eq_map]
    exact Multiset.mem_map_of_mem _ hcall
  have hget : s.table.get? call.request.name = some binding :=
    Table.get?_eq_some_iff.mpr ⟨slot, hs.seated _ hflight slot hseat, hcell⟩
  obtain ⟨-, -, k, text, hasked, -, hparse⟩ := hr.made _ binding hget
  rw [h.texts k _ text hasked] at hparse
  simp [Binding.conflict, Binding.isBoundWith, hparse]

theorem pending_start (c : Contest) (v : Verdicts) : (c.start v).pending =
    (((List.range c.threads).filterMap c.name?).map (c.request v) : List (Request Asked)) := by
  rw [List.filterMap_eq_flatMap_toList, List.map_flatMap]
  simp [State.pending, start, State.start, List.flatMap_map]

theorem calls_start (c : Contest) (v : Verdicts) : (c.start v).calls = 0 := by
  simp [State.calls, start, State.start, List.flatMap_map]

theorem fair_start (c : Contest) (v : Verdicts) : Fair c v (c.start v) := by
  have hhistory : (c.start v).history = [] := rfl
  have hworld : (c.start v).world = [] := rfl
  refine ⟨?_, ?_, ?_, fun name => ?_, fun name => ?_, fun counted => ?_, ?_⟩
  · intro request hrequest
    rw [pending_start, Multiset.mem_coe] at hrequest
    obtain ⟨name, -, rfl⟩ := List.mem_map.mp hrequest
    rfl
  · simp [calls_start]
  · simp [hhistory]
  · rw [pending_start, hhistory, Multiset.coe_countP, List.countP_map, List.countP_filterMap, share]
    refine List.countP_congr fun i _ => ?_
    cases c.name? i with
    | none => simp
    | some other =>
      rw [decide_eq_true_iff, Option.some.injEq]
      exact decide_eq_true_iff
  · simp [hhistory, answers]
  · simp [hhistory, hworld, calls_start, asking]
  · simp [hhistory]

theorem isAsking_of_idle {stage : Stage Asked} (h : isRunning stage = false) :
    isAsking stage = false := by
  cases stage <;> first | rfl | cases h

/-- Nobody asks and nobody is answered while a request goes on. -/
theorem Turn.moments {call : Call Asked} {stage : Stage Asked} {change : Change Asked}
    (h : Turn c v s call stage change) (m : Moment Asked) (hm : m ∈ change.moments) :
    (∀ name, m.isAsked name = false) ∧ ∀ name, m.isAnswered name = false ∧ answer? name m = none := by
  cases h with
  | quiet old new world moments =>
    have hquiet := moments m hm
    cases m <;> first | exact ⟨fun _ => rfl, fun _ => ⟨rfl, rfl⟩⟩ | cases hquiet
  | accept old text new world moments =>
    rw [moments] at hm
    rcases List.mem_pair.mp hm with rfl | rfl <;> exact ⟨fun _ => rfl, fun _ => ⟨rfl, rfl⟩⟩
  | consult old new world moments =>
    rw [moments] at hm
    cases hm
  | reject old text new world moments =>
    rw [moments] at hm
    rw [List.mem_singleton.mp hm]
    exact ⟨fun _ => rfl, fun _ => ⟨rfl, rfl⟩⟩
  | refuse old new world moments =>
    rw [moments] at hm
    rw [List.mem_singleton.mp hm]
    exact ⟨fun _ => rfl, fun _ => ⟨rfl, rfl⟩⟩
  | bind old new world moments =>
    rw [moments] at hm
    rw [List.mem_singleton.mp hm]
    exact ⟨fun _ => rfl, fun _ => ⟨rfl, rfl⟩⟩

/-- **A request consults the resolver once**: it is about to when it was given a signature, and
not any more when it was asked. -/
theorem Turn.runs {call : Call Asked} {stage : Stage Asked} {change : Change Asked}
    (h : Turn c v s call stage change) {rest : Multiset (Call Asked)} {counted : String → Bool}
    (hx : s.history.countP (Moment.isResolved counted) =
      s.world.countP counted + asking counted (call ::ₘ rest)) :
    (change.moments.reverse ++ s.history).countP (Moment.isResolved counted) =
      change.world.countP counted + asking counted ({ call with stage := stage } ::ₘ rest) := by
  rw [asking_cons] at hx
  rw [asking_cons]
  cases h with
  | quiet old new world moments =>
    rw [countP_reverse_append, world, hx, isAsking_of_idle old, isAsking_of_idle new]
    intro m hm
    have hquiet := moments m hm
    cases m <;> first | rfl | cases hquiet
  | accept old text new world moments =>
    rw [isAsking_of_idle old] at hx
    rw [moments, world, new]
    by_cases hcounted : counted call.request.name <;>
      simp [Moment.isResolved, isAsking, resolver, hcounted] at hx ⊢ <;> omega
  | reject old text new world moments =>
    rw [moments, world, isAsking_of_idle new]
    rw [isAsking_of_idle old] at hx
    simpa [Moment.isResolved] using hx
  | consult old new world moments =>
    rw [old] at hx
    rw [moments, world, new]
    by_cases hcounted : counted call.request.name <;>
      simp [isAsking, resolver, hcounted] at hx ⊢ <;> omega
  | refuse old new world moments =>
    rw [moments, world, isAsking_of_idle new]
    rw [old] at hx
    simpa [Moment.isResolved, isAsking] using hx
  | bind old new world moments =>
    rw [moments, world, isAsking_of_idle new]
    rw [old] at hx
    simpa [Moment.isResolved, isAsking] using hx

/-- **What is told of is that the resolver is given a signature**, and nothing else. -/
theorem Turn.events {call : Call Asked} {stage : Stage Asked} {change : Change Asked}
    (h : Turn c v s call stage change)
    (hx : s.history.countP isEvent = s.history.countP (Moment.isResolved fun _ => true)) :
    (change.moments.reverse ++ s.history).countP isEvent =
      (change.moments.reverse ++ s.history).countP (Moment.isResolved fun _ => true) := by
  rw [List.countP_append, List.countP_append, hx]
  congr 1
  cases h with
  | quiet old new world moments =>
    refine List.countP_congr fun m hm => ?_
    have hquiet := moments m (List.mem_reverse.mp hm)
    cases m <;> first | rfl | cases hquiet
  | accept old text new world moments => rw [moments]; rfl
  | reject old text new world moments => rw [moments]; rfl
  | consult old new world moments => rw [moments]; rfl
  | refuse old new world moments => rw [moments]; rfl
  | bind old new world moments => rw [moments]; rfl

/-- **Every step keeps the books.** -/
theorem Fair.step (h : Play s t) (hs : s.scene.Sound) (hr : s.scene.Recorded) (hx : Fair c v s) :
    Fair c v t := by
  cases h with
  | @ask request pending calls world history =>
    have hrequest : request = c.request v request.name :=
      hx.pending request (mem_of_eq_cons pending)
    have htext : request.text = c.text := by
      rw [hrequest]
      rfl
    refine ⟨fun q hq => hx.pending q (by rw [pending]; exact Multiset.mem_cons_of_mem hq), ?_, ?_,
      fun name => ?_, fun name => ?_, fun counted => ?_, ?_⟩
    · rw [calls, Multiset.forall_mem_cons]
      exact ⟨⟨hrequest, by simp, by simp⟩, hx.calls⟩
    · intro k name text hm
      rw [history] at hm
      rcases List.mem_cons.mp hm with hm | hm
      · cases hm
        exact htext
      · exact hx.texts k name text hm
    · have hasks := hx.asks name
      rw [pending, Multiset.countP_cons] at hasks
      rw [history, List.countP_cons, ← hasks]
      simp only [Moment.isAsked, beq_iff_eq]
      omega
    · rw [history, List.countP_cons, hx.returns name]
      rfl
    · rw [history, world, calls, asking_cons, List.countP_cons, hx.runs counted]
      simp [Moment.isResolved, isAsking]
    · rw [history, List.countP_cons, List.countP_cons, hx.events]
      rfl
  | @go call rest stage change pending calls next shift world history =>
    have hcall : call ∈ s.calls := mem_of_eq_cons calls
    have hfits := hx.calls call hcall
    have hturn : Turn c v s call stage change := turn_of_shift shift hfits
      fun slot binding hseat hcell => hx.agree hs hr hcall hseat hcell
    refine ⟨fun q hq => hx.pending q (by rw [pending]; exact hq), ?_, ?_, fun name => ?_,
      fun name => ?_, fun counted => ?_, ?_⟩
    · have hcalls := hx.calls
      rw [calls, Multiset.forall_mem_cons] at hcalls
      rw [next, Multiset.forall_mem_cons]
      exact ⟨hfits.shift shift, hcalls.2⟩
    · intro k name text hm
      rw [history] at hm
      rcases List.mem_append.mp hm with hm | hm
      · have hnot := (hturn.moments _ (List.mem_reverse.mp hm)).1 name
        simp [Moment.isAsked] at hnot
      · exact hx.texts k name text hm
    · rw [← pending, history, countP_reverse_append fun m hm => (hturn.moments m hm).1 name]
      exact hx.asks name
    · rw [history, answers,
        countP_reverse_append fun m hm => ((hturn.moments m hm).2 name).1,
        filterMap_reverse_append fun m hm => ((hturn.moments m hm).2 name).2]
      exact hx.returns name
    · rw [history, world, next]
      refine hturn.runs ?_
      rw [← calls]
      exact hx.runs counted
    · rw [history]
      exact hturn.events hx.events
  | @leave call slot outcome pending calls stage world history =>
    have hcalls := hx.calls
    rw [calls, Multiset.forall_mem_cons] at hcalls
    obtain ⟨answer, rfl⟩ := hcalls.1.ends slot outcome stage
    refine ⟨fun q hq => hx.pending q (by rw [pending]; exact hq), hcalls.2, ?_, fun name => ?_,
      fun name => ?_, fun counted => ?_, ?_⟩
    · intro k name text hm
      rw [history] at hm
      exact hx.texts k name text ((List.mem_cons.mp hm).resolve_left (by simp))
    · rw [← pending, history, List.countP_cons]
      exact hx.asks name
    · rw [history, answers, List.countP_cons, List.filterMap_cons, hx.returns name, ← answers]
      by_cases hname : call.request.name = name <;> simp [Moment.isAnswered, answer?, hname]
    · have hruns := hx.runs counted
      rw [calls, asking_cons, stage] at hruns
      rw [history, world, List.countP_cons]
      simpa [isAsking, Moment.isResolved] using hruns
    · rw [history, List.countP_cons, List.countP_cons, hx.events]
      rfl

end Contest

end NativeLink
