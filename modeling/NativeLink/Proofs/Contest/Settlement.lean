import Mathlib.Algebra.BigOperators.Group.Multiset.Basic
import NativeLink.Proofs.Contest.Books
import NativeLink.Proofs.Interleaving.Progress

/-!
# How a contest comes out

Whatever the interleaving, a contest ends, for every step takes one of the requests
further and a request has nine steps at most (`rank_lt`).  When no thread can make a
step all requests were answered, since no request waits for ever.

At that point nobody is on the way any more, and the books say how the requests for a
name came out.  If the name is bound, all runs that should fail have failed, and one has
succeeded.  If it is not, every request has had a run of its own and all have failed.
Which of the two it is depends on the number of requests only, so nothing depends on the
interleaving but who is answered what.  `Settled` lists this for one name.

If the text is not a signature, no resolver is ever asked, and all requests are answered
what is wrong with the text (`Barren`).
-/

namespace NativeLink

open Interleaving

/-- The error an answer gives. -/
def Answer.error? {σ : Type} : Answer σ → Option ResolveError
  | .ok _ => none
  | .error error => some error

/-- The binding an answer gives. -/
def Answer.ok? {σ : Type} : Answer σ → Option (Binding σ)
  | .ok binding => some binding
  | .error _ => none

namespace Contest

variable {c : Contest} {v : Verdicts} {s t : State Asked} {name : String}

/-- How the requests for a name came out. -/
structure Settled (c : Contest) (v : Verdicts) (s : State Asked) (name : String) : Prop where
  /-- The resolver ran until it succeeded, or once for each request. -/
  runs : s.history.countP (Moment.isResolved (· == name)) = min (c.share name) (c.failures + 1)
  asked : s.world.count name = min (c.share name) (c.failures + 1)
  /-- Every request was answered. -/
  answered : (answers name s.history).length = c.share name
  /-- The errors are those of the runs that failed. -/
  errors : ((answers name s.history).filterMap Answer.error?).Perm
    ((List.range (min (c.share name) c.failures)).map (v.reason name))
  /-- An error is that of the request's own run. -/
  own : ∀ k error, .answered k name (.returned (.error error)) ∈ s.history →
    .ended k name (.returned (.error error)) ∈ s.history
  /-- All others were answered a binding. -/
  bindings : ((answers name s.history).filterMap Answer.ok?).length =
    c.share name - min (c.share name) c.failures
  /-- It is the same binding. -/
  same : ∀ b ∈ (answers name s.history).filterMap Answer.ok?,
    ∀ b' ∈ (answers name s.history).filterMap Answer.ok?, b = b'
  bound : name ∈ s.table.names ↔ c.failures < c.share name

/-! ## Every contest ends -/

/-- The number of steps a request has to make yet. -/
def weight : Stage Asked → Nat
  | .entering => 8
  | .reading _ => 7
  | .waiting _ => 6
  | .opening _ => 5
  | .running _ _ (.step _ _) => 4
  | .running _ _ _ => 3
  | .failing _ _ => 2
  | .leaving _ _ => 1

/-- The number of steps all requests have to make yet. -/
def rank (s : State Asked) : Nat :=
  9 * s.pending.card + (s.calls.map fun call => weight call.stage).sum

theorem weight_lt {call : Call Asked} {stage : Stage Asked} {change : Change Asked}
    (h : Shift s call stage change) (hfits : Fits c v call) : weight stage < weight call.stage := by
  cases h with
  | enter stage => simp [stage, weight]
  | miss stage => simp [stage, weight]
  | hit stage cell => rcases stage with stage | stage <;> simp [stage, weight]
  | begin stage cell => simp [stage, weight]
  | accept stage text =>
    rw [stage, hfits.request]
    simp [weight, request, resolver]
  | reject stage text => simp [stage, weight]
  | bind stage => simp [stage, weight]
  | refuse stage => simp [stage, weight]
  | panic stage =>
    obtain ⟨-, hrest | ⟨result, hrest⟩⟩ := hfits.plan _ _ _ stage <;> cases hrest
  | tell stage =>
    obtain ⟨-, hrest | ⟨result, hrest⟩⟩ := hfits.plan _ _ _ stage <;> cases hrest
  | step stage =>
    obtain ⟨-, hrest | ⟨result, hrest⟩⟩ := hfits.plan _ _ _ stage
    · cases hrest
      simp [stage, weight]
    · cases hrest
  | look stage =>
    obtain ⟨-, hrest | ⟨result, hrest⟩⟩ := hfits.plan _ _ _ stage <;> cases hrest
  | discard stage => simp [stage, weight]

theorem weight_pos (stage : Stage Asked) : 0 < weight stage := by
  unfold weight
  split <;> omega

/-- **Every step brings the end nearer.** -/
theorem rank_lt (h : Play s t) (hf : Fair c v s) : rank t < rank s := by
  unfold rank
  cases h with
  | ask pending calls world history =>
    rw [pending, calls, Multiset.card_cons, Multiset.map_cons, Multiset.sum_cons]
    simp only [weight]
    omega
  | @go call rest stage change pending calls next shift world history =>
    have hfits := hf.calls call (mem_of_eq_cons calls)
    have hless := weight_lt shift hfits
    rw [pending, calls, next, Multiset.map_cons, Multiset.map_cons, Multiset.sum_cons,
      Multiset.sum_cons]
    simp only
    omega
  | @leave call slot outcome pending calls stage world history =>
    have hpos := weight_pos call.stage
    rw [pending, calls, Multiset.map_cons, Multiset.sum_cons]
    omega

/-! ## What holds in every state of a contest -/

theorem descends_start (c : Contest) (v : Verdicts) :
    ∀ requests ∈ (List.range c.threads).map fun i => (c.name? i).toList.map (c.request v),
      ∀ request ∈ requests, request.Descends fun _ _ => False := by
  rintro requests hrequests request hrequest signature
  obtain ⟨i, -, rfl⟩ := List.mem_map.mp hrequests
  obtain ⟨name, -, rfl⟩ := List.mem_map.mp hrequest
  exact fun _ => trivial

theorem fair_of_reaches (h : Reaches (c.start v) s) : Fair c v s := by
  generalize hstart : c.start v = s₀ at h
  induction h with
  | refl =>
    rw [← hstart]
    exact fair_start c v
  | tail hr hstep ih =>
    subst hstart
    have hplay := play_of_step? hstep (descends_of_reaches hr (descends_start c v))
    exact ih.step hplay (sound_of_reaches hr) (recorded_of_reaches hr)

/-- What every play of the contest keeps holds in every state that is reached. -/
theorem invariant_of_reaches {P : State Asked → Prop} (hstart : P (c.start v))
    (hstep : ∀ s t : State Asked, Play s t → s.scene.Sound → s.scene.Recorded → Fair c v s →
      P s → P t) (h : Reaches (c.start v) s) : P s := by
  generalize hs : c.start v = s₀ at h
  induction h with
  | refl => exact hs ▸ hstart
  | tail hr hst ih =>
    subst hs
    have hplay := play_of_step? hst (descends_of_reaches hr (descends_start c v))
    exact hstep _ _ hplay (sound_of_reaches hr) (recorded_of_reaches hr) (fair_of_reaches hr) ih

theorem books_of_reaches {signature : Signature} (hparse : Signature.parse c.text = .ok signature)
    (h : Reaches (c.start v) s) (name : String) : Books c v name s :=
  invariant_of_reaches (books_start c v name)
    (fun _ _ hplay hs hr hf hx => hx.step hparse hplay hs hr hf) h

/-- **There are only finitely many steps to make.** -/
theorem acc_of_reaches (h : Reaches (c.start v) s) :
    Acc (fun t s => ∃ i, step? s i = some t) s := by
  generalize hn : rank s = n
  induction n using Nat.strong_induction_on generalizing s with
  | _ n ih =>
    refine ⟨_, fun t ⟨i, hstep⟩ => ?_⟩
    have hplay := play_of_step? hstep (descends_of_reaches h (descends_start c v))
    exact ih (rank t) (hn ▸ rank_lt hplay (fair_of_reaches h)) (h.tail hstep) rfl

/-- **Where no thread can go on, all are done.** -/
theorem done_of_final (h : Reaches (c.start v) s) (hfinal : ∀ i, step? s i = none) :
    s.calls = 0 ∧ s.pending = 0 := by
  have hdescends := descends_of_reaches h (descends_start c v)
  have hwf : WellFounded fun _ _ : String => False := ⟨fun _ => ⟨_, fun _ h => h.elim⟩⟩
  have hdone : ∀ thread ∈ s.threads, thread.Done := by
    intro thread hthread
    by_contra hnot
    have hall : ∀ i thread, s.threads[i]? = some thread → ¬ thread.Done →
        ∃ call below slot, thread.calls = call :: below ∧ s.WaitsAt i call below slot :=
      fun i thread hi hnot => waits_of_step?_eq_none hi
        (hdescends thread (List.mem_of_getElem? hi)) hnot (hfinal i)
    obtain ⟨i, hi⟩ := List.getElem?_of_mem hthread
    obtain ⟨call, below, slot, -, hwaits⟩ := hall i thread hi hnot
    exact not_all_waiting hwf (sound_of_reaches h) hdescends hall _ i call below slot rfl hwaits
  refine ⟨?_, ?_⟩
  · refine Multiset.coe_eq_zero _ |>.mpr (List.flatMap_eq_nil_iff.mpr fun thread hthread => ?_)
    exact (hdone thread hthread).1
  · refine Multiset.coe_eq_zero _ |>.mpr (List.flatMap_eq_nil_iff.mpr fun thread hthread => ?_)
    exact (hdone thread hthread).2

/-! ## Answers, errors and bindings -/

/-- An answer is an error or a binding. -/
theorem length_answers (given : List (Answer Asked)) :
    given.length =
      (given.filterMap Answer.error?).length + (given.filterMap Answer.ok?).length := by
  induction given with
  | nil => rfl
  | cons answer given ih =>
    cases answer <;> simp only [List.filterMap_cons, Answer.error?, Answer.ok?, List.length_cons] <;>
      omega

/-- The errors among the answers are those that are counted for all histories. -/
theorem filterMap_error?_answers (name : String) (history : List (Moment Asked)) :
    (answers name history).filterMap Answer.error? = refused name history := by
  rw [answers, refused, List.filterMap_filterMap]
  refine List.filterMap_congr fun m _ => ?_
  cases m with
  | answered k other outcome =>
    cases outcome with
    | returned answer =>
      by_cases hname : other = name <;> cases answer <;>
        simp [answer?, Moment.refusal?, hname, Answer.error?]
    | panicked cause => rfl
    | stuck => rfl
  | _ => rfl

/-- An answer was given to somebody. -/
theorem mem_answers {answer : Answer Asked} {history : List (Moment Asked)} :
    answer ∈ answers name history ↔ ∃ k, .answered k name (.returned answer) ∈ history := by
  rw [answers, List.mem_filterMap]
  constructor
  · rintro ⟨m, hm, hanswer⟩
    cases m with
    | answered k other outcome =>
      cases outcome with
      | returned given =>
        simp only [answer?] at hanswer
        split at hanswer
        · next hname =>
          cases hanswer
          exact ⟨k, hname ▸ hm⟩
        · cases hanswer
      | panicked cause => cases hanswer
      | stuck => cases hanswer
    | _ => cases hanswer
  · rintro ⟨k, hk⟩
    exact ⟨_, hk, by simp [answer?]⟩

theorem mem_ok?_answers {b : Binding Asked} {history : List (Moment Asked)} :
    b ∈ (answers name history).filterMap Answer.ok? ↔
      ∃ k, .answered k name (.returned (.ok b)) ∈ history := by
  rw [← mem_answers, List.mem_filterMap]
  constructor
  · rintro ⟨answer, hanswer, hok⟩
    cases answer with
    | ok b' => exact Option.some.inj hok ▸ hanswer
    | error error => cases hok
  · exact fun h => ⟨_, h, rfl⟩

/-- A successful run is one that is counted. -/
theorem isWon_pos {history : List (Moment Asked)} :
    0 < history.countP (Moment.isWon name) ↔
      ∃ k b, .ended k name (.returned (.ok b)) ∈ history := by
  rw [List.countP_pos_iff]
  constructor
  · rintro ⟨m, hm, hwon⟩
    cases m with
    | ended k other outcome =>
      cases outcome with
      | returned answer =>
        cases answer with
        | ok b =>
          simp only [Moment.isWon, beq_iff_eq] at hwon
          exact ⟨k, b, hwon ▸ hm⟩
        | error error => cases hwon
      | panicked cause => cases hwon
      | stuck => cases hwon
    | _ => cases hwon
  · rintro ⟨k, b, hm⟩
    exact ⟨_, hm, by simp [Moment.isWon]⟩

/-! ## The settlement -/

/-- Everybody was answered. -/
theorem length_answers_of_final (h : Reaches (c.start v) s) (hfinal : ∀ i, step? s i = none)
    (name : String) : (answers name s.history).length = c.share name := by
  obtain ⟨hcalls, hpending⟩ := done_of_final h hfinal
  have hfair := fair_of_reaches h
  have hasked := (accounted_of_reaches h).asked name
  have hshare := hfair.asks name
  rw [flight_eq_map, hcalls] at hasked
  rw [hpending] at hshare
  simp only [Multiset.map_zero, Scene.requesting, Multiset.countP_zero, Nat.zero_add] at hasked hshare
  rw [← hfair.returns name, ← hshare]
  exact hasked.symm

theorem flight_of_final (h : Reaches (c.start v) s) (hfinal : ∀ i, step? s i = none) :
    s.scene.flight = 0 := by
  rw [flight_eq_map, (done_of_final h hfinal).1, Multiset.map_zero]

/-- A binding that was answered is that of the name. -/
theorem get?_of_mem_ok? (h : Reaches (c.start v) s) {b : Binding Asked}
    (hb : b ∈ (answers name s.history).filterMap Answer.ok?) : s.table.get? name = some b := by
  obtain ⟨k, hk⟩ := mem_ok?_answers.mp hb
  exact (recorded_of_reaches h).given k name b hk

/-- A name that is bound had a run that succeeded, and somebody was answered its binding. -/
theorem bound_of_final (h : Reaches (c.start v) s) (hfinal : ∀ i, step? s i = none)
    {b : Binding Asked} (hb : s.table.get? name = some b) :
    0 < s.history.countP (Moment.isWon name) ∧
      0 < ((answers name s.history).filterMap Answer.ok?).length := by
  constructor
  · obtain ⟨-, -, k, text, -, hended, -⟩ := (recorded_of_reaches h).made name b hb
    exact isWon_pos.mpr ⟨k, b, hended⟩
  · rcases (accounted_of_reaches h).winner name b hb with ⟨o, ho, -⟩ | hk
    · rw [flight_of_final h hfinal] at ho
      exact absurd ho (Multiset.notMem_zero o)
    · exact List.length_pos_of_mem (mem_ok?_answers.mpr hk)

/-- A name that is not bound had no such run, and nobody was answered a binding. -/
theorem unbound_of_final (h : Reaches (c.start v) s) (hnone : ∀ b, s.table.get? name ≠ some b) :
    s.history.countP (Moment.isWon name) = 0 ∧
      ((answers name s.history).filterMap Answer.ok?).length = 0 := by
  constructor
  · refine Nat.eq_zero_of_not_pos fun hwon => ?_
    obtain ⟨k, b, hm⟩ := isWon_pos.mp hwon
    exact hnone b ((recorded_of_reaches h).won k name b hm)
  · rw [List.length_eq_zero_iff, List.eq_nil_iff_forall_not_mem]
    exact fun b hb => hnone b (get?_of_mem_ok? h hb)

section Signature

variable {signature : Signature} (hparse : Signature.parse c.text = .ok signature)
  (h : Reaches (c.start v) s) (hfinal : ∀ i, step? s i = none)

include hparse h hfinal

/-- The errors that were answered are those of the runs that failed. -/
theorem errors_of_final (name : String) : ((answers name s.history).filterMap Answer.error?).Perm
    ((List.range (failed name s.history).length).map (v.reason name)) := by
  have heq := (accounted_of_reaches h).errors name
  rw [flight_of_final h hfinal] at heq
  have hperm : (failed name s.history).Perm (refused name s.history) :=
    Multiset.coe_eq_coe.mp (heq.trans (zero_add _))
  rw [filterMap_error?_answers]
  refine hperm.symm.trans ?_
  conv_lhs => rw [(books_of_reaches hparse h name).reasons]
  exact List.reverse_perm _

/-- **The numbers come from those of the contest**, bound or not. -/
theorem numbers_of_final (name : String) :
    (failed name s.history).length = min (c.share name) c.failures ∧
      s.world.count name = min (c.share name) (c.failures + 1) ∧
      ((answers name s.history).filterMap Answer.ok?).length =
        c.share name - min (c.share name) c.failures ∧
      (name ∈ s.table.names ↔ c.failures < c.share name) := by
  have hbooks := books_of_reaches hparse h name
  have hfew := hbooks.few
  have hnames := (sound_of_reaches h).wellFormed.mem_names_iff name
  have hanswered := length_answers_of_final h hfinal name
  have hsplit := length_answers (answers name s.history)
  have hlength : ((answers name s.history).filterMap Answer.error?).length =
      (failed name s.history).length := by
    rw [(errors_of_final hparse h hfinal name).length_eq, List.length_map, List.length_range]
  have hconsulted := hbooks.consulted
  rw [(done_of_final h hfinal).1] at hconsulted
  simp only [decided, Multiset.countP_zero, Nat.add_zero] at hconsulted
  by_cases hbound : ∃ b, s.table.get? name = some b
  · -- all that should fail have failed, and one request more at least
    obtain ⟨b, hb⟩ := hbound
    obtain ⟨hwon, hsomebody⟩ := bound_of_final h hfinal hb
    have henough := hbooks.enough hwon
    have hsingle := hbooks.single
    exact ⟨by omega, by omega, by omega, iff_of_true (hnames.mpr ⟨b, hb⟩) (by omega)⟩
  · -- every request has failed in a run of its own
    obtain ⟨hlost, hnobody⟩ := unbound_of_final h fun b hb => hbound ⟨b, hb⟩
    exact ⟨by omega, by omega, by omega, iff_of_false (fun hn => hbound (hnames.mp hn)) (by omega)⟩

/-- **How the requests for a name come out** does not depend on the interleaving. -/
theorem settled_of_final (name : String) : Settled c v s name := by
  obtain ⟨hfailed, hcount, hgiven, hbound⟩ := numbers_of_final hparse h hfinal name
  have hruns := (fair_of_reaches h).runs (· == name)
  rw [(done_of_final h hfinal).1] at hruns
  refine ⟨hruns.trans hcount, hcount, length_answers_of_final h hfinal name, ?_,
    fun k => (accounted_of_reaches h).paid k name, hgiven, fun b hb b' hb' => ?_, hbound⟩
  · rw [← hfailed]
    exact errors_of_final hparse h hfinal name
  · exact Option.some.inj ((get?_of_mem_ok? h hb).symm.trans (get?_of_mem_ok? h hb'))

end Signature

/-! ## A text that is not a signature -/

/-- What holds while all requests find the same fault with the text. -/
structure Barren (error : ResolveError) (s : State Asked) : Prop where
  world : s.world = []
  ended : ∀ k name outcome, .ended k name outcome ∈ s.history → outcome = .returned (.error error)

/-- **No run gets beyond the text.** -/
theorem Barren.step {error : ResolveError} (hparse : Signature.parse c.text = .error error)
    (h : Play s t) (hs : s.scene.Sound) (hr : s.scene.Recorded) (hf : Fair c v s)
    (hx : Barren error s) : Barren error t := by
  cases h with
  | ask pending calls world history =>
    refine ⟨world.trans hx.world, fun k name outcome hm => ?_⟩
    rw [history] at hm
    exact hx.ended k name outcome ((List.mem_cons.mp hm).resolve_left (by simp))
  | @go call rest stage change pending calls next shift world history =>
    have hcall : call ∈ s.calls := mem_of_eq_cons calls
    have hfits := hf.calls call hcall
    have hturn : Turn c v s call stage change := turn_of_shift shift hfits
      fun slot binding hseat hcell => hf.agree hs hr hcall hseat hcell
    -- no plan runs, for a plan runs with a signature
    have hidle : ∀ slot signature rest, call.stage ≠ .running slot signature rest := by
      intro slot signature rest hstage
      have hok := (hfits.plan slot signature rest hstage).1
      rw [hparse] at hok
      cases hok
    cases hturn with
    | quiet old new hworld moments =>
      refine ⟨world.trans (hworld.trans hx.world), fun k name outcome hm => ?_⟩
      rw [history] at hm
      rcases List.mem_append.mp hm with hm | hm
      · have hquiet := moments _ (List.mem_reverse.mp hm)
        cases hquiet
      · exact hx.ended k name outcome hm
    | accept old text new hworld moments =>
      rw [hparse] at text
      cases text
    | reject old text new hworld moments =>
      refine ⟨world.trans (hworld.trans hx.world), fun k name outcome hm => ?_⟩
      rw [history, moments] at hm
      rcases List.mem_cons.mp hm with hm | hm
      · cases hm
        rw [hparse] at text
        rw [Except.error.inj text]
      · exact hx.ended k name outcome hm
    | consult old new hworld moments => exact absurd old (hidle _ _ _)
    | refuse old new hworld moments => exact absurd old (hidle _ _ _)
    | bind old new hworld moments => exact absurd old (hidle _ _ _)
  | leave pending calls stage world history =>
    refine ⟨world.trans hx.world, fun k name outcome hm => ?_⟩
    rw [history] at hm
    exact hx.ended k name outcome ((List.mem_cons.mp hm).resolve_left (by simp))

theorem barren_of_reaches {error : ResolveError} (hparse : Signature.parse c.text = .error error)
    (h : Reaches (c.start v) s) : Barren error s :=
  invariant_of_reaches ⟨rfl, fun _ _ _ hm => absurd hm List.not_mem_nil⟩
    (fun _ _ hplay hs hr hf hx => hx.step hparse hplay hs hr hf) h

/-- **All requests are answered what is wrong with the text**, and nothing else happens. -/
theorem refused_of_fault {error : ResolveError} (hparse : Signature.parse c.text = .error error)
    (h : Reaches (c.start v) s) (hfinal : ∀ i, step? s i = none) :
    s.history.countP (Moment.isResolved fun _ => true) = 0 ∧ s.table.names = [] ∧
      ∀ name, answers name s.history = List.replicate (c.share name) (.error error) := by
  obtain ⟨hcalls, -⟩ := done_of_final h hfinal
  have hbarren := barren_of_reaches hparse h
  have hrecorded := recorded_of_reaches h
  have hunbound : ∀ name b, s.table.get? name ≠ some b := by
    intro name b hb
    obtain ⟨-, -, k, text, -, hended, -⟩ := hrecorded.made name b hb
    cases hbarren.ended k name _ hended
  refine ⟨?_, ?_, fun name => ?_⟩
  · have hruns := (fair_of_reaches h).runs fun _ => true
    rw [hcalls, hbarren.world] at hruns
    exact hruns
  · refine List.eq_nil_iff_forall_not_mem.mpr fun name hname => ?_
    obtain ⟨b, hb⟩ := ((sound_of_reaches h).wellFormed.mem_names_iff name).mp hname
    exact hunbound name b hb
  · refine List.eq_replicate_iff.mpr ⟨length_answers_of_final h hfinal name, fun given hgiven => ?_⟩
    obtain ⟨k, hk⟩ := mem_answers.mp hgiven
    cases given with
    | ok b => exact absurd (hrecorded.given k name b hk) (hunbound name b)
    | error other =>
      have hended := (accounted_of_reaches h).paid k name other hk
      cases hbarren.ended k name _ hended
      rfl

/-- The error of a text that is not a signature quotes the text. -/
theorem invalidSignature_of_parse {text : String} {error : ResolveError}
    (h : Signature.parse text = .error error) : ∃ reason, error = .invalidSignature text reason := by
  unfold Signature.parse at h
  split at h
  · cases h
  · next fault _ => exact ⟨fault.reason, (Except.error.inj h).symm⟩

/-! ## The result -/

/-- **First requests come out the same in every interleaving**, and every interleaving ends.

If the text is a signature, each name is settled as its number of requests and the number of
failures say, and what is told of is that the resolver runs.  If it is not, all requests are
answered so, no resolver runs, nothing is bound and nothing is told of. -/
theorem contest_settles (c : Contest) (v : Verdicts) :
    Acc (fun t s => ∃ i, step? s i = some t) (c.start v) ∧
      ∀ s, Reaches (c.start v) s → (∀ i, step? s i = none) →
        (∀ signature, Signature.parse c.text = .ok signature →
          (∀ name, Settled c v s name) ∧
            s.history.countP isEvent = s.history.countP (Moment.isResolved fun _ => true) ∧
            s.history.countP (Moment.isResolved fun _ => true) = s.world.length) ∧
        ∀ error, Signature.parse c.text = .error error →
          (∃ reason, error = .invalidSignature c.text reason) ∧
            (∀ name, answers name s.history = List.replicate (c.share name) (.error error)) ∧
            s.history.countP (Moment.isResolved fun _ => true) = 0 ∧ s.table.names = [] ∧
            s.history.countP isEvent = 0 := by
  refine ⟨acc_of_reaches (.refl _), fun s h hfinal => ⟨fun signature hparse => ⟨fun name =>
    settled_of_final hparse h hfinal name, (fair_of_reaches h).events, ?_⟩,
    fun error hparse => ?_⟩⟩
  · obtain ⟨hcalls, -⟩ := done_of_final h hfinal
    have hruns := (fair_of_reaches h).runs fun _ => true
    rw [hcalls] at hruns
    rw [hruns]
    simp [asking]
  · obtain ⟨hresolved, hnames, hanswers⟩ := refused_of_fault hparse h hfinal
    have hevents := (fair_of_reaches h).events
    rw [hresolved] at hevents
    exact ⟨invalidSignature_of_parse hparse, hanswers, hresolved, hnames, hevents⟩

/-- Three threads ask for a name that the resolver fails once. -/
def trial : Contest := ⟨3, ["@f"], "():VOID", 1⟩

/-- One of them is answered an error, two a binding, and the resolver runs twice. -/
theorem trial_settles :
    Settled trial .plain trial.finish "@f" ∧ trial.share "@f" = 3 ∧
      trial.finish.history.countP isEvent = 2 := by
  have hreaches : Reaches (trial.start .plain) trial.finish :=
    ((reaches_round _).trans (reaches_round _)).trans (reaches_turns 9 _)
  have hthreads : trial.finish.threads = [⟨[], []⟩, ⟨[], []⟩, ⟨[], []⟩] := rfl
  have hfinal : ∀ i, step? trial.finish i = none := by
    intro i
    unfold step?
    rw [hthreads]
    rcases i with _ | _ | _ | i <;> rfl
  have hparse : Signature.parse trial.text = .ok ⟨[], .void⟩ := rfl
  exact ⟨((contest_settles trial .plain).2 _ hreaches hfinal).1 _ hparse |>.1 "@f", rfl, rfl⟩

end Contest

end NativeLink
