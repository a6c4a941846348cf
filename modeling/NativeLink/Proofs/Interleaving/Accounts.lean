import Mathlib.Data.Multiset.Filter
import NativeLink.Proofs.Interleaving.Record

/-!
# What becomes of a request

No request is lost on the way.  Each that was asked is in flight or was answered, and
an error that a run ended with is on its way to be answered to the very request whose
run it was, or was answered to it.

`Scene.Accounted` says so in numbers, for each name.  The errors are counted as
multisets: those that runs ended with are those that were answered together with those
still on their way (`errors`).  Such an equation is kept by a step because what the step
adds to one side it adds to the other, so each kind of step is a small computation.

The last field, `winner`, is about the one binding of a name: the request that made it
is on its way out with it, or has answered it.
-/

namespace NativeLink

namespace Interleaving

variable {σ : Type}

namespace Moment

/-- Whether somebody asked for a name. -/
def isAsked (name : String) : Moment σ → Bool
  | asked _ other _ => other == name
  | _ => false

/-- Whether a request for a name was answered, or went down with a panic. -/
def isAnswered (name : String) : Moment σ → Bool
  | answered _ other _ => other == name
  | _ => false

/-- The error a run for a name ended with. -/
def failure? (name : String) : Moment σ → Option ResolveError
  | ended _ other (.returned (.error error)) => if other = name then some error else none
  | _ => none

/-- The error a request for a name was answered. -/
def refusal? (name : String) : Moment σ → Option ResolveError
  | answered _ other (.returned (.error error)) => if other = name then some error else none
  | _ => none

end Moment

/-- The errors that runs for a name ended with, the latest first. -/
def failed (name : String) (history : List (Moment σ)) : List ResolveError :=
  history.filterMap (Moment.failure? name)

/-- The errors that requests for a name were answered, the latest first. -/
def refused (name : String) (history : List (Moment σ)) : List ResolveError :=
  history.filterMap (Moment.refusal? name)

/-- The error a request has yet to answer. -/
def Phase.error? : Phase σ → Option ResolveError
  | failing _ error => some error
  | leaving _ (.returned (.error error)) => some error
  | _ => none

/-- The error a request for a name has yet to answer. -/
def Outline.error? (name : String) (o : Outline σ) : Option ResolveError :=
  if o.name = name then o.phase.error? else none

/-! ## Moments that do not count -/

theorem countP_reverse_append {p : Moment σ → Bool} {moments : List (Moment σ)}
    (hp : ∀ m ∈ moments, p m = false) (history : List (Moment σ)) :
    (moments.reverse ++ history).countP p = history.countP p := by
  have hzero : moments.reverse.countP p = 0 := by
    rw [List.countP_eq_zero]
    intro m hm
    simp [hp m (List.mem_reverse.mp hm)]
  rw [List.countP_append, hzero, Nat.zero_add]

theorem filterMap_reverse_append {α : Type} {f : Moment σ → Option α} {moments : List (Moment σ)}
    (hf : ∀ m ∈ moments, f m = none) (history : List (Moment σ)) :
    (moments.reverse ++ history).filterMap f = history.filterMap f := by
  have hnil : moments.reverse.filterMap f = [] := by
    rw [List.filterMap_eq_nil_iff]
    intro m hm
    exact hf m (List.mem_reverse.mp hm)
  rw [List.filterMap_append, hnil, List.nil_append]

namespace Scene

variable {x y : Scene σ}

/-- The number of requests for a name. -/
def requesting (flight : Multiset (Outline σ)) (name : String) : Nat :=
  flight.countP fun o => o.name = name

theorem requesting_cons (o : Outline σ) (rest : Multiset (Outline σ)) (name : String) :
    requesting (o ::ₘ rest) name = requesting rest name + if o.name = name then 1 else 0 :=
  Multiset.countP_cons _ _ _

/-- The errors that are on their way. -/
def pendingErrors (flight : Multiset (Outline σ)) (name : String) : Multiset ResolveError :=
  flight.filterMap (Outline.error? name)

theorem pendingErrors_cons (o : Outline σ) (rest : Multiset (Outline σ)) (name : String) :
    pendingErrors (o ::ₘ rest) name =
      ((o.error? name).map singleton).getD 0 + pendingErrors rest name :=
  Multiset.filterMap_cons _ _ _

/-- **A step asks for a name and lets a request in, or lets one out and answers it**, or neither. -/
theorem Step.asked_eq (h : Step x y) {name : String}
    (hx : x.history.countP (Moment.isAsked name) =
      requesting x.flight name + x.history.countP (Moment.isAnswered name)) :
    y.history.countP (Moment.isAsked name) =
      requesting y.flight name + y.history.countP (Moment.isAnswered name) := by
  -- a request that stays in flight counts as before, and its moments do not count
  have hsame : ∀ {o : Outline σ} {rest : Multiset (Outline σ)} (p : Phase σ),
      x.flight = o ::ₘ rest → x.history.countP (Moment.isAsked name) =
        requesting ({ o with phase := p } ::ₘ rest) name +
          x.history.countP (Moment.isAnswered name) := by
    intro o rest p hflight
    rw [hx, hflight, requesting_cons, requesting_cons]
  cases h with
  | ask other text =>
    simp only [List.countP_cons, requesting_cons, Moment.isAsked, Moment.isAnswered, beq_iff_eq,
      Bool.false_eq_true, if_false]
    omega
  | enter flight phase => exact hsame _ flight
  | hit flight phase cell =>
    rw [countP_reverse_append (by simp [Moment.isAsked]),
      countP_reverse_append (by simp [Moment.isAnswered])]
    exact hsame _ flight
  | begin flight phase cell => simpa [Moment.isAsked, Moment.isAnswered] using hsame _ flight
  | accept flight phase text => simpa [Moment.isAsked, Moment.isAnswered] using hsame _ flight
  | reject flight phase text => simpa [Moment.isAsked, Moment.isAnswered] using hsame _ flight
  | bind callable flight phase => simpa [Moment.isAsked, Moment.isAnswered] using hsame _ flight
  | refuse error flight phase => simpa [Moment.isAsked, Moment.isAnswered] using hsame _ flight
  | panic cause flight phase => simpa [Moment.isAsked, Moment.isAnswered] using hsame _ flight
  | tell ticket event => simpa [Moment.isAsked, Moment.isAnswered] using hx
  | discard flight phase => simpa [Moment.isAsked, Moment.isAnswered] using hsame _ flight
  | leave flight phase =>
    rw [flight, requesting_cons] at hx
    simp only [List.countP_cons, Moment.isAsked, Moment.isAnswered, beq_iff_eq,
      Bool.false_eq_true, if_false]
    omega

/-- **An error goes with the request whose run it ended, and is answered when that leaves.** -/
theorem Step.failed_eq (h : Step x y) {name : String}
    (hx : (failed name x.history : Multiset ResolveError) =
      pendingErrors x.flight name + refused name x.history) :
    (failed name y.history : Multiset ResolveError) =
      pendingErrors y.flight name + refused name y.history := by
  -- a request that owes as much as before, or one error more
  have hsame : ∀ {o : Outline σ} {rest : Multiset (Outline σ)} (p : Phase σ),
      x.flight = o ::ₘ rest → p.error? = o.phase.error? →
      (failed name x.history : Multiset ResolveError) =
        pendingErrors ({ o with phase := p } ::ₘ rest) name + refused name x.history := by
    intro o rest p hflight hp
    rw [hx, hflight, pendingErrors_cons, pendingErrors_cons]
    simp only [Outline.error?, hp]
  have hmore : ∀ {o : Outline σ} {rest : Multiset (Outline σ)} (p : Phase σ) (error : ResolveError),
      x.flight = o ::ₘ rest → o.phase.error? = none → p.error? = some error →
      (failed name (.ended o.ticket o.name (.returned (.error error)) :: x.history) :
          Multiset ResolveError) =
        pendingErrors ({ o with phase := p } ::ₘ rest) name + refused name x.history := by
    intro o rest p error hflight hold hnew
    rw [hflight, pendingErrors_cons] at hx
    simp only [Outline.error?, hold, ite_self, Option.map_none, Option.getD_none, zero_add] at hx
    rw [pendingErrors_cons]
    simp only [failed, List.filterMap_cons, Moment.failure?, Outline.error?, hnew]
    by_cases hname : o.name = name
    · simp only [hname, if_true, Option.map_some, Option.getD_some]
      rw [← Multiset.cons_coe, ← failed, hx, add_assoc, Multiset.singleton_add]
    · simp only [hname, if_false, Option.map_none, Option.getD_none, zero_add]
      exact hx
  cases h with
  | ask other text =>
    rw [pendingErrors_cons]
    simp only [Outline.error?, Phase.error?, ite_self, Option.map_none, Option.getD_none, zero_add]
    exact hx
  | enter flight phase => exact hsame _ flight (by rw [phase]; rfl)
  | hit flight phase cell =>
    rw [failed, refused, filterMap_reverse_append (by simp [Moment.failure?]),
      filterMap_reverse_append (by simp [Moment.refusal?])]
    exact hsame _ flight (by rw [phase]; rfl)
  | begin flight phase cell => exact hsame _ flight (by rw [phase]; rfl)
  | accept flight phase text => exact hsame _ flight (by rw [phase]; rfl)
  | reject flight phase text => exact hmore _ _ flight (by rw [phase]; rfl) rfl
  | bind callable flight phase => exact hsame _ flight (by rw [phase]; rfl)
  | refuse error flight phase => exact hmore _ _ flight (by rw [phase]; rfl) rfl
  | panic cause flight phase => exact hsame _ flight (by rw [phase]; rfl)
  | tell ticket event => exact hx
  | discard flight phase => exact hsame _ flight (by rw [phase]; rfl)
  | @leave o rest slot outcome flight phase =>
    rw [flight, pendingErrors_cons] at hx
    simp only [Outline.error?, phase] at hx
    -- a request that owes no error is answered none
    have hnone : (Phase.leaving slot outcome).error? = none →
        (failed name x.history : Multiset ResolveError) =
          pendingErrors rest name + refused name x.history := by
      intro he
      rw [he] at hx
      simpa only [ite_self, Option.map_none, Option.getD_none, zero_add] using hx
    cases outcome with
    | returned answer =>
      cases answer with
      | ok b => exact hnone rfl
      | error error =>
        simp only [refused, List.filterMap_cons, Moment.refusal?]
        simp only [Phase.error?] at hx
        by_cases hname : o.name = name
        · simp only [hname, if_true, Option.map_some, Option.getD_some] at hx ⊢
          rw [← Multiset.cons_coe, Multiset.add_cons, ← Multiset.cons_add,
            ← Multiset.singleton_add]
          exact hx
        · simp only [hname, if_false, Option.map_none, Option.getD_none, zero_add] at hx ⊢
          exact hx
    | panicked cause => exact hnone rfl
    | stuck => exact hnone rfl

/-! ## The account -/

/-- A request that owes an error owed it before, or its run has just ended with it. -/
theorem Step.owes (h : Step x y) {p : Outline σ} (hp : p ∈ y.flight) {error : ResolveError}
    (he : p.phase.error? = some error) :
    (∃ o ∈ x.flight, o.ticket = p.ticket ∧ o.name = p.name ∧ o.phase.error? = some error) ∨
      .ended p.ticket p.name (.returned (.error error)) ∈ y.history := by
  -- the one request that goes on, and the others, which do not change
  have hold : ∀ {o : Outline σ} {rest : Multiset (Outline σ)} {q : Phase σ},
      x.flight = o ::ₘ rest → p ∈ { o with phase := q } ::ₘ rest →
      (q.error? = some error → o.phase.error? = some error ∨
        .ended o.ticket o.name (.returned (.error error)) ∈ y.history) →
      (∃ o ∈ x.flight, o.ticket = p.ticket ∧ o.name = p.name ∧ o.phase.error? = some error) ∨
        .ended p.ticket p.name (.returned (.error error)) ∈ y.history := by
    intro o rest q hflight hp hq
    rw [hflight]
    rcases Multiset.mem_cons.mp hp with rfl | hp
    · exact (hq he).imp_left fun ho => ⟨o, Multiset.mem_cons_self o rest, rfl, rfl, ho⟩
    · exact .inl ⟨p, Multiset.mem_cons_of_mem hp, rfl, rfl, he⟩
  cases h with
  | ask name text =>
    rcases Multiset.mem_cons.mp hp with rfl | hp
    · cases he
    · exact .inl ⟨p, hp, rfl, rfl, he⟩
  | enter flight phase => exact hold flight hp (by simp [Phase.error?])
  | hit flight phase cell => exact hold flight hp (by simp [Phase.error?])
  | begin flight phase cell => exact hold flight hp (by simp [Phase.error?])
  | accept flight phase text => exact hold flight hp (by simp [Phase.error?])
  | reject flight phase text =>
    refine hold flight hp fun hq => .inr ?_
    cases hq
    exact List.mem_cons_self
  | bind callable flight phase => exact hold flight hp (by simp [Phase.error?])
  | refuse error flight phase =>
    refine hold flight hp fun hq => .inr ?_
    cases hq
    exact List.mem_cons_self
  | panic cause flight phase => exact hold flight hp (by simp [Phase.error?])
  | tell ticket event => exact .inl ⟨p, hp, rfl, rfl, he⟩
  | discard flight phase =>
    refine hold flight hp fun hq => .inl ?_
    rw [phase]
    exact hq
  | leave flight phase =>
    refine .inl ⟨p, ?_, rfl, rfl, he⟩
    rw [flight]
    exact Multiset.mem_cons_of_mem hp

/-- An error that has just been answered was owed. -/
theorem Step.answered_error (h : Step x y) {k : Nat} {name : String} {error : ResolveError}
    (hm : .answered k name (.returned (.error error)) ∈ y.history) :
    .answered k name (.returned (.error error)) ∈ x.history ∨
      ∃ o ∈ x.flight, o.ticket = k ∧ o.name = name ∧ o.phase.error? = some error := by
  cases h with
  | @leave o rest slot outcome flight phase =>
    rcases List.mem_cons.mp hm with hm | hm
    · cases hm
      exact .inr ⟨o, mem_of_eq_cons flight, rfl, rfl, by rw [phase]; rfl⟩
    · exact .inl hm
  | _ => exact .inl (by simpa using hm)

/-- Whoever is on the way out with a binding stays so until it is answered. -/
theorem Step.leaves_with (h : Step x y) {name : String} {b : Binding σ}
    (hx : (∃ o ∈ x.flight, o.name = name ∧ ∃ slot, o.phase = .leaving slot (.returned (.ok b))) ∨
      ∃ k, .answered k name (.returned (.ok b)) ∈ x.history) :
    (∃ o ∈ y.flight, o.name = name ∧ ∃ slot, o.phase = .leaving slot (.returned (.ok b))) ∨
      ∃ k, .answered k name (.returned (.ok b)) ∈ y.history := by
  rcases hx with ⟨o, ho, hname, slot, hphase⟩ | ⟨k, hk⟩
  · -- it goes on by leaving only; in all other steps some other request goes on
    have hother : ∀ {p : Outline σ} {rest : Multiset (Outline σ)} (q : Phase σ),
        x.flight = p ::ₘ rest → (∀ slot outcome, p.phase ≠ .leaving slot outcome) →
        ∃ o ∈ { p with phase := q } ::ₘ rest, o.name = name ∧
          ∃ slot, o.phase = .leaving slot (.returned (.ok b)) := by
      intro p rest q hflight hp
      rw [hflight] at ho
      rcases Multiset.mem_cons.mp ho with rfl | ho
      · exact absurd hphase (hp slot _)
      · exact ⟨o, Multiset.mem_cons_of_mem ho, hname, slot, hphase⟩
    cases h with
    | ask other text => exact .inl ⟨o, Multiset.mem_cons_of_mem ho, hname, slot, hphase⟩
    | enter flight phase => exact .inl (hother _ flight (by simp [phase]))
    | hit flight phase cell => exact .inl (hother _ flight (by simp [phase]))
    | begin flight phase cell => exact .inl (hother _ flight (by simp [phase]))
    | accept flight phase text => exact .inl (hother _ flight (by simp [phase]))
    | reject flight phase text => exact .inl (hother _ flight (by simp [phase]))
    | bind callable flight phase => exact .inl (hother _ flight (by simp [phase]))
    | refuse error flight phase => exact .inl (hother _ flight (by simp [phase]))
    | panic cause flight phase => exact .inl (hother _ flight (by simp [phase]))
    | tell ticket event => exact .inl ⟨o, ho, hname, slot, hphase⟩
    | discard flight phase => exact .inl (hother _ flight (by simp [phase]))
    | @leave p rest i outcome flight phase =>
      rw [flight] at ho
      rcases Multiset.mem_cons.mp ho with rfl | ho
      · rw [hphase] at phase
        cases phase
        exact .inr ⟨o.ticket, by rw [hname]; exact List.mem_cons_self⟩
      · exact .inl ⟨o, ho, hname, slot, hphase⟩
  · exact .inr ⟨k, h.mem_history hk⟩

/-- What becomes of the requests in flight and of those that were answered. -/
structure Accounted (x : Scene σ) : Prop where
  asked : ∀ name, x.history.countP (Moment.isAsked name) =
    requesting x.flight name + x.history.countP (Moment.isAnswered name)
  errors : ∀ name, (failed name x.history : Multiset ResolveError) =
    pendingErrors x.flight name + refused name x.history
  owed : ∀ o ∈ x.flight, ∀ error, o.phase.error? = some error →
    .ended o.ticket o.name (.returned (.error error)) ∈ x.history
  paid : ∀ k name error, .answered k name (.returned (.error error)) ∈ x.history →
    .ended k name (.returned (.error error)) ∈ x.history
  winner : ∀ name b, x.table.get? name = some b →
    (∃ o ∈ x.flight, o.name = name ∧ ∃ slot, o.phase = .leaving slot (.returned (.ok b))) ∨
      ∃ k, .answered k name (.returned (.ok b)) ∈ x.history

theorem accounted_start : (start : Scene σ).Accounted := by
  have hget : ∀ name, (Table.empty : Table σ).get? name = none := fun _ => rfl
  constructor <;> simp [start, hget, requesting, pendingErrors, failed, refused]

/-- **Every step keeps the account.** -/
theorem Accounted.step (h : Step x y) (hs : x.Sound) (hx : x.Accounted) : y.Accounted := by
  refine ⟨fun name => h.asked_eq (hx.asked name), fun name => h.failed_eq (hx.errors name),
    fun p hp error he => ?_, fun k name error hm => ?_, fun name b hb => ?_⟩
  · rcases h.owes hp he with ⟨o, ho, hticket, hname, hold⟩ | hnew
    · rw [← hticket, ← hname]
      exact h.mem_history (hx.owed o ho error hold)
    · exact hnew
  · rcases h.answered_error hm with hold | ⟨o, ho, rfl, rfl, hold⟩
    · exact h.mem_history (hx.paid k name error hold)
    · exact h.mem_history (hx.owed o ho error hold)
  · rcases hs.get?_eq_or_bind h with ⟨hsame, -⟩ | ⟨o, -, i, signature, callable, -, -, -, hget, -, ho⟩
    · exact h.leaves_with (hx.winner name b (by rw [← hsame]; exact hb))
    · rw [hget] at hb
      split at hb
      · next hname =>
        rw [← Option.some.inj hb]
        exact .inl ⟨_, ho, hname.symm, i, rfl⟩
      · exact h.leaves_with (hx.winner name b hb)

end Scene

/-- **The account is kept in every state that is reached.** -/
theorem accounted_of_reaches {world : σ} {threads : List (List (Request σ))} {s : State σ}
    (h : Reaches (.start world threads) s) : s.scene.Accounted :=
  invariant_of_reaches Scene.accounted_start
    (fun _ _ hstep hsound haccounted => haccounted.step hstep hsound) h

end Interleaving

end NativeLink
