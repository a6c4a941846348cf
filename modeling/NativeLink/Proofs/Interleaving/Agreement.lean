import NativeLink.Cache.Contest
import NativeLink.Proofs.Interleaving.Record

/-!
# One binding for a name

However the requests for a name are interleaved, its resolver never runs twice at
the same time, and all of them come to know the same binding.

`Agreement` says so for one name, of a state and the history that led to it.  Part of
it is about moments in the middle of the history: at the moment a run began, no other
was unfinished and none had succeeded.  Such a moment is written as a suffix
`m :: earlier` of the history, where `earlier` is what had happened by then.

A step adds its moments at the front.  So a suffix of the new history is one of the
old history, or what it begins with has just happened (`Step.began_suffix`,
`Step.won_suffix`), and then the invariant tells what the table was like.
-/

namespace NativeLink

namespace Interleaving

variable {σ : Type}

/-- What the requests for one name agree on. -/
structure Agreement (s : State σ) (name : String) : Prop where
  /-- When a run begins, no other is unfinished. -/
  apart : ∀ k earlier, .began k name :: earlier <:+ s.history → ∀ j, ¬ Unfinished j name earlier
  /-- When a run begins, none has succeeded. -/
  settled : ∀ k earlier, .began k name :: earlier <:+ s.history →
    ∀ j b, .ended j name (.returned (.ok b)) ∉ earlier
  /-- When a run succeeds, none has succeeded before. -/
  once : ∀ k b earlier, .ended k name (.returned (.ok b)) :: earlier <:+ s.history →
    ∀ j c, .ended j name (.returned (.ok c)) ∉ earlier
  /-- The name is bound to what the successful run made. -/
  bound : ∀ b, s.table.get? name = some b ↔ ∃ k, .ended k name (.returned (.ok b)) ∈ s.history
  /-- Whoever was answered a binding was answered that of the name. -/
  same : ∀ k b, .answered k name (.returned (.ok b)) ∈ s.history → s.table.get? name = some b
  /-- The binding has the name, and the signature that the successful request asked for. -/
  source : ∀ k b, .answered k name (.returned (.ok b)) ∈ s.history →
    b.name = name ∧ ∃ j text, .asked j name text ∈ s.history ∧
      .ended j name (.returned (.ok b)) ∈ s.history ∧ Signature.parse text = .ok b.signature
  /-- No other name is answered this binding. -/
  own : ∀ k other b c j, .answered j name (.returned (.ok b)) ∈ s.history →
    .answered k other (.returned (.ok c)) ∈ s.history → b.id = c.id → name = other

/-! ## Moments in the middle of a history -/

/-- What is told comes after the moments that were there before. -/
theorem suffix_of_append_told {m : Moment σ} {earlier told history : List (Moment σ)}
    (hm : ∀ ticket event, m ≠ .told ticket event)
    (ht : ∀ m' ∈ told, ∃ ticket event, m' = .told ticket event)
    (h : m :: earlier <:+ told ++ history) : m :: earlier <:+ history := by
  induction told with
  | nil => exact h
  | cons m' told ih =>
    rcases List.suffix_cons_iff.mp h with heq | hsuffix
    · obtain ⟨ticket, event, rfl⟩ := ht m' List.mem_cons_self
      exact absurd (List.cons.inj heq).1 (hm ticket event)
    · exact ih (fun m' hm' => ht m' (List.mem_cons_of_mem _ hm')) hsuffix

/-- A moment behind another one. -/
theorem suffix_of_cons {m m' : Moment σ} {earlier history : List (Moment σ)} (hm : m ≠ m')
    (h : m :: earlier <:+ m' :: history) : m :: earlier <:+ history := by
  rcases List.suffix_cons_iff.mp h with heq | hsuffix
  · exact absurd (List.cons.inj heq).1 hm
  · exact hsuffix

namespace Scene

variable {x y : Scene σ}

/-- A run that begins in a step begins in an empty cell. -/
theorem Step.began_suffix (h : Step x y) {k : Nat} {name : String} {earlier : List (Moment σ)}
    (hs : .began k name :: earlier <:+ y.history) :
    .began k name :: earlier <:+ x.history ∨ earlier = x.history ∧
      ∃ o ∈ x.flight, ∃ slot, o.name = name ∧ o.phase = .seeking slot ∧
        x.table.cell slot = .empty := by
  cases h with
  | enter flight phase => exact .inl hs
  | hit flight phase cell => exact .inl (suffix_of_append_told (by simp) (by simp) hs)
  | @begin o rest slot flight phase cell =>
    rcases List.suffix_cons_iff.mp hs with heq | hsuffix
    · obtain ⟨hm, rfl⟩ := List.cons.inj heq
      cases hm
      exact .inr ⟨rfl, o, mem_of_eq_cons flight, slot, rfl, phase, cell⟩
    · exact .inl hsuffix
  | accept flight phase text =>
    exact .inl (suffix_of_cons (by simp) (suffix_of_cons (by simp) hs))
  | _ => exact .inl (suffix_of_cons (by simp) hs)

/-- A run that succeeds in a step was at work before it. -/
theorem Step.won_suffix (h : Step x y) {k : Nat} {name : String} {b : Binding σ}
    {earlier : List (Moment σ)}
    (hs : .ended k name (.returned (.ok b)) :: earlier <:+ y.history) :
    .ended k name (.returned (.ok b)) :: earlier <:+ x.history ∨ earlier = x.history ∧
      ∃ o ∈ x.flight, ∃ slot, o.name = name ∧ o.phase.work? = some slot := by
  cases h with
  | enter flight phase => exact .inl hs
  | hit flight phase cell => exact .inl (suffix_of_append_told (by simp) (by simp) hs)
  | accept flight phase text =>
    exact .inl (suffix_of_cons (by simp) (suffix_of_cons (by simp) hs))
  | @bind o rest slot signature callable flight phase =>
    rcases List.suffix_cons_iff.mp hs with heq | hsuffix
    · obtain ⟨hm, rfl⟩ := List.cons.inj heq
      cases hm
      exact .inr ⟨rfl, o, mem_of_eq_cons flight, slot, rfl, by rw [phase]; rfl⟩
    · exact .inl hsuffix
  | _ => exact .inl (suffix_of_cons (by simp) hs)

/-! ## The moments at which runs begin and succeed -/

/-- What holds of those moments, for one name. -/
structure Orderly (name : String) (x : Scene σ) : Prop where
  apart : ∀ k earlier, .began k name :: earlier <:+ x.history → ∀ j, ¬ Unfinished j name earlier
  settled : ∀ k earlier, .began k name :: earlier <:+ x.history →
    ∀ j b, .ended j name (.returned (.ok b)) ∉ earlier
  once : ∀ k b earlier, .ended k name (.returned (.ok b)) :: earlier <:+ x.history →
    ∀ j c, .ended j name (.returned (.ok c)) ∉ earlier

theorem orderly_start (name : String) : Orderly name (start : Scene σ) := by
  constructor <;> intros <;> simp_all [start]

/-- Nobody works for a name whose cell is found empty. -/
theorem Sound.not_unfinished (hs : x.Sound) (hx : x.Recorded) {o : Outline σ} (ho : o ∈ x.flight)
    {slot : Nat} (hseat : o.phase.seat? = some slot) (hcell : x.table.cell slot = .empty) (j : Nat) :
    ¬ Unfinished j o.name x.history := by
  intro hu
  obtain ⟨p, hp, -, hname, i, hwork⟩ := hx.atWork j o.name hu
  -- both requests are seated in the slot of the name, so it is one slot
  have hi : i = slot := by
    have hpos := hs.seated p hp i (Phase.seat?_of_work? hwork)
    rw [hname, hs.seated o ho slot hseat] at hpos
    exact (Option.some.inj hpos).symm
  have hbusy := hs.busy_of_work hp hwork
  rw [hi, hcell] at hbusy
  cases hbusy

theorem Orderly.step (h : Step x y) (hs : x.Sound) (hr : x.Recorded) {name : String}
    (hx : Orderly name x) : Orderly name y := by
  refine ⟨fun k earlier hk => ?_, fun k earlier hk => ?_, fun k b earlier hk => ?_⟩
  · rcases h.began_suffix hk with hold | ⟨rfl, o, ho, slot, rfl, hphase, hcell⟩
    · exact hx.apart k earlier hold
    · exact hs.not_unfinished hr ho (by rw [hphase]; rfl) hcell
  · rcases h.began_suffix hk with hold | ⟨rfl, o, ho, slot, rfl, hphase, hcell⟩
    · exact hx.settled k earlier hold
    · exact hr.not_won (hs.get?_eq_none_of_empty ho (by rw [hphase]; rfl) hcell)
  · rcases h.won_suffix hk with hold | ⟨rfl, o, ho, slot, rfl, hwork⟩
    · exact hx.once k b earlier hold
    · exact hr.not_won (hs.get?_eq_none_of_work ho hwork)

end Scene

theorem orderly_of_reaches {world : σ} {threads : List (List (Request σ))} {s : State σ}
    (h : Reaches (.start world threads) s) (name : String) : s.scene.Orderly name := by
  refine (invariant_of_reaches (P := fun x => x.Recorded ∧ x.Orderly name)
    ⟨Scene.recorded_start, Scene.orderly_start name⟩ ?_ h).2
  rintro x y hstep hsound ⟨hrecorded, horderly⟩
  exact ⟨hrecorded.step hstep hsound, horderly.step hstep hsound hrecorded⟩

/-! ## The result -/

/-- **All requests for a name agree**, whatever their plans do and however the threads are
interleaved: runs for the name do not overlap, at most one succeeds and none begins afterwards, and
every binding that is answered is the one that was made then. -/
theorem agreement_of_reaches {world : σ} {threads : List (List (Request σ))} {s : State σ}
    (h : Reaches (.start world threads) s) (name : String) : Agreement s name := by
  have horderly := orderly_of_reaches h name
  have hrecorded := recorded_of_reaches h
  refine ⟨horderly.apart, horderly.settled, horderly.once, fun b => ⟨fun hb => ?_, ?_⟩,
    fun k b hb => hrecorded.given k name b hb, fun k b hb => ?_, fun k other b c j hb hc hid => ?_⟩
  · obtain ⟨-, -, k, text, -, hended, -⟩ := hrecorded.made name b hb
    exact ⟨k, hended⟩
  · rintro ⟨k, hk⟩
    exact hrecorded.won k name b hk
  · obtain ⟨hname, -, hmade⟩ := hrecorded.made name b (hrecorded.given k name b hb)
    exact ⟨hname, hmade⟩
  · exact hrecorded.distinct name other b c (hrecorded.given j name b hb)
      (hrecorded.given k other c hc) hid

/-- Request 0 fails while request 1 waits for its cell; request 2 comes when the name is bound. -/
def retried : State Contest.Asked :=
  follow [0, 0, 0, 0, 1, 1, 1, 0, 0, 0, 1, 1, 1, 1, 0, 0, 1, 2, 2, 2, 2]
    (Contest.start ⟨3, ["@f"], "():VOID", 1⟩ .plain)

/-- What requests 1 and 2 are answered. -/
def retriedBinding : Binding Contest.Asked :=
  .make 0 "@f" ⟨[], .void⟩ (Contest.Verdicts.plain.callable "@f" 1)

/-- The one who waited made the binding, and the one who came late was answered the same. -/
theorem agreement_retried :
    Agreement retried "@f" ∧
      .ended 1 "@f" (.returned (.ok retriedBinding)) ∈ retried.history ∧
      .answered 2 "@f" (.returned (.ok retriedBinding)) ∈ retried.history := by
  refine ⟨agreement_of_reaches (reaches_follow _ _) "@f", ?_, ?_⟩
  · exact List.mem_of_getElem? (show retried.history[5]? = some _ from rfl)
  · exact List.mem_of_getElem? (show retried.history[0]? = some _ from rfl)

end Interleaving

end NativeLink
