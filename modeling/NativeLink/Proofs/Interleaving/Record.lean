import NativeLink.Proofs.Interleaving.Soundness

/-!
# What the history says about the table

A history is only a list of moments.  `Scene.Recorded` ties it to the table and to
the requests in flight:

* a run that has begun and not ended is the work of a request in flight (`atWork`);
* the successful runs and the answered bindings are those of the table (`won`,
  `given`), and every binding of the table was made by a run, from the text of the
  request whose run it was (`made`);
* bindings of different names have different numbers (`distinct`).

What makes this go through is that a binding once made stays (`Sound.get?_step`) and
that nothing but the end of a run makes one (`Sound.get?_eq_or_bind`).
-/

namespace NativeLink

namespace Interleaving

variable {σ : Type}

namespace Scene

variable {x y : Scene σ}

/-! ## Bindings over a step -/

namespace Sound

/-- The cell of a name whose request works in it: every later look-up sees what it leaves there. -/
theorem get?_setCell_of_work (hx : x.Sound) {o : Outline σ} {rest : Multiset (Outline σ)}
    (hflight : x.flight = o ::ₘ rest) {i : Nat} (hwork : o.phase.work? = some i) (c : Cell σ)
    (name : String) :
    (x.table.setCell i c).get? name = if name = o.name then c.binding? else x.table.get? name := by
  have ho : o ∈ x.flight := mem_of_eq_cons hflight
  exact hx.wellFormed.get?_setCell (hx.seated o ho i (Phase.seat?_of_work? hwork)) c name

/-- The name of a request that works is not bound. -/
theorem get?_eq_none_of_work (hx : x.Sound) {o : Outline σ} (ho : o ∈ x.flight) {i : Nat}
    (hwork : o.phase.work? = some i) : x.table.get? o.name = none := by
  rw [Table.get?_eq_bind, hx.seated o ho i (Phase.seat?_of_work? hwork)]
  simp [hx.busy_of_work ho hwork, Cell.binding?]

/-- The name of a request that finds its cell empty is not bound. -/
theorem get?_eq_none_of_empty (hx : x.Sound) {o : Outline σ} (ho : o ∈ x.flight) {i : Nat}
    (hseat : o.phase.seat? = some i) (hcell : x.table.cell i = .empty) :
    x.table.get? o.name = none := by
  rw [Table.get?_eq_bind, hx.seated o ho i hseat]
  simp [hcell, Cell.binding?]

/-- **A step changes what is bound only by binding one name**, which was not bound before. -/
theorem get?_eq_or_bind (hx : x.Sound) (h : Step x y) :
    (∀ name, y.table.get? name = x.table.get? name) ∧ y.fresh = x.fresh ∨
      ∃ o ∈ x.flight, ∃ i signature callable, o.phase = .running i signature ∧
        x.table.get? o.name = none ∧ y.fresh = x.fresh + 1 ∧
        (∀ name, y.table.get? name = if name = o.name
          then some (.make x.fresh o.name signature callable) else x.table.get? name) ∧
        y.history = .ended o.ticket o.name
          (.returned (.ok (.make x.fresh o.name signature callable))) :: x.history ∧
        (⟨o.ticket, o.name, o.text, .leaving i
          (.returned (.ok (.make x.fresh o.name signature callable)))⟩ : Outline σ) ∈ y.flight := by
  -- a cell that is emptied held no binding, so no look-up sees it
  have hempty : ∀ {o : Outline σ} {rest : Multiset (Outline σ)} {i : Nat} {c : Cell σ},
      x.flight = o ::ₘ rest → o.phase.work? = some i → c.binding? = none →
      ∀ name, (x.table.setCell i c).get? name = x.table.get? name := by
    intro o rest i c hflight hwork hc name
    rw [hx.get?_setCell_of_work hflight hwork, hc]
    split
    · next hn =>
      have ho : o ∈ x.flight := mem_of_eq_cons hflight
      rw [hn, hx.get?_eq_none_of_work ho hwork]
    · rfl
  cases h with
  | ask name text => exact .inl ⟨fun _ => rfl, rfl⟩
  | enter flight phase => exact .inl ⟨fun _ => by simp, rfl⟩
  | hit flight phase cell => exact .inl ⟨fun _ => rfl, rfl⟩
  | @begin o rest slot flight phase cell =>
    refine .inl ⟨fun name => ?_, rfl⟩
    have ho : o ∈ x.flight := mem_of_eq_cons flight
    have hseat : o.phase.seat? = some slot := by rw [phase]; rfl
    show (x.table.setCell slot .busy).get? name = x.table.get? name
    rw [hx.wellFormed.get?_setCell (hx.seated o ho slot hseat)]
    split
    · next hn => rw [hn, hx.get?_eq_none_of_empty ho hseat cell, Cell.binding?]
    · rfl
  | accept flight phase text => exact .inl ⟨fun _ => rfl, rfl⟩
  | reject flight phase text =>
    exact .inl ⟨hempty flight (by rw [phase]; rfl) rfl, rfl⟩
  | @bind o rest slot signature callable flight phase =>
    have ho : o ∈ x.flight := mem_of_eq_cons flight
    have hwork : o.phase.work? = some slot := by rw [phase]; rfl
    exact .inr ⟨o, ho, slot, signature, callable, phase, hx.get?_eq_none_of_work ho hwork, rfl,
      hx.get?_setCell_of_work flight hwork _, rfl, Multiset.mem_cons_self _ rest⟩
  | refuse error flight phase =>
    exact .inl ⟨hempty flight (by rw [phase]; rfl) rfl, rfl⟩
  | panic cause flight phase =>
    exact .inl ⟨hempty flight (by rw [phase]; rfl) rfl, rfl⟩
  | tell ticket event => exact .inl ⟨fun _ => rfl, rfl⟩
  | discard flight phase => exact .inl ⟨fun _ => by simp, rfl⟩
  | leave flight phase => exact .inl ⟨fun _ => by simp, rfl⟩

/-- **A name that is bound stays bound**, to the same binding. -/
theorem get?_step (hx : x.Sound) (h : Step x y) {name : String} {b : Binding σ}
    (hb : x.table.get? name = some b) : y.table.get? name = some b := by
  rcases hx.get?_eq_or_bind h with ⟨hsame, -⟩ | ⟨o, -, i, signature, callable, -, hnone, -, hget, -⟩
  · rw [hsame]
    exact hb
  · rw [hget, if_neg]
    · exact hb
    · rintro rfl
      rw [hnone] at hb
      cases hb

end Sound

/-! ## Moments over a step -/

/-- A history only grows. -/
theorem Step.history_suffix (h : Step x y) : x.history <:+ y.history := by
  cases h with
  | enter flight phase => exact List.suffix_rfl
  | hit flight phase cell => exact List.suffix_append _ _
  | accept flight phase text => exact (List.suffix_cons _ _).trans (List.suffix_cons _ _)
  | _ => exact List.suffix_cons _ _

theorem Step.mem_history (h : Step x y) {m : Moment σ} (hm : m ∈ x.history) : m ∈ y.history :=
  h.history_suffix.mem hm

/-- A successful run has just bound its name. -/
theorem Sound.ended_ok_of_step (hx : x.Sound) (h : Step x y) {k : Nat} {name : String}
    {b : Binding σ} (hm : .ended k name (.returned (.ok b)) ∈ y.history) :
    .ended k name (.returned (.ok b)) ∈ x.history ∨ y.table.get? name = some b := by
  cases h with
  | @bind o rest slot signature callable flight phase =>
    rcases List.mem_cons.mp hm with hm | hm
    · cases hm
      refine .inr ?_
      rw [hx.get?_setCell_of_work flight (by rw [phase]; rfl), if_pos rfl]
      rfl
    · exact .inl hm
  | _ => exact .inl (by simpa using hm)

/-- A binding that has just been answered was bound already. -/
theorem Sound.answered_ok_of_step (hx : x.Sound) (h : Step x y) {k : Nat} {name : String}
    {b : Binding σ} (hm : .answered k name (.returned (.ok b)) ∈ y.history) :
    .answered k name (.returned (.ok b)) ∈ x.history ∨ x.table.get? name = some b := by
  cases h with
  | @leave o rest slot outcome flight phase =>
    rcases List.mem_cons.mp hm with hm | hm
    · cases hm
      have ho : o ∈ x.flight := mem_of_eq_cons flight
      exact .inr (Table.get?_eq_some_iff.mpr ⟨slot, hx.served o ho slot b phase⟩)
    · exact .inl hm
  | _ => exact .inl (by simpa using hm)

end Scene

/-! ## Runs -/

/-- A run for `name` has begun and has not ended. -/
def Unfinished (ticket : Nat) (name : String) (history : List (Moment σ)) : Prop :=
  ∃ later earlier, history = later ++ .began ticket name :: earlier ∧
    ∀ outcome, .ended ticket name outcome ∉ later

theorem not_unfinished_nil (k : Nat) (name : String) :
    ¬ Unfinished k name ([] : List (Moment σ)) := by
  rintro ⟨later, earlier, h, -⟩
  simp at h

theorem unfinished_cons {k : Nat} {name : String} {m : Moment σ} {history : List (Moment σ)} :
    Unfinished k name (m :: history) ↔
      m = .began k name ∨ (∀ outcome, m ≠ .ended k name outcome) ∧ Unfinished k name history := by
  constructor
  · rintro ⟨later, earlier, h, hnot⟩
    cases later with
    | nil => exact .inl (List.cons.inj h).1
    | cons m' later =>
      obtain ⟨rfl, rfl⟩ := List.cons.inj h
      exact .inr ⟨fun outcome he => hnot outcome (he ▸ List.mem_cons_self), later, earlier, rfl,
        fun outcome hmem => hnot outcome (List.mem_cons_of_mem _ hmem)⟩
  · rintro (rfl | ⟨hm, later, earlier, rfl, hnot⟩)
    · exact ⟨[], history, rfl, by simp⟩
    · refine ⟨m :: later, earlier, rfl, fun outcome hmem => ?_⟩
      rcases List.mem_cons.mp hmem with he | he
      · exact hm outcome he.symm
      · exact hnot outcome he

theorem unfinished_of_cons {k : Nat} {name : String} {m : Moment σ} {history : List (Moment σ)}
    (hm : m ≠ .began k name) (h : Unfinished k name (m :: history)) : Unfinished k name history :=
  ((unfinished_cons.mp h).resolve_left hm).2

theorem unfinished_of_append_told {k : Nat} {name : String} {told history : List (Moment σ)}
    (ht : ∀ m ∈ told, ∃ ticket event, m = .told ticket event)
    (h : Unfinished k name (told ++ history)) : Unfinished k name history := by
  induction told with
  | nil => exact h
  | cons m told ih =>
    obtain ⟨ticket, event, rfl⟩ := ht m List.mem_cons_self
    exact ih (fun m' hm => ht m' (List.mem_cons_of_mem _ hm)) (unfinished_of_cons (by simp) h)

/-- Some request with this ticket and name works in a cell. -/
def AtWork (ticket : Nat) (name : String) (flight : Multiset (Outline σ)) : Prop :=
  ∃ o ∈ flight, o.ticket = ticket ∧ o.name = name ∧ ∃ i, o.phase.work? = some i

theorem atWork_cons {k : Nat} {name : String} {o : Outline σ} {rest : Multiset (Outline σ)} :
    AtWork k name (o ::ₘ rest) ↔
      (o.ticket = k ∧ o.name = name ∧ ∃ i, o.phase.work? = some i) ∨ AtWork k name rest := by
  simp [AtWork, Multiset.mem_cons, or_and_right, exists_or]

namespace AtWork

variable {k : Nat} {name : String} {o : Outline σ} {rest : Multiset (Outline σ)}

/-- A request that does not work is not needed. -/
theorem of_idle (h : AtWork k name (o ::ₘ rest)) (ho : o.phase.work? = none) :
    AtWork k name rest := by
  refine (atWork_cons.mp h).resolve_left ?_
  rintro ⟨-, -, i, hi⟩
  rw [ho] at hi
  cases hi

/-- What has ended was the work of the request that ended it. -/
theorem of_ended {history : List (Moment σ)} {outcome : Outcome (Answer σ)}
    (h : Unfinished k name history → AtWork k name (o ::ₘ rest))
    (hu : Unfinished k name (.ended o.ticket o.name outcome :: history)) : AtWork k name rest := by
  obtain ⟨hne, hold⟩ := (unfinished_cons.mp hu).resolve_left (by simp)
  refine (atWork_cons.mp (h hold)).resolve_left ?_
  rintro ⟨rfl, rfl, -⟩
  exact hne outcome rfl

end AtWork

namespace Scene

variable {x y : Scene σ}

/-- **A run that has begun and not ended is at work**, and stays so until it ends. -/
theorem Step.atWork (h : Step x y)
    (hx : ∀ k name, Unfinished k name x.history → AtWork k name x.flight) (k : Nat) (name : String)
    (hu : Unfinished k name y.history) : AtWork k name y.flight := by
  have hold := hx k name
  cases h with
  | ask other text =>
    exact atWork_cons.mpr (.inr (hold (unfinished_of_cons (by simp) hu)))
  | enter flight phase =>
    rw [flight] at hold
    exact atWork_cons.mpr (.inr ((hold hu).of_idle (by rw [phase]; rfl)))
  | hit flight phase cell =>
    rw [flight] at hold
    refine atWork_cons.mpr (.inr ((hold ?_).of_idle (by rw [phase]; rfl)))
    exact unfinished_of_append_told (by simp) hu
  | @begin o rest slot flight phase cell =>
    rw [flight] at hold
    rcases unfinished_cons.mp hu with hm | ⟨-, hu⟩
    · cases hm
      exact atWork_cons.mpr (.inl ⟨rfl, rfl, slot, rfl⟩)
    · exact atWork_cons.mpr (.inr ((hold hu).of_idle (by rw [phase]; rfl)))
  | @accept o rest slot signature flight phase text =>
    rw [flight] at hold
    have hu := unfinished_of_cons (by simp) (unfinished_of_cons (by simp) hu)
    refine atWork_cons.mpr ((atWork_cons.mp (hold hu)).imp_left ?_)
    rintro ⟨hk, hn, -⟩
    exact ⟨hk, hn, slot, rfl⟩
  | reject flight phase text =>
    rw [flight] at hold
    exact atWork_cons.mpr (.inr (.of_ended hold hu))
  | bind callable flight phase =>
    rw [flight] at hold
    exact atWork_cons.mpr (.inr (.of_ended hold hu))
  | refuse error flight phase =>
    rw [flight] at hold
    exact atWork_cons.mpr (.inr (.of_ended hold hu))
  | panic cause flight phase =>
    rw [flight] at hold
    exact atWork_cons.mpr (.inr (.of_ended hold hu))
  | tell ticket event => exact hold (unfinished_of_cons (by simp) hu)
  | discard flight phase =>
    rw [flight] at hold
    refine atWork_cons.mpr (.inr ((hold ?_).of_idle (by rw [phase]; rfl)))
    exact unfinished_of_cons (by simp) hu
  | leave flight phase =>
    rw [flight] at hold
    exact (hold (unfinished_of_cons (by simp) hu)).of_idle (by rw [phase]; rfl)

/-! ## The record -/

/-- A request in flight was in flight before, or has just been asked. -/
theorem Step.mem_flight (h : Step x y) {p : Outline σ} (hp : p ∈ y.flight) :
    (∃ o ∈ x.flight, o.ticket = p.ticket ∧ o.name = p.name ∧ o.text = p.text ∧
      ∀ i signature, p.phase = .running i signature →
        o.phase = .running i signature ∨ Signature.parse p.text = .ok signature) ∨
      p.phase = .entering ∧ .asked p.ticket p.name p.text ∈ y.history := by
  -- the one request that goes on, and the others, which do not change
  have hsame : ∀ {o : Outline σ} {rest : Multiset (Outline σ)} {q : Phase σ},
      x.flight = o ::ₘ rest → p ∈ { o with phase := q } ::ₘ rest →
      (∀ i signature, q = .running i signature → Signature.parse o.text = .ok signature) →
      ∃ o ∈ x.flight, o.ticket = p.ticket ∧ o.name = p.name ∧ o.text = p.text ∧
        ∀ i signature, p.phase = .running i signature →
          o.phase = .running i signature ∨ Signature.parse p.text = .ok signature := by
    intro o rest q hflight hp hq
    rw [hflight]
    rcases Multiset.mem_cons.mp hp with rfl | hp
    · exact ⟨o, Multiset.mem_cons_self o rest, rfl, rfl, rfl, fun i signature h =>
        .inr (hq i signature h)⟩
    · exact ⟨p, Multiset.mem_cons_of_mem hp, rfl, rfl, rfl, fun _ _ h => .inl h⟩
  cases h with
  | ask name text =>
    rcases Multiset.mem_cons.mp hp with rfl | hp
    · exact .inr ⟨rfl, List.mem_cons_self⟩
    · exact .inl ⟨p, hp, rfl, rfl, rfl, fun _ _ h => .inl h⟩
  | enter flight phase => exact .inl (hsame flight hp (by simp))
  | hit flight phase cell => exact .inl (hsame flight hp (by simp))
  | begin flight phase cell => exact .inl (hsame flight hp (by simp))
  | accept flight phase text =>
    refine .inl (hsame flight hp ?_)
    intro i signature h
    cases h
    exact text
  | reject flight phase text => exact .inl (hsame flight hp (by simp))
  | bind callable flight phase => exact .inl (hsame flight hp (by simp))
  | refuse error flight phase => exact .inl (hsame flight hp (by simp))
  | panic cause flight phase => exact .inl (hsame flight hp (by simp))
  | tell ticket event => exact .inl ⟨p, hp, rfl, rfl, rfl, fun _ _ h => .inl h⟩
  | discard flight phase => exact .inl (hsame flight hp (by simp))
  | leave flight phase =>
    refine .inl ⟨p, ?_, rfl, rfl, rfl, fun _ _ h => .inl h⟩
    rw [flight]
    exact Multiset.mem_cons_of_mem hp

/-- What the history says about the table and the requests in flight. -/
structure Recorded (x : Scene σ) : Prop where
  atWork : ∀ k name, Unfinished k name x.history → AtWork k name x.flight
  asked : ∀ o ∈ x.flight, .asked o.ticket o.name o.text ∈ x.history
  read : ∀ o ∈ x.flight, ∀ i signature, o.phase = .running i signature →
    Signature.parse o.text = .ok signature
  won : ∀ k name b, .ended k name (.returned (.ok b)) ∈ x.history → x.table.get? name = some b
  given : ∀ k name b, .answered k name (.returned (.ok b)) ∈ x.history →
    x.table.get? name = some b
  made : ∀ name b, x.table.get? name = some b → b.name = name ∧ b.id < x.fresh ∧
    ∃ k text, .asked k name text ∈ x.history ∧ .ended k name (.returned (.ok b)) ∈ x.history ∧
      Signature.parse text = .ok b.signature
  distinct : ∀ name other b c, x.table.get? name = some b → x.table.get? other = some c →
    b.id = c.id → name = other

/-- A name that is not bound has had no successful run. -/
theorem Recorded.not_won (hx : x.Recorded) {name : String} (hnone : x.table.get? name = none)
    (j : Nat) (b : Binding σ) : .ended j name (.returned (.ok b)) ∉ x.history := by
  intro hm
  have hsome := hx.won j name b hm
  rw [hnone] at hsome
  cases hsome

theorem recorded_start : (start : Scene σ).Recorded := by
  have hget : ∀ name, (Table.empty : Table σ).get? name = none := fun _ => rfl
  refine ⟨fun k name h => absurd h (not_unfinished_nil k name), ?_, ?_, ?_, ?_, ?_, ?_⟩ <;>
    simp [start, hget]

/-- **Every step keeps the record.** -/
theorem Recorded.step (h : Step x y) (hs : x.Sound) (hx : x.Recorded) : y.Recorded := by
  refine ⟨h.atWork hx.atWork, fun p hp => ?_, fun p hp i signature hphase => ?_,
    fun k name b hm => ?_, fun k name b hm => ?_, ?_, ?_⟩
  · rcases h.mem_flight hp with ⟨o, ho, hticket, hname, htext, -⟩ | ⟨-, hm⟩
    · rw [← hticket, ← hname, ← htext]
      exact h.mem_history (hx.asked o ho)
    · exact hm
  · rcases h.mem_flight hp with ⟨o, ho, -, -, htext, hrun⟩ | ⟨henter, -⟩
    · rcases hrun i signature hphase with hold | hnew
      · rw [← htext]
        exact hx.read o ho i signature hold
      · exact hnew
    · rw [henter] at hphase
      cases hphase
  · rcases hs.ended_ok_of_step h hm with hold | hnew
    · exact hs.get?_step h (hx.won k name b hold)
    · exact hnew
  · rcases hs.answered_ok_of_step h hm with hold | hnew
    · exact hs.get?_step h (hx.given k name b hold)
    · exact hs.get?_step h hnew
  · -- a binding is an old one, or the one that a run has just made
    intro name b hb
    rcases hs.get?_eq_or_bind h with ⟨hget, hfresh⟩ |
      ⟨o, ho, i, signature, callable, hphase, -, hfresh, hget, hhistory, -⟩
    · rw [hget] at hb
      obtain ⟨hname, hid, k, text, hasked, hended, hparse⟩ := hx.made name b hb
      exact ⟨hname, by rw [hfresh]; exact hid, k, text, h.mem_history hasked,
        h.mem_history hended, hparse⟩
    · rw [hget] at hb
      split at hb
      · next hn =>
        cases hb
        refine ⟨hn.symm, by rw [hfresh]; exact Nat.lt_succ_self _, o.ticket, o.text, ?_, ?_,
          hx.read o ho i signature hphase⟩
        · rw [hn]
          exact h.mem_history (hx.asked o ho)
        · rw [hhistory, hn]
          exact List.mem_cons_self
      · obtain ⟨hname, hid, k, text, hasked, hended, hparse⟩ := hx.made name b hb
        exact ⟨hname, by rw [hfresh]; exact Nat.lt_succ_of_lt hid, k, text,
          h.mem_history hasked, h.mem_history hended, hparse⟩
  · intro name other b c hb hc hid
    rcases hs.get?_eq_or_bind h with ⟨hget, -⟩ | ⟨o, -, i, signature, callable, -, -, -, hget, -⟩
    · rw [hget] at hb hc
      exact hx.distinct name other b c hb hc hid
    · rw [hget] at hb hc
      split at hb <;> split at hc
      · next hn ho => rw [hn, ho]
      · cases hb
        have := (hx.made other c hc).2.1
        rw [← hid] at this
        exact absurd this (Nat.lt_irrefl _)
      · cases hc
        have := (hx.made name b hb).2.1
        rw [hid] at this
        exact absurd this (Nat.lt_irrefl _)
      · exact hx.distinct name other b c hb hc hid

end Scene

/-- **The record is kept in every state that is reached.** -/
theorem recorded_of_reaches {world : σ} {threads : List (List (Request σ))} {s : State σ}
    (h : Reaches (.start world threads) s) : s.scene.Recorded :=
  invariant_of_reaches Scene.recorded_start
    (fun _ _ hstep hsound hrecorded => hrecorded.step hstep hsound) h

end Interleaving

end NativeLink
