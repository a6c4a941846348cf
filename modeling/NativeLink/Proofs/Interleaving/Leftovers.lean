import NativeLink.Cache.Contest
import NativeLink.Proofs.Interleaving.Record

/-!
# Slots that failed requests leave behind

A request that failed takes its slot out of the table unless another request holds
it.  One after the other, failed requests therefore leave nothing behind.  At the same
time they may: two requests that failed in one slot can each find the other still
holding it when they come to take it out, and then give it up, both, without looking
again.  `leftover_slot` is such a run.

What is true of all runs is that this is the only way.  When no request is in flight,
a name has a slot if and only if it is bound or the last request that went to take the
slot out met another holder (`keys_of_idle`).  `lastDiscard` reads that from the
history.

The invariant is `Scene.Tidy`: a slot in the table is bound, or somebody is seated in
it who will either bind it or come to take it out, or it was left behind.
-/

namespace NativeLink

namespace Interleaving

variable {σ : Type}

/-- No request is in flight. -/
def State.Idle (s : State σ) : Prop := ∀ thread ∈ s.threads, thread.calls = []

/-- How many others held the slot of a name when a request last went to take it out. -/
def lastDiscard (name : String) : List (Moment σ) → Option Nat
  | [] => none
  | .discarded _ other others :: rest =>
    if other = name then some others else lastDiscard name rest
  | _ :: rest => lastDiscard name rest

@[simp] theorem lastDiscard_discarded (name : String) (k : Nat) (other : String) (others : Nat)
    (rest : List (Moment σ)) : lastDiscard name (.discarded k other others :: rest) =
      if other = name then some others else lastDiscard name rest := rfl

theorem lastDiscard_append_told {name : String} {told history : List (Moment σ)}
    (ht : ∀ m ∈ told, ∃ ticket event, m = .told ticket event) :
    lastDiscard name (told ++ history) = lastDiscard name history := by
  induction told with
  | nil => rfl
  | cons m told ih =>
    obtain ⟨ticket, event, rfl⟩ := ht m List.mem_cons_self
    exact ih fun m' hm => ht m' (List.mem_cons_of_mem _ hm)

namespace Scene

variable {x y : Scene σ}

/-- Some request for a name is seated in slot `i`. -/
def Seated (name : String) (i : Nat) (flight : Multiset (Outline σ)) : Prop :=
  ∃ o ∈ flight, o.name = name ∧ o.phase.seat? = some i

/-- A request that keeps its seat counts as before, and the others count anyway. -/
theorem Seated.relabel {name : String} {i : Nat} {o : Outline σ} {rest : Multiset (Outline σ)}
    {p : Phase σ} (h : Seated name i (o ::ₘ rest))
    (hseat : o.phase.seat? = some i → p.seat? = some i) :
    Seated name i ({ o with phase := p } ::ₘ rest) := by
  obtain ⟨q, hq, hname, hi⟩ := h
  rcases Multiset.mem_cons.mp hq with rfl | hq
  · exact ⟨_, Multiset.mem_cons_self _ rest, hname, hseat hi⟩
  · exact ⟨q, Multiset.mem_cons_of_mem hq, hname, hi⟩

/-- A request without a seat does not count. -/
theorem Seated.of_cons {name : String} {i : Nat} {o : Outline σ} {rest : Multiset (Outline σ)}
    (h : Seated name i (o ::ₘ rest)) (hnot : o.phase.seat? ≠ some i) : Seated name i rest := by
  obtain ⟨q, hq, hname, hi⟩ := h
  rcases Multiset.mem_cons.mp hq with rfl | hq
  · exact absurd hi hnot
  · exact ⟨q, hq, hname, hi⟩

theorem Seated.cons {name : String} {i : Nat} {rest : Multiset (Outline σ)}
    (h : Seated name i rest) (o : Outline σ) : Seated name i (o ::ₘ rest) := by
  obtain ⟨q, hq, hname, hi⟩ := h
  exact ⟨q, Multiset.mem_cons_of_mem hq, hname, hi⟩

/-! ## The invariant -/

/-- Why a name has a slot. -/
structure Tidy (name : String) (x : Scene σ) : Prop where
  kept : ∀ i, x.table.position? name = some i → (∃ b, x.table.cell i = .bound b) ∨
    Seated name i x.flight ∨ ∃ others, lastDiscard name x.history = some (others + 1)
  left : ∀ others, lastDiscard name x.history = some (others + 1) →
    (x.table.position? name).isSome

theorem tidy_start (name : String) : Tidy name (start : Scene σ) := by
  constructor <;> simp [start, Table.position?, Table.empty, lastDiscard]

/-- A step that leaves the index alone need only look after the cell of the name. -/
theorem Tidy.keep {name : String} (hx : Tidy name x)
    (hpos : y.table.position? name = x.table.position? name)
    (hlast : lastDiscard name y.history = lastDiscard name x.history)
    (hcell : ∀ i, x.table.position? name = some i →
      (∃ b, x.table.cell i = .bound b) ∨ Seated name i x.flight →
        (∃ b, y.table.cell i = .bound b) ∨ Seated name i y.flight) : Tidy name y := by
  refine ⟨fun i hi => ?_, fun others ho => ?_⟩
  · rw [hpos] at hi
    rw [hlast]
    rcases hx.kept i hi with hbound | hseated | hleft
    · exact (hcell i hi (.inl hbound)).imp_right .inl
    · exact (hcell i hi (.inr hseated)).imp_right .inl
    · exact .inr (.inr hleft)
  · rw [hpos]
    exact hx.left others (by rw [← hlast]; exact ho)

/-- A request that stays seated changes a cell that is not bound. -/
theorem Tidy.setCell {name : String} (hx : Tidy name x) (hs : x.Sound) {o : Outline σ}
    {rest : Multiset (Outline σ)} {slot : Nat} {c : Cell σ} {p : Phase σ}
    (hflight : x.flight = o ::ₘ rest) (hseat : o.phase.seat? = some slot)
    (hnew : o.name = name → (∃ b, c = .bound b) ∨ p.seat? = some slot)
    (htable : y.table = x.table.setCell slot c)
    (hf : y.flight = { o with phase := p } ::ₘ rest)
    (hlast : lastDiscard name y.history = lastDiscard name x.history) : Tidy name y := by
  have ho : o ∈ x.flight := mem_of_eq_cons hflight
  have hslot := hs.seated o ho slot hseat
  refine hx.keep (by rw [htable, Table.position?_setCell]) hlast fun i hi hwhy => ?_
  rw [htable, hf, Table.cell_setCell (hs.wellFormed.inside hslot)]
  by_cases h : i = slot
  · -- the request sits in the slot of the name, so the name is its own
    subst h
    have hname := hs.wellFormed.apart hslot hi
    rw [if_pos rfl]
    refine (hnew hname).imp_right fun hp => ?_
    exact ⟨_, Multiset.mem_cons_self _ rest, hname, hp⟩
  · rw [if_neg h]
    refine hwhy.imp_right fun hseated => ?_
    rw [hflight] at hseated
    refine hseated.relabel fun hi' => absurd (Option.some.inj (hi'.symm.trans hseat)) h

/-- **Taking a slot out or leaving it behind**: whichever happens, the history tells. -/
theorem Tidy.discard {name : String} (hx : Tidy name x) (hs : x.Sound) {o : Outline σ}
    {rest : Multiset (Outline σ)} {slot : Nat} {error : ResolveError}
    (hflight : x.flight = o ::ₘ rest) (hphase : o.phase = .failing slot error) :
    Tidy name { x with
      table := x.table.discardUnbound o.name slot
      flight := { o with phase := .leaving slot (.returned (.error error)) } ::ₘ rest
      history := .discarded o.ticket o.name (x.table.holders slot - 1) :: x.history } := by
  have ho : o ∈ x.flight := mem_of_eq_cons hflight
  have hseat : o.phase.seat? = some slot := by rw [hphase]; rfl
  have hslot := hs.seated o ho slot hseat
  by_cases hname : o.name = name
  · -- the request holds the slot itself, so it has one holder at least
    subst hname
    have hholds : 0 < x.table.holders slot := by
      rw [hs.holders]
      exact Multiset.countP_pos_of_mem ho (Phase.slot?_of_seat? hseat)
    refine ⟨fun i hi => ?_, fun others hothers => ?_⟩
    · rw [Table.position?_discardUnbound] at hi
      split at hi
      · cases hi
      · next hused =>
        rw [hslot] at hi
        cases hi
        simp only [Table.cell_discardUnbound, lastDiscard_discarded, if_true]
        by_cases halone : x.table.holders slot = 1
        · -- alone in a slot that is not taken out: it is bound
          left
          cases hc : x.table.cell slot with
          | bound b => exact ⟨b, rfl⟩
          | empty => simp [Table.isUnused, hslot, halone, hc, Cell.binding?] at hused
          | busy => simp [Table.isUnused, hslot, halone, hc, Cell.binding?] at hused
        · exact .inr (.inr ⟨x.table.holders slot - 2, congrArg some (by omega)⟩)
    · simp only [lastDiscard_discarded, if_true, Option.some.injEq] at hothers
      have hused : ¬ x.table.isUnused o.name slot := by
        simp only [Table.isUnused, Bool.and_eq_true, beq_iff_eq]
        omega
      rw [Table.position?_discardUnbound, if_neg (fun h => hused h.2), hslot]
      rfl
  · refine hx.keep ?_ ?_ fun i hi hwhy => ?_
    · rw [Table.position?_discardUnbound, if_neg]
      exact fun h => hname h.1.symm
    · rw [lastDiscard_discarded, if_neg hname]
    · rw [Table.cell_discardUnbound]
      refine hwhy.imp_right fun hseated => ?_
      obtain ⟨q, hq, hqname, hqi⟩ := hseated
      rw [hflight] at hq
      rcases Multiset.mem_cons.mp hq with rfl | hq
      · exact absurd hqname hname
      · exact ⟨q, Multiset.mem_cons_of_mem hq, hqname, hqi⟩

/-- **Every step keeps the invariant** of a name whose runs do not panic. -/
theorem Tidy.step {name : String} (h : Step x y) (hs : x.Sound)
    (hcalm : ∀ k cause, .ended k name (.panicked cause) ∉ y.history) (hx : Tidy name x) :
    Tidy name y := by
  cases h with
  | ask other text =>
    exact hx.keep rfl rfl fun i _ hwhy => hwhy.imp_right fun hseated => hseated.cons _
  | @enter o rest flight phase =>
    refine ⟨fun i hi => ?_, fun others hothers => ?_⟩
    · rw [Table.position?_acquire] at hi
      split at hi
      · next hname =>
        exact .inr (.inl ⟨_, Multiset.mem_cons_self _ rest, hname.symm, hi⟩)
      · rw [Table.cell_acquire]
        refine (hx.kept i hi).imp_right fun hwhy => hwhy.imp_left fun hseated => ?_
        rw [flight] at hseated
        exact hseated.relabel (by simp [phase, Phase.seat?])
    · rw [Table.position?_acquire]
      split
      · rfl
      · exact hx.left others hothers
  | @hit o rest slot binding flight phase cell =>
    refine hx.keep rfl (lastDiscard_append_told (by simp)) fun i hi hwhy => ?_
    by_cases h : i = slot
    · exact .inl ⟨binding, by rw [h]; exact cell⟩
    · refine hwhy.imp_right fun hseated => ?_
      rw [flight] at hseated
      refine hseated.relabel fun hi' => absurd ?_ h
      rw [phase] at hi'
      exact (Option.some.inj hi').symm
  | begin flight phase cell =>
    exact hx.setCell hs flight (by rw [phase]; rfl) (fun _ => .inr rfl) rfl rfl rfl
  | accept flight phase text =>
    refine hx.keep rfl rfl fun i _ hwhy => hwhy.imp_right fun hseated => ?_
    rw [flight] at hseated
    exact hseated.relabel fun hi => by rw [phase] at hi; exact hi
  | reject flight phase text =>
    exact hx.setCell hs flight (by rw [phase]; rfl) (fun _ => .inr rfl) rfl rfl rfl
  | bind callable flight phase =>
    exact hx.setCell hs flight (by rw [phase]; rfl) (fun _ => .inl ⟨_, rfl⟩) rfl rfl rfl
  | refuse error flight phase =>
    exact hx.setCell hs flight (by rw [phase]; rfl) (fun _ => .inr rfl) rfl rfl rfl
  | @panic o rest slot signature cause flight phase =>
    refine hx.setCell hs flight (by rw [phase]; rfl) (fun hname => ?_) rfl rfl rfl
    exact absurd (by rw [hname]; exact List.mem_cons_self) (hcalm o.ticket cause)
  | tell ticket event => exact hx.keep rfl rfl fun i _ hwhy => hwhy
  | discard flight phase => exact hx.discard hs flight phase
  | leave flight phase =>
    refine hx.keep rfl rfl fun i _ hwhy => ?_
    rw [Table.cell_release]
    refine hwhy.imp_right fun hseated => ?_
    rw [flight] at hseated
    exact hseated.of_cons (by simp [phase, Phase.seat?])

end Scene

theorem tidy_of_reaches {world : σ} {threads : List (List (Request σ))} {s : State σ}
    (h : Reaches (.start world threads) s) {name : String}
    (hcalm : ∀ k cause, .ended k name (.panicked cause) ∉ s.history) : s.scene.Tidy name := by
  refine invariant_of_reaches
    (P := fun x => (∀ k cause, .ended k name (.panicked cause) ∉ x.history) → x.Tidy name)
    (fun _ => Scene.tidy_start name) (fun x y hstep hsound htidy hy => ?_) h hcalm
  -- no panic so far means that there was none before either
  refine .step hstep hsound hy (htidy fun k cause hm => ?_)
  exact hy k cause (hstep.mem_history hm)

/-! ## The result -/

/-- What the last discard met, some discard met. -/
theorem discarded_of_lastDiscard {name : String} {others : Nat} {history : List (Moment σ)}
    (h : lastDiscard name history = some others) : ∃ k, .discarded k name others ∈ history := by
  induction history with
  | nil => cases h
  | cons m history ih =>
    have hbehind : lastDiscard name history = some others →
        ∃ k, .discarded k name others ∈ m :: history := fun hold =>
      (ih hold).imp fun k hk => List.mem_cons_of_mem m hk
    cases m with
    | discarded k other n =>
      rw [lastDiscard_discarded] at h
      split at h
      · next hname =>
        rw [Option.some.inj h, hname]
        exact ⟨k, List.mem_cons_self⟩
      · exact hbehind h
    | _ => exact hbehind h

/-- **Which names have a slot when no request is in flight**: those that are bound, and those whose
slot was held by another request when a failed one last went to take it out.  So if that never
happened to a name, it has a slot only if it is bound. -/
theorem keys_of_idle {world : σ} {threads : List (List (Request σ))} {s : State σ}
    (h : Reaches (.start world threads) s) (hidle : s.Idle) {name : String}
    (hcalm : ∀ k cause, .ended k name (.panicked cause) ∉ s.history) :
    (s.table.index.map Prod.fst).Nodup ∧
      (name ∈ s.table.index.map Prod.fst ↔ name ∈ s.table.names ∨
        ∃ others, lastDiscard name s.history = some (others + 1)) ∧
      ((∀ k others, .discarded k name others ∈ s.history → others = 0) →
        (name ∈ s.table.index.map Prod.fst ↔ name ∈ s.table.names)) := by
  have hwell : s.table.WellFormed := (sound_of_reaches h).wellFormed
  have htidy := tidy_of_reaches h hcalm
  have hseated : ∀ i, ¬ Scene.Seated name i s.scene.flight := by
    rintro i ⟨o, ho, -⟩
    obtain ⟨thread, hthread, call, hcall, -⟩ := mem_inFlight.mp ho
    rw [hidle thread hthread] at hcall
    cases hcall
  have hbound : name ∈ s.table.names → name ∈ s.table.index.map Prod.fst := by
    intro hn
    obtain ⟨b, hb⟩ := (hwell.mem_names_iff name).mp hn
    obtain ⟨i, hi, -⟩ := Table.get?_eq_some_iff.mp hb
    exact (s.table.position?_isSome_iff name).mp (by rw [hi]; rfl)
  have hkeys : name ∈ s.table.index.map Prod.fst → name ∈ s.table.names ∨
      ∃ others, lastDiscard name s.history = some (others + 1) := by
    intro hk
    obtain ⟨i, hi⟩ := Option.isSome_iff_exists.mp ((s.table.position?_isSome_iff name).mpr hk)
    rcases htidy.kept i hi with ⟨b, hb⟩ | hseat | hleft
    · refine .inl ((hwell.mem_names_iff name).mpr ⟨b, ?_⟩)
      exact Table.get?_eq_some_iff.mpr ⟨i, hi, hb⟩
    · exact absurd hseat (hseated i)
    · exact .inr hleft
  refine ⟨hwell.keys, ⟨hkeys, ?_⟩, fun halone => ⟨fun hk => ?_, hbound⟩⟩
  · rintro (hn | ⟨others, ho⟩)
    · exact hbound hn
    · exact (s.table.position?_isSome_iff name).mp (htidy.left others ho)
  · refine (hkeys hk).resolve_right ?_
    rintro ⟨others, ho⟩
    obtain ⟨k, hm⟩ := discarded_of_lastDiscard ho
    exact absurd (halone k _ hm) (Nat.succ_ne_zero others)

/-! ## Two requests that each find the other -/

/-- Request 1 begins when request 0 has failed, in the same slot; both have failed before either
goes to take the slot out, and both have gone before either gives it up. -/
def leftover : State Contest.Asked :=
  follow [0, 0, 0, 0, 1, 1, 1, 0, 0, 0, 1, 1, 1, 1, 0, 1, 0, 1]
    (Contest.start ⟨2, ["@gone"], "():VOID", 2⟩ .plain)

/-- Whether a run ended with a panic. -/
def isCrash : Moment σ → Bool
  | .ended _ _ (.panicked _) => true
  | _ => false

theorem leftover_idle : leftover.Idle := by
  have hthreads : leftover.threads = [⟨[], []⟩, ⟨[], []⟩] := rfl
  simp [State.Idle, hthreads]

theorem leftover_calm (k : Nat) (name : String) (cause : Panic) :
    .ended k name (.panicked cause) ∉ leftover.history := by
  have hnone : leftover.history.any isCrash = false := rfl
  intro hm
  have hcrash := List.any_eq_false.mp hnone _ hm
  exact hcrash rfl

/-- Neither request bound the name, and it has a slot. -/
theorem leftover_table :
    leftover.table.index.map Prod.fst = ["@gone"] ∧ leftover.table.names = [] := by
  have hbound : leftover.table.boundNames = [] := rfl
  exact ⟨rfl, by simp [Table.names, hbound]⟩

/-- **It is not true that only bound names have a slot when no request is in flight.** -/
theorem leftover_slot :
    ¬ ∀ (world : Contest.Asked) (threads : List (List (Request Contest.Asked)))
      (s : State Contest.Asked), Reaches (.start world threads) s → s.Idle →
      (∀ k name cause, .ended k name (.panicked cause) ∉ s.history) →
      ∀ name, name ∈ s.table.index.map Prod.fst ↔ name ∈ s.table.names := by
  intro h
  obtain ⟨hkeys, hnames⟩ := leftover_table
  have hiff := h _ _ leftover (reaches_follow _ _) leftover_idle leftover_calm "@gone"
  rw [hkeys, hnames] at hiff
  simp at hiff

/-- The history of that run tells that the slot was left behind. -/
theorem leftover_accounted_for :
    lastDiscard "@gone" leftover.history = some 1 ∧
      ("@gone" ∈ leftover.table.index.map Prod.fst ↔ "@gone" ∈ leftover.table.names ∨
        ∃ others, lastDiscard "@gone" leftover.history = some (others + 1)) :=
  ⟨rfl, (keys_of_idle (reaches_follow _ _) leftover_idle
    fun k cause => leftover_calm k "@gone" cause).2.1⟩

end Interleaving

end NativeLink
