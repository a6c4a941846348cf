import Mathlib.Data.Multiset.Count
import NativeLink.Proofs.Cache.Table
import NativeLink.Proofs.Interleaving.Scene

/-!
# The invariant of concurrent requests

A slot may leave the table while requests for its name are on their way, so it is
not obvious that two of them can never work in two different slots.  What rules it
out is that the count of holders is right: a slot is taken out by a request that is
its only holder, so nobody is left behind in it.

`Scene.Sound` says this and what else it rests on.  Its fields are about

* the count: `holders` is the number of requests in flight that hold the slot;
* the seats: a request that is not done with its slot finds it under its name
  (`seated`), and no slot in the table is held under another name (`named`);
* the cells: a cell is busy exactly when one request works in it (`workers`), and a
  bound cell is the one its name is looked up at (`bound`, `served`).

`Scene.Sound.step` goes through the kinds of step.  Several of them do the same to
the table, so there is one lemma for each of those changes.
-/

namespace NativeLink

namespace Interleaving

variable {σ : Type}

/-- Whether a request works in a cell. -/
def isBusy : Cell σ → Bool
  | .empty => false
  | .busy => true
  | .bound _ => false

namespace Scene

/-- The number of requests that hold slot `i`. -/
def holding (flight : Multiset (Outline σ)) (i : Nat) : Nat :=
  flight.countP fun o => o.phase.slot? = some i

/-- The number of requests that work in slot `i`. -/
def working (flight : Multiset (Outline σ)) (i : Nat) : Nat :=
  flight.countP fun o => o.phase.work? = some i

theorem holding_cons (o : Outline σ) (rest : Multiset (Outline σ)) (i : Nat) :
    holding (o ::ₘ rest) i = holding rest i + if o.phase.slot? = some i then 1 else 0 :=
  Multiset.countP_cons _ _ _

theorem working_cons (o : Outline σ) (rest : Multiset (Outline σ)) (i : Nat) :
    working (o ::ₘ rest) i = working rest i + if o.phase.work? = some i then 1 else 0 :=
  Multiset.countP_cons _ _ _

/-- What holds of the requests in flight and the table, whoever made the last step. -/
structure Sound (x : Scene σ) : Prop where
  wellFormed : x.table.WellFormed
  holders : ∀ i, x.table.holders i = holding x.flight i
  held : ∀ o ∈ x.flight, ∀ i, o.phase.slot? = some i → i < x.table.slots.length
  named : ∀ o ∈ x.flight, ∀ i, o.phase.slot? = some i →
    ∀ name, x.table.position? name = some i → name = o.name
  seated : ∀ o ∈ x.flight, ∀ i, o.phase.seat? = some i → x.table.position? o.name = some i
  workers : ∀ i, working x.flight i = if isBusy (x.table.cell i) then 1 else 0
  bound : ∀ i b, x.table.cell i = .bound b → x.table.position? b.name = some i
  served : ∀ o ∈ x.flight, ∀ i b, o.phase = .leaving i (.returned (.ok b)) →
    x.table.position? o.name = some i ∧ x.table.cell i = .bound b

theorem sound_start : (start : Scene σ).Sound := by
  have hcell : ∀ i, (Table.empty : Table σ).cell i = .empty := fun i => by
    simp [Table.cell, Table.empty]
  refine ⟨Table.wellFormed_empty, fun i => ?_, ?_, ?_, ?_, fun i => ?_, fun i b h => ?_, ?_⟩
  · simp [start, Table.holders, Table.empty, holding]
  · simp [start]
  · simp [start]
  · simp [start]
  · simp [start, working, hcell, isBusy]
  · rw [start, hcell] at h
    cases h
  · simp [start]

namespace Sound

variable {x : Scene σ}

/-! ## Reading the invariant -/

/-- A request works in a busy cell. -/
theorem busy_of_work {o : Outline σ} {i : Nat} (hx : x.Sound) (ho : o ∈ x.flight)
    (hw : o.phase.work? = some i) : x.table.cell i = .busy := by
  have hpos : 0 < working x.flight i := Multiset.countP_pos_of_mem ho hw
  rw [hx.workers] at hpos
  cases hc : x.table.cell i with
  | busy => rfl
  | empty => simp [hc, isBusy] at hpos
  | bound b => simp [hc, isBusy] at hpos

/-- Some request works in a busy cell. -/
theorem exists_work {i : Nat} (hx : x.Sound) (h : x.table.cell i = .busy) :
    ∃ o ∈ x.flight, o.phase.work? = some i := by
  have hcount := hx.workers i
  rw [h] at hcount
  exact Multiset.countP_pos.mp (by rw [working] at hcount; simp [hcount, isBusy])

/-- Nobody works beside a request that works. -/
theorem working_rest_of_work {o : Outline σ} {rest : Multiset (Outline σ)} {i : Nat}
    (hx : x.Sound) (hflight : x.flight = o ::ₘ rest) (hw : o.phase.work? = some i) :
    working rest i = 0 := by
  have hcount := hx.workers i
  rw [hx.busy_of_work (mem_of_eq_cons hflight) hw, hflight,
    working_cons, if_pos hw] at hcount
  simpa [isBusy] using hcount

/-- Nobody works in an empty cell. -/
theorem working_rest_of_empty {o : Outline σ} {rest : Multiset (Outline σ)} {i : Nat}
    (hx : x.Sound) (hflight : x.flight = o ::ₘ rest) (hc : x.table.cell i = .empty) :
    working rest i = 0 := by
  have hcount := hx.workers i
  rw [hc, hflight, working_cons] at hcount
  simp only [isBusy, Bool.false_eq_true, if_false] at hcount
  omega

/-! ## Keeping the invariant -/

/-- A request that holds nothing comes. -/
theorem ask (hx : x.Sound) {o : Outline σ} (hphase : o.phase = .entering) {tickets : Nat}
    {history : List (Moment σ)} :
    Sound { x with tickets := tickets, flight := o ::ₘ x.flight, history := history } := by
  refine ⟨hx.wellFormed, fun i => ?_, ?_, ?_, ?_, fun i => ?_, hx.bound, ?_⟩
  · rw [holding_cons, hphase]
    simpa [Phase.slot?] using hx.holders i
  · rw [Multiset.forall_mem_cons]
    exact ⟨by simp [hphase, Phase.slot?], hx.held⟩
  · rw [Multiset.forall_mem_cons]
    exact ⟨by simp [hphase, Phase.slot?], hx.named⟩
  · rw [Multiset.forall_mem_cons]
    exact ⟨by simp [hphase, Phase.seat?], hx.seated⟩
  · rw [working_cons, hphase]
    simpa [Phase.work?] using hx.workers i
  · rw [Multiset.forall_mem_cons]
    exact ⟨by simp [hphase], hx.served⟩

/-- A request takes a seat. -/
theorem enter (hx : x.Sound) {o : Outline σ} {rest : Multiset (Outline σ)}
    (hflight : x.flight = o ::ₘ rest) (hphase : o.phase = .entering) :
    Sound { x with
      table := (x.table.acquire o.name).2
      flight := { o with phase := .seeking (x.table.acquire o.name).1 } ::ₘ rest } := by
  have hheld := hx.held
  have hnamed := hx.named
  have hseated := hx.seated
  have hserved := hx.served
  rw [hflight, Multiset.forall_mem_cons] at hheld hnamed hseated hserved
  -- what was found under a name before is still found there
  have hkept : ∀ {name i}, x.table.position? name = some i →
      (x.table.acquire o.name).2.position? name = some i := by
    intro name i hi
    rw [Table.position?_acquire]
    split
    · next hn => rw [Table.acquire_of_some (by rw [← hn]; exact hi)]
    · exact hi
  refine ⟨hx.wellFormed.acquire o.name, fun i => ?_, ?_, ?_, ?_, fun i => ?_, fun i b hb => ?_, ?_⟩
  · have hcount := hx.holders i
    rw [hflight, holding_cons, hphase] at hcount
    simp only [Phase.slot?, reduceCtorEq, if_false, Nat.add_zero] at hcount
    rw [Table.holders_acquire x.table (fun i hi => hx.wellFormed.inside hi), hcount, holding_cons]
    simp [Phase.slot?]
  · rw [Multiset.forall_mem_cons]
    refine ⟨fun i hi => ?_, fun p hp i hi => ?_⟩
    · simp only [Phase.slot?, Option.some.injEq] at hi
      rw [← hi]
      exact hx.wellFormed.acquire_lt o.name
    · exact Nat.lt_of_lt_of_le (hheld.2 p hp i hi) (Table.length_le_acquire x.table o.name)
  · rw [Multiset.forall_mem_cons]
    refine ⟨fun i hi name hname => ?_, fun p hp i hi name hname => ?_⟩
    · simp only [Phase.slot?, Option.some.injEq] at hi
      refine (hx.wellFormed.acquire o.name).apart hname ?_
      rw [← hi]
      exact Table.position?_acquire_self x.table o.name
    · rw [Table.position?_acquire] at hname
      split at hname
      · next hn =>
        -- the slot was there before, for its holder holds it
        cases hpos : x.table.position? o.name with
        | some j =>
          rw [Table.acquire_of_some hpos] at hname
          rw [hn]
          exact hnamed.2 p hp i hi o.name (by rw [hpos, hname])
        | none =>
          have hlt := hheld.2 p hp i hi
          rw [Table.acquire_of_none hpos] at hname
          rw [← Option.some.inj hname] at hlt
          exact absurd hlt (Nat.lt_irrefl _)
      · exact hnamed.2 p hp i hi name hname
  · rw [Multiset.forall_mem_cons]
    refine ⟨fun i hi => ?_, fun p hp i hi => hkept (hseated.2 p hp i hi)⟩
    simp only [Phase.seat?, Option.some.injEq] at hi
    rw [← hi]
    exact Table.position?_acquire_self x.table o.name
  · have hcount := hx.workers i
    rw [hflight, working_cons, hphase] at hcount
    simpa [working_cons, Phase.work?] using hcount
  · rw [Table.cell_acquire] at hb
    exact hkept (hx.bound i b hb)
  · rw [Multiset.forall_mem_cons]
    refine ⟨by simp, fun p hp i b hb => ?_⟩
    obtain ⟨hpos, hcell⟩ := hserved.2 p hp i b hb
    exact ⟨hkept hpos, by rw [Table.cell_acquire]; exact hcell⟩

/-- A request goes on without touching the table. -/
theorem relabel (hx : x.Sound) {o : Outline σ} {rest : Multiset (Outline σ)} {p : Phase σ}
    (hflight : x.flight = o ::ₘ rest) (hslot : p.slot? = o.phase.slot?)
    (hwork : p.work? = o.phase.work?) (hseat : ∀ i, p.seat? = some i → o.phase.seat? = some i)
    (hserve : ∀ i b, p = .leaving i (.returned (.ok b)) →
      x.table.position? o.name = some i ∧ x.table.cell i = .bound b)
    {history : List (Moment σ)} :
    Sound { x with flight := { o with phase := p } ::ₘ rest, history := history } := by
  have hheld := hx.held
  have hnamed := hx.named
  have hseated := hx.seated
  have hserved := hx.served
  rw [hflight, Multiset.forall_mem_cons] at hheld hnamed hseated hserved
  refine ⟨hx.wellFormed, fun i => ?_, ?_, ?_, ?_, fun i => ?_, hx.bound, ?_⟩
  · have hcount := hx.holders i
    rw [hflight, holding_cons] at hcount
    rw [holding_cons, hslot]
    exact hcount
  · rw [Multiset.forall_mem_cons]
    exact ⟨fun i hi => hheld.1 i (hslot ▸ hi), hheld.2⟩
  · rw [Multiset.forall_mem_cons]
    exact ⟨fun i hi => hnamed.1 i (hslot ▸ hi), hnamed.2⟩
  · rw [Multiset.forall_mem_cons]
    exact ⟨fun i hi => hseated.1 i (hseat i hi), hseated.2⟩
  · have hcount := hx.workers i
    rw [hflight, working_cons] at hcount
    rw [working_cons, hwork]
    exact hcount
  · rw [Multiset.forall_mem_cons]
    exact ⟨hserve, hserved.2⟩

/-- A request with a seat goes on and changes its cell, which nobody else works in. -/
theorem setCell (hx : x.Sound) {o : Outline σ} {rest : Multiset (Outline σ)} {p : Phase σ}
    {slot : Nat} {c : Cell σ} (hflight : x.flight = o ::ₘ rest)
    (hseat : o.phase.seat? = some slot) (hidle : working rest slot = 0)
    (hold : ∀ b, x.table.cell slot ≠ .bound b) (hslot : p.slot? = some slot)
    (hwork : p.work? = if isBusy c then some slot else none)
    (hbound : ∀ b, c = .bound b → b.name = o.name)
    (hserve : ∀ i b, p = .leaving i (.returned (.ok b)) → i = slot ∧ c = .bound b)
    {fresh : Nat} {history : List (Moment σ)} :
    Sound { x with
      table := x.table.setCell slot c
      fresh := fresh
      flight := { o with phase := p } ::ₘ rest
      history := history } := by
  have hheld := hx.held
  have hnamed := hx.named
  have hseated := hx.seated
  have hserved := hx.served
  rw [hflight, Multiset.forall_mem_cons] at hheld hnamed hseated hserved
  have hpos : x.table.position? o.name = some slot := hseated.1 slot hseat
  have hlt : slot < x.table.slots.length := hx.wellFormed.inside hpos
  have hcell : ∀ i, (x.table.setCell slot c).cell i = if i = slot then c else x.table.cell i :=
    Table.cell_setCell hlt c
  refine ⟨hx.wellFormed.setCell slot c, fun i => ?_, ?_, ?_, ?_, fun i => ?_, fun i b hb => ?_, ?_⟩
  · have hcount := hx.holders i
    rw [hflight, holding_cons, Phase.slot?_of_seat? hseat] at hcount
    rw [Table.holders_setCell, holding_cons, hslot]
    exact hcount
  · simp only [Table.length_setCell]
    rw [Multiset.forall_mem_cons]
    refine ⟨fun i hi => ?_, hheld.2⟩
    rw [← Option.some.inj (hslot.symm.trans hi)]
    exact hlt
  · rw [Multiset.forall_mem_cons]
    refine ⟨fun i hi => hnamed.1 i ?_, hnamed.2⟩
    rw [← hi, hslot]
    exact Phase.slot?_of_seat? hseat
  · rw [Multiset.forall_mem_cons]
    refine ⟨fun i hi => ?_, hseated.2⟩
    rw [← Option.some.inj (hslot.symm.trans (Phase.slot?_of_seat? hi))]
    exact hpos
  · -- away from the slot the count is the old one; in it the request is alone
    have hcount := hx.workers i
    rw [hflight, working_cons] at hcount
    rw [hcell, working_cons, hwork]
    by_cases hi : i = slot
    · subst hi
      rw [hidle, if_pos rfl]
      cases isBusy c <;> simp
    · have hnew : (if isBusy c then some slot else none) ≠ some i := by
        cases isBusy c
        · simp
        · simpa using Ne.symm hi
      have hwas : o.phase.work? ≠ some i := fun h =>
        hi (Option.some.inj ((Phase.seat?_of_work? h).symm.trans hseat))
      rw [if_neg hi, if_neg hnew]
      rw [if_neg hwas] at hcount
      exact hcount
  · rw [hcell] at hb
    split at hb
    · next hi =>
      rw [hi, hbound b hb]
      exact hpos
    · exact hx.bound i b hb
  · rw [Multiset.forall_mem_cons]
    refine ⟨fun i b hb => ?_, fun q hq i b hb => ?_⟩
    · obtain ⟨rfl, hc⟩ := hserve i b hb
      exact ⟨hpos, by rw [hcell, if_pos rfl]; exact hc⟩
    · obtain ⟨hqpos, hqcell⟩ := hserved.2 q hq i b hb
      refine ⟨hqpos, ?_⟩
      rw [hcell]
      split
      · next hi =>
        rw [hi] at hqcell
        exact absurd hqcell (hold b)
      · exact hqcell

/-- A request that works in its cell ends its work and leaves `c` behind. -/
theorem finish (hx : x.Sound) {o : Outline σ} {rest : Multiset (Outline σ)} {p : Phase σ}
    {slot : Nat} {c : Cell σ} (hflight : x.flight = o ::ₘ rest)
    (hwork : o.phase.work? = some slot) (hslot : p.slot? = some slot) (hdone : p.work? = none)
    (hidle : isBusy c = false) (hbound : ∀ b, c = .bound b → b.name = o.name)
    (hserve : ∀ i b, p = .leaving i (.returned (.ok b)) → i = slot ∧ c = .bound b)
    {fresh : Nat} {history : List (Moment σ)} :
    Sound { x with
      table := x.table.setCell slot c
      fresh := fresh
      flight := { o with phase := p } ::ₘ rest
      history := history } := by
  have ho : o ∈ x.flight := mem_of_eq_cons hflight
  have hold : ∀ b, x.table.cell slot ≠ .bound b := by
    simp [hx.busy_of_work ho hwork]
  refine hx.setCell hflight (Phase.seat?_of_work? hwork)
    (hx.working_rest_of_work hflight hwork) hold hslot ?_ hbound hserve
  rw [hdone, hidle]
  rfl

/-- **A request that failed takes its slot out only if nobody else is left in it.** -/
theorem discard (hx : x.Sound) {o : Outline σ} {rest : Multiset (Outline σ)} {slot : Nat}
    {error : ResolveError} (hflight : x.flight = o ::ₘ rest)
    (hphase : o.phase = .failing slot error) {history : List (Moment σ)} :
    Sound { x with
      table := x.table.discardUnbound o.name slot
      flight := { o with phase := .leaving slot (.returned (.error error)) } ::ₘ rest
      history := history } := by
  have hheld := hx.held
  have hnamed := hx.named
  have hseated := hx.seated
  have hserved := hx.served
  rw [hflight, Multiset.forall_mem_cons] at hheld hnamed hseated hserved
  have hpos : x.table.position? o.name = some slot := hseated.1 slot (by rw [hphase]; rfl)
  have hslot : o.phase.slot? = some slot := by rw [hphase]; rfl
  -- a slot that is taken out has no holder but `o`, and is not bound
  have halone : x.table.isUnused o.name slot → ∀ p ∈ rest, p.phase.slot? ≠ some slot := by
    intro hunused p hp hpslot
    have hcount := hx.holders slot
    rw [hflight, holding_cons, if_pos hslot] at hcount
    have hmore : 0 < holding rest slot := Multiset.countP_pos_of_mem hp hpslot
    simp only [Table.isUnused, Bool.and_eq_true, beq_iff_eq] at hunused
    omega
  have hunbound : x.table.isUnused o.name slot → ∀ b, x.table.cell slot ≠ .bound b := by
    intro hunused b hb
    simp [Table.isUnused, hb, Cell.binding?] at hunused
  have hkept : ∀ {name i}, (x.table.isUnused o.name slot → i ≠ slot) →
      x.table.position? name = some i →
      (x.table.discardUnbound o.name slot).position? name = some i := by
    intro name i hne hi
    rw [Table.position?_discardUnbound, if_neg]
    · exact hi
    · rintro ⟨rfl, hunused⟩
      exact hne hunused (Option.some.inj (hi.symm.trans hpos))
  have hold : ∀ {name i}, (x.table.discardUnbound o.name slot).position? name = some i →
      x.table.position? name = some i := by
    intro name i hi
    rw [Table.position?_discardUnbound] at hi
    split at hi
    · cases hi
    · exact hi
  refine ⟨hx.wellFormed.discardUnbound o.name slot, fun i => ?_, ?_, ?_, ?_, fun i => ?_,
    fun i b hb => ?_, ?_⟩
  · have hcount := hx.holders i
    rw [hflight, holding_cons, hslot] at hcount
    rw [Table.holders_discardUnbound, holding_cons]
    exact hcount
  · simp only [Table.slots_discardUnbound]
    rw [Multiset.forall_mem_cons]
    refine ⟨fun i hi => ?_, hheld.2⟩
    rw [← Option.some.inj hi]
    exact hx.wellFormed.inside hpos
  · rw [Multiset.forall_mem_cons]
    refine ⟨fun i hi name hname => ?_, fun p hp i hi name hname =>
      hnamed.2 p hp i hi name (hold hname)⟩
    exact hnamed.1 i (by rw [hslot]; exact hi) name (hold hname)
  · rw [Multiset.forall_mem_cons]
    refine ⟨by simp [Phase.seat?], fun p hp i hi => hkept ?_ (hseated.2 p hp i hi)⟩
    rintro hunused rfl
    exact halone hunused p hp (Phase.slot?_of_seat? hi)
  · have hcount := hx.workers i
    rw [hflight, working_cons, hphase] at hcount
    simp only [Table.cell_discardUnbound]
    rw [working_cons]
    exact hcount
  · rw [Table.cell_discardUnbound] at hb
    refine hkept ?_ (hx.bound i b hb)
    rintro hunused rfl
    exact hunbound hunused b hb
  · rw [Multiset.forall_mem_cons]
    refine ⟨by simp, fun p hp i b hb => ?_⟩
    obtain ⟨hppos, hpcell⟩ := hserved.2 p hp i b hb
    refine ⟨hkept ?_ hppos, by rw [Table.cell_discardUnbound]; exact hpcell⟩
    rintro hunused rfl
    exact hunbound hunused b hpcell

/-- A request gives its slot up. -/
theorem leave (hx : x.Sound) {o : Outline σ} {rest : Multiset (Outline σ)} {slot : Nat}
    {outcome : Outcome (Answer σ)} (hflight : x.flight = o ::ₘ rest)
    (hphase : o.phase = .leaving slot outcome) {history : List (Moment σ)} :
    Sound { x with table := x.table.release slot, flight := rest, history := history } := by
  have hheld := hx.held
  have hnamed := hx.named
  have hseated := hx.seated
  have hserved := hx.served
  rw [hflight, Multiset.forall_mem_cons] at hheld hnamed hseated hserved
  refine ⟨hx.wellFormed.release slot, fun i => ?_, ?_, hnamed.2, hseated.2, fun i => ?_,
    fun i b hb => ?_, fun p hp i b hb => ?_⟩
  · have hcount := hx.holders i
    rw [hflight, holding_cons, hphase] at hcount
    by_cases hi : slot = i
    · subst hi
      rw [Table.holders_release_self, hcount]
      simp [Phase.slot?]
    · rw [Table.holders_release_of_ne x.table hi, hcount]
      simp [Phase.slot?, hi]
  · simp only [Table.length_release]
    exact hheld.2
  · have hcount := hx.workers i
    rw [hflight, working_cons, hphase] at hcount
    simp only [Table.cell_release]
    simpa [Phase.work?] using hcount
  · rw [Table.cell_release] at hb
    exact hx.bound i b hb
  · obtain ⟨hppos, hpcell⟩ := hserved.2 p hp i b hb
    exact ⟨hppos, by rw [Table.cell_release]; exact hpcell⟩

end Sound

/-- **Every step keeps the invariant.** -/
theorem Sound.step {x y : Scene σ} (h : Step x y) (hx : x.Sound) : y.Sound := by
  cases h with
  | ask name text => exact hx.ask rfl
  | enter flight phase => exact hx.enter flight phase
  | @hit o rest slot binding flight phase cell =>
    have ho : o ∈ x.flight := mem_of_eq_cons flight
    have hpos := hx.seated o ho slot (by rw [phase]; rfl)
    refine hx.relabel flight (by rw [phase]; rfl) (by rw [phase]; rfl) (by simp [Phase.seat?]) ?_
    rintro i b hb
    cases hb
    exact ⟨hpos, cell⟩
  | begin flight phase cell =>
    refine hx.setCell flight (by rw [phase]; rfl) (hx.working_rest_of_empty flight cell) ?_ rfl rfl
      (by simp) (by simp)
    simp [cell]
  | accept flight phase text =>
    exact hx.relabel flight (by rw [phase]; rfl) (by rw [phase]; rfl)
      (fun i hi => by rw [phase]; exact hi) (by simp)
  | reject flight phase text =>
    exact hx.finish flight (by rw [phase]; rfl) rfl rfl rfl (by simp) (by simp)
  | bind callable flight phase =>
    refine hx.finish flight (by rw [phase]; rfl) rfl rfl rfl ?_ ?_
    · rintro b hb
      cases hb
      rfl
    · rintro i b hb
      cases hb
      exact ⟨rfl, rfl⟩
  | refuse error flight phase =>
    exact hx.finish flight (by rw [phase]; rfl) rfl rfl rfl (by simp) (by simp)
  | panic cause flight phase =>
    exact hx.finish flight (by rw [phase]; rfl) rfl rfl rfl (by simp) (by simp)
  | tell ticket event =>
    exact ⟨hx.wellFormed, hx.holders, hx.held, hx.named, hx.seated, hx.workers, hx.bound, hx.served⟩
  | discard flight phase => exact hx.discard flight phase
  | leave flight phase => exact hx.leave flight phase

end Scene

/-- **What every step of a sound scene keeps holds in every state that is reached.** -/
theorem invariant_of_reaches {P : Scene σ → Prop} (hstart : P .start)
    (hstep : ∀ x y : Scene σ, Scene.Step x y → x.Sound → P x → P y) {world : σ}
    {threads : List (List (Request σ))} {s : State σ} (h : Reaches (.start world threads) s) :
    P s.scene := by
  have hscene := scene_reaches h
  rw [scene_start] at hscene
  refine (hscene.invariant (P := fun x => x.Sound ∧ P x) ?_ ⟨Scene.sound_start, hstart⟩).2
  rintro x y hxy ⟨hsound, hx⟩
  exact ⟨hsound.step hxy, hstep x y hxy hsound hx⟩

/-- **The invariant holds in every state that is reached.** -/
theorem sound_of_reaches {world : σ} {threads : List (List (Request σ))} {s : State σ}
    (h : Reaches (.start world threads) s) : s.scene.Sound :=
  invariant_of_reaches Scene.sound_start (fun _ _ hstep hsound _ => hsound.step hstep) h

end Interleaving

end NativeLink
