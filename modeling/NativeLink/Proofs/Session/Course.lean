import NativeLink.Cache.Visits
import NativeLink.Proofs.Cache.Table
import NativeLink.Proofs.Session.Request

/-!
# The course of a run

Between the beginning and the end of a request its resolver runs, and that run makes
requests itself, to any depth.  What holds of a table across all that is said in two
parts.

* `Table.Grows t u`: no name that was bound or is being resolved has changed, and no
  other name is being resolved now.  So a request finds its slot as it left it when
  its resolver returns, whatever the resolver has done.
* `Table.Ledger t u visits`: the visits account for the bindings.  A name that has
  become bound has had one successful answer, any other none, and no resolver is
  asked for a bound name.

`run_course` proves both of every plan, by induction on the plan, for runs that end;
a run that never ends leaves names that are being resolved for ever.  Both compose:
what holds of two runs in a row holds of them as one.

The table is read through `Table.cellOf`, the cell of a name.  Of the atomic changes
only `setCell` shows there.
-/

namespace NativeLink

theorem Visit.name_of_succeeds {name : String} {v : Visit} (h : v.succeeds name = true) :
    v.name = name := by
  unfold succeeds at h
  split at h
  · exact eq_of_beq h
  · cases h

namespace Table

variable {σ : Type}

/-! ## The cell of a name -/

/-- The cell of a name; a name without a slot has nothing in it. -/
def cellOf (t : Table σ) (name : String) : Cell σ :=
  match t.position? name with
  | some i => t.cell i
  | none => .empty

theorem cellOf_of_position? {t : Table σ} {name : String} {i : Nat}
    (h : t.position? name = some i) : t.cellOf name = t.cell i := by
  simp [cellOf, h]

theorem get?_eq_cellOf (t : Table σ) (name : String) :
    t.get? name = (t.cellOf name).binding? := by
  unfold get? cellOf
  cases t.position? name <;> rfl

@[simp] theorem cellOf_acquire (t : Table σ) (name other : String) :
    (t.acquire name).2.cellOf other = t.cellOf other := by
  unfold cellOf
  rw [position?_acquire]
  by_cases h : other = name
  · subst h
    cases hp : t.position? other with
    | some i => simp [acquire_of_some hp]
    | none => simp [acquire_of_none hp, cell_of_length_le (Nat.le_refl _)]
  · simp [h]

@[simp] theorem cellOf_release (t : Table σ) (i : Nat) (name : String) :
    (t.release i).cellOf name = t.cellOf name := by simp [cellOf]

theorem WellFormed.cellOf_setCell {t : Table σ} (h : t.WellFormed) {name : String} {i : Nat}
    (hp : t.position? name = some i) (c : Cell σ) (other : String) :
    (t.setCell i c).cellOf other = if other = name then c else t.cellOf other := by
  unfold cellOf
  rw [position?_setCell]
  by_cases ho : other = name
  · rw [if_pos ho, ho, hp]
    exact cell_setCell_self t c (h.inside hp)
  · rw [if_neg ho]
    cases hj : t.position? other with
    | none => rfl
    | some j =>
      have hne : i ≠ j := by
        rintro rfl
        exact ho (h.apart hj hp)
      exact cell_setCell_of_ne t c hne

/-- A slot that is discarded was empty, and its name has nothing in it afterwards. -/
theorem cellOf_discardUnbound {t : Table σ} {name : String} {i : Nat} (hc : t.cell i = .empty)
    (other : String) : (t.discardUnbound name i).cellOf other = t.cellOf other := by
  unfold cellOf
  rw [position?_discardUnbound]
  by_cases h : other = name ∧ t.isUnused name i
  · rw [if_pos h]
    obtain ⟨rfl, hunused⟩ := h
    simp only [isUnused, Bool.and_eq_true, beq_iff_eq] at hunused
    simp [hunused.1.1, hc]
  · simp [h]

/-! ## Growth -/

/-- The table `u` has grown out of `t`. -/
structure Grows (t u : Table σ) : Prop where
  wellFormed : u.WellFormed
  /-- What was bound or busy is still so. -/
  kept : ∀ {name}, t.cellOf name ≠ .empty → u.cellOf name = t.cellOf name
  /-- Nothing else is busy. -/
  busy : ∀ {name}, u.cellOf name = .busy → t.cellOf name = .busy
  /-- A name that is being resolved still has its slot. -/
  place : ∀ {name}, t.cellOf name = .busy → u.position? name = t.position? name

theorem Grows.refl {t : Table σ} (h : t.WellFormed) : Grows t t :=
  ⟨h, fun _ => rfl, id, fun _ => rfl⟩

theorem Grows.trans {t u v : Table σ} (h : Grows t u) (k : Grows u v) : Grows t v := by
  refine ⟨k.wellFormed, fun {name} hne => ?_, fun hb => h.busy (k.busy hb), fun {name} hb => ?_⟩
  · have hu := h.kept hne
    rw [← hu] at hne ⊢
    exact k.kept hne
  · have hne : t.cellOf name ≠ .empty := by simp [hb]
    have hu : u.cellOf name = .busy := (h.kept hne).trans hb
    exact (k.place hu).trans (h.place hb)

/-- A binding stays. -/
theorem Grows.get? {t u : Table σ} (h : Grows t u) {name : String} {b : Binding σ}
    (hb : t.get? name = some b) : u.get? name = some b := by
  rw [get?_eq_cellOf] at hb ⊢
  have hne : t.cellOf name ≠ .empty := by
    intro he
    rw [he] at hb
    cases hb
  rw [h.kept hne, hb]

theorem contains_eq_cellOf (t : Table σ) (name : String) :
    t.contains name = (t.cellOf name).binding?.isSome := by
  rw [contains, get?_eq_cellOf]

theorem contains_of_empty {t : Table σ} {name : String} (h : t.cellOf name = .empty) :
    t.contains name = false := by
  rw [contains_eq_cellOf, h]
  rfl

theorem Grows.contains {t u : Table σ} (h : Grows t u) {name : String}
    (hc : t.contains name = true) : u.contains name = true := by
  obtain ⟨b, hb⟩ := Option.isSome_iff_exists.mp hc
  exact Option.isSome_iff_exists.mpr ⟨b, h.get? hb⟩

theorem contains_congr {t u : Table σ} {name : String} (h : u.cellOf name = t.cellOf name) :
    u.contains name = t.contains name := by
  rw [contains_eq_cellOf, contains_eq_cellOf, h]

/-- A table with the same cells has grown if the slots of busy names are where they were. -/
theorem Grows.of_cellOf_eq {t u : Table σ} (hu : u.WellFormed)
    (hc : ∀ name, u.cellOf name = t.cellOf name)
    (hp : ∀ name, t.cellOf name = .busy → u.position? name = t.position? name) : Grows t u := by
  refine ⟨hu, fun _ => hc _, fun {name} hb => ?_, fun hb => hp _ hb⟩
  rwa [hc] at hb

theorem Grows.acquire {t : Table σ} (h : t.WellFormed) {name : String}
    (hname : t.cellOf name ≠ .busy) : Grows t (t.acquire name).2 := by
  refine .of_cellOf_eq (h.acquire name) (fun _ => cellOf_acquire ..) fun other hb => ?_
  have hne : other ≠ name := by
    rintro rfl
    exact hname hb
  exact position?_acquire_of_ne t hne

theorem Grows.release {t u : Table σ} (h : Grows t u) (i : Nat) : Grows t (u.release i) := by
  refine ⟨h.wellFormed.release i, fun hne => ?_, fun hb => ?_, fun hb => h.place hb⟩
  · rw [cellOf_release, h.kept hne]
  · rw [cellOf_release] at hb
    exact h.busy hb

/-- Discarding an empty slot concerns no name that is bound or busy. -/
theorem Grows.discardUnbound {t u : Table σ} (h : Grows t u) {name : String} {i : Nat}
    (hc : u.cell i = .empty) : Grows t (u.discardUnbound name i) := by
  refine ⟨h.wellFormed.discardUnbound name i, fun hne => ?_, fun hb => ?_, fun {other} hb => ?_⟩
  · rw [cellOf_discardUnbound hc, h.kept hne]
  · rw [cellOf_discardUnbound hc] at hb
    exact h.busy hb
  · rw [position?_discardUnbound, if_neg, h.place hb]
    rintro ⟨rfl, hunused⟩
    simp only [isUnused, Bool.and_eq_true, beq_iff_eq] at hunused
    have hu : u.cellOf other = .busy := by rw [h.kept (by simp [hb]), hb]
    rw [cellOf_of_position? hunused.1.1, hc] at hu
    cases hu

/-- A slot that was emptied is discarded and given up: that does not show in the cells. -/
theorem cellOf_abandoned {u : Table σ} {i : Nat} (hi : i < u.slots.length) (name other : String) :
    (((u.setCell i .empty).discardUnbound name i).release i).cellOf other =
      (u.setCell i .empty).cellOf other := by
  rw [cellOf_release, cellOf_discardUnbound (cell_setCell_self u .empty hi)]

theorem Grows.abandon {t u : Table σ} {i : Nat} (h : Grows t (u.setCell i .empty))
    (hi : i < u.slots.length) (name : String) :
    Grows t (((u.setCell i .empty).discardUnbound name i).release i) :=
  (h.discardUnbound (cell_setCell_self u .empty hi)).release i

/-- A slot that was empty when it was held is emptied again without effect. -/
theorem WellFormed.cellOf_refused {t : Table σ} (h : t.WellFormed) {name : String}
    (hname : t.cellOf name = .empty) (other : String) :
    ((t.acquire name).2.setCell (t.acquire name).1 .empty).cellOf other = t.cellOf other := by
  rw [(h.acquire name).cellOf_setCell (position?_acquire_self t name), cellOf_acquire]
  split
  · next ho => rw [ho, hname]
  · rfl

/-! ## From the beginning of a resolver to the end of its request -/

/-- The table in which the resolver of a name begins. -/
def opened (t : Table σ) (name : String) : Table σ :=
  (t.acquire name).2.setCell (t.acquire name).1 .busy

theorem WellFormed.opened {t : Table σ} (h : t.WellFormed) (name : String) :
    (t.opened name).WellFormed := (h.acquire name).setCell _ _

theorem WellFormed.cellOf_opened {t : Table σ} (h : t.WellFormed) (name other : String) :
    (t.opened name).cellOf other = if other = name then .busy else t.cellOf other := by
  rw [Table.opened, (h.acquire name).cellOf_setCell (position?_acquire_self t name),
    cellOf_acquire]

/-- To mark an empty cell busy makes no difference to what is bound. -/
theorem WellFormed.contains_opened {t : Table σ} (h : t.WellFormed) {name : String}
    (hname : t.cellOf name = .empty) (other : String) :
    (t.opened name).contains other = t.contains other := by
  rw [contains_eq_cellOf, h.cellOf_opened]
  split
  · next ho => rw [ho, contains_of_empty hname]; rfl
  · rw [contains_eq_cellOf]

/-- The slot of the name when its resolver returns is the one that was held. -/
theorem Grows.position?_of_opened {t u : Table σ} (ht : t.WellFormed) {name : String}
    (h : Grows (t.opened name) u) : u.position? name = some (t.acquire name).1 := by
  rw [h.place (by rw [ht.cellOf_opened, if_pos rfl])]
  exact position?_acquire_self t name

/-- What the resolver leaves at its own name is still a busy cell. -/
theorem Grows.cellOf_of_opened {t u : Table σ} (ht : t.WellFormed) {name : String}
    (h : Grows (t.opened name) u) : u.cellOf name = .busy := by
  have hbusy : (t.opened name).cellOf name = .busy := by rw [ht.cellOf_opened, if_pos rfl]
  rw [h.kept (by simp [hbusy]), hbusy]

theorem Grows.contains_of_opened {t u : Table σ} (ht : t.WellFormed) {name : String}
    (h : Grows (t.opened name) u) : u.contains name = false := by
  rw [contains_eq_cellOf, h.cellOf_of_opened ht]
  rfl

theorem Grows.cellOf_settled {t u : Table σ} (ht : t.WellFormed) {name : String}
    (h : Grows (t.opened name) u) (c : Cell σ) (other : String) :
    (u.setCell (t.acquire name).1 c).cellOf other =
      if other = name then c else u.cellOf other :=
  h.wellFormed.cellOf_setCell (h.position?_of_opened ht) c other

/-- **A request that ends has let the table grow**, whether it binds its name or not. -/
theorem Grows.settle {t u : Table σ} (ht : t.WellFormed) {name : String}
    (hname : t.cellOf name = .empty) (h : Grows (t.opened name) u) {c : Cell σ}
    (hc : c ≠ .busy) : Grows t (u.setCell (t.acquire name).1 c) := by
  have hother : ∀ {other}, other ≠ name → (t.opened name).cellOf other = t.cellOf other :=
    fun ho => by rw [ht.cellOf_opened, if_neg ho]
  refine ⟨h.wellFormed.setCell _ _, fun {other} hne => ?_, fun {other} hb => ?_,
    fun {other} hb => ?_⟩
  · have ho : other ≠ name := by
      rintro rfl
      exact hne hname
    rw [h.cellOf_settled ht, if_neg ho, h.kept (by rwa [hother ho]), hother ho]
  · rw [h.cellOf_settled ht] at hb
    by_cases ho : other = name
    · rw [if_pos ho] at hb
      exact absurd hb hc
    · rw [if_neg ho] at hb
      rw [← hother ho]
      exact h.busy hb
  · have ho : other ≠ name := by
      rintro rfl
      rw [hname] at hb
      cases hb
    rw [position?_setCell, h.place (by rw [hother ho, hb])]
    exact position?_acquire_of_ne t ho

/-! ## The account of visits -/

/-- One for a bound name, nothing for another. -/
def tally (t : Table σ) (name : String) : Nat := (t.contains name).toNat

theorem tally_pos_iff {t : Table σ} {name : String} :
    0 < t.tally name ↔ t.contains name = true := by
  cases h : t.contains name <;> simp [tally, h]

theorem tally_eq_zero {t : Table σ} {name : String} (h : t.contains name = false) :
    t.tally name = 0 := by
  simp [tally, h]

/-- The visits account for the bindings that were made. -/
structure Ledger (t u : Table σ) (visits : List Visit) : Prop where
  /-- A name that has become bound has had one successful answer, any other none. -/
  once : ∀ name, visits.countP (Visit.succeeds name) + t.tally name = u.tally name
  /-- No resolver is asked for a name that was bound before. -/
  settled : ∀ name, t.contains name = true → ∀ v ∈ visits, v.asks name = false
  /-- No resolver is asked for a name after a successful answer. -/
  after : visits.Pairwise fun v w => ∀ name, v.succeeds name = true → w.asks name = false

/-- Visits in which nothing is asked or answered, to a table that has the same bindings. -/
theorem Ledger.idle {t u : Table σ} (h : ∀ name, u.contains name = t.contains name)
    {visits : List Visit}
    (hv : ∀ v ∈ visits, ∀ name, v.asks name = false ∧ v.succeeds name = false) :
    Ledger t u visits := by
  refine ⟨fun name => ?_, fun name _ v hmem => (hv v hmem name).1, ?_⟩
  · have hzero : visits.countP (Visit.succeeds name) = 0 :=
      List.countP_eq_zero.mpr fun v hmem => by simp [(hv v hmem name).2]
    rw [hzero, Nat.zero_add, tally, tally, h]
  · exact List.pairwise_of_forall_mem_list fun v _ w hw name _ => (hv w hw name).1

theorem Ledger.contains_of_succeeds {t u : Table σ} {visits : List Visit} (h : Ledger t u visits)
    {v : Visit} (hv : v ∈ visits) {name : String} (hs : v.succeeds name = true) :
    u.contains name = true := by
  have hpos : 0 < visits.countP (Visit.succeeds name) := List.countP_pos_iff.mpr ⟨v, hv, hs⟩
  have honce := h.once name
  exact tally_pos_iff.mp (by omega)

theorem Ledger.contains {t u : Table σ} {visits : List Visit} (h : Ledger t u visits)
    {name : String} (hc : t.contains name = true) : u.contains name = true := by
  have hpos := tally_pos_iff.mpr hc
  have honce := h.once name
  exact tally_pos_iff.mp (by omega)

theorem Ledger.trans {t u v : Table σ} {first second : List Visit} (h : Ledger t u first)
    (k : Ledger u v second) : Ledger t v (first ++ second) := by
  refine ⟨fun name => ?_, fun name hc w hw => ?_, ?_⟩
  · have h1 := h.once name
    have h2 := k.once name
    rw [List.countP_append]
    omega
  · rcases List.mem_append.mp hw with hw | hw
    · exact h.settled name hc w hw
    · exact k.settled name (h.contains hc) w hw
  · refine List.pairwise_append.mpr ⟨h.after, k.after, fun w hw x hx name hs => ?_⟩
    exact k.settled name (h.contains_of_succeeds hw hs) x hx

/-- The account of a request whose resolver was asked, from that of the resolver. -/
theorem Ledger.settle {t opened u v : Table σ} {name : String} {signature : Signature}
    {inner : List Visit} {outcome : Outcome (Except ResolveError Unit)}
    (hname : t.contains name = false) (hopened : ∀ other, opened.contains other = t.contains other)
    (h : Ledger opened u inner) (hu : u.contains name = false)
    (hother : ∀ other, other ≠ name → v.contains other = u.contains other)
    (hv : v.contains name = (Visit.answered name outcome).succeeds name) :
    Ledger t v (.asked name signature :: (inner ++ [.answered name outcome])) := by
  refine ⟨fun other => ?_, fun other hc w hw => ?_, ?_⟩
  · have honce := h.once other
    rw [List.countP_cons_of_neg (by simp [Visit.succeeds]), List.countP_append,
      List.countP_singleton]
    by_cases ho : other = name
    · subst ho
      rw [tally_eq_zero hu, tally_eq_zero ((hopened other).trans hname)] at honce
      have hnone : inner.countP (Visit.succeeds other) = 0 := by omega
      rw [hnone, tally_eq_zero hname, tally, hv]
      cases (Visit.answered other outcome).succeeds other <;> rfl
    · have hnot : (Visit.answered name outcome).succeeds other = false :=
        Bool.eq_false_iff.mpr fun hs => ho (Visit.name_of_succeeds hs).symm
      rw [tally, hopened] at honce
      rw [hnot, tally, tally, hother other ho]
      simpa [tally] using honce
  · have ho : name ≠ other := by
      rintro rfl
      rw [hname] at hc
      cases hc
    rcases List.mem_cons.mp hw with rfl | hw
    · simpa [Visit.asks] using ho
    · rcases List.mem_append.mp hw with hw | hw
      · exact h.settled other ((hopened other).trans hc) w hw
      · rw [List.mem_singleton.mp hw]
        rfl
  · refine List.pairwise_cons.mpr ⟨fun w _ other hs => absurd hs (by simp [Visit.succeeds]), ?_⟩
    refine List.pairwise_append.mpr ⟨h.after, List.pairwise_singleton _ _, ?_⟩
    intro w _ x hx other _
    rw [List.mem_singleton.mp hx]
    rfl

/-- What a run does to a table: the table grows, and the visits account for it. -/
structure Course (t u : Table σ) (visits : List Visit) : Prop where
  grows : Grows t u
  ledger : Ledger t u visits

theorem Course.refl {t : Table σ} (h : t.WellFormed) : Course t t [] :=
  ⟨.refl h, .idle (fun _ => rfl) (by simp)⟩

theorem Course.trans {t u v : Table σ} {first second : List Visit} (h : Course t u first)
    (k : Course u v second) : Course t v (first ++ second) :=
  ⟨h.grows.trans k.grows, h.ledger.trans k.ledger⟩

/-- **The course of a request** whose resolver was asked, from that of the resolver.  The cell of
the name is `c` in the end. -/
theorem Course.settle {t u v : Table σ} (ht : t.WellFormed) {name : String}
    (hname : t.cellOf name = .empty) {inner : List Visit} (h : Course (t.opened name) u inner)
    {c : Cell σ} (hgrows : Grows t v)
    (hcells : ∀ other, v.cellOf other = (u.setCell (t.acquire name).1 c).cellOf other)
    {outcome : Outcome (Except ResolveError Unit)}
    (hout : c.binding?.isSome = (Visit.answered name outcome).succeeds name)
    (signature : Signature) :
    Course t v (.asked name signature :: (inner ++ [.answered name outcome])) := by
  refine ⟨hgrows, h.ledger.settle (contains_of_empty hname) (ht.contains_opened hname)
    (h.grows.contains_of_opened ht) (fun other ho => contains_congr ?_) ?_⟩
  · rw [hcells, h.grows.cellOf_settled ht, if_neg ho]
  · rw [contains_eq_cellOf, hcells, h.grows.cellOf_settled ht, if_pos rfl, hout]

end Table

namespace Session

variable {σ : Type}

open Table

/-! ## Requests -/

section

variable {name text : String} {resolve : Signature → Act σ (Except ResolveError (Callable σ))}
  {inner : Signature → Session σ → List Visit} {s : Session σ}

theorem visits_of_bound {binding : Binding σ}
    (hc : (s.table.acquire name).2.cell (s.table.acquire name).1 = .bound binding) :
    visits name text resolve inner s = [.found name] := by
  simp only [visits, hc]

theorem visits_of_error {error : ResolveError}
    (hc : (s.table.acquire name).2.cell (s.table.acquire name).1 = .empty)
    (hparse : Signature.parse text = .error error) :
    visits name text resolve inner s = [.misread name error] := by
  simp only [visits, hc, hparse]

theorem visits_of_blocked
    (hc : (s.table.acquire name).2.cell (s.table.acquire name).1 = .busy) :
    visits name text resolve inner s = [.blocked name] := by
  simp only [visits, hc]

/-- The session in which the resolver of a name begins. -/
abbrev begun (s : Session σ) (name : String) (signature : Signature) : Session σ :=
  s.opened (s.table.acquire name).2 (s.table.acquire name).1 name signature

theorem visits_of_run {signature : Signature} {u : Session σ}
    {outcome : Outcome (Except ResolveError (Callable σ))}
    (hc : (s.table.acquire name).2.cell (s.table.acquire name).1 = .empty)
    (hparse : Signature.parse text = .ok signature)
    (hrun : resolve signature (s.begun name signature) = (outcome, u)) :
    visits name text resolve inner s =
      .asked name signature :: (inner signature (s.begun name signature) ++
        [.answered name (outcome.map fun result => result.map fun _ => ())]) := by
  unfold begun opened at hrun
  simp only [visits, hc, hparse, hrun]
  rfl

theorem cellOf_eq_cell_acquire (t : Table σ) (name : String) :
    t.cellOf name = (t.acquire name).2.cell (t.acquire name).1 := by
  rw [← cellOf_acquire t name, cellOf_of_position? (position?_acquire_self t name)]

/-- **The course of a request** follows from that of its resolver. -/
theorem request_course {outcome : Outcome (Answer σ)} {u : Session σ}
    (hs : s.table.WellFormed) (h : request name text resolve s = (outcome, u))
    (ho : outcome ≠ .stuck)
    (hres : ∀ signature {s u : Session σ} {outcome}, s.table.WellFormed →
      resolve signature s = (outcome, u) → outcome ≠ .stuck →
        Course s.table u.table (inner signature s)) :
    Course s.table u.table (visits name text resolve inner s) := by
  have hcell := cellOf_eq_cell_acquire s.table name
  cases requested_of_request h with
  | hit cell =>
    rw [visits_of_bound cell]
    have hgrows := Grows.acquire hs (by rw [hcell, cell]; simp)
    refine ⟨hgrows.release _, .idle (fun other => ?_) (by simp [Visit.asks, Visit.succeeds])⟩
    exact contains_congr ((cellOf_release ..).trans (cellOf_acquire ..))
  | blocked cell => exact absurd rfl ho
  | refused cell parsed =>
    rw [visits_of_error cell parsed]
    have hempty := hs.cellOf_refused (hcell.trans cell)
    have hgrows := Grows.of_cellOf_eq ((hs.acquire name).setCell _ _) hempty fun other hb =>
      (Grows.acquire hs (by rw [hcell, cell]; simp)).place hb
    refine ⟨hgrows.abandon (hs.acquire_lt name) name,
      .idle (fun other => contains_congr ?_) (by simp [Visit.asks, Visit.succeeds])⟩
    exact (cellOf_abandoned (hs.acquire_lt name) name other).trans (hempty other)
  | @accepted signature callable v cell parsed run =>
    rw [visits_of_run cell parsed run]
    have hrun := hres _ (hs.opened name) run (by simp)
    have hnot : (.bound (.make v.fresh name signature callable) : Cell σ) ≠ .busy := by simp
    have hgrows := hrun.grows.settle hs (hcell.trans cell) hnot
    exact hrun.settle hs (hcell.trans cell) (hgrows.release _) (fun _ => cellOf_release ..)
      (by simp [Cell.binding?, Visit.succeeds, Outcome.map, Except.map]) _
  | failed cell parsed run =>
    rw [visits_of_run cell parsed run]
    have hrun := hres _ (hs.opened name) run (by simp)
    have hi := hrun.grows.wellFormed.inside (hrun.grows.position?_of_opened hs)
    have hgrows := hrun.grows.settle hs (hcell.trans cell) (c := .empty) (by simp)
    exact hrun.settle hs (hcell.trans cell) (hgrows.abandon hi name)
      (fun _ => cellOf_abandoned hi name _)
      (by simp [Cell.binding?, Visit.succeeds, Outcome.map, Except.map]) _
  | panicked cell parsed run =>
    rw [visits_of_run cell parsed run]
    have hrun := hres _ (hs.opened name) run (by simp)
    have hgrows := hrun.grows.settle hs (hcell.trans cell) (c := .empty) (by simp)
    exact hrun.settle hs (hcell.trans cell) (hgrows.release _) (fun _ => cellOf_release ..)
      (by simp [Cell.binding?, Visit.succeeds, Outcome.map]) _
  | stuck cell parsed run => exact absurd rfl ho

end

end Session

/-! ## Plans -/

/-- **The course of a run.** -/
theorem Plan.run_course {σ : Type} (p : Plan σ) {s u : Session σ}
    {outcome : Outcome (Except ResolveError (Callable σ))} (hs : s.table.WellFormed)
    (h : p.run s = (outcome, u)) (ho : outcome ≠ .stuck) :
    Table.Course s.table u.table (p.visits s) := by
  induction p generalizing s u outcome with
  | answer result =>
    cases h
    exact .refl hs
  | panic cause =>
    cases h
    exact .refl hs
  | stuck =>
    cases h
    exact absurd rfl ho
  | tell event next ih => exact ih (s := s.tell [event]) hs h ho
  | step change next ih =>
    exact ih s.world (s := { s with world := change s.world }) hs h ho
  | look name next ih => exact ih (s.table.get? name) hs h ho
  | request name text work next ihwork ihnext =>
    rw [Plan.run, Act.andThen] at h
    rw [Plan.visits]
    have hcourse : ∀ {v : Session σ} {first : Outcome (Answer σ)},
        Session.request name text (fun signature => (work signature).run) s = (first, v) →
        first ≠ .stuck → Table.Course s.table v.table (Session.visits name text
          (fun signature => (work signature).run) (fun signature => (work signature).visits) s) :=
      fun hrequest hfirst => Session.request_course hs hrequest hfirst ihwork
    rcases hrequest : Session.request name text (fun signature => (work signature).run) s
      with ⟨given | cause | _, v⟩
    · simp only [hrequest] at h ⊢
      have hfirst := hcourse hrequest (by simp)
      exact hfirst.trans (ihnext given hfirst.grows.wellFormed h ho)
    · simp only [hrequest] at h ⊢
      cases h
      rw [List.append_nil]
      exact hcourse hrequest (by simp)
    · simp only [hrequest] at h
      cases h
      exact absurd rfl ho

/-! ## Names that are being resolved

A request for such a name never ends, so a run that ends has asked for none.
-/

/-- A request that ends visits no name that is being resolved, if its resolver visits none. -/
theorem Session.name_ne_of_busy {σ : Type} {name text other : String}
    {resolve : Signature → Act σ (Except ResolveError (Callable σ))}
    {inner : Signature → Session σ → List Visit} {s u : Session σ} {outcome : Outcome (Answer σ)}
    (hs : s.table.WellFormed) (hbusy : s.table.cellOf other = .busy)
    (h : request name text resolve s = (outcome, u)) (ho : outcome ≠ .stuck)
    (hres : ∀ signature {s u : Session σ} {outcome}, s.table.WellFormed →
      s.table.cellOf other = .busy → resolve signature s = (outcome, u) → outcome ≠ .stuck →
        ∀ v ∈ inner signature s, v.name ≠ other) :
    ∀ v ∈ visits name text resolve inner s, v.name ≠ other := by
  have hcell := cellOf_eq_cell_acquire s.table name
  have hne : (s.table.acquire name).2.cell (s.table.acquire name).1 ≠ .busy → name ≠ other := by
    rintro hcell' rfl
    exact hcell' (hcell.symm.trans hbusy)
  have hasked : ∀ {signature : Signature} {u : Session σ}
      {outcome : Outcome (Except ResolveError (Callable σ))},
      (s.table.acquire name).2.cell (s.table.acquire name).1 = .empty →
      Signature.parse text = .ok signature →
      resolve signature (s.begun name signature) = (outcome, u) → outcome ≠ .stuck →
        ∀ v ∈ visits name text resolve inner s, v.name ≠ other := by
    intro signature u outcome cell parsed run ended
    have hname := hne (by simp [cell])
    have hopened : (s.begun name signature).table.cellOf other = .busy :=
      (hs.cellOf_opened name other).trans ((if_neg hname.symm).trans hbusy)
    rw [visits_of_run cell parsed run]
    refine List.forall_mem_cons.mpr ⟨hname, List.forall_mem_append.mpr ⟨?_, ?_⟩⟩
    · exact hres signature (hs.opened name) hopened run ended
    · exact List.forall_mem_singleton.mpr hname
  cases requested_of_request h with
  | hit cell =>
    rw [visits_of_bound cell]
    exact List.forall_mem_singleton.mpr (hne (by simp [cell]))
  | blocked cell => exact absurd rfl ho
  | refused cell parsed =>
    rw [visits_of_error cell parsed]
    exact List.forall_mem_singleton.mpr (hne (by simp [cell]))
  | accepted cell parsed run => exact hasked cell parsed run (by simp)
  | failed cell parsed run => exact hasked cell parsed run (by simp)
  | panicked cell parsed run => exact hasked cell parsed run (by simp)
  | stuck cell parsed run => exact absurd rfl ho

/-- **A run that ends visits no name that is being resolved.** -/
theorem Plan.name_ne_of_busy {σ : Type} (p : Plan σ) {other : String} {s u : Session σ}
    {outcome : Outcome (Except ResolveError (Callable σ))} (hs : s.table.WellFormed)
    (hbusy : s.table.cellOf other = .busy) (h : p.run s = (outcome, u)) (ho : outcome ≠ .stuck) :
    ∀ v ∈ p.visits s, v.name ≠ other := by
  induction p generalizing s u outcome with
  | answer result => exact List.forall_mem_nil _
  | panic cause => exact List.forall_mem_nil _
  | stuck => exact List.forall_mem_nil _
  | tell event next ih => exact ih (s := s.tell [event]) hs hbusy h ho
  | step change next ih =>
    exact ih s.world (s := { s with world := change s.world }) hs hbusy h ho
  | look name next ih => exact ih (s.table.get? name) hs hbusy h ho
  | request name text work next ihwork ihnext =>
    rw [Plan.run, Act.andThen] at h
    rw [Plan.visits]
    rcases hrequest : Session.request name text (fun signature => (work signature).run) s
      with ⟨given | cause | _, v⟩
    · simp only [hrequest] at h ⊢
      have hgrows := (Session.request_course hs hrequest (by simp) fun signature =>
        (work signature).run_course).grows
      have hv : v.table.cellOf other = .busy := (hgrows.kept (by simp [hbusy])).trans hbusy
      refine List.forall_mem_append.mpr ⟨?_, ihnext given hgrows.wellFormed hv h ho⟩
      exact Session.name_ne_of_busy hs hbusy hrequest (by simp) ihwork
    · simp only [hrequest]
      rw [List.append_nil]
      exact Session.name_ne_of_busy hs hbusy hrequest (by simp) ihwork
    · simp only [hrequest] at h
      cases h
      exact absurd rfl ho

end NativeLink
