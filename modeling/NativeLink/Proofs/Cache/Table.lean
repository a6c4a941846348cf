import Mathlib.Data.List.Nodup
import NativeLink.Cache.Table

/-!
# Well-formed slot tables

The index of a table is a list of pairs, and its positions are plain numbers.
What makes it a map from names to slots is `Table.WellFormed`: no name is listed
twice, every listed position exists, and no slot has two names.  All four atomic
changes keep it.

The rest of the file completes the description of the changes: what each does to
the number of holders (`holders_acquire`, `holders_release_self`), to the positions
(`position?_acquire`, `position?_discardUnbound`) and to the size of the table.
The last section reads the observers through `position?`.
-/

namespace NativeLink

namespace Table

variable {σ : Type}

/-! ## Positions -/

theorem position?_acquire (t : Table σ) (name other : String) :
    (t.acquire name).2.position? other =
      if other = name then some (t.acquire name).1 else t.position? other := by
  split
  · next h => rw [h, position?_acquire_self]
  · next h => exact position?_acquire_of_ne t h

/-- A name that has a slot is given that slot. -/
theorem acquire_of_some {t : Table σ} {name : String} {i : Nat} (h : t.position? name = some i) :
    (t.acquire name).1 = i := by
  simp only [acquire, h]

/-- A name that has no slot is given a new one behind all others. -/
theorem acquire_of_none {t : Table σ} {name : String} (h : t.position? name = none) :
    (t.acquire name).1 = t.slots.length := by
  simp only [acquire, h]

theorem lookup_filter_ne (index : List (String × Nat)) (name other : String) :
    (index.filter fun entry => entry.1 != name).lookup other =
      if other = name then none else index.lookup other := by
  induction index with
  | nil => simp
  | cons entry index ih =>
    obtain ⟨key, i⟩ := entry
    by_cases hk : key = name
    · rw [List.filter_cons_of_neg (by simp [hk]), ih]
      by_cases ho : other = name
      · simp [ho]
      · have hb : (other == key) = false := by rw [hk]; simpa using ho
        simp [ho, List.lookup_cons, hb]
    · rw [List.filter_cons_of_pos (by simp [hk]), List.lookup_cons, List.lookup_cons, ih]
      by_cases ho : other = name
      · have hb : (name == key) = false := by simpa using Ne.symm hk
        simp [ho, hb]
      · simp [ho]

/-- Discarding a slot concerns one name only, and that one only if the slot is unused. -/
theorem position?_discardUnbound (t : Table σ) (name : String) (i : Nat) (other : String) :
    (t.discardUnbound name i).position? other =
      if other = name ∧ t.isUnused name i then none else t.position? other := by
  unfold discardUnbound
  split
  · next h => simp [position?, lookup_filter_ne, h]
  · next h => simp [h]

/-! ## Cells and sizes -/

theorem cell_of_length_le {t : Table σ} {i : Nat} (h : t.slots.length ≤ i) :
    t.cell i = .empty := by
  simp [cell, List.getElem?_eq_none h]

theorem cell_setCell {t : Table σ} {i : Nat} (h : i < t.slots.length) (c : Cell σ) (j : Nat) :
    (t.setCell i c).cell j = if j = i then c else t.cell j := by
  split
  · next hj => rw [hj, cell_setCell_self t c h]
  · next hj => exact cell_setCell_of_ne t c (Ne.symm hj)

/-- Of two changes of one cell the second counts. -/
theorem setCell_setCell (t : Table σ) (i : Nat) (c d : Cell σ) :
    (t.setCell i c).setCell i d = t.setCell i d := by
  simp only [setCell, List.modify_modify_eq]
  rfl

@[simp] theorem length_setCell (t : Table σ) (i : Nat) (c : Cell σ) :
    (t.setCell i c).slots.length = t.slots.length := by simp [setCell]

@[simp] theorem length_release (t : Table σ) (i : Nat) :
    (t.release i).slots.length = t.slots.length := by simp [release]

theorem length_le_acquire (t : Table σ) (name : String) :
    t.slots.length ≤ (t.acquire name).2.slots.length := by
  unfold acquire
  cases t.position? name <;> simp

/-! ## Holders -/

theorem holders_of_length_le {t : Table σ} {i : Nat} (h : t.slots.length ≤ i) :
    t.holders i = 0 := by
  simp [holders, List.getElem?_eq_none h]

/-- No request holds a slot beyond the end of a table, so a new slot has one holder. -/
theorem holders_acquire (t : Table σ) {name : String}
    (h : ∀ i, t.position? name = some i → i < t.slots.length) (i : Nat) :
    (t.acquire name).2.holders i = t.holders i + if (t.acquire name).1 = i then 1 else 0 := by
  unfold acquire
  cases hp : t.position? name with
  | some j =>
    have hj := h j hp
    by_cases hi : j = i
    · subst hi
      simp [holders, List.getElem?_eq_getElem hj]
    · simp only [holders, List.getElem?_modify, if_neg hi]
      cases t.slots[i]? <;> rfl
  | none =>
    simp only
    by_cases hi : t.slots.length = i
    · subst hi
      rw [holders_of_length_le (Nat.le_refl _)]
      simp [holders]
    · rw [if_neg hi, Nat.add_zero]
      by_cases hlt : i < t.slots.length
      · simp [holders, List.getElem?_append_left hlt]
      · have hlen : (t.slots ++ [(⟨.empty, 1⟩ : Slot σ)]).length ≤ i := by simp; omega
        simp [holders, List.getElem?_eq_none hlen, List.getElem?_eq_none (Nat.le_of_not_lt hlt)]

/-- To take a slot that exists and to give it up again changes nothing. -/
theorem release_acquire {t : Table σ} {name : String} {i : Nat} (h : t.position? name = some i) :
    (t.acquire name).2.release (t.acquire name).1 = t := by
  simp only [acquire, h, release, List.modify_modify_eq]
  have hid : ((fun slot : Slot σ => { slot with holders := slot.holders - 1 }) ∘
      fun slot => { slot with holders := slot.holders + 1 }) = id := rfl
  rw [hid, List.modify_id]

/-! ## Well-formed tables -/

/-- The index is a map from names to slots that exist, and tells names apart. -/
structure WellFormed (t : Table σ) : Prop where
  keys : (t.index.map Prod.fst).Nodup
  inside : ∀ {name i}, t.position? name = some i → i < t.slots.length
  apart : ∀ {name other i}, t.position? name = some i → t.position? other = some i → name = other

theorem wellFormed_empty : WellFormed (empty : Table σ) := by
  constructor <;> simp [empty, position?]

/-- Only the positions and the number of slots matter. -/
theorem WellFormed.of_index_eq {t u : Table σ} (h : t.WellFormed) (hi : u.index = t.index)
    (hl : u.slots.length = t.slots.length) : u.WellFormed := by
  have hp : ∀ name, u.position? name = t.position? name := fun name => by simp [position?, hi]
  refine ⟨by rw [hi]; exact h.keys, fun {name i} hn => ?_, fun {name other i} hn ho => ?_⟩
  · rw [hl]
    exact h.inside (by rw [← hp]; exact hn)
  · exact h.apart (by rw [← hp]; exact hn) (by rw [← hp]; exact ho)

theorem WellFormed.setCell {t : Table σ} (h : t.WellFormed) (i : Nat) (c : Cell σ) :
    (t.setCell i c).WellFormed := h.of_index_eq rfl (by simp)

theorem WellFormed.release {t : Table σ} (h : t.WellFormed) (i : Nat) :
    (t.release i).WellFormed := h.of_index_eq rfl (by simp)

theorem WellFormed.acquire_lt {t : Table σ} (h : t.WellFormed) (name : String) :
    (t.acquire name).1 < (t.acquire name).2.slots.length := by
  cases hp : t.position? name with
  | some i =>
    rw [acquire_of_some hp]
    exact Nat.lt_of_lt_of_le (h.inside hp) (length_le_acquire t name)
  | none => simp [acquire, hp]

/-- The slot a name is given is no other name's. -/
theorem WellFormed.position?_ne_acquire {t : Table σ} (h : t.WellFormed) {name other : String}
    (hne : other ≠ name) : t.position? other ≠ some (t.acquire name).1 := by
  intro ho
  cases hp : t.position? name with
  | some i => exact hne (h.apart (by rw [← acquire_of_some hp]; exact ho) hp)
  | none =>
    have := h.inside ho
    rw [acquire_of_none hp] at this
    exact Nat.lt_irrefl _ this

theorem WellFormed.acquire {t : Table σ} (h : t.WellFormed) (name : String) :
    (t.acquire name).2.WellFormed := by
  refine ⟨?_, fun {other i} ho => ?_, fun {m n i} hm hn => ?_⟩
  · unfold Table.acquire
    cases hp : t.position? name with
    | some i => exact h.keys
    | none =>
      have hnot : name ∉ t.index.map Prod.fst := by
        simp only [List.mem_map, not_exists, not_and]
        intro entry he hk
        have := List.lookup_eq_none_iff.mp hp entry he
        simp [hk] at this
      exact List.nodup_cons.mpr ⟨hnot, h.keys⟩
  · rw [position?_acquire] at ho
    split at ho
    · rw [← Option.some.inj ho]
      exact h.acquire_lt name
    · exact Nat.lt_of_lt_of_le (h.inside ho) (length_le_acquire t name)
  · rw [position?_acquire] at hm hn
    split at hm <;> split at hn
    · next h1 h2 => rw [h1, h2]
    · next h1 h2 => exact absurd (hn.trans hm.symm) (h.position?_ne_acquire h2)
    · next h1 h2 => exact absurd (hm.trans hn.symm) (h.position?_ne_acquire h1)
    · exact h.apart hm hn

theorem WellFormed.discardUnbound {t : Table σ} (h : t.WellFormed) (name : String) (i : Nat) :
    (t.discardUnbound name i).WellFormed := by
  have old : ∀ {other j}, (t.discardUnbound name i).position? other = some j →
      t.position? other = some j := by
    intro other j ho
    rw [position?_discardUnbound] at ho
    split at ho
    · cases ho
    · exact ho
  refine ⟨?_, fun {other j} ho => ?_, fun {m n j} hm hn => h.apart (old hm) (old hn)⟩
  · unfold Table.discardUnbound
    split
    · exact (List.filter_sublist.map Prod.fst).nodup h.keys
    · exact h.keys
  · rw [slots_discardUnbound]
    exact h.inside (old ho)

/-! ## Observers -/

theorem position?_isSome_iff (t : Table σ) (name : String) :
    (t.position? name).isSome ↔ name ∈ t.index.map Prod.fst := by
  simp only [position?, List.lookup_isSome_iff, List.mem_map]
  constructor
  · rintro ⟨entry, he, hk⟩
    exact ⟨entry, he, (by simpa using hk : name = entry.1).symm⟩
  · rintro ⟨entry, he, hk⟩
    exact ⟨entry, he, by simp [hk]⟩

/-- In a well-formed table each entry of the index is the one its name is looked up at. -/
theorem WellFormed.position?_of_mem {t : Table σ} (h : t.WellFormed) {name : String} {i : Nat}
    (hm : (name, i) ∈ t.index) : t.position? name = some i := by
  obtain ⟨before, after, hsplit⟩ := List.append_of_mem hm
  refine List.lookup_eq_some_iff.mpr ⟨before, after, hsplit, fun entry he => ?_⟩
  have hk := h.keys
  rw [hsplit, List.map_append, List.map_cons] at hk
  have hd := (List.nodup_append.mp hk).2.2 entry.1 (List.mem_map_of_mem he) name
    List.mem_cons_self
  exact bne_iff_ne.mpr (Ne.symm hd)

theorem get?_eq_some_iff {t : Table σ} {name : String} {b : Binding σ} :
    t.get? name = some b ↔ ∃ i, t.position? name = some i ∧ t.cell i = .bound b := by
  unfold get?
  cases t.position? name with
  | none => simp
  | some i => cases h : t.cell i <;> simp [Cell.binding?, h]

/-- The bound names are those that the look-up finds bound. -/
theorem WellFormed.mem_names_iff {t : Table σ} (h : t.WellFormed) (name : String) :
    name ∈ t.names ↔ ∃ b, t.get? name = some b := by
  simp only [names, List.mem_mergeSort, boundNames, List.mem_filterMap, get?_eq_some_iff]
  constructor
  · rintro ⟨⟨key, i⟩, he, hk⟩
    cases hc : t.cell i with
    | bound b =>
      simp only [hc, Cell.binding?, Option.some.injEq] at hk
      exact ⟨b, i, by rw [← hk]; exact h.position?_of_mem he, hc⟩
    | empty => simp [hc, Cell.binding?] at hk
    | busy => simp [hc, Cell.binding?] at hk
  · rintro ⟨b, i, hp, hc⟩
    obtain ⟨before, after, hsplit, -⟩ := List.lookup_eq_some_iff.mp hp
    refine ⟨(name, i), ?_, by simp [hc, Cell.binding?]⟩
    rw [hsplit]
    exact List.mem_append_right _ List.mem_cons_self

theorem WellFormed.contains_iff_mem {t : Table σ} (h : t.WellFormed) (name : String) :
    t.contains name = true ↔ name ∈ t.names :=
  Option.isSome_iff_exists.trans (h.mem_names_iff name).symm

/-- No name is listed twice. -/
theorem WellFormed.nodup_names {t : Table σ} (h : t.WellFormed) : t.names.Nodup := by
  have hsublist : t.boundNames.Sublist (t.index.map Prod.fst) := by
    unfold boundNames
    induction t.index with
    | nil => exact .slnil
    | cons entry index ih =>
      rw [List.filterMap_cons, List.map_cons]
      cases (t.cell entry.2).binding? with
      | none => exact ih.cons entry.1
      | some b => exact ih.cons_cons entry.1
  exact (List.mergeSort_perm ..).nodup_iff.mpr (hsublist.nodup h.keys)

theorem names_sorted (t : Table σ) : t.names.Pairwise (· ≤ ·) := by
  refine (List.pairwise_mergeSort (fun a b c hab hbc => ?_) (fun a b => ?_) t.boundNames).imp
    fun {_ _} => of_decide_eq_true
  · exact decide_eq_true (String.le_trans (of_decide_eq_true hab) (of_decide_eq_true hbc))
  · simp [String.le_total]

/-- The list of bound names is known from what is bound. -/
theorem WellFormed.names_ext {t u : Table σ} (ht : t.WellFormed) (hu : u.WellFormed)
    (h : ∀ name, t.contains name = u.contains name) : t.names = u.names := by
  refine List.Perm.eq_of_pairwise (fun _ _ _ _ => String.le_antisymm) t.names_sorted
    u.names_sorted ?_
  refine (List.perm_ext_iff_of_nodup ht.nodup_names hu.nodup_names).mpr fun name => ?_
  rw [← ht.contains_iff_mem, ← hu.contains_iff_mem, h]

theorem get?_eq_bind (t : Table σ) (name : String) :
    t.get? name = (t.position? name).bind fun i => (t.cell i).binding? := by
  unfold get?
  cases t.position? name <;> rfl

/-- Taking a slot binds nothing and frees nothing. -/
@[simp] theorem get?_acquire (t : Table σ) (name other : String) :
    (t.acquire name).2.get? other = t.get? other := by
  rw [get?_eq_bind, get?_eq_bind, position?_acquire]
  by_cases h : other = name
  · subst h
    cases hp : t.position? other with
    | some i => simp [acquire_of_some hp]
    | none => simp [acquire_of_none hp, cell_of_length_le (Nat.le_refl _), Cell.binding?]
  · simp [h]

@[simp] theorem get?_release (t : Table σ) (i : Nat) (name : String) :
    (t.release i).get? name = t.get? name := by simp [get?]

/-- What is taken out of the index was not bound. -/
@[simp] theorem get?_discardUnbound (t : Table σ) (name : String) (i : Nat) (other : String) :
    (t.discardUnbound name i).get? other = t.get? other := by
  rw [get?_eq_bind, get?_eq_bind, position?_discardUnbound]
  by_cases h : other = name ∧ t.isUnused name i
  · rw [if_pos h]
    obtain ⟨rfl, hunused⟩ := h
    simp only [isUnused, Bool.and_eq_true, beq_iff_eq, Option.isNone_iff_eq_none] at hunused
    simp [hunused.1.1, hunused.2]
  · simp [h]

/-- Changing the cell of a name concerns no other name. -/
theorem WellFormed.get?_setCell {t : Table σ} (h : t.WellFormed) {name : String} {i : Nat}
    (hp : t.position? name = some i) (c : Cell σ) (other : String) :
    (t.setCell i c).get? other = if other = name then c.binding? else t.get? other := by
  rw [get?_eq_bind, get?_eq_bind, position?_setCell]
  by_cases ho : other = name
  · rw [if_pos ho, ho, hp]
    simp [cell_setCell (h.inside hp)]
  · rw [if_neg ho]
    cases hj : t.position? other with
    | none => rfl
    | some j =>
      have hne : j ≠ i := by
        rintro rfl
        exact ho (h.apart hj hp)
      simp [cell_setCell (h.inside hp), hne]

end Table

end NativeLink
