import NativeLink.Binding

/-!
# The slot table of a binding cache

A cache keeps one slot for a name.  The cell in a slot is empty, busy while the
name is being resolved, or bound for ever.  A request holds the slot of its name
from the moment it looks the name up until it ends, so a slot counts its holders.

Slots live in a list and are known by their position; the index says which slot a
name has at present.  A slot that a failed request leaves empty is taken out of
the index again, provided no other request holds it: otherwise a request that
waits for this slot and one that comes later and gets a new slot could bind the
name twice.  A slot that is out of the index stays in the list, and nobody can
reach it any more.

Everything here is a single atomic change of the table.  The sequential reading
of a request (`Cache.Request`) and the interleaved one (`Cache.Interleaving`) are
both made of these changes.
-/

namespace NativeLink

/-- The state of the resolution of one name. -/
inductive Cell (σ : Type) where
  | empty
  | busy
  | bound (binding : Binding σ)

/-- The binding in a cell. -/
def Cell.binding? {σ : Type} : Cell σ → Option (Binding σ)
  | empty => none
  | busy => none
  | bound binding => some binding

/-- A cell and the number of requests in flight that hold it. -/
structure Slot (σ : Type) where
  cell : Cell σ
  holders : Nat

/-- The slots of a cache, and which name has which. -/
structure Table (σ : Type) where
  index : List (String × Nat)
  slots : List (Slot σ)

namespace Table

variable {σ : Type}

/-- The table of a new cache. -/
def empty : Table σ := ⟨[], []⟩

instance : Inhabited (Table σ) := ⟨empty⟩

/-- The position of the slot of a name. -/
def position? (t : Table σ) (name : String) : Option Nat := t.index.lookup name

/-- The cell at a position; there is none beyond the end of the table. -/
def cell (t : Table σ) (i : Nat) : Cell σ :=
  match t.slots[i]? with
  | some slot => slot.cell
  | none => .empty

/-- The number of requests that hold the slot at a position. -/
def holders (t : Table σ) (i : Nat) : Nat :=
  match t.slots[i]? with
  | some slot => slot.holders
  | none => 0

/-! ## Atomic changes -/

/-- Finds or makes the slot of a name and holds it. -/
def acquire (t : Table σ) (name : String) : Nat × Table σ :=
  match t.position? name with
  | some i =>
    (i, { t with slots := t.slots.modify i fun slot => { slot with holders := slot.holders + 1 } })
  | none => (t.slots.length, ⟨(name, t.slots.length) :: t.index, t.slots ++ [⟨.empty, 1⟩]⟩)

/-- Changes the cell at a position. -/
def setCell (t : Table σ) (i : Nat) (cell : Cell σ) : Table σ :=
  { t with slots := t.slots.modify i fun slot => { slot with cell := cell } }

/-- Whether the slot of `name` is still the one at `i`, is not bound, and is held by one request
only. -/
def isUnused (t : Table σ) (name : String) (i : Nat) : Bool :=
  t.position? name == some i && t.holders i == 1 && (t.cell i).binding?.isNone

/-- Takes the slot of a name out of the index if nobody but the caller holds it and it is not
bound. -/
def discardUnbound (t : Table σ) (name : String) (i : Nat) : Table σ :=
  if t.isUnused name i then { t with index := t.index.filter fun entry => entry.1 != name } else t

/-- Gives up the hold on a slot. -/
def release (t : Table σ) (i : Nat) : Table σ :=
  { t with slots := t.slots.modify i fun slot => { slot with holders := slot.holders - 1 } }

/-! ## What the changes do

Each change is described by what it does to the cells, to the numbers of holders
and to the index.  Two changes leave the index alone and two leave the cells
alone; those equations hold by definition or hold everywhere.
-/

@[simp] theorem index_setCell (t : Table σ) (i : Nat) (c : Cell σ) :
    (t.setCell i c).index = t.index := rfl

@[simp] theorem index_release (t : Table σ) (i : Nat) : (t.release i).index = t.index := rfl

@[simp] theorem position?_setCell (t : Table σ) (i : Nat) (c : Cell σ) (name : String) :
    (t.setCell i c).position? name = t.position? name := rfl

@[simp] theorem position?_release (t : Table σ) (i : Nat) (name : String) :
    (t.release i).position? name = t.position? name := rfl

@[simp] theorem slots_discardUnbound (t : Table σ) (name : String) (i : Nat) :
    (t.discardUnbound name i).slots = t.slots := by
  unfold discardUnbound; split <;> rfl

@[simp] theorem cell_discardUnbound (t : Table σ) (name : String) (i j : Nat) :
    (t.discardUnbound name i).cell j = t.cell j := by simp [cell]

@[simp] theorem holders_discardUnbound (t : Table σ) (name : String) (i j : Nat) :
    (t.discardUnbound name i).holders j = t.holders j := by simp [holders]

@[simp] theorem cell_release (t : Table σ) (i j : Nat) : (t.release i).cell j = t.cell j := by
  simp only [cell, release, List.getElem?_modify]
  cases t.slots[j]? <;> by_cases h : i = j <;> simp [h]

theorem holders_release_self (t : Table σ) (i : Nat) :
    (t.release i).holders i = t.holders i - 1 := by
  simp only [holders, release, List.getElem?_modify]
  cases t.slots[i]? <;> simp

theorem holders_release_of_ne (t : Table σ) {i j : Nat} (h : i ≠ j) :
    (t.release i).holders j = t.holders j := by
  simp only [holders, release, List.getElem?_modify]
  cases t.slots[j]? <;> simp [h]

@[simp] theorem holders_setCell (t : Table σ) (i j : Nat) (c : Cell σ) :
    (t.setCell i c).holders j = t.holders j := by
  simp only [holders, setCell, List.getElem?_modify]
  cases t.slots[j]? <;> by_cases h : i = j <;> simp [h]

theorem cell_setCell_self (t : Table σ) {i : Nat} (c : Cell σ) (h : i < t.slots.length) :
    (t.setCell i c).cell i = c := by
  simp [cell, setCell, List.getElem?_eq_getElem h]

theorem cell_setCell_of_ne (t : Table σ) {i j : Nat} (c : Cell σ) (h : i ≠ j) :
    (t.setCell i c).cell j = t.cell j := by
  simp only [cell, setCell, List.getElem?_modify]
  cases t.slots[j]? <;> simp [h]

/-- The slot that a request holds is the one its name has from then on. -/
theorem position?_acquire_self (t : Table σ) (name : String) :
    (t.acquire name).2.position? name = some (t.acquire name).1 := by
  unfold acquire
  cases h : t.position? name with
  | some i => simpa [position?] using h
  | none => simp [position?]

/-- Looking a name up concerns no other name. -/
theorem position?_acquire_of_ne (t : Table σ) {name other : String} (h : other ≠ name) :
    (t.acquire name).2.position? other = t.position? other := by
  unfold acquire
  cases t.position? name with
  | some i => rfl
  | none =>
    have hb : (other == name) = false := by simpa using h
    simp [position?, List.lookup_cons, hb]

/-- Looking a name up changes no cell; a new slot is empty, as is what lies beyond the table. -/
@[simp] theorem cell_acquire (t : Table σ) (name : String) (i : Nat) :
    (t.acquire name).2.cell i = t.cell i := by
  unfold acquire
  cases t.position? name with
  | some j =>
    simp only [cell, List.getElem?_modify]
    cases t.slots[i]? <;> by_cases h : j = i <;> simp [h]
  | none =>
    simp only [cell, List.getElem?_append]
    by_cases h : i < t.slots.length
    · simp [h]
    · rw [if_neg h, List.getElem?_eq_none (Nat.le_of_not_lt h)]
      cases hi : ([⟨.empty, 1⟩] : List (Slot σ))[i - t.slots.length]? with
      | none => rfl
      | some slot =>
        obtain ⟨hl, rfl⟩ := List.getElem?_eq_some_iff.1 hi
        simp

/-! ## Observers -/

/-- The binding of a name, if it has one. -/
def get? (t : Table σ) (name : String) : Option (Binding σ) :=
  match t.position? name with
  | some i => (t.cell i).binding?
  | none => none

/-- Whether a name is bound. -/
def contains (t : Table σ) (name : String) : Bool := (t.get? name).isSome

/-- The names in the index whose slot is bound, in no particular order. -/
def boundNames (t : Table σ) : List String :=
  t.index.filterMap fun entry =>
    match (t.cell entry.2).binding? with
    | some _ => some entry.1
    | none => none

/-- The bound names in ascending order. -/
def names (t : Table σ) : List String := t.boundNames.mergeSort fun a b => decide (a ≤ b)

/-- The number of bound names. -/
def size (t : Table σ) : Nat := t.boundNames.length

def isEmpty (t : Table σ) : Bool := t.size == 0

def inspect (t : Table σ) : Inspect :=
  .record "BindingCache" [("bound", .list (t.names.map Inspect.quoted))] false

end Table

end NativeLink
