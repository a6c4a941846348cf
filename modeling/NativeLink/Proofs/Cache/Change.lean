import Mathlib.Logic.Relation
import NativeLink.Proofs.Session.Course

/-!
# How tables evolve

Whatever happens to a cache on one thread, its table changes in four ways only, and each
change is made by a request for one name.  `Table.Change` lists them, with what the request
knows when it makes them: it sets a cell only while that is not bound, and if it binds it,
then to a binding made for the name.  A table evolves when such changes are made one after
the other; `Table.Evolves names` keeps an eye on the names they are made for.

So a property of tables has to be looked at for four changes, and never for a whole request.
Bindings stay (`Evolves.get?`), each of them was made for its name (`Evolves.made`), and a
name has its cell to itself (`Evolves.cellOf_eq`).
-/

namespace NativeLink

variable {σ : Type}

/-- A binding that was made for a name, with a signature that was read. -/
structure Binding.MadeFor (name : String) (b : Binding σ) : Prop where
  name_eq : b.name = name
  parsed : ∃ text, Signature.parse text = .ok b.signature
  canonical : b.canonical = b.signature.text

theorem Binding.madeFor_make {text : String} {signature : Signature}
    (parsed : Signature.parse text = .ok signature) (id : Nat) (name : String)
    (callable : Callable σ) : (Binding.make id name signature callable).MadeFor name :=
  ⟨rfl, ⟨text, parsed⟩, rfl⟩

namespace Table

/-- One change that a request for `name` makes to a table. -/
inductive Change (name : String) : Table σ → Table σ → Prop where
  | acquire (t : Table σ) : Change name t (t.acquire name).2
  /-- The cell of the name is marked busy, emptied or bound. -/
  | set {t : Table σ} {i : Nat} {c : Cell σ} (place : t.position? name = some i)
    (unbound : (t.cell i).binding? = none) (made : ∀ b, c.binding? = some b → b.MadeFor name) :
    Change name t (t.setCell i c)
  | discard (t : Table σ) (i : Nat) : Change name t (t.discardUnbound name i)
  | release (t : Table σ) (i : Nat) : Change name t (t.release i)

/-- The table `u` comes out of `t` by changes that are made for some of the names. -/
def Evolves (names : String → Prop) (t u : Table σ) : Prop :=
  Relation.ReflTransGen (fun t u => ∃ name, names name ∧ Change name t u) t u

section

variable {names : String → Prop} {name other : String} {t u v : Table σ}

/-! ## Single changes -/

theorem Change.wellFormed (h : Change name t u) (ht : t.WellFormed) : u.WellFormed := by
  cases h with
  | acquire => exact ht.acquire name
  | set place unbound made => exact ht.setCell _ _
  | discard i => exact ht.discardUnbound name i
  | release i => exact ht.release i

/-- **No change takes a binding away.** -/
theorem Change.get? (h : Change name t u) (ht : t.WellFormed) {b : Binding σ}
    (hb : t.get? other = some b) : u.get? other = some b := by
  cases h with
  | acquire => rw [get?_acquire, hb]
  | set place unbound made =>
    have hne : other ≠ name := by
      rintro rfl
      rw [get?_eq_bind, place, Option.bind_some, unbound] at hb
      cases hb
    rw [ht.get?_setCell place, if_neg hne, hb]
  | discard i => rw [get?_discardUnbound, hb]
  | release i => rw [get?_release, hb]

/-- A change puts nothing but bindings made for its name into the table. -/
theorem Change.made (h : Change name t u) (ht : t.WellFormed) {b : Binding σ}
    (hb : u.get? other = some b) : t.get? other = some b ∨ b.MadeFor other := by
  cases h with
  | acquire => exact .inl ((get?_acquire ..).symm.trans hb)
  | discard i => exact .inl ((get?_discardUnbound ..).symm.trans hb)
  | release i => exact .inl ((get?_release ..).symm.trans hb)
  | set place unbound made =>
    rw [ht.get?_setCell place] at hb
    split at hb
    · next ho => exact .inr (ho ▸ made b hb)
    · exact .inl hb

/-- A change concerns the cell of its own name. -/
theorem Change.cellOf_eq (h : Change name t u) (ht : t.WellFormed) (hne : other ≠ name) :
    u.cellOf other = t.cellOf other := by
  cases h with
  | acquire => exact cellOf_acquire ..
  | set place unbound made => rw [ht.cellOf_setCell place, if_neg hne]
  | discard i =>
    unfold cellOf
    rw [position?_discardUnbound, if_neg fun h => hne h.1]
    simp
  | release i => exact cellOf_release ..

/-! ## Evolution -/

namespace Evolves

theorem refl (t : Table σ) : Evolves names t t := Relation.ReflTransGen.refl

theorem trans (h : Evolves names t u) (k : Evolves names u v) : Evolves names t v :=
  Relation.ReflTransGen.trans h k

theorem tail (h : Evolves names t u) (hname : names name) (k : Change name u v) :
    Evolves names t v := Relation.ReflTransGen.tail h ⟨name, hname, k⟩

/-- **What each change keeps is kept when a table evolves.** -/
theorem invariant {P : Table σ → Prop}
    (step : ∀ {name t u}, names name → t.WellFormed → Change name t u → P t → P u)
    (h : Evolves names t u) (ht : t.WellFormed) (hp : P t) : u.WellFormed ∧ P u := by
  induction h with
  | refl => exact ⟨ht, hp⟩
  | tail _ change ih =>
    obtain ⟨hwf, hp⟩ := ih
    obtain ⟨name, hname, change⟩ := change
    exact ⟨change.wellFormed hwf, step hname hwf change hp⟩

theorem wellFormed (h : Evolves names t u) (ht : t.WellFormed) : u.WellFormed :=
  (h.invariant (P := fun _ => True) (fun _ _ _ _ => trivial) ht trivial).1

theorem get? (h : Evolves names t u) (ht : t.WellFormed) {b : Binding σ}
    (hb : t.get? other = some b) : u.get? other = some b :=
  (h.invariant (fun _ hwf change => change.get? hwf) ht hb).2

theorem made (h : Evolves names t u) (ht : t.WellFormed)
    (hmade : ∀ other b, t.get? other = some b → b.MadeFor other) :
    ∀ other b, u.get? other = some b → b.MadeFor other := by
  refine (h.invariant (P := fun t => ∀ other b, t.get? other = some b → b.MadeFor other)
    (fun _ hwf change hp other b hb => ?_) ht hmade).2
  rcases change.made hwf hb with hold | hnew
  · exact hp other b hold
  · exact hnew

theorem cellOf_eq (h : Evolves names t u) (ht : t.WellFormed) (hother : ¬ names other) :
    u.cellOf other = t.cellOf other := by
  refine (h.invariant (P := fun u => u.cellOf other = t.cellOf other)
    (fun hname hwf change hp => ?_) ht rfl).2
  have hne : other ≠ _ := fun heq => hother (heq ▸ hname)
  exact (change.cellOf_eq hwf hne).trans hp

end Evolves

end

end Table

end NativeLink
