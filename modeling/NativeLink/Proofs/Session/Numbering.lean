import NativeLink.Proofs.Session.Failure

/-!
# Bindings are numbered as they are made

A session counts the bindings that are made, in all contexts together, and each binding carries
the count at its making.  So the number of a binding says when it was made: between two moments
exactly those bindings have been added to a table whose numbers lie between the counts at these
moments (`Session.Mints`).  This holds of every run, whatever the resolvers do and however their
requests end, and it is what tells bindings of different contexts apart: the tables do not know of
each other, but the count goes on from one to the next.

`Session.Mints` also carries a property that new bindings have.  It is `True` for resolvers about
which nothing is known.
-/

namespace NativeLink

variable {σ : Type}

namespace Session

/-- What is bound in the end was bound before, or was made since and has the property. -/
structure Mints (P : Binding σ → Prop) (s u : Session σ) : Prop where
  counted : s.fresh ≤ u.fresh
  bound : ∀ {name b}, u.table.get? name = some b →
    s.table.get? name = some b ∨ s.fresh ≤ b.id ∧ b.id < u.fresh ∧ P b

section

variable {P : Binding σ → Prop} {s u v : Session σ} {name text : String}

theorem Mints.refl (s : Session σ) : Mints P s s := ⟨Nat.le_refl _, .inl⟩

theorem Mints.trans (h : Mints P s u) (k : Mints P u v) : Mints P s v := by
  refine ⟨Nat.le_trans h.counted k.counted, fun hb => ?_⟩
  rcases k.bound hb with hold | ⟨hfrom, hto, hp⟩
  · rcases h.bound hold with hold | ⟨hfrom, hto, hp⟩
    · exact .inl hold
    · exact .inr ⟨hfrom, Nat.lt_of_lt_of_le hto k.counted, hp⟩
  · exact .inr ⟨Nat.le_trans h.counted hfrom, hto, hp⟩

theorem Mints.mono {P' : Binding σ → Prop} (h : Mints P s u) (k : ∀ b, P b → P' b) :
    Mints P' s u :=
  ⟨h.counted, fun hb => (h.bound hb).imp_right fun ⟨hfrom, hto, hp⟩ => ⟨hfrom, hto, k _ hp⟩⟩

/-- Nothing is made if no binding is added and the count stays. -/
theorem Mints.of_get? (hfresh : u.fresh = s.fresh)
    (h : ∀ name b, u.table.get? name = some b → s.table.get? name = some b) : Mints P s u :=
  ⟨Nat.le_of_eq hfresh.symm, fun {name b} hb => .inl (h name b hb)⟩

/-- To begin with a resolver makes nothing. -/
theorem mints_begun (hs : s.table.WellFormed) (signature : Signature) :
    Mints P s (s.begun name signature) := by
  refine .of_get? rfl fun other b hb => ?_
  have hopened := (hs.cellOf_opened name other).symm
  rw [Table.get?_eq_cellOf] at hb ⊢
  rw [show (s.begun name signature).table = s.table.opened name from rfl, ← hopened] at hb
  split at hb
  · cases hb
  · exact hb

/-- At the end of a request a cell is set, and nothing else changes. -/
theorem Mints.settle (hs : s.table.WellFormed) (hgrows : (s.table.opened name).Grows u.table)
    (h : Mints P s u) {c : Cell σ} (hfresh : u.fresh ≤ v.fresh)
    (hcells : ∀ other, v.table.cellOf other =
      (u.table.setCell (s.table.acquire name).1 c).cellOf other)
    (hc : ∀ b, c.binding? = some b → u.fresh ≤ b.id ∧ b.id < v.fresh ∧ P b) : Mints P s v := by
  refine h.trans ⟨hfresh, fun {other b} hb => ?_⟩
  rw [Table.get?_eq_cellOf, hcells, hgrows.cellOf_settled hs] at hb
  split at hb
  · exact .inr (hc b hb)
  · rw [← Table.get?_eq_cellOf] at hb
    exact .inl hb

/-- **What a request makes** is what its resolver's requests make, and perhaps one binding more. -/
theorem request_mints {work : Signature → Plan σ} {outcome : Outcome (Answer σ)}
    (hs : s.table.WellFormed)
    (h : request name text (fun signature => (work signature).run) s = (outcome, u))
    (hwork : ∀ signature, Mints P (s.begun name signature)
      ((work signature).run (s.begun name signature)).2)
    (hnew : ∀ signature callable v, Signature.parse text = .ok signature →
      (work signature).run (s.begun name signature) = (.returned (.ok callable), v) →
        P (.make v.fresh name signature callable)) : Mints P s u := by
  have hrun : ∀ {signature outcome v},
      (work signature).run (s.begun name signature) = (outcome, v) → Mints P s v := by
    intro signature outcome v run
    have hinner := hwork signature
    rw [run] at hinner
    exact (mints_begun hs signature).trans hinner
  have hcell := cellOf_eq_cell_acquire s.table name
  cases requested_of_request h with
  | hit cell =>
    refine .of_get? rfl fun other b hb => ?_
    exact (Table.get?_acquire ..).symm.trans ((Table.get?_release ..).symm.trans hb)
  | blocked cell => exact .of_get? rfl fun other b hb => (Table.get?_acquire ..).symm.trans hb
  | refused cell parsed =>
    have hcells := (request_of_error hs (hcell.trans cell) parsed h).1
    refine .of_get? rfl fun other b hb => ?_
    rw [Table.get?_eq_cellOf] at hb ⊢
    rwa [hcells] at hb
  | @accepted signature callable v cell parsed run =>
    have hgrows := ((work signature).run_course (hs.opened name) run (by simp)).grows
    refine (hrun run).settle hs hgrows (Nat.le_succ _) (fun _ => Table.cellOf_release ..)
      fun b hb => ?_
    cases hb
    exact ⟨Nat.le_refl _, Nat.lt_succ_self _, hnew signature callable v parsed run⟩
  | @failed signature error v cell parsed run =>
    have hgrows := ((work signature).run_course (hs.opened name) run (by simp)).grows
    have hi := hgrows.wellFormed.inside (hgrows.position?_of_opened hs)
    exact (hrun run).settle hs hgrows (Nat.le_refl _)
      (fun other => Table.cellOf_abandoned hi name other) (c := .empty) nofun
  | @panicked signature cause v cell parsed run =>
    have hgrows := ((work signature).run_course (hs.opened name) run (by simp)).grows
    exact (hrun run).settle hs hgrows (Nat.le_refl _)
      (fun _ => Table.cellOf_release ..) (c := .empty) nofun
  | stuck cell parsed run => exact hrun run

/-- **What a run makes** is numbered from the count at its beginning. -/
theorem run_mints (p : Plan σ) {s : Session σ} (hs : s.table.WellFormed) :
    Mints (fun _ => True) s (p.run s).2 := by
  induction p generalizing s with
  | answer result => exact .refl s
  | panic cause => exact .refl s
  | stuck => exact .refl s
  | tell event next ih =>
    have htold : Mints (fun _ => True) s (s.tell [event]) := .of_get? rfl fun _ _ => id
    exact htold.trans (ih hs)
  | step change next ih =>
    have hchanged : Mints (fun _ => True) s { s with world := change s.world } :=
      .of_get? rfl fun _ _ => id
    exact hchanged.trans (ih s.world hs)
  | look name next ih => exact ih _ hs
  | request name text work next ihwork ihnext =>
    rw [Plan.run, Act.andThen]
    rcases hrequest : request name text (fun signature => (work signature).run) s with
      ⟨given | cause | _, v⟩
    all_goals
      have hfirst : Mints (fun _ => True) s v :=
        request_mints hs hrequest (fun signature => ihwork signature (hs.opened name))
          fun _ _ _ _ _ => trivial
    · have hv : v.table.WellFormed := (request_course hs hrequest (by simp) fun signature =>
        (work signature).run_course).grows.wellFormed
      exact hfirst.trans (ihnext given hv)
    · exact hfirst
    · exact hfirst

end

end Session

end NativeLink
