import NativeLink.Cache.Snapshot
import NativeLink.Proofs.Session.Course

/-!
# Which slots a run leaves behind

On one thread the table of a cache can be told from what has happened.  A name has a slot if it
is bound, if it is being resolved, or if the latest attempt at it ended in a panic; and no other
name has one (`entries_exact`).

The reason is in the numbers of holders.  A slot is held once for each time its name is being
resolved, which is once at most, since a request for such a name never ends.  So a request that
has failed finds nobody else in its slot, at whatever depth it was made, and takes the slot out;
only a request that a panic goes through has no time for that.  `Table.Accounted` says all this of
a table, and which attempt each binding comes from.

A request runs through two changes of that account.  Its resolver begins with one more name being
resolved (`Accounted.opened`), and at its end that name is taken off the list and the attempt is
entered (`Accounted.close`), whether the cell was bound, or emptied and taken out, or emptied and
left.  A text that is no signature ends the attempt at once.
-/

namespace NativeLink

variable {σ : Type}

/-- The latest attempt at the name ended in a panic, its own resolver's or that of a nested
request. -/
def EndedInPanic (name : String) (attempts : List (Attempt σ)) : Prop :=
  ∃ cause, (lastAttempt? name attempts).map Attempt.outcome = some (.panicked cause)

section

variable {name other text : String} {attempts : List (Attempt σ)} {outcome : Outcome (Answer σ)}

theorem lastAttempt?_append_self (attempts : List (Attempt σ)) (name text : String)
    (outcome : Outcome (Answer σ)) :
    lastAttempt? name (attempts ++ [⟨name, text, outcome⟩]) = some ⟨name, text, outcome⟩ := by
  simp [lastAttempt?, List.filter_append]

theorem lastAttempt?_append_of_ne (attempts : List (Attempt σ)) (text : String)
    (outcome : Outcome (Answer σ)) (h : other ≠ name) :
    lastAttempt? other (attempts ++ [⟨name, text, outcome⟩]) = lastAttempt? other attempts := by
  simp [lastAttempt?, List.filter_append, Ne.symm h]

theorem endedInPanic_append_self : EndedInPanic name (attempts ++ [⟨name, text, outcome⟩]) ↔
    ∃ cause, outcome = .panicked cause := by
  simp [EndedInPanic, lastAttempt?_append_self]

theorem endedInPanic_append_of_ne (h : other ≠ name) :
    EndedInPanic other (attempts ++ [⟨name, text, outcome⟩]) ↔ EndedInPanic other attempts := by
  rw [EndedInPanic, EndedInPanic, lastAttempt?_append_of_ne attempts text outcome h]

end

namespace Table

/-! ## The account -/

/-- The binding was made by an attempt at the name, with the signature that its text gives. -/
def MadeBy (name : String) (b : Binding σ) (a : Attempt σ) : Prop :=
  a.name = name ∧ a.outcome = .returned (.ok b) ∧ ∃ id signature callable,
    Signature.parse a.text = .ok signature ∧ b = .make id name signature callable

/-- The table agrees with the names that are being resolved and with the attempts that have
ended. -/
structure Accounted (resolving : List String) (ended : List (Attempt σ)) (t : Table σ) : Prop where
  wellFormed : t.WellFormed
  busy : ∀ name, t.cellOf name = .busy ↔ name ∈ resolving
  /-- A slot is held as often as its name is being resolved. -/
  holders : ∀ name i, t.position? name = some i → t.holders i = resolving.count name
  entries : ∀ name, (t.position? name).isSome ↔
    t.contains name = true ∨ EndedInPanic name ended ∨ name ∈ resolving
  made : ∀ name b, t.get? name = some b → ∃ a ∈ ended, MadeBy name b a

theorem accounted_empty : Accounted [] [] (empty : Table σ) where
  wellFormed := wellFormed_empty
  busy name := by simp [cellOf, position?, empty]
  holders name i h := by simp [position?, empty] at h
  entries name := by
    simp [position?, empty, contains, get?, EndedInPanic, lastAttempt?]
  made name b h := by simp [get?, position?, empty] at h

section

variable {resolving : List String} {ended : List (Attempt σ)} {t u : Table σ} {name : String}

theorem Accounted.not_mem (h : Accounted resolving ended t) (hname : t.cellOf name ≠ .busy) :
    name ∉ resolving := fun hmem => hname ((h.busy name).mpr hmem)

/-- **A resolver begins its work** with one more name being resolved. -/
theorem Accounted.opened (h : Accounted resolving ended t) (hname : t.cellOf name = .empty) :
    Accounted (name :: resolving) ended (t.opened name) := by
  have hnot : name ∉ resolving := h.not_mem (by simp [hname])
  have hposition : ∀ other, (t.opened name).position? other =
      if other = name then some (t.acquire name).1 else t.position? other :=
    fun other => position?_acquire t name other
  have hcells := h.wellFormed.cellOf_opened name
  refine ⟨h.wellFormed.opened name, fun other => ?_, fun other i hi => ?_, fun other => ?_,
    fun other b hb => ?_⟩
  · rw [hcells, List.mem_cons]
    split
    · next ho => simp [ho]
    · next ho => rw [h.busy, or_iff_right ho]
  · have hheld : (t.opened name).holders i =
        t.holders i + if (t.acquire name).1 = i then 1 else 0 := by
      rw [Table.opened, holders_setCell]
      exact holders_acquire t (fun _ => h.wellFormed.inside) i
    rw [hposition] at hi
    rw [hheld]
    split at hi
    · next ho =>
      obtain rfl := Option.some.inj hi
      rw [if_pos rfl, ho, List.count_cons_self, List.count_eq_zero.mpr hnot]
      cases hp : t.position? name with
      | some j =>
        rw [acquire_of_some hp, h.holders name j hp, List.count_eq_zero.mpr hnot]
      | none => rw [acquire_of_none hp, holders_of_length_le (Nat.le_refl _)]
    · next ho =>
      have hne : (t.acquire name).1 ≠ i := by
        rintro rfl
        exact h.wellFormed.position?_ne_acquire ho hi
      rw [if_neg hne, Nat.add_zero, List.count_cons_of_ne (Ne.symm ho), h.holders other i hi]
  · rw [hposition, h.wellFormed.contains_opened hname, List.mem_cons]
    split
    · next ho => simp [ho]
    · next ho => rw [h.entries, or_iff_right (b := other ∈ resolving) ho]
  · rw [get?_eq_cellOf, hcells] at hb
    split at hb
    · cases hb
    · rw [← get?_eq_cellOf] at hb
      exact h.made other b hb

/-- What the end of an attempt makes of a table in which `name` has its slot at `i`: one holder less
there, and the cell of the name is `c`.  Nothing else has changed. -/
structure Closes (name : String) (i : Nat) (c : Cell σ) (t u : Table σ) : Prop where
  wellFormed : u.WellFormed
  cells : ∀ other, u.cellOf other = if other = name then c else t.cellOf other
  positions : ∀ other, other ≠ name → u.position? other = t.position? other
  place : ∀ j, u.position? name = some j → j = i
  holders : ∀ j, u.holders j = if j = i then t.holders i - 1 else t.holders j

/-- **An attempt ends**: its name is no longer being resolved.  The name has a slot afterwards if
its cell is bound, or if there was a panic. -/
theorem Accounted.close {i : Nat} {c : Cell σ} {text : String} {outcome : Outcome (Answer σ)}
    (h : Accounted (name :: resolving) ended t) (hnot : name ∉ resolving)
    (place : t.position? name = some i) (closes : Closes name i c t u) (free : c ≠ .busy)
    (entry : (u.position? name).isSome ↔ c.binding?.isSome ∨ ∃ cause, outcome = .panicked cause)
    (made : ∀ b, c.binding? = some b → MadeBy name b ⟨name, text, outcome⟩) :
    Accounted resolving (ended ++ [⟨name, text, outcome⟩]) u := by
  refine ⟨closes.wellFormed, fun other => ?_, fun other j hj => ?_, fun other => ?_,
    fun other b hb => ?_⟩
  · rw [closes.cells]
    split
    · next ho => simp [ho, free, hnot]
    · next ho => rw [h.busy, List.mem_cons, or_iff_right ho]
  · rw [closes.holders]
    by_cases ho : other = name
    · subst ho
      rw [if_pos (closes.place j hj), h.holders other i place, List.count_cons_self,
        Nat.add_sub_cancel]
    · have hother : t.position? other = some j := by rw [← closes.positions other ho, hj]
      have hne : j ≠ i := by
        rintro rfl
        exact ho (h.wellFormed.apart hother place)
      rw [if_neg hne, h.holders other j hother, List.count_cons_of_ne (Ne.symm ho)]
  · by_cases ho : other = name
    · subst ho
      rw [entry, contains_eq_cellOf, closes.cells, if_pos rfl, endedInPanic_append_self,
        or_iff_left (b := other ∈ resolving) hnot]
    · have hcontains : u.contains other = t.contains other :=
        contains_congr ((closes.cells other).trans (if_neg ho))
      rw [closes.positions other ho, h.entries, hcontains, endedInPanic_append_of_ne ho,
        List.mem_cons, or_iff_right (a := other = name) ho]
  · rw [get?_eq_cellOf, closes.cells] at hb
    split at hb
    · next ho =>
      rw [ho]
      exact ⟨_, List.mem_append_right _ (List.mem_singleton_self _), made b hb⟩
    · rw [← get?_eq_cellOf] at hb
      obtain ⟨a, ha, hmade⟩ := h.made other b hb
      exact ⟨a, List.mem_append_left _ ha, hmade⟩

/-! ## The three ends -/

/-- The cell is set and the slot given up. -/
theorem closes_release {i : Nat} (ht : t.WellFormed) (place : t.position? name = some i)
    (c : Cell σ) : Closes name i c t ((t.setCell i c).release i) where
  wellFormed := (ht.setCell i c).release i
  cells other := by rw [cellOf_release, ht.cellOf_setCell place]
  positions other _ := rfl
  place j hj := by
    rw [position?_release, position?_setCell, place] at hj
    exact (Option.some.inj hj).symm
  holders j := by
    split
    · next hj => rw [hj, holders_release_self, holders_setCell]
    · next hj => rw [holders_release_of_ne _ (Ne.symm hj), holders_setCell]

/-- The cell is emptied, and the slot taken out, which has no other holder, and given up. -/
theorem closes_abandon {i : Nat} (ht : t.WellFormed) (place : t.position? name = some i)
    (single : t.holders i = 1) :
    Closes name i .empty t (((t.setCell i .empty).discardUnbound name i).release i) ∧
      (((t.setCell i .empty).discardUnbound name i).release i).position? name = none := by
  have hi := ht.inside place
  have hunused : (t.setCell i .empty).isUnused name i = true := by
    simp [isUnused, place, single, cell_setCell_self t .empty hi, Cell.binding?]
  have hgone : (((t.setCell i .empty).discardUnbound name i).release i).position? name = none := by
    rw [position?_release, position?_discardUnbound, if_pos ⟨rfl, hunused⟩]
  refine ⟨⟨((ht.setCell i _).discardUnbound name i).release i, fun other => ?_, fun other ho => ?_,
    fun j hj => ?_, fun j => ?_⟩, hgone⟩
  · rw [cellOf_abandoned hi, ht.cellOf_setCell place]
  · rw [position?_release, position?_discardUnbound, if_neg fun h => ho h.1, position?_setCell]
  · rw [hgone] at hj
    cases hj
  · split
    · next hj => rw [hj, holders_release_self, holders_discardUnbound, holders_setCell]
    · next hj =>
      rw [holders_release_of_ne _ (Ne.symm hj), holders_discardUnbound, holders_setCell]

section

variable {i : Nat} {text : String}

/-- An attempt that has bound its name. -/
theorem Accounted.bound {signature : Signature} (h : Accounted (name :: resolving) ended t)
    (hnot : name ∉ resolving) (place : t.position? name = some i)
    (parsed : Signature.parse text = .ok signature) (id : Nat) (callable : Callable σ) :
    Accounted resolving
      (ended ++ [⟨name, text, .returned (.ok (.make id name signature callable))⟩])
      ((t.setCell i (.bound (.make id name signature callable))).release i) := by
  refine h.close hnot place (closes_release h.wellFormed place _) (by simp) ?_ fun b hb => ?_
  · rw [position?_release, position?_setCell, place]
    simp [Cell.binding?]
  · cases hb
    exact ⟨rfl, rfl, id, signature, callable, parsed, rfl⟩

/-- Nobody holds the slot of a name that is being resolved but the request that resolves it. -/
theorem Accounted.holders_eq_one (h : Accounted (name :: resolving) ended t)
    (hnot : name ∉ resolving) (place : t.position? name = some i) : t.holders i = 1 := by
  rw [h.holders name i place, List.count_cons_self, List.count_eq_zero.mpr hnot]

/-- **An attempt that failed takes its slot out**, which nobody else can hold. -/
theorem Accounted.abandoned (h : Accounted (name :: resolving) ended t)
    (hnot : name ∉ resolving) (place : t.position? name = some i) (text : String)
    (error : ResolveError) :
    Accounted resolving (ended ++ [⟨name, text, .returned (.error error)⟩])
      (((t.setCell i .empty).discardUnbound name i).release i) := by
  obtain ⟨hcloses, hgone⟩ := closes_abandon h.wellFormed place (h.holders_eq_one hnot place)
  refine h.close hnot place hcloses (by simp) ?_ nofun
  rw [hgone]
  simp [Cell.binding?]

/-- An attempt that a panic went through leaves its slot. -/
theorem Accounted.vacated (h : Accounted (name :: resolving) ended t)
    (hnot : name ∉ resolving) (place : t.position? name = some i) (text : String)
    (cause : Panic) :
    Accounted resolving (ended ++ [⟨name, text, .panicked cause⟩])
      ((t.setCell i .empty).release i) := by
  refine h.close hnot place (closes_release h.wellFormed place _) (by simp) ?_ nofun
  rw [position?_release, position?_setCell, place]
  simp

end

end

end Table

open Table

/-! ## Requests -/

namespace Session

section

variable {name text : String} {resolve : Signature → Act σ (Except ResolveError (Callable σ))}
  {inner : Signature → Session σ → List (Attempt σ)} {s u : Session σ}
  {outcome : Outcome (Answer σ)}

theorem attempts_of_bound {binding : Binding σ}
    (hc : (s.table.acquire name).2.cell (s.table.acquire name).1 = .bound binding) :
    attempts name text resolve inner s = [] := by
  simp only [attempts, hc]

theorem attempts_of_error {error : ResolveError}
    (hc : (s.table.acquire name).2.cell (s.table.acquire name).1 = .empty)
    (hparse : Signature.parse text = .error error)
    (call : request name text resolve s = (outcome, u)) :
    attempts name text resolve inner s = [⟨name, text, outcome⟩] := by
  simp only [attempts, hc, hparse, call]

theorem attempts_of_run {signature : Signature}
    (hc : (s.table.acquire name).2.cell (s.table.acquire name).1 = .empty)
    (hparse : Signature.parse text = .ok signature)
    (call : request name text resolve s = (outcome, u)) :
    attempts name text resolve inner s =
      inner signature (s.begun name signature) ++ [⟨name, text, outcome⟩] := by
  simp only [attempts, hc, hparse, call]
  rfl

end

section

variable {name text : String} {work : Signature → Plan σ} {s u : Session σ}
  {outcome : Outcome (Answer σ)} {resolving : List String} {ended : List (Attempt σ)}

/-- The account and the slot of the name when a resolver that was asked has come to its end. -/
theorem accounted_of_run {signature : Signature} {v : Session σ}
    {given : Outcome (Except ResolveError (Callable σ))} (hs : Accounted resolving ended s.table)
    (hempty : s.table.cellOf name = .empty)
    (run : (work signature).run (s.begun name signature) = (given, v)) (returns : given ≠ .stuck)
    (hwork : ∀ {resolving : List String} {ended : List (Attempt σ)} {s u : Session σ}
      {outcome}, Accounted resolving ended s.table → (work signature).run s = (outcome, u) →
        outcome ≠ .stuck → Accounted resolving (ended ++ (work signature).attempts s) u.table) :
    name ∉ resolving ∧ v.table.position? name = some (s.table.acquire name).1 ∧
      Accounted (name :: resolving) (ended ++ (work signature).attempts (s.begun name signature))
        v.table := by
  have hgrows := ((work signature).run_course (hs.wellFormed.opened name) run returns).grows
  exact ⟨hs.not_mem (by simp [hempty]), hgrows.position?_of_opened hs.wellFormed,
    hwork (hs.opened hempty) run returns⟩

/-- What a text that is no signature does to the table, it does to that in which the resolver would
have begun. -/
theorem abandoned_opened (t : Table σ) (name : String) (i : Nat) :
    ((t.opened name).setCell (t.acquire name).1 .empty).discardUnbound name i =
      ((t.acquire name).2.setCell (t.acquire name).1 .empty).discardUnbound name i := by
  rw [Table.opened, setCell_setCell]

/-- **A request keeps the account** if the plan of its resolver does. -/
theorem request_accounted (hs : Accounted resolving ended s.table)
    (call : request name text (fun signature => (work signature).run) s = (outcome, u))
    (returns : outcome ≠ .stuck)
    (hwork : ∀ signature {resolving : List String} {ended : List (Attempt σ)} {s u : Session σ}
      {outcome}, Accounted resolving ended s.table → (work signature).run s = (outcome, u) →
        outcome ≠ .stuck → Accounted resolving (ended ++ (work signature).attempts s) u.table) :
    Accounted resolving (ended ++ attempts name text (fun signature => (work signature).run)
      (fun signature => (work signature).attempts) s) u.table := by
  have hcell := cellOf_eq_cell_acquire s.table name
  cases requested_of_request call with
  | @hit binding cell =>
    have hget : s.table.get? name = some binding := by rw [get?_eq_cellOf, hcell, cell]; rfl
    obtain ⟨i, hp, -⟩ := get?_eq_some_iff.mp hget
    rw [attempts_of_bound cell, List.append_nil]
    have htable : (s.table.acquire name).2.release (s.table.acquire name).1 = s.table :=
      release_acquire hp
    exact htable.symm ▸ hs
  | blocked cell => exact absurd rfl returns
  | @refused error cell parsed =>
    rw [attempts_of_error cell parsed call]
    have hempty := hcell.trans cell
    have hdone := (hs.opened hempty).abandoned (hs.not_mem (by simp [hempty]))
      (position?_acquire_self s.table name) text error
    rw [abandoned_opened] at hdone
    exact hdone
  | @accepted signature callable v cell parsed run =>
    obtain ⟨hnot, hplace, haccounted⟩ :=
      accounted_of_run hs (hcell.trans cell) run (by simp) (hwork signature)
    rw [attempts_of_run cell parsed call, ← List.append_assoc]
    exact haccounted.bound hnot hplace parsed v.fresh callable
  | @failed signature error v cell parsed run =>
    obtain ⟨hnot, hplace, haccounted⟩ :=
      accounted_of_run hs (hcell.trans cell) run (by simp) (hwork signature)
    rw [attempts_of_run cell parsed call, ← List.append_assoc]
    exact haccounted.abandoned hnot hplace text error
  | @panicked signature cause v cell parsed run =>
    obtain ⟨hnot, hplace, haccounted⟩ :=
      accounted_of_run hs (hcell.trans cell) run (by simp) (hwork signature)
    rw [attempts_of_run cell parsed call, ← List.append_assoc]
    exact haccounted.vacated hnot hplace text cause
  | stuck cell parsed run => exact absurd rfl returns

end

end Session

/-! ## Plans -/

/-- **A run keeps the account.** -/
theorem Plan.run_accounted (p : Plan σ) {resolving : List String} {ended : List (Attempt σ)}
    {s u : Session σ} {outcome : Outcome (Except ResolveError (Callable σ))}
    (hs : Accounted resolving ended s.table) (h : p.run s = (outcome, u))
    (returns : outcome ≠ .stuck) : Accounted resolving (ended ++ p.attempts s) u.table := by
  induction p generalizing resolving ended s u outcome with
  | answer result =>
    cases h
    rw [Plan.attempts, List.append_nil]
    exact hs
  | panic cause =>
    cases h
    rw [Plan.attempts, List.append_nil]
    exact hs
  | stuck =>
    cases h
    exact absurd rfl returns
  | tell event next ih => exact ih (s := s.tell [event]) hs h returns
  | step change next ih => exact ih s.world (s := { s with world := change s.world }) hs h returns
  | look name next ih => exact ih (s.table.get? name) hs h returns
  | request name text work next ihwork ihnext =>
    rw [Plan.run, Act.andThen] at h
    rw [Plan.attempts, ← List.append_assoc]
    rcases hrequest : Session.request name text (fun signature => (work signature).run) s
      with ⟨given | cause | _, v⟩
    · simp only [hrequest] at h ⊢
      exact ihnext given (Session.request_accounted hs hrequest (by simp) ihwork) h returns
    · simp only [hrequest] at h ⊢
      cases h
      rw [List.append_nil]
      exact Session.request_accounted hs hrequest (by simp) ihwork
    · simp only [hrequest] at h
      cases h
      exact absurd rfl returns

theorem Session.planned_accounted {name text : String} {work : Signature → Plan σ}
    {s u : Session σ} {outcome : Outcome (Answer σ)} {resolving : List String}
    {ended : List (Attempt σ)} (hs : Accounted resolving ended s.table)
    (call : Session.request name text (fun signature => (work signature).run) s = (outcome, u))
    (returns : outcome ≠ .stuck) :
    Accounted resolving (ended ++ Session.attempts name text
      (fun signature => (work signature).run) (fun signature => (work signature).attempts) s)
        u.table :=
  Session.request_accounted hs call returns fun signature => (work signature).run_accounted

/-! ## Snapshots -/

/-- The table of a snapshot agrees with what else it shows. -/
abbrev Snapshot.Accounted (v : Snapshot σ) : Prop :=
  Table.Accounted v.resolving v.attempts v.session.table

/-- **At every point of a request's resolver** the account is right, if it is at every point of
the resolver's plan. -/
theorem Session.snapshots_accounted {name text : String}
    {inner : Signature → List String → List (Attempt σ) → Session σ → List (Snapshot σ)}
    {resolving : List String} {ended : List (Attempt σ)} {s : Session σ}
    (hs : Table.Accounted resolving ended s.table)
    (hinner : ∀ signature {resolving : List String} {ended : List (Attempt σ)} {s : Session σ},
      Table.Accounted resolving ended s.table →
        ∀ v ∈ inner signature resolving ended s, v.Accounted) :
    ∀ v ∈ Session.snapshots name text inner resolving ended s, v.Accounted := by
  intro v hv
  have hcell := cellOf_eq_cell_acquire s.table name
  unfold Session.snapshots at hv
  dsimp only at hv
  split at hv
  · cases hv
  · cases hv
  · next hempty =>
    split at hv
    · cases hv
    · next signature hparse =>
      exact hinner signature (hs.opened (hcell.trans hempty)) v hv

theorem Plan.snapshots_accounted (p : Plan σ) {resolving : List String}
    {ended : List (Attempt σ)} {s : Session σ} (hs : Table.Accounted resolving ended s.table) :
    ∀ v ∈ p.snapshots resolving ended s, v.Accounted := by
  induction p generalizing resolving ended s with
  | answer result => exact List.forall_mem_singleton.mpr hs
  | panic cause => exact List.forall_mem_singleton.mpr hs
  | stuck => exact List.forall_mem_singleton.mpr hs
  | tell event next ih => exact List.forall_mem_cons.mpr ⟨hs, ih (s := s.tell [event]) hs⟩
  | step change next ih =>
    exact List.forall_mem_cons.mpr ⟨hs, ih s.world (s := { s with world := change s.world }) hs⟩
  | look name next ih => exact List.forall_mem_cons.mpr ⟨hs, ih (s.table.get? name) hs⟩
  | request name text work next ihwork ihnext =>
    rw [Plan.snapshots, List.forall_mem_cons, List.forall_mem_append]
    refine ⟨hs, ?_, ?_⟩
    · exact Session.snapshots_accounted hs ihwork
    · rcases hrequest : Session.request name text (fun signature => (work signature).run) s
        with ⟨given | cause | _, v⟩
      · exact ihnext given (Session.planned_accounted hs hrequest (by simp))
      · exact List.forall_mem_nil _
      · exact List.forall_mem_nil _

namespace History

/-- **At every point of a history the account is right.** -/
theorem snapshots_accounted (h : History σ) {ended : List (Attempt σ)} {s : Session σ}
    (hs : Table.Accounted [] ended s.table) : ∀ v ∈ h.snapshots ended s, v.Accounted := by
  induction h generalizing ended s with
  | nil => exact List.forall_mem_singleton.mpr hs
  | cons use rest ih =>
    cases use with
    | request name text work =>
      rw [History.snapshots, List.forall_mem_cons, List.forall_mem_append]
      refine ⟨hs, ?_, ?_⟩
      · exact Session.snapshots_accounted hs fun signature => (work signature).snapshots_accounted
      · rcases hrequest : Session.request name text (fun signature => (work signature).run) s
          with ⟨given | cause | _, v⟩
        · exact ih (Session.planned_accounted hs hrequest (by simp))
        · exact ih (Session.planned_accounted hs hrequest (by simp))
        · exact List.forall_mem_nil _
    | observe => exact List.forall_mem_cons.mpr ⟨hs, ih hs⟩
    | call binding args =>
      exact List.forall_mem_cons.mpr ⟨hs, ih (s := (Use.call binding args).run s) hs⟩

end History

/-! ## Points and snapshots -/

/-- The snapshots of a request are taken at its points, if those of its resolver are. -/
theorem Session.map_session_snapshots {name text : String}
    {inner : Signature → List String → List (Attempt σ) → Session σ → List (Snapshot σ)}
    {points : Signature → Session σ → List (Session σ)}
    (h : ∀ signature resolving ended s,
      (inner signature resolving ended s).map Snapshot.session = points signature s)
    (resolving : List String) (ended : List (Attempt σ)) (s : Session σ) :
    (Session.snapshots name text inner resolving ended s).map Snapshot.session =
      Session.points name text points s := by
  cases hcell : (s.table.acquire name).2.cell (s.table.acquire name).1 with
  | bound binding => simp only [Session.snapshots, Session.points, hcell, List.map_nil]
  | busy => simp only [Session.snapshots, Session.points, hcell, List.map_nil]
  | empty =>
    cases hparse : Signature.parse text with
    | error error => simp only [Session.snapshots, Session.points, hcell, hparse, List.map_nil]
    | ok signature => simp only [Session.snapshots, Session.points, hcell, hparse, h]

/-- **The snapshots of a run are taken at its points.** -/
theorem Plan.map_session_snapshots (p : Plan σ) (resolving : List String)
    (ended : List (Attempt σ)) (s : Session σ) :
    (p.snapshots resolving ended s).map Snapshot.session = p.points s := by
  induction p generalizing ended resolving s with
  | answer result => rfl
  | panic cause => rfl
  | stuck => rfl
  | tell event next ih => exact congrArg (s :: ·) (ih ..)
  | step change next ih => exact congrArg (s :: ·) (ih ..)
  | look name next ih => exact congrArg (s :: ·) (ih ..)
  | request name text work next ihwork ihnext =>
    rw [Plan.snapshots, Plan.points, List.map_cons, List.map_append,
      Session.map_session_snapshots ihwork]
    rcases hrequest : Session.request name text (fun signature => (work signature).run) s
      with ⟨given | cause | _, u⟩
    · simp only [hrequest, ihnext]
    · simp only [hrequest, List.map_nil]
    · simp only [hrequest, List.map_nil]

/-- **The snapshots of a history are taken along its trail**, up to a request that never ends. -/
theorem History.map_session_snapshots (h : History σ) (ended : List (Attempt σ))
    (s : Session σ) : (h.snapshots ended s).map Snapshot.session <+: h.trail s := by
  induction h generalizing ended s with
  | nil => exact List.prefix_rfl
  | cons use rest ih =>
    cases use with
    | request name text work =>
      rw [History.snapshots, History.trail, Use.points, List.map_cons, List.map_append,
        Session.map_session_snapshots fun signature => (work signature).map_session_snapshots,
        List.cons_append, List.prefix_cons_inj, List.prefix_append_right_inj, Use.run]
      rcases hrequest : Session.request name text (fun signature => (work signature).run) s
        with ⟨given | cause | _, u⟩
      · simp only [hrequest]
        exact ih ..
      · simp only [hrequest]
        exact ih ..
      · exact List.nil_prefix
    | observe => exact (List.prefix_cons_inj s).mpr (ih ..)
    | call binding args => exact (List.prefix_cons_inj s).mpr (ih ..)

/-! ## The slot of a name that is asked for -/

/-- What a request for a name that is not bound leaves of its slot. -/
structure Session.LeavesSlot (name : String) (s : Session σ) (outcome : Outcome (Answer σ))
    (u : Session σ) : Prop where
  /-- An error leaves none, also if there was one before. -/
  cleared : ∀ error, outcome = .returned (.error error) →
    name ∉ u.table.index.map Prod.fst
  /-- The binding stands in the slot that was there before, if there was one. -/
  bound : ∀ b, outcome = .returned (.ok b) → ∃ i, u.table.position? name = some i ∧
    u.table.cell i = .bound b ∧ ∀ j, s.table.position? name = some j → j = i
  /-- A panic leaves the slot, empty. -/
  left : ∀ cause, outcome = .panicked cause → ∃ i, u.table.position? name = some i ∧
    u.table.cell i = .empty ∧ ∀ j, s.table.position? name = some j → j = i

namespace Session

variable {name text : String} {work : Signature → Plan σ} {s u : Session σ}
  {outcome : Outcome (Answer σ)} {resolving : List String} {ended : List (Attempt σ)}

theorem request_leavesSlot (hs : Accounted resolving ended s.table)
    (hname : s.table.get? name = none)
    (call : request name text (fun signature => (work signature).run) s = (outcome, u)) :
    LeavesSlot name s outcome u := by
  have hcell := cellOf_eq_cell_acquire s.table name
  have hsame : ∀ j, s.table.position? name = some j → j = (s.table.acquire name).1 :=
    fun j hj => (acquire_of_some hj).symm
  -- nobody holds the slot but the request that gives it up
  have hcleared : ∀ {t : Table σ} {ended : List (Attempt σ)}, name ∉ resolving →
      t.position? name = some (s.table.acquire name).1 → Accounted (name :: resolving) ended t →
      name ∉ (((t.setCell (s.table.acquire name).1 .empty).discardUnbound name
        (s.table.acquire name).1).release (s.table.acquire name).1).index.map Prod.fst := by
    intro t ended hnot place haccounted
    rw [← position?_isSome_iff,
      (closes_abandon haccounted.wellFormed place (haccounted.holders_eq_one hnot place)).2]
    simp
  cases requested_of_request call with
  | hit cell =>
    rw [get?_eq_cellOf, hcell, cell] at hname
    cases hname
  | blocked cell => exact ⟨nofun, nofun, nofun⟩
  | @refused error cell parsed =>
    have hempty := hcell.trans cell
    have hgone := hcleared (t := s.table.opened name) (hs.not_mem (by simp [hempty]))
      (position?_acquire_self s.table name) (hs.opened hempty)
    rw [abandoned_opened] at hgone
    exact ⟨fun _ _ => hgone, nofun, nofun⟩
  | @accepted signature callable v cell parsed run =>
    obtain ⟨-, hplace, haccounted⟩ :=
      accounted_of_run hs (hcell.trans cell) run (by simp) (work signature).run_accounted
    refine ⟨nofun, fun b hb => ⟨_, hplace, ?_, hsame⟩, nofun⟩
    cases hb
    exact (cell_release ..).trans (cell_setCell_self _ _ (haccounted.wellFormed.inside hplace))
  | @failed signature error v cell parsed run =>
    obtain ⟨hnot, hplace, haccounted⟩ :=
      accounted_of_run hs (hcell.trans cell) run (by simp) (work signature).run_accounted
    exact ⟨fun _ _ => hcleared hnot hplace haccounted, nofun, nofun⟩
  | @panicked signature cause v cell parsed run =>
    obtain ⟨-, hplace, haccounted⟩ :=
      accounted_of_run hs (hcell.trans cell) run (by simp) (work signature).run_accounted
    refine ⟨nofun, nofun, fun _ _ => ⟨_, hplace, ?_, hsame⟩⟩
    exact (cell_release ..).trans (cell_setCell_self _ _ (haccounted.wellFormed.inside hplace))
  | stuck cell parsed run => exact ⟨nofun, nofun, nofun⟩

end Session

namespace History

/-- **Which names have a slot at a point of a history**: those that are bound, those whose latest
attempt ended in a panic, and those that are being resolved just then.  A request for a name that
is not bound leaves it without a slot if it ends in an error, and binds it in the slot it had if
it succeeds. -/
theorem entries_exact {world : σ} {h : History σ} {v : Snapshot σ}
    (hv : v ∈ h.snapshots [] (.start world)) :
    (v.session.table.index.map Prod.fst).Nodup ∧
      (∀ name, name ∈ v.session.table.index.map Prod.fst ↔ v.session.table.contains name = true ∨
        EndedInPanic name v.attempts ∨ name ∈ v.resolving) ∧
      ∀ name text (work : Signature → Plan σ) outcome u, v.session.table.get? name = none →
        Session.request name text (fun signature => (work signature).run) v.session =
          (outcome, u) → Session.LeavesSlot name v.session outcome u := by
  have haccounted := h.snapshots_accounted accounted_empty v hv
  refine ⟨haccounted.wellFormed.keys, fun name => ?_, fun name text work outcome u hname call =>
    Session.request_leavesSlot haccounted hname call⟩
  rw [← position?_isSome_iff]
  exact haccounted.entries name

/-- A panic goes through two requests; then the inner name is asked for with a text that is no
signature, and the outer one once more. -/
def unwinds : History Unit :=
  [.request "@outer" "():VOID" fun _ =>
      .request "@inner" "():VOID" (fun _ => .panic (.plain "given up")) fun _ =>
        .answer (.ok fun _ world => (.returned (.ok .void), [], world)),
    .request "@inner" "VOID" fun _ => .panic (.plain "not asked"),
    .request "@outer" "():VOID" fun _ =>
      .answer (.ok fun _ world => (.returned (.ok .void), [], world))]

/-- After the panic both names have slots, and an error takes that of either away. -/
theorem entries_exact_unwinds :
    ∃ v ∈ unwinds.snapshots [] (.start ()), v.resolving = [] ∧
      v.session.table.index.map Prod.fst = ["@inner", "@outer"] ∧
      EndedInPanic "@outer" v.attempts ∧
      ∀ text (work : Signature → Plan Unit) error u,
        Session.request "@outer" text (fun signature => (work signature).run) v.session =
          (.returned (.error error), u) → "@outer" ∉ u.table.index.map Prod.fst := by
  have hseen : ((unwinds.snapshots [] (.start ()))[3]?).map (fun v =>
      (v.resolving, v.session.table.index.map Prod.fst, v.session.table.contains "@outer")) =
        some ([], ["@inner", "@outer"], false) := by decide +kernel
  obtain ⟨v, hv, hshown⟩ := Option.map_eq_some_iff.mp hseen
  obtain ⟨hresolving, hkeys, hcontains⟩ := by simpa only [Prod.mk.injEq] using hshown
  obtain ⟨-, hentries, hleaves⟩ := entries_exact (List.mem_of_getElem? hv)
  refine ⟨v, List.mem_of_getElem? hv, hresolving, hkeys, ?_, fun text work error u call => ?_⟩
  · have houter := (hentries "@outer").mp (by rw [hkeys]; simp)
    simpa [hcontains, hresolving] using houter
  · have hunbound : v.session.table.get? "@outer" = none :=
      Option.not_isSome_iff_eq_none.mp (Bool.eq_false_iff.mp hcontains)
    exact (hleaves "@outer" text work _ u hunbound call).cleared error rfl

end History

end NativeLink
