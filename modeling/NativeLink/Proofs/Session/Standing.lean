import Mathlib.Data.List.Induction
import NativeLink.Cache.Errand
import NativeLink.Proofs.Session.Failure

/-!
# How a name stands

When errands are carried out, what becomes of one depends on the errands for its own name
that came before it, and on nothing else.  `Standing` is what they leave: the name is free,
it is being resolved, it was bound to begin with, or one of them has bound it.  An errand
moves the standing of its name (`Standing.next`) and of no other.

`Errand.settles` says what becomes of an errand by the standing of its name, and
`shows_carryOut` that the cells of a session show the standings of the names, whatever
list of errands has been carried out.
-/

namespace NativeLink

variable {σ : Type}

/-- A plan that makes no requests visits no name. -/
theorem Plan.Alone.visits_eq_nil {p : Plan σ} (h : p.Alone) (s : Session σ) : p.visits s = [] := by
  induction p generalizing s with
  | answer result => rfl
  | panic cause => rfl
  | stuck => rfl
  | tell event next ih => exact ih h _
  | step change next ih => exact ih _ (h _) _
  | look name next ih => exact ih _ (h _) _
  | request name text work next ihwork ihnext => exact h.elim

/-! ## Standings -/

/-- How a name stands when some errands have been carried out. -/
inductive Standing (σ : Type) where
  | free
  /-- It is being resolved, and has been from the beginning. -/
  | blocked
  /-- It was bound to begin with. -/
  | old (binding : Binding σ)
  /-- It was bound by an errand. -/
  | made (errand : Errand σ)

namespace Standing

variable {made other : Errand σ → Binding σ → Prop} {st : Standing σ} {c : Cell σ}

/-- How a name stands to begin with. -/
def of : Cell σ → Standing σ
  | .empty => free
  | .busy => blocked
  | .bound b => old b

/-- How a name stands after an errand for it. -/
def next : Standing σ → Errand σ → Standing σ
  | free, e =>
    match e.verdict with
    | .ok _ => .made e
    | .error _ => free
  | st, _ => st

/-- How a name stands after errands for it. -/
def after (st : Standing σ) (errands : List (Errand σ)) : Standing σ := errands.foldl next st

/-- The cell of a name shows how it stands, if `made` says which errand has made which binding. -/
inductive Shows (made : Errand σ → Binding σ → Prop) : Standing σ → Cell σ → Prop where
  | free : Shows made free .empty
  | blocked : Shows made blocked .busy
  | old (b : Binding σ) : Shows made (old b) (.bound b)
  | made {e : Errand σ} {b : Binding σ} (h : made e b) : Shows made (.made e) (.bound b)

@[simp] theorem of_eq_free_iff : of c = free ↔ c = .empty := by cases c <;> simp [of]

@[simp] theorem of_eq_old_iff {b : Binding σ} : of c = old b ↔ c = .bound b := by
  cases c <;> simp [of]

theorem shows_of (made : Errand σ → Binding σ → Prop) (c : Cell σ) : (of c).Shows made c := by
  cases c with
  | empty => exact .free
  | busy => exact .blocked
  | bound b => exact .old b

theorem Shows.mono (h : st.Shows made c) (hmade : ∀ e b, made e b → other e b) :
    st.Shows other c := by
  cases h with
  | free => exact .free
  | blocked => exact .blocked
  | old b => exact .old b
  | made h => exact .made (hmade _ _ h)

/-- Only a free name changes its standing. -/
theorem next_of_ne (h : st ≠ .free) (e : Errand σ) : st.next e = st := by
  cases st with
  | free => exact absurd rfl h
  | _ => rfl

theorem after_of_ne (h : st ≠ .free) (errands : List (Errand σ)) : st.after errands = st := by
  induction errands with
  | nil => rfl
  | cons e rest ih =>
    rw [after, List.foldl_cons, next_of_ne h]
    exact ih

theorem eq_free_of_after {errands : List (Errand σ)} (h : st.after errands = .free) :
    st = .free := by
  by_contra hne
  exact hne ((after_of_ne hne errands).symm.trans h)

theorem after_append (st : Standing σ) (first second : List (Errand σ)) :
    st.after (first ++ second) = (st.after first).after second := List.foldl_append

/-- No errand makes a binding an old one. -/
theorem eq_old_of_next {e : Errand σ} {b : Binding σ} (h : st.next e = .old b) : st = .old b := by
  by_cases hst : st = .free
  · subst hst
    unfold next at h
    dsimp only at h
    split at h <;> cases h
  · rwa [next_of_ne hst] at h

theorem eq_old_of_after {errands : List (Errand σ)} {b : Binding σ}
    (h : st.after errands = .old b) : st = .old b := by
  induction errands generalizing st with
  | nil => exact h
  | cons e rest ih => exact eq_old_of_next (ih h)

/-- What an errand for a name is answered, by how the name stands. -/
inductive Answers (made : Errand σ → Binding σ → Prop) (e : Errand σ) :
    Standing σ → Outcome (Answer σ) → Prop where
  | blocked : Answers made e blocked .stuck
  | old (b : Binding σ) : Answers made e (old b) (.returned (.ok b))
  | found {earlier : Errand σ} {b : Binding σ} (h : made earlier b) :
    Answers made e (.made earlier) (.returned (.ok b))
  | refused {error : ResolveError} (h : e.verdict = .error error) :
    Answers made e free (.returned (.error error))
  | accepted {id : Nat} {signature : Signature} {callable : Callable σ}
    (h : e.verdict = .ok (signature, callable))
    (hmade : made e (.make id e.name signature callable)) :
    Answers made e free (.returned (.ok (.make id e.name signature callable)))

end Standing

/-- What an errand visits, by how its name stands. -/
def Errand.visits (e : Errand σ) : Standing σ → List Visit
  | .free =>
    match Signature.parse e.text with
    | .error error => [.misread e.name error]
    | .ok signature => [.asked e.name signature,
        .answered e.name (.returned (e.result.map fun _ => ()))]
  | .blocked => [.blocked e.name]
  | .old _ => [.found e.name]
  | .made _ => [.found e.name]

/-- An errand visits its own name only. -/
theorem Errand.name_of_mem_visits {e : Errand σ} {st : Standing σ} :
    ∀ v ∈ e.visits st, v.name = e.name := by
  unfold visits
  cases st with
  | free => cases Signature.parse e.text <;> simp [Visit.name]
  | _ => simp [Visit.name]

namespace Session

variable {name text : String} {s : Session σ}

/-- **A request for a name that is being resolved** waits for ever. -/
theorem request_of_busy (hc : s.table.cellOf name = .busy)
    (resolve : Signature → Act σ (Except ResolveError (Callable σ))) :
    request name text resolve s = (.stuck, s.withTable (s.table.acquire name).2) := by
  rw [cellOf_eq_cell_acquire] at hc
  exact (Requested.blocked hc).request_eq

theorem visits_of_busy (hc : s.table.cellOf name = .busy)
    (resolve : Signature → Act σ (Except ResolveError (Callable σ)))
    (inner : Signature → Session σ → List Visit) :
    visits name text resolve inner s = [.blocked name] := by
  rw [cellOf_eq_cell_acquire] at hc
  exact visits_of_blocked hc

theorem outcome_of_error {error : ResolveError} (hc : s.table.cellOf name = .empty)
    (hparse : Signature.parse text = .error error)
    (resolve : Signature → Act σ (Except ResolveError (Callable σ))) :
    (request name text resolve s).1 = .returned (.error error) := by
  rw [cellOf_eq_cell_acquire] at hc
  rw [(Requested.refused hc hparse).request_eq]

end Session

namespace Errand

variable {made : Errand σ → Binding σ → Prop} {e : Errand σ} {st : Standing σ} {s : Session σ}

/-! ## One errand -/

/-- What an errand comes to. -/
structure Settles (e : Errand σ) (made : Errand σ → Binding σ → Prop) (st : Standing σ)
    (s : Session σ) : Prop where
  visits : (e.receipt s).visits = e.visits st
  answer : st.Answers made e (e.receipt s).outcome
  shows : (st.next e).Shows made ((e.act s).2.table.cellOf e.name)

/-- An errand for a name that is bound finds the binding. -/
theorem settles_of_get? {b : Binding σ} (hb : s.table.get? e.name = some b)
    (hfree : st ≠ .free) (hvisits : e.visits st = [.found e.name])
    (hanswer : st.Answers made e (.returned (.ok b)))
    (hshows : st.Shows made (s.table.cellOf e.name)) : e.Settles made st s := by
  have hact : e.act s = (.returned (.ok b), s.tell (b.conflict e.text)) :=
    Session.request_of_get? hb e.text _
  refine ⟨(Session.visits_of_get? hb ..).trans hvisits.symm, ?_, ?_⟩
  · rw [receipt, hact]
    exact hanswer
  · rw [hact, Standing.next_of_ne hfree]
    exact hshows

/-- An errand for a free name whose text is no signature leaves the name free. -/
theorem settles_of_misread {error : ResolveError} (hs : s.table.WellFormed)
    (hc : s.table.cellOf e.name = .empty) (hparse : Signature.parse e.text = .error error) :
    e.Settles made .free s := by
  have hverdict : e.verdict = .error error := by rw [verdict, hparse]
  have hcell := (Session.cellOf_eq_cell_acquire _ _).symm.trans hc
  refine ⟨?_, ?_, ?_⟩
  · rw [receipt, visits, hparse]
    exact Session.visits_of_error hcell hparse
  · have houtcome : (e.receipt s).outcome = .returned (.error error) :=
      Session.outcome_of_error hc hparse _
    rw [houtcome]
    exact .refused hverdict
  · have hcells := (Session.request_of_error (u := (e.act s).2) hs hc hparse rfl).1
    rw [hcells, hc, Standing.next, hverdict]
    exact .free

/-- The resolver answers what the errand says. -/
theorem exists_run {signature : Signature} (hparse : Signature.parse e.text = .ok signature)
    (s : Session σ) : ∃ v, (e.work signature).run s = (.returned e.result, v) :=
  ⟨_, Prod.ext (e.answers signature hparse s) rfl⟩

theorem visits_of_asked {signature : Signature} (hc : s.table.cellOf e.name = .empty)
    (hparse : Signature.parse e.text = .ok signature) :
    (e.receipt s).visits = e.visits .free := by
  obtain ⟨v, hrun⟩ := exists_run hparse (s.begun e.name signature)
  have hcell := (Session.cellOf_eq_cell_acquire _ _).symm.trans hc
  rw [receipt, visits, hparse]
  refine (Session.visits_of_run hcell hparse hrun).trans ?_
  rw [(e.alone signature hparse).visits_eq_nil]
  rfl

/-- An errand for a free name whose resolver refuses leaves the name free. -/
theorem settles_of_refused {signature : Signature} {error : ResolveError}
    (hs : s.table.WellFormed) (hc : s.table.cellOf e.name = .empty)
    (hparse : Signature.parse e.text = .ok signature) (hresult : e.result = .error error) :
    e.Settles made .free s := by
  obtain ⟨v, hrun⟩ := exists_run hparse (s.begun e.name signature)
  rw [hresult] at hrun
  have hverdict : e.verdict = .error error := by rw [verdict, hparse, hresult]; rfl
  have hact : e.act s = _ := Session.request_of_failed hc hparse hrun
  have hgrows := ((e.work signature).run_course (hs.opened e.name) hrun (by simp)).grows
  refine ⟨visits_of_asked hc hparse, ?_, ?_⟩
  · rw [receipt, hact]
    exact .refused hverdict
  · have hi := hgrows.wellFormed.inside (hgrows.position?_of_opened hs)
    rw [hact, Session.abandoned, Session.withTable, Table.cellOf_abandoned hi,
      hgrows.cellOf_settled hs, if_pos rfl, Standing.next, hverdict]
    exact .free

/-- An errand for a free name whose resolver makes a callable binds the name. -/
theorem settles_of_accepted {signature : Signature} {callable : Callable σ}
    (hs : s.table.WellFormed) (hc : s.table.cellOf e.name = .empty)
    (hparse : Signature.parse e.text = .ok signature) (hresult : e.result = .ok callable)
    (hmade : ∀ b, (e.receipt s).Makes b → made e b) : e.Settles made .free s := by
  obtain ⟨v, hrun⟩ := exists_run hparse (s.begun e.name signature)
  rw [hresult] at hrun
  have hverdict : e.verdict = .ok (signature, callable) := by rw [verdict, hparse, hresult]; rfl
  have hact : e.act s = _ := Session.request_of_run hc hparse hrun
  have hgrows := ((e.work signature).run_course (hs.opened e.name) hrun (by simp)).grows
  have hvisits := visits_of_asked hc hparse
  have hnew : made e (.make v.fresh e.name signature callable) := by
    refine hmade _ ⟨congrArg Prod.fst hact, ?_⟩
    rw [hvisits, visits, hparse, hresult]
    exact ⟨_, List.mem_cons_of_mem _ List.mem_cons_self, beq_self_eq_true e.name⟩
  refine ⟨hvisits, ?_, ?_⟩
  · rw [receipt, hact]
    exact .accepted hverdict hnew
  · rw [hact, Session.bound, Table.cellOf_release, hgrows.cellOf_settled hs, if_pos rfl,
      Standing.next, hverdict]
    exact .made hnew

/-- **What becomes of an errand** is a matter of how its name stands. -/
theorem settles (hs : s.table.WellFormed) (h : st.Shows made (s.table.cellOf e.name))
    (hmade : ∀ b, (e.receipt s).Makes b → made e b) : e.Settles made st s := by
  have hget := s.table.get?_eq_cellOf e.name
  cases hcell : s.table.cellOf e.name with
  | empty =>
    rw [hcell] at h
    cases h
    cases hparse : Signature.parse e.text with
    | error error => exact settles_of_misread hs hcell hparse
    | ok signature =>
      cases hresult : e.result with
      | error error => exact settles_of_refused hs hcell hparse hresult
      | ok callable => exact settles_of_accepted hs hcell hparse hresult hmade
  | busy =>
    have hact : e.act s = _ := Session.request_of_busy hcell _
    rw [hcell] at h
    cases h
    refine ⟨Session.visits_of_busy hcell .., ?_, ?_⟩
    · rw [receipt, hact]
      exact .blocked
    · rw [hact, Session.withTable, Table.cellOf_acquire, hcell]
      exact .blocked
  | bound b =>
    rw [hcell] at hget
    have hshows := h
    rw [hcell] at h
    cases h with
    | old => exact settles_of_get? hget nofun rfl (.old b) hshows
    | made hb => exact settles_of_get? hget nofun rfl (.found hb) hshows

/-- An errand makes a binding only for a free name, and out of its own verdict. -/
theorem Settles.of_makes {b : Binding σ} (h : e.Settles made st s) (hb : (e.receipt s).Makes b) :
    st = .free ∧ ∃ signature callable, e.verdict = .ok (signature, callable) ∧
      b = .make b.id e.name signature callable := by
  obtain ⟨houtcome, v, hv, hsucceeds⟩ := hb
  have hanswer := h.answer
  rw [houtcome] at hanswer
  rw [h.visits] at hv
  -- whoever finds a binding has not made it
  have hfound : v ∉ [Visit.found e.name] := by
    intro hv
    rw [List.mem_singleton.mp hv] at hsucceeds
    cases hsucceeds
  cases hanswer with
  | old b => exact absurd hv hfound
  | found hearlier => exact absurd hv hfound
  | accepted hverdict hmade => exact ⟨rfl, _, _, hverdict, rfl⟩

/-- **An errand concerns no other name.** -/
theorem cellOf_act (hs : s.table.WellFormed) :
    (∀ other ≠ e.name, (e.act s).2.table.cellOf other = s.table.cellOf other) ∧
      (e.act s).2.table.WellFormed := by
  have hsettles : e.Settles (fun _ _ => True) _ s :=
    settles hs (Standing.shows_of _ _) fun _ _ => trivial
  have hvisits : ∀ v ∈ (e.receipt s).visits, v.name = e.name := by
    rw [hsettles.visits]
    exact name_of_mem_visits
  have hleads : Session.Leads (· = e.name) s _ (e.act s).2 :=
    Session.planned_leads hs rfl hvisits
  exact ⟨fun other hne => hleads.evolves.cellOf_eq hs hne, hleads.evolves.wellFormed hs⟩

/-- The errands for a name, in order. -/
def forName (name : String) (errands : List (Errand σ)) : List (Errand σ) :=
  errands.filter fun e => e.name = name

theorem forName_append (name : String) (first second : List (Errand σ)) :
    forName name (first ++ second) = forName name first ++ forName name second :=
  List.filter_append ..

@[simp] theorem forName_cons_self (e : Errand σ) (rest : List (Errand σ)) :
    forName e.name (e :: rest) = e :: forName e.name rest := by
  simp [forName]

theorem forName_cons_of_ne {name : String} (h : e.name ≠ name) (rest : List (Errand σ)) :
    forName name (e :: rest) = forName name rest := by
  simp [forName, h]

@[simp] theorem mem_forName {name : String} {errands : List (Errand σ)} :
    e ∈ forName name errands ↔ e ∈ errands ∧ e.name = name := by
  simp [forName]

end Errand

namespace Session

variable {errands before rest : List (Errand σ)} {s : Session σ} {e : Errand σ} {b : Binding σ}

/-! ## Lists of errands -/

theorem carryOut_append (first second : List (Errand σ)) (s : Session σ) :
    carryOut (first ++ second) s = carryOut second (carryOut first s) := List.foldl_append

/-- Every errand has a receipt. -/
theorem map_errand_receipts (errands : List (Errand σ)) (s : Session σ) :
    (receipts errands s).map Receipt.errand = errands := by
  induction errands generalizing s with
  | nil => rfl
  | cons e rest ih => exact congrArg (e :: ·) (ih _)

/-- The receipt for an errand is given when those before it have been carried out. -/
theorem mem_receipts_iff {r : Receipt σ} : r ∈ receipts errands s ↔
    ∃ before e rest, errands = before ++ e :: rest ∧ r = e.receipt (carryOut before s) := by
  induction errands generalizing s with
  | nil => simp [receipts]
  | cons first later ih =>
    rw [receipts, List.mem_cons, ih]
    constructor
    · rintro (rfl | ⟨before, e, rest, rfl, rfl⟩)
      · exact ⟨[], first, later, rfl, rfl⟩
      · exact ⟨first :: before, e, rest, rfl, rfl⟩
    · rintro ⟨_ | ⟨head, before⟩, e, rest, hsplit, rfl⟩
      · obtain ⟨rfl, rfl⟩ := List.cons.inj hsplit
        exact .inl rfl
      · obtain ⟨rfl, rfl⟩ := List.cons.inj hsplit
        exact .inr ⟨before, e, rest, rfl, rfl⟩

theorem created_iff : Created errands s e b ↔
    ∃ before rest, errands = before ++ e :: rest ∧ (e.receipt (carryOut before s)).Makes b := by
  constructor
  · rintro ⟨r, hr, rfl, hb⟩
    obtain ⟨before, e, rest, rfl, rfl⟩ := mem_receipts_iff.mp hr
    exact ⟨before, rest, rfl, hb⟩
  · rintro ⟨before, rest, rfl, hb⟩
    exact ⟨_, mem_receipts_iff.mpr ⟨before, e, rest, rfl, rfl⟩, rfl, hb⟩

/-- What was created stays so when more is carried out. -/
theorem Created.append (h : Created before s e b) (rest : List (Errand σ)) :
    Created (before ++ rest) s e b := by
  obtain ⟨first, later, rfl, hb⟩ := created_iff.mp h
  exact created_iff.mpr ⟨first, later ++ rest, by simp, hb⟩

/-- How a name stands when errands have been carried out. -/
def standing (s : Session σ) (name : String) (errands : List (Errand σ)) : Standing σ :=
  (Standing.of (s.table.cellOf name)).after (Errand.forName name errands)

/-- **The cells show how the names stand**, whatever has been carried out. -/
theorem shows_carryOut (hs : s.table.WellFormed) (errands : List (Errand σ)) :
    (carryOut errands s).table.WellFormed ∧ ∀ name,
      (s.standing name errands).Shows (Created errands s)
        ((carryOut errands s).table.cellOf name) := by
  induction errands using List.reverseRecOn with
  | nil => exact ⟨hs, fun name => Standing.shows_of _ _⟩
  | append_singleton before e ih =>
    obtain ⟨hwf, hshows⟩ := ih
    have hlater : ∀ name, (s.standing name before).Shows (Created (before ++ [e]) s)
        ((carryOut before s).table.cellOf name) :=
      fun name => (hshows name).mono fun _ _ h => h.append [e]
    have hsettles : e.Settles (Created (before ++ [e]) s) _ (carryOut before s) :=
      Errand.settles hwf (hlater e.name) fun b hb => created_iff.mpr ⟨before, [], rfl, hb⟩
    rw [carryOut_append]
    refine ⟨(Errand.cellOf_act hwf).2, fun name => ?_⟩
    unfold standing
    rw [Errand.forName_append, Standing.after_append]
    by_cases hname : name = e.name
    · subst hname
      rw [Errand.forName_cons_self]
      exact hsettles.shows
    · have hcell : (carryOut [e] (carryOut before s)).table.cellOf name =
          (carryOut before s).table.cellOf name := (Errand.cellOf_act hwf).1 name hname
      rw [Errand.forName_cons_of_ne (Ne.symm hname), hcell]
      exact hlater name

/-- **What becomes of an errand in a list** is a matter of the errands for its name that come
before it. -/
theorem settles_of_split (hs : s.table.WellFormed) (before rest : List (Errand σ)) (e : Errand σ) :
    e.Settles (Created (before ++ e :: rest) s) (s.standing e.name before)
      (carryOut before s) := by
  obtain ⟨hwf, hshows⟩ := shows_carryOut hs before
  exact Errand.settles hwf ((hshows e.name).mono fun _ _ h => h.append _) fun b hb =>
    created_iff.mpr ⟨before, rest, rfl, hb⟩

/-! ## Creators -/

/-- A created binding has all but its number from the errand. -/
theorem Created.eq_make (hs : s.table.WellFormed) (h : Created errands s e b) :
    ∃ signature callable, e.verdict = .ok (signature, callable) ∧
      b = .make b.id e.name signature callable := by
  obtain ⟨before, rest, rfl, hb⟩ := created_iff.mp h
  exact ((settles_of_split hs before rest e).of_makes hb).2

theorem Created.name_eq (hs : s.table.WellFormed) (h : Created errands s e b) :
    b.name = e.name := by
  obtain ⟨signature, callable, -, hb⟩ := h.eq_make hs
  rw [hb]
  rfl

/-- When a binding is created, its name has been free from the beginning. -/
theorem Created.free (hs : s.table.WellFormed) (h : Created errands s e b) :
    s.table.get? e.name = none := by
  obtain ⟨before, rest, rfl, hb⟩ := created_iff.mp h
  have hfree := Standing.eq_free_of_after ((settles_of_split hs before rest e).of_makes hb).1
  rw [Table.get?_eq_cellOf, Standing.of_eq_free_iff.mp hfree]
  rfl

/-- **A name is bound by one errand at most.** -/
theorem not_makes_again (hs : s.table.WellFormed) {mid : List (Errand σ)} {other : Errand σ}
    {c : Binding σ} (hname : other.name = e.name)
    (hb : (e.receipt (carryOut before s)).Makes b) :
    ¬(other.receipt (carryOut (before ++ e :: mid) s)).Makes c := by
  intro hc
  obtain ⟨hfree, signature, callable, hverdict, -⟩ := (settles_of_split hs before [] e).of_makes hb
  have hagain := ((settles_of_split hs (before ++ e :: mid) [] other).of_makes hc).1
  have hmade : s.standing e.name (before ++ e :: mid) = .made e := by
    have hnext : Standing.next .free e = .made e := by rw [Standing.next, hverdict]
    rw [standing] at hfree ⊢
    rw [Errand.forName_append, Standing.after_append, hfree, Errand.forName_cons_self,
      Standing.after, List.foldl_cons, hnext]
    exact Standing.after_of_ne (by simp) _
  rw [hname, hmade] at hagain
  cases hagain

/-- A created binding has one creator. -/
theorem Created.unique (hs : s.table.WellFormed) {other : Errand σ} (h : Created errands s e b)
    (k : Created errands s other b) : other = e := by
  have hname : other.name = e.name := (k.name_eq hs).symm.trans (h.name_eq hs)
  obtain ⟨before, rest, hsplit, hb⟩ := created_iff.mp h
  obtain ⟨before', rest', hsplit', hb'⟩ := created_iff.mp k
  rcases List.append_eq_append_iff.mp (hsplit.symm.trans hsplit') with
    ⟨_ | ⟨head, mid⟩, rfl, htail⟩ | ⟨_ | ⟨head, mid⟩, rfl, htail⟩
  · exact (List.cons.inj htail).1.symm
  · obtain ⟨rfl, -⟩ := List.cons.inj htail
    exact absurd hb' (not_makes_again hs hname hb)
  · exact (List.cons.inj htail).1
  · obtain ⟨rfl, -⟩ := List.cons.inj htail
    exact absurd hb (not_makes_again hs hname.symm hb')

end Session

end NativeLink
