import NativeLink.Proofs.Session.Permanence

/-!
# Requests that come to nothing

A request for a name that is not bound may fail in three ways: its text is no signature,
its resolver answers an error, or its resolver panics.  However deep the resolver has gone
into other names by then, the cache is left as if the name had not been asked for, but for
what the requests for other names have bound.  `Session.Fruitless` says what that means, and
`request_fruitless` that it is so at every point of every history.

The name itself is left with an empty cell.  Whether its slot stays behind, as after a panic,
makes no difference to what follows: the next request for the name asks its own resolver and
may bind the name.
-/

namespace NativeLink

variable {σ : Type}

namespace Session

section

variable (name text : String) (work : Signature → Plan σ) (s : Session σ)

/-- The ways in which a request may fail, each with an outcome of its own. -/
inductive Fails : Outcome (Answer σ) → Prop where
  | misread {error : ResolveError} (parsed : Signature.parse text = .error error) :
    Fails (.returned (.error error))
  | refused {signature : Signature} {error : ResolveError} {v : Session σ}
    (parsed : Signature.parse text = .ok signature)
    (run : (work signature).run (s.begun name signature) = (.returned (.error error), v)) :
    Fails (.returned (.error error))
  | panicked {signature : Signature} {cause : Panic} {v : Session σ}
    (parsed : Signature.parse text = .ok signature)
    (run : (work signature).run (s.begun name signature) = (.panicked cause, v)) :
    Fails (.panicked cause)

/-- A request that asks its own resolver, and binds the name if the resolver makes a callable. -/
structure Retries (signature : Signature) : Prop where
  asked : ∃ rest, Session.visits name text (fun signature => (work signature).run)
    (fun signature => (work signature).visits) s = .asked name signature :: rest
  bound : ∀ callable v,
    (work signature).run (s.begun name signature) = (.returned (.ok callable), v) →
      ∃ u, request name text (fun signature => (work signature).run) s =
          (.returned (.ok (.make v.fresh name signature callable)), u) ∧
        u.table.get? name = some (.make v.fresh name signature callable)

/-- What a request that did not end in a binding has come to. -/
structure Fruitless (outcome : Outcome (Answer σ)) (u : Session σ) : Prop where
  /-- Its outcome is its own. -/
  fails : Fails name text work s outcome
  unbound : u.table.get? name = none
  /-- What was bound before is bound as before. -/
  kept : ∀ other b, s.table.get? other = some b → u.table.get? other = some b
  /-- What else is bound has been bound by a nested request that succeeded. -/
  gained : ∀ other, u.table.contains other = true ↔ s.table.contains other = true ∨
    ∃ v ∈ Session.visits name text (fun signature => (work signature).run)
      (fun signature => (work signature).visits) s, v.succeeds other = true
  /-- What was found bound at any point of the resolver's work is still bound. -/
  nested : ∀ p ∈ Session.points name text (fun signature => (work signature).points) s,
    ∀ other b, p.table.get? other = some b → u.table.get? other = some b
  /-- If the text is no signature, no resolver has run and nothing else has happened. -/
  idle : ∀ error, Signature.parse text = .error error →
    Session.visits name text (fun signature => (work signature).run)
        (fun signature => (work signature).visits) s = [.misread name error] ∧
      (∀ other, u.table.get? other = s.table.get? other) ∧ u.world = s.world ∧ u.log = s.log
  /-- The next request for the name asks its own resolver, whatever has happened in between. -/
  again : ∀ later : History σ, (∀ v ∈ later.visits u, v.name ≠ name) → ∀ t ∈ later.trail u,
    ∀ text work signature, Signature.parse text = .ok signature → Retries name text work t signature

end

section

variable {name text : String} {work : Signature → Plan σ} {s u : Session σ}
  {outcome : Outcome (Answer σ)}

/-- What comes of a request that binds its name. -/
theorem request_of_run {signature : Signature} {callable : Callable σ}
    (hc : s.table.cellOf name = .empty) (hparse : Signature.parse text = .ok signature)
    (hrun : (work signature).run (s.begun name signature) = (.returned (.ok callable), u)) :
    request name text (fun signature => (work signature).run) s =
      (.returned (.ok (.make u.fresh name signature callable)),
        u.bound (s.table.acquire name).1 (.make u.fresh name signature callable)) := by
  rw [cellOf_eq_cell_acquire] at hc
  exact (Requested.accepted hc hparse hrun).request_eq

/-- What comes of a request whose resolver answers an error. -/
theorem request_of_failed {signature : Signature} {error : ResolveError}
    (hc : s.table.cellOf name = .empty) (hparse : Signature.parse text = .ok signature)
    (hrun : (work signature).run (s.begun name signature) = (.returned (.error error), u)) :
    request name text (fun signature => (work signature).run) s =
      (.returned (.error error), u.abandoned name (s.table.acquire name).1) := by
  rw [cellOf_eq_cell_acquire] at hc
  exact (Requested.failed hc hparse hrun).request_eq

/-- **An empty cell is as good as none**: a request for its name asks its resolver. -/
theorem retries_of_empty {signature : Signature} (hs : s.table.WellFormed)
    (hc : s.table.cellOf name = .empty) (hparse : Signature.parse text = .ok signature) :
    Retries name text work s signature where
  asked := ⟨_, visits_of_run ((cellOf_eq_cell_acquire _ _).symm.trans hc) hparse rfl⟩
  bound := by
    intro callable v hrun
    have hgrows := ((work signature).run_course (hs.opened name) hrun (by simp)).grows
    refine ⟨_, request_of_run hc hparse hrun, ?_⟩
    rw [Table.get?_eq_cellOf, bound, Table.cellOf_release, hgrows.cellOf_settled hs, if_pos rfl]
    rfl

/-- A text that is no signature leaves every cell as it was. -/
theorem request_of_error {error : ResolveError} (hs : s.table.WellFormed)
    (hc : s.table.cellOf name = .empty) (hparse : Signature.parse text = .error error)
    (h : request name text (fun signature => (work signature).run) s = (outcome, u)) :
    (∀ other, u.table.cellOf other = s.table.cellOf other) ∧ u.world = s.world ∧
      u.log = s.log := by
  have hcell := (cellOf_eq_cell_acquire s.table name).symm.trans hc
  cases requested_of_request h with
  | hit cell => rw [hcell] at cell; cases cell
  | blocked cell => rw [hcell] at cell; cases cell
  | refused cell parsed =>
    exact ⟨fun other => (Table.cellOf_abandoned (hs.acquire_lt name) name other).trans
      (hs.cellOf_refused hc other), rfl, rfl⟩
  | accepted cell parsed run => rw [hparse] at parsed; cases parsed
  | failed cell parsed run => rw [hparse] at parsed; cases parsed
  | panicked cell parsed run => rw [hparse] at parsed; cases parsed
  | stuck cell parsed run => rw [hparse] at parsed; cases parsed

/-- **A request that fails** has an outcome of its own and leaves the cell of its name empty, as
it was before. -/
theorem fails_of_request (hs : s.table.WellFormed) (hname : s.table.get? name = none)
    (h : request name text (fun signature => (work signature).run) s = (outcome, u))
    (ended : outcome ≠ .stuck) (failed : ∀ b, outcome ≠ .returned (.ok b)) :
    Fails name text work s outcome ∧ s.table.cellOf name = .empty ∧
      u.table.cellOf name = .empty := by
  have hcell := cellOf_eq_cell_acquire s.table name
  cases requested_of_request h with
  | hit cell =>
    rw [Table.get?_eq_cellOf, hcell, cell] at hname
    cases hname
  | blocked cell => exact absurd rfl ended
  | refused cell parsed =>
    have hc := hcell.trans cell
    exact ⟨.misread parsed, hc, ((request_of_error hs hc parsed h).1 name).trans hc⟩
  | accepted cell parsed run => exact absurd rfl (failed _)
  | failed cell parsed run =>
    have hgrows := ((work _).run_course (hs.opened name) run (by simp)).grows
    have hi := hgrows.wellFormed.inside (hgrows.position?_of_opened hs)
    refine ⟨.refused parsed run, hcell.trans cell, ?_⟩
    exact (Table.cellOf_abandoned hi name name).trans
      ((hgrows.cellOf_settled hs .empty name).trans (if_pos rfl))
  | panicked cell parsed run =>
    have hgrows := ((work _).run_course (hs.opened name) run (by simp)).grows
    refine ⟨.panicked parsed run, hcell.trans cell, ?_⟩
    exact (Table.cellOf_release ..).trans
      ((hgrows.cellOf_settled hs .empty name).trans (if_pos rfl))
  | stuck cell parsed run => exact absurd rfl ended

/-- What is bound after a request was bound before, or by a request that succeeded. -/
theorem contains_of_ledger {t v : Table σ} {visits : List Visit} (h : Table.Ledger t v visits)
    (other : String) : v.contains other = true ↔ t.contains other = true ∨
      ∃ w ∈ visits, w.succeeds other = true := by
  have honce := h.once other
  rw [← Table.tally_pos_iff, ← Table.tally_pos_iff, ← List.countP_pos_iff]
  omega

end

end Session

namespace History

/-- **A failed request leaves the cache as it was**, at whatever point of a history it is made, but
for what the requests for other names have bound that its resolver has made. -/
theorem request_fruitless {world : σ} {h : History σ} {s u : Session σ}
    (hs : s ∈ h.trail (.start world)) {name text : String} {work : Signature → Plan σ}
    {outcome : Outcome (Answer σ)} (hname : s.table.get? name = none)
    (call : Session.request name text (fun signature => (work signature).run) s = (outcome, u))
    (ended : outcome ≠ .stuck) (failed : ∀ b, outcome ≠ .returned (.ok b)) :
    Session.Fruitless name text work s outcome u := by
  have hwf := wellFormed_of_mem_trail Table.wellFormed_empty hs
  obtain ⟨hfails, hempty, hemptied⟩ := Session.fails_of_request hwf hname call ended failed
  have hleads : Session.Leads (fun _ => True) s (Session.points name text
      (fun signature => (work signature).points) s) u :=
    Session.planned_leads hwf call fun _ _ => trivial
  have hcourse := Session.request_course hwf call ended fun signature => (work signature).run_course
  refine ⟨hfails, ?_, fun other b => hleads.evolves.get? hwf, ?_, ?_, ?_, ?_⟩
  · rw [Table.get?_eq_cellOf, hemptied]
    rfl
  · exact Session.contains_of_ledger hcourse.ledger
  · intro p hp other b
    obtain ⟨hsp, hpu⟩ := (Session.leads_iff.mp hleads).1 p hp
    exact hpu.get? (hsp.wellFormed hwf)
  · intro error hparse
    obtain ⟨hcells, hworld, hlog⟩ := Session.request_of_error hwf hempty hparse call
    refine ⟨Session.visits_of_error ((Session.cellOf_eq_cell_acquire _ _).symm.trans hempty) hparse,
      fun other => ?_, hworld, hlog⟩
    rw [Table.get?_eq_cellOf, hcells, Table.get?_eq_cellOf]
  · intro later hlater t ht text work signature hparse
    have huwf := hleads.evolves.wellFormed hwf
    have hthrough : Session.Leads (fun other => other ≠ name) u (later.trail u) (later.run u) :=
      later.run_leads huwf hlater
    have hevolves := ((Session.leads_iff.mp hthrough).1 t ht).1
    -- nothing has been done for the name since, so its cell is still empty
    have hcell : t.table.cellOf name = u.table.cellOf name :=
      hevolves.cellOf_eq huwf fun hne => hne rfl
    exact Session.retries_of_empty (hevolves.wellFormed huwf) (hcell.trans hemptied) hparse

/-! ## A request that binds another name and panics -/

/-- Asks for `@inner`, which is resolved at once, and then panics. -/
def givesUp : Signature → Plan Unit := fun _ =>
  .request "@inner" "():VOID"
    (fun _ => .answer (.ok fun _ world => (.returned (.ok .void), [], world)))
    fun _ => .panic (.plain "given up")

/-- Asks for `@outer` with a text that is no signature. -/
def mistaken : History Unit := [.request "@outer" "POINTER" givesUp]

/-- After the mistake the name is asked for again, this time with a signature. -/
theorem request_fruitless_givesUp :
    ∃ u, Session.request "@outer" "():VOID" (fun signature => (givesUp signature).run)
          (mistaken.run (.start ())) = (.panicked (.plain "given up"), u) ∧
      Session.Fruitless "@outer" "():VOID" givesUp (mistaken.run (.start ()))
          (.panicked (.plain "given up")) u ∧
        u.table.contains "@inner" = true ∧
        ∀ work, Session.Retries "@outer" "(UINT64):VOID" work u ⟨[.uint64], .void⟩ := by
  have hunbound : (mistaken.run (.start ())).table.contains "@outer" = false := by decide +kernel
  have hpanicked : (Session.request "@outer" "():VOID" (fun signature => (givesUp signature).run)
      (mistaken.run (.start ()))).1.map (fun _ => ()) = .panicked (.plain "given up") := by
    decide +kernel
  have hinner : (Session.request "@outer" "():VOID" (fun signature => (givesUp signature).run)
      (mistaken.run (.start ()))).2.table.contains "@inner" = true := by decide +kernel
  rcases call : Session.request "@outer" "():VOID" (fun signature => (givesUp signature).run)
    (mistaken.run (.start ())) with ⟨answer | cause | _, u⟩
  all_goals
    rw [call] at hpanicked hinner
    cases hpanicked
  have fruitless := request_fruitless (mem_trail_run mistaken _)
    (Option.not_isSome_iff_eq_none.mp (Bool.eq_false_iff.mp hunbound)) call (by simp) (by simp)
  refine ⟨u, rfl, fruitless, hinner, fun work => ?_⟩
  exact fruitless.again [] (by simp [History.visits]) u List.mem_cons_self _ work _ (by rfl)

end History

end NativeLink
