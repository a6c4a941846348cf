import NativeLink.Cache.Request

/-!
# What a request does

A request on one thread is a chain of atomic changes of the table, with the run of a
resolver in the middle of some chains.  `Session.Requested` lists the seven chains,
each with what it answers and the session it leaves; `requested_of_request` says that
every request is one of them.  Whatever is to be shown of requests is shown by going
through the list, and `Session.request` itself is unfolded here only.

Four sessions on the way have names: the one in which a resolver begins
(`Session.opened`), and those that are left when a resolver has made a callable
(`Session.bound`), has answered an error (`Session.abandoned`), or has panicked
(`Session.vacated`).
-/

namespace NativeLink

namespace Session

variable {σ : Type}

/-- The session in which the resolver of `name` begins, with the cell at `i` marked busy. -/
def opened (s : Session σ) (table : Table σ) (i : Nat) (name : String) (signature : Signature) :
    Session σ :=
  (s.withTable (table.setCell i .busy)).tell [.resolving name signature]

/-- The session after the cell at `i` was bound. -/
def bound (s : Session σ) (i : Nat) (binding : Binding σ) : Session σ :=
  { s with
    table := (s.table.setCell i (.bound binding)).release i
    fresh := s.fresh + 1 }

/-- The session after the cell at `i` was emptied and its slot discarded if nobody else holds
it. -/
def abandoned (s : Session σ) (name : String) (i : Nat) : Session σ :=
  s.withTable (((s.table.setCell i .empty).discardUnbound name i).release i)

/-- The session after the cell at `i` was emptied, and its slot left in the table. -/
def vacated (s : Session σ) (i : Nat) : Session σ :=
  s.withTable ((s.table.setCell i .empty).release i)

/-- What a request can do, with its outcome and the session it leaves.  The request holds the
slot at `i` of `table`. -/
inductive Requested (name text : String)
    (resolve : Signature → Act σ (Except ResolveError (Callable σ))) (s : Session σ) (i : Nat)
    (table : Table σ) : Outcome (Answer σ) → Session σ → Prop where
  | hit {binding : Binding σ} (cell : table.cell i = .bound binding) :
    Requested name text resolve s i table (.returned (.ok binding))
      ((s.withTable (table.release i)).tell (binding.conflict text))
  | blocked (cell : table.cell i = .busy) :
    Requested name text resolve s i table .stuck (s.withTable table)
  | refused {error : ResolveError} (cell : table.cell i = .empty)
    (parsed : Signature.parse text = .error error) :
    Requested name text resolve s i table (.returned (.error error))
      ((s.withTable table).abandoned name i)
  | accepted {signature : Signature} {callable : Callable σ} {u : Session σ}
    (cell : table.cell i = .empty) (parsed : Signature.parse text = .ok signature)
    (run : resolve signature (s.opened table i name signature) = (.returned (.ok callable), u)) :
    Requested name text resolve s i table
      (.returned (.ok (.make u.fresh name signature callable)))
      (u.bound i (.make u.fresh name signature callable))
  | failed {signature : Signature} {error : ResolveError} {u : Session σ}
    (cell : table.cell i = .empty) (parsed : Signature.parse text = .ok signature)
    (run : resolve signature (s.opened table i name signature) = (.returned (.error error), u)) :
    Requested name text resolve s i table (.returned (.error error)) (u.abandoned name i)
  | panicked {signature : Signature} {cause : Panic} {u : Session σ}
    (cell : table.cell i = .empty) (parsed : Signature.parse text = .ok signature)
    (run : resolve signature (s.opened table i name signature) = (.panicked cause, u)) :
    Requested name text resolve s i table (.panicked cause) (u.vacated i)
  | stuck {signature : Signature} {u : Session σ} (cell : table.cell i = .empty)
    (parsed : Signature.parse text = .ok signature)
    (run : resolve signature (s.opened table i name signature) = (.stuck, u)) :
    Requested name text resolve s i table .stuck u

/-- **Every request does one of these things.** -/
theorem requested_of_request {name text : String}
    {resolve : Signature → Act σ (Except ResolveError (Callable σ))} {s u : Session σ}
    {outcome : Outcome (Answer σ)} (h : request name text resolve s = (outcome, u)) :
    Requested name text resolve s (s.table.acquire name).1 (s.table.acquire name).2 outcome u := by
  have ho : (request name text resolve s).1 = outcome := by rw [h]
  have hu : (request name text resolve s).2 = u := by rw [h]
  rw [← ho, ← hu]
  unfold request
  cases hcell : (s.table.acquire name).2.cell (s.table.acquire name).1 with
  | bound binding => simpa only [hcell] using .hit hcell
  | busy => simpa only [hcell] using .blocked hcell
  | empty =>
    cases htext : Signature.parse text with
    | error error => simpa only [hcell, htext] using .refused hcell htext
    | ok signature =>
      rcases hrun : resolve signature
        (s.opened (s.table.acquire name).2 (s.table.acquire name).1 name signature)
        with ⟨(error | callable) | cause | _, v⟩
      all_goals unfold opened at hrun
      · simpa only [hcell, htext, hrun] using .failed hcell htext hrun
      · simpa only [hcell, htext, hrun] using .accepted hcell htext hrun
      · simpa only [hcell, htext, hrun] using .panicked hcell htext hrun
      · simpa only [hcell, htext, hrun] using .stuck hcell htext hrun

/-- **A request does what it can do**: of the things in the list there is only one for a session. -/
theorem Requested.request_eq {name text : String}
    {resolve : Signature → Act σ (Except ResolveError (Callable σ))} {s u : Session σ}
    {outcome : Outcome (Answer σ)}
    (h : Requested name text resolve s (s.table.acquire name).1 (s.table.acquire name).2 outcome
      u) : request name text resolve s = (outcome, u) := by
  unfold request
  cases h with
  | hit cell => simp only [cell]
  | blocked cell => simp only [cell]
  | refused cell parsed =>
    simp only [cell, parsed]
    rfl
  | accepted cell parsed run =>
    unfold opened at run
    simp only [cell, parsed, run]
    rfl
  | failed cell parsed run =>
    unfold opened at run
    simp only [cell, parsed, run]
    rfl
  | panicked cell parsed run =>
    unfold opened at run
    simp only [cell, parsed, run]
    rfl
  | stuck cell parsed run =>
    unfold opened at run
    simp only [cell, parsed, run]

end Session

end NativeLink
