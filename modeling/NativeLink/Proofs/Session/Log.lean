import NativeLink.Cache.Trail
import NativeLink.Proofs.Session.Origin
import NativeLink.Proofs.Signature.Acceptance

/-!
# What requests write to the log

The cache tells two events of its own: what it is about to resolve, before the resolver
begins, and a warning if the binding it answers has another signature than the one that
was asked for.  `Session.written` is what a request adds to the log, told without the
steps it goes through: whether its name is bound, and what reading its text gives.  If
the resolver is asked, what the resolver writes comes after the event of the cache, and
`Plan.written` lists that, with what the requests of the plan write.

Like the visits, what is written is read off the run: its sessions are those of
`Plan.run`.  `History.log_of_request` says that the log has grown by it.

The cache finds out about a conflict by comparing texts where that is enough.
`Binding.isBoundWith_iff` says that this decides what reading the text would, because the
signature of a binding was read from a text.
-/

namespace NativeLink

variable {σ : Type}

/-! ## Conflicts -/

section

variable {offer : Offer σ} {b : Binding σ}

/-- The warning is given to whoever asks for another signature, or for none. -/
theorem Binding.conflict_eq (hb : b.Offered offer) (requested : String) :
    (Signature.parse requested = .ok b.signature ∧ b.conflict requested = []) ∨
      (Signature.parse requested ≠ .ok b.signature ∧
        b.conflict requested = [.conflict b.name b.signature requested]) := by
  obtain ⟨text, hparsed⟩ := hb.parsed
  have haccepts : b.isBoundWith requested = true ↔ Signature.parse requested = .ok b.signature :=
    isBoundWith_iff hb.canonical (Signature.void_not_mem_of_parse hparsed)
  unfold conflict
  by_cases h : Signature.parse requested = .ok b.signature
  · exact .inl ⟨h, if_pos (haccepts.mpr h)⟩
  · exact .inr ⟨h, if_neg fun hbound => h (haccepts.mp hbound)⟩

end

/-- Every plan yields something or other. -/
theorem Plan.yields_anything (p : Plan σ) (name : String) (signature : Signature) :
    p.Yields (fun _ _ _ => True) name signature := by
  induction p generalizing name signature with
  | answer result => exact fun _ _ => trivial
  | panic cause => trivial
  | stuck => trivial
  | tell event next ih => exact ih name signature
  | step change next ih => exact fun world => ih world name signature
  | look other next ih => exact fun found => ih found name signature
  | request other text work next ihwork ihnext =>
    exact ⟨fun requested => ihwork requested other requested,
      fun given => ihnext given name signature⟩

/-! ## Requests and plans -/

/-- **What a request adds to the log**, if its resolver adds `inner`. -/
def Session.written (name text : String) (inner : Signature → Session σ → List Event)
    (s : Session σ) : List Event :=
  match s.table.get? name with
  | some b =>
    if Signature.parse text = .ok b.signature then [] else [.conflict b.name b.signature text]
  | none =>
    match Signature.parse text with
    | .error _ => []
    | .ok signature =>
      let (i, table) := s.table.acquire name
      .resolving name signature :: inner signature (s.opened table i name signature)

/-- **What a plan adds to the log**, and what its requests add. -/
def Plan.written : Plan σ → Session σ → List Event
  | .answer _ => fun _ => []
  | .panic _ => fun _ => []
  | .stuck => fun _ => []
  | .tell event next => fun s => event :: next.written (s.tell [event])
  | .step change next => fun s => (next s.world).written { s with world := change s.world }
  | .look name next => fun s => (next (s.table.get? name)).written s
  | .request name text work next => fun s =>
    Session.written name text (fun signature => (work signature).written) s ++
      match Session.request name text (fun signature => (work signature).run) s with
      | (.returned given, s) => (next given).written s
      | _ => []

/-- The act adds to the log what it is said to, if it comes to an end and if the signatures of
bindings were read from texts. -/
def Act.Logs {α : Type} (act : Act σ α) (written : Session σ → List Event) : Prop :=
  ∀ ⦃s u : Session σ⦄ ⦃outcome : Outcome α⦄, s.table.Offered (fun _ _ _ => True) →
    act s = (outcome, u) → outcome ≠ .stuck → u.log = s.log ++ written s

namespace Session

variable {s : Session σ} {name : String}

/-- A look-up finds what a request for the name would find in its cell. -/
theorem get?_eq_cell_acquire : s.table.get? name =
    ((s.table.acquire name).2.cell (s.table.acquire name).1).binding? := by
  rw [← Table.get?_acquire s.table name, Table.get?_eq_bind, Table.position?_acquire_self]
  rfl

/-- **A request adds to the log what it should**, if its resolver does. -/
theorem request_logs {name text : String}
    {resolve : Signature → Act σ (Except ResolveError (Callable σ))}
    {inner : Signature → Session σ → List Event}
    (h : ∀ signature, (resolve signature).Logs (inner signature)) :
    (request name text resolve).Logs (written name text inner) := by
  intro s u outcome hs hrequest hends
  have hopened : ∀ signature, (s.opened (s.table.acquire name).2 (s.table.acquire name).1 name
      signature).table.Offered fun _ _ _ => True := fun _ => (hs.acquire name).unbind _ rfl
  -- the resolver goes on with a log in which the event of the cache is the last one
  have hran : ∀ {signature : Signature} {result : Outcome (Except ResolveError (Callable σ))}
      {v : Session σ}, (s.table.acquire name).2.cell (s.table.acquire name).1 = .empty →
      Signature.parse text = .ok signature →
      resolve signature (s.opened (s.table.acquire name).2 (s.table.acquire name).1 name
        signature) = (result, v) → result ≠ .stuck →
      v.log = s.log ++ written name text inner s := by
    intro signature result v hcell hread hrun hend
    rw [h signature (hopened signature) hrun hend]
    simp only [written, get?_eq_cell_acquire, hcell, Cell.binding?, hread]
    exact List.append_assoc ..
  cases requested_of_request hrequest with
  | @hit b cell =>
    simp only [written, get?_eq_cell_acquire, cell, Cell.binding?]
    rcases b.conflict_eq (hs.acquire name _ _ cell) text with ⟨hread, hnone⟩ | ⟨hread, hone⟩
    · rw [if_pos hread, ← hnone]
      rfl
    · rw [if_neg hread, ← hone]
      rfl
  | blocked cell => exact absurd rfl hends
  | refused cell parsed =>
    simp only [written, get?_eq_cell_acquire, cell, Cell.binding?, parsed]
    exact (List.append_nil _).symm
  | accepted cell parsed run =>
    have hlog := hran cell parsed run (by simp)
    exact hlog
  | failed cell parsed run =>
    have hlog := hran cell parsed run (by simp)
    exact hlog
  | panicked cell parsed run =>
    have hlog := hran cell parsed run (by simp)
    exact hlog
  | stuck cell parsed run => exact absurd rfl hends

/-- A request whose resolver runs a plan keeps the signatures of bindings read from texts. -/
theorem request_keeps_anything (name text : String) (work : Signature → Plan σ) :
    (request name text fun signature => (work signature).run).Keeps (fun _ _ _ => True)
      fun answer => ∀ b, answer = .ok b → b.Offered fun _ _ _ => True :=
  request_keeps fun signature => Plan.run_keeps ((work signature).yields_anything name signature)

end Session

/-- **A plan adds to the log what it should.** -/
theorem Plan.run_logs (p : Plan σ) : p.run.Logs p.written := by
  induction p with
  | answer result =>
    rintro s u outcome - hrun -
    cases hrun
    exact (List.append_nil _).symm
  | panic cause =>
    rintro s u outcome - hrun -
    cases hrun
    exact (List.append_nil _).symm
  | stuck =>
    intro s u outcome _ hrun hends
    cases hrun
    exact absurd rfl hends
  | tell event next ih =>
    intro s u outcome hs hrun hends
    exact (ih (s := s.tell [event]) hs hrun hends).trans (List.append_assoc ..)
  | step change next ih =>
    intro s u outcome hs hrun hends
    exact ih s.world (s := { s with world := change s.world }) hs hrun hends
  | look other next ih => exact fun s u outcome hs hrun hends => ih _ hs hrun hends
  | request other text work next ihwork ihnext =>
    intro s u outcome hs hrun hends
    rw [Plan.run, Act.andThen] at hrun
    rcases hrequest : Session.request other text (fun signature => (work signature).run) s
      with ⟨given | cause | _, v⟩
    · rw [hrequest] at hrun
      have hfirst := Session.request_logs ihwork hs hrequest (by simp)
      have hv := (Session.request_keeps_anything other text work hrequest hs).1
      simp only [Plan.written, hrequest]
      rw [ihnext given hv hrun hends, hfirst, List.append_assoc]
    · rw [hrequest] at hrun
      cases hrun
      simp only [Plan.written, hrequest, List.append_nil]
      exact Session.request_logs ihwork hs hrequest (by simp)
    · rw [hrequest] at hrun
      cases hrun
      exact absurd rfl hends

/-! ## Histories -/

namespace History

/-- In whatever session a history leaves, the signatures of bindings were read from texts. -/
theorem run_keeps (h : History σ) {s : Session σ} (hs : s.table.Offered fun _ _ _ => True) :
    (h.run s).table.Offered fun _ _ _ => True := by
  induction h generalizing s with
  | nil => exact hs
  | cons use rest ih =>
    refine ih ?_
    cases use with
    | request name text work => exact (Session.request_keeps_anything name text work rfl hs).1
    | observe => exact hs
    | call binding args => exact hs

/-- **Whatever was done with a cache before**, a request that comes to an end adds to the log what
it should. -/
theorem log_of_request (h : History σ) {world : σ} {name text : String}
    {work : Signature → Plan σ} {outcome : Outcome (Answer σ)} {u : Session σ}
    (hrequest : Session.request name text (fun signature => (work signature).run)
      (h.run (.start world)) = (outcome, u)) (hends : outcome ≠ .stuck) :
    u.log = (h.run (.start world)).log ++
      Session.written name text (fun signature => (work signature).written)
        (h.run (.start world)) :=
  Session.request_logs (fun signature => (work signature).run_logs)
    (h.run_keeps Table.offered_empty) hrequest hends

end History

end NativeLink
