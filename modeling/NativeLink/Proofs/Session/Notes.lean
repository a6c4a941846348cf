import NativeLink.Cache.Notes
import NativeLink.Context
import NativeLink.Proofs.Session.Course

/-!
# What a resolver notes

The visits of a run are read off the plans and the sessions in which they are taken up.
Here they are tied to what happens.  A resolver that takes notes does all that the resolver
does, and what it adds to its notes are the visits of the run, as far as they are its own:
each time it is asked and each answer it gives, in order.  So whatever is said of those
visits is said of the resolver itself, at work in the run.

`Act.Notes` says this of anything that is done in a session.  It passes from one thing to
the next (`Act.Notes.andThen`), from the work of a resolver to a request
(`notes_request`) and, by induction on plans, to every run (`Plan.notes_run`).

The cache is the same in the larger world.  Its table changes in the same way, because no
change of a table looks into a callable.
-/

namespace NativeLink

variable {σ : Type}

/-! ## The table in the larger world -/

namespace Table

@[simp] theorem position?_noted (t : Table σ) (name : String) :
    t.noted.position? name = t.position? name := rfl

@[simp] theorem cell_noted (t : Table σ) (i : Nat) : t.noted.cell i = (t.cell i).noted := by
  simp only [cell, noted, List.getElem?_map]
  cases t.slots[i]? <;> rfl

@[simp] theorem holders_noted (t : Table σ) (i : Nat) : t.noted.holders i = t.holders i := by
  simp only [holders, noted, List.getElem?_map]
  cases t.slots[i]? <;> rfl

@[simp] theorem binding?_noted (c : Cell σ) : c.noted.binding? = c.binding?.map Binding.noted := by
  cases c <;> rfl

@[simp] theorem get?_noted (t : Table σ) (name : String) :
    t.noted.get? name = (t.get? name).map Binding.noted := by
  simp only [get?, position?_noted, cell_noted, binding?_noted]
  cases t.position? name <;> rfl

/-- Slots are changed in the larger world as they are here. -/
theorem noted_modify (index : List (String × Nat)) (slots : List (Slot σ)) (i : Nat)
    {f : Slot σ → Slot σ} {g : Slot (Noted σ) → Slot (Noted σ)}
    (h : ∀ slot : Slot σ, g slot.noted = (f slot).noted) :
    (⟨index, (slots.map Slot.noted).modify i g⟩ : Table (Noted σ)) =
      noted ⟨index, slots.modify i f⟩ := by
  simp only [noted, mk.injEq, true_and]
  apply List.ext_getElem?
  intro j
  simp only [List.getElem?_modify, List.getElem?_map]
  cases slots[j]? with
  | none => rfl
  | some slot => by_cases hj : i = j <;> simp [hj, h]

theorem acquire_noted (t : Table σ) (name : String) :
    t.noted.acquire name = ((t.acquire name).1, (t.acquire name).2.noted) := by
  unfold acquire
  rw [position?_noted]
  cases t.position? name with
  | some i => exact congrArg (Prod.mk i) (noted_modify t.index t.slots i fun _ => rfl)
  | none => simp [noted, Slot.noted, Cell.noted]

theorem setCell_noted (t : Table σ) (i : Nat) (c : Cell σ) :
    t.noted.setCell i c.noted = (t.setCell i c).noted :=
  noted_modify t.index t.slots i fun _ => rfl

theorem release_noted (t : Table σ) (i : Nat) : t.noted.release i = (t.release i).noted :=
  noted_modify t.index t.slots i fun _ => rfl

theorem discardUnbound_noted (t : Table σ) (name : String) (i : Nat) :
    t.noted.discardUnbound name i = (t.discardUnbound name i).noted := by
  have hunused : t.noted.isUnused name i = t.isUnused name i := by
    simp [isUnused]
  simp only [discardUnbound, hunused]
  split <;> rfl

end Table

theorem Invoker.make_noted {n : Nat} (b : Binding σ) :
    Invoker.make n b.noted = (Invoker.make n b).map Invoker.noted := by
  have harity : b.noted.arity = b.arity := rfl
  by_cases h : b.arity = n
  · simp only [Invoker.make, harity, h, dite_true, Except.map]
    rfl
  · simp only [Invoker.make, harity, h, dite_false, Except.map]
    rfl

/-! ## Things done in a session -/

/-- What is done by `noting` is what is done by `act`, with answers that correspond by `f`, and
those of the visits are noted that a resolver can note. -/
def Act.Notes {α β : Type} (act : Act σ α) (visits : Session σ → List Visit) (f : α → β)
    (noting : Act (Noted σ) β) : Prop :=
  ∀ s notes, noting (s.noted notes) =
    ((act s).1.map f, (act s).2.noted (notes ++ (visits s).filter Visit.isNoted))

namespace Act.Notes

variable {α β γ δ : Type} {act : Act σ α} {visits : Session σ → List Visit} {f : α → β}
  {noting : Act (Noted σ) β}

/-- What is noted does not depend on what was noted before. -/
theorem notes_eq (h : act.Notes visits f noting) (s : Session σ) :
    noting.notes s = (visits s).filter Visit.isNoted := by
  rw [Act.notes, h s []]
  rfl

/-- **One thing after another**: the notes are those of the first and then those of the second. -/
theorem andThen (h : act.Notes visits f noting) {next : α → Act σ γ}
    {later : α → Session σ → List Visit} {g : γ → δ} {follow : β → Act (Noted σ) δ}
    (k : ∀ a, (next a).Notes (later a) g (follow (f a))) :
    (act.andThen next).Notes (act.visitsThen visits later) g (noting.andThen follow) := by
  intro s notes
  rcases hact : act s with ⟨a | cause | _, u⟩
  · simp only [Act.andThen, Act.visitsThen, h s notes, hact, Outcome.map, k a u,
      List.filter_append, List.append_assoc]
  · simp only [Act.andThen, Act.visitsThen, h s notes, hact, Outcome.map, List.append_nil]
  · simp only [Act.andThen, Act.visitsThen, h s notes, hact, Outcome.map, List.append_nil]

/-- Only the visits that can be noted matter. -/
theorem congr (h : act.Notes visits f noting) {others : Session σ → List Visit}
    (hvisits : ∀ s, (visits s).filter Visit.isNoted = (others s).filter Visit.isNoted) :
    act.Notes others f noting := by
  intro s notes
  rw [h s notes, hvisits]

/-- What only makes something of an answer notes nothing more. -/
theorem map (h : act.Notes visits f noting) {k : α → γ} {l : β → δ} {g : γ → δ}
    (hl : ∀ a, l (f a) = g (k a)) :
    (act.andThen fun a s => (.returned (k a), s)).Notes visits g
      (noting.andThen fun b s => (.returned (l b), s)) := by
  intro s notes
  rcases hact : act s with ⟨a | cause | _, u⟩
  · simp only [Act.andThen, h s notes, hact, Outcome.map, hl]
  · simp only [Act.andThen, h s notes, hact, Outcome.map]
  · simp only [Act.andThen, h s notes, hact, Outcome.map]

end Act.Notes

/-! ## The account in the notes -/

theorem Visit.isNoted_of_succeeds {name : String} {v : Visit} (h : v.succeeds name = true) :
    v.isNoted = true := by
  unfold succeeds at h
  split at h
  · rfl
  · cases h

/-- The visits that can be noted account for the bindings. -/
theorem Table.Ledger.noted {t u : Table σ} {visits : List Visit} (h : Ledger t u visits) :
    Ledger t u (visits.filter Visit.isNoted) where
  once name := by
    rw [List.countP_filter, ← h.once name]
    refine congrArg (· + t.tally name) (List.countP_congr fun v _ => ?_)
    rw [Bool.and_eq_true]
    exact ⟨And.left, fun hv => ⟨hv, Visit.isNoted_of_succeeds hv⟩⟩
  settled name hname v hv := h.settled name hname v (List.mem_of_mem_filter hv)
  after := h.after.filter _

/-! ## Requests -/

namespace Session

/-- The visits of the resolver of `name`: it is asked, leads to those of its work, and answers. -/
def askedVisits (name : String) (resolve : Signature → Act σ (Except ResolveError (Callable σ)))
    (inner : Signature → Session σ → List Visit) (signature : Signature) (s : Session σ) :
    List Visit :=
  .asked name signature :: (inner signature s ++
    [.answered name ((resolve signature s).1.map fun result => result.map fun _ => ())])

variable {name text : String} {resolve : Signature → Act σ (Except ResolveError (Callable σ))}
  {inner : Signature → Session σ → List Visit}
  {noting : Signature → Act (Noted σ) (Except ResolveError (Callable (Noted σ)))}

theorem opened_noted (s : Session σ) (notes : List Visit) (table : Table σ) (i : Nat)
    (signature : Signature) : (s.noted notes).opened table.noted i name signature =
      (s.opened table i name signature).noted notes :=
  congrArg (fun t => ((s.noted notes).withTable t).tell [.resolving name signature])
    (table.setCell_noted i .busy)

theorem bound_noted (s : Session σ) (notes : List Visit) (i : Nat) (b : Binding σ) :
    (s.noted notes).bound i b.noted = (s.bound i b).noted notes := by
  have htable : (s.table.noted.setCell i (.bound b.noted)).release i =
      ((s.table.setCell i (.bound b)).release i).noted :=
    (congrArg (Table.release · i) (s.table.setCell_noted i (.bound b))).trans (Table.release_noted ..)
  exact congrArg (fun t => Session.mk t (s.world, notes) (s.fresh + 1) s.log) htable

theorem abandoned_noted (s : Session σ) (notes : List Visit) (i : Nat) :
    (s.noted notes).abandoned name i = (s.abandoned name i).noted notes := by
  have hempty : s.table.noted.setCell i .empty = (s.table.setCell i .empty).noted :=
    s.table.setCell_noted i .empty
  refine congrArg (s.noted notes).withTable (?_ : ((s.table.noted.setCell i .empty).discardUnbound
    name i).release i = (((s.table.setCell i .empty).discardUnbound name i).release i).noted)
  rw [hempty, Table.discardUnbound_noted, Table.release_noted]

theorem vacated_noted (s : Session σ) (notes : List Visit) (i : Nat) :
    (s.noted notes).vacated i = (s.vacated i).noted notes := by
  refine congrArg (s.noted notes).withTable
    (?_ : (s.table.noted.setCell i .empty).release i = ((s.table.setCell i .empty).release i).noted)
  rw [← Table.release_noted]
  exact congrArg (Table.release · i) (s.table.setCell_noted i .empty)

/-- **A request notes the visits it leads to**, if its resolver notes its own. -/
theorem notes_request
    (h : ∀ signature, (resolve signature).Notes (askedVisits name resolve inner signature)
      (Except.map Callable.noted) (noting signature)) :
    Act.Notes (request name text resolve) (visits name text resolve inner)
      (Except.map Binding.noted) (request name text noting) := by
  intro s notes
  rcases hrequest : request name text resolve s with ⟨outcome, u⟩
  refine Requested.request_eq ?_
  -- the slot that is held is the same in the larger world, and so is its cell
  have hacquire : (s.noted notes).table.acquire name =
      ((s.table.acquire name).1, (s.table.acquire name).2.noted) := s.table.acquire_noted name
  have hcell : ∀ {c : Cell σ}, (s.table.acquire name).2.cell (s.table.acquire name).1 = c →
      (s.table.acquire name).2.noted.cell (s.table.acquire name).1 = c.noted :=
    fun cell => (Table.cell_noted _ _).trans (congrArg Cell.noted cell)
  have hrun : ∀ {signature ended v},
      (s.table.acquire name).2.cell (s.table.acquire name).1 = .empty →
      Signature.parse text = .ok signature →
      resolve signature (s.begun name signature) = (ended, v) →
        noting signature ((s.noted notes).opened (s.table.acquire name).2.noted
          (s.table.acquire name).1 name signature) =
        (ended.map (Except.map Callable.noted),
          v.noted (notes ++ (visits name text resolve inner s).filter Visit.isNoted)) := by
    intro signature ended v cell parsed run
    have hnotes := h signature (s.begun name signature) notes
    unfold askedVisits at hnotes
    rw [run] at hnotes
    rw [opened_noted, visits_of_run cell parsed run]
    exact hnotes
  -- where no resolver is asked, nothing is noted
  have hquiet : ∀ {visit : Visit}, visits name text resolve inner s = [visit] →
      visit.isNoted = false →
        notes ++ (visits name text resolve inner s).filter Visit.isNoted = notes := by
    intro visit hvisits hvisit
    rw [hvisits, List.filter_cons_of_neg (by simp [hvisit]), List.filter_nil, List.append_nil]
  rw [hacquire]
  cases requested_of_request hrequest with
  | hit cell =>
    have hit : Requested name text noting (s.noted notes) _ _ _ _ :=
      .hit (hcell cell)
    rw [Table.release_noted] at hit
    rw [hquiet (visits_of_bound cell) rfl]
    exact hit
  | blocked cell =>
    rw [hquiet (visits_of_blocked cell) rfl]
    exact .blocked (hcell cell)
  | refused cell parsed =>
    rw [hquiet (visits_of_error cell parsed) rfl, ← abandoned_noted]
    exact .refused (hcell cell) parsed
  | accepted cell parsed run =>
    rw [← bound_noted]
    exact .accepted (hcell cell) parsed (hrun cell parsed run)
  | failed cell parsed run =>
    rw [← abandoned_noted]
    exact .failed (hcell cell) parsed (hrun cell parsed run)
  | panicked cell parsed run =>
    rw [← vacated_noted]
    exact .panicked (hcell cell) parsed (hrun cell parsed run)
  | stuck cell parsed run =>
    exact .stuck (hcell cell) parsed (hrun cell parsed run)

end Session

/-! ## Runs -/

namespace Plan

/-- The visits of a run, and the answer of the resolver of `own` at its end. -/
def ownVisits (own : String) (p : Plan σ) (s : Session σ) : List Visit :=
  p.visits s ++ [.answered own ((p.run s).1.map fun result => result.map fun _ => ())]

/-- A resolver that notes what its plan leads to also notes that it is asked. -/
theorem notes_asked {p : Plan σ} {name : String}
    (h : p.run.Notes (p.ownVisits name) (Except.map Callable.noted) (p.noted name).run)
    (signature : Signature) :
    p.run.Notes (fun s => .asked name signature :: p.ownVisits name s) (Except.map Callable.noted)
      (step (note (.asked name signature)) fun _ => p.noted name).run := by
  intro s notes
  refine (h s (notes ++ [.asked name signature])).trans ?_
  rw [List.filter_cons_of_pos (by rfl), List.append_assoc, List.singleton_append]

/-- The answer of a plan that makes a request is that of what follows, if anything does. -/
theorem filter_ownVisits_request (own name text : String) (work : Signature → Plan σ)
    (next : Answer σ → Plan σ) (s : Session σ) :
    ((Session.request name text fun signature => (work signature).run).visitsThen
      (Session.visits name text (fun signature => (work signature).run)
        fun signature => (work signature).visits)
      (fun given => (next given).ownVisits own) s).filter Visit.isNoted =
    ((request name text work next).ownVisits own s).filter Visit.isNoted := by
  rcases hrequest : Session.request name text (fun signature => (work signature).run) s with
    ⟨given | cause | _, u⟩
  · simp only [ownVisits, Act.visitsThen, visits, run, Act.andThen, hrequest, List.append_assoc]
  · simp [ownVisits, Act.visitsThen, visits, run, Act.andThen, hrequest, Outcome.map,
      Visit.isNoted]
  · simp [ownVisits, Act.visitsThen, visits, run, Act.andThen, hrequest, Outcome.map,
      Visit.isNoted]

/-- **A run notes the visits it leads to**, and what it answers. -/
theorem notes_run (p : Plan σ) (own : String) :
    p.run.Notes (p.ownVisits own) (Except.map Callable.noted) (p.noted own).run := by
  induction p generalizing own with
  | answer result => exact fun s notes => rfl
  | panic cause =>
    intro s notes
    simp [run, noted, ownVisits, visits, Outcome.map, Visit.isNoted]
  | stuck =>
    intro s notes
    simp [run, noted, ownVisits, visits, Outcome.map, Visit.isNoted]
  | tell event next ih => exact fun s notes => ih own (s.tell [event]) notes
  | step change next ih =>
    exact fun s notes => ih s.world own { s with world := change s.world } notes
  | look name next ih =>
    intro s notes
    have hfound : ((s.noted notes).table.get? name).map Binding.plain = s.table.get? name := by
      rw [Session.noted, Table.get?_noted, Option.map_map]
      exact Option.map_id'
    exact (congrArg (fun found => ((next found).noted own).run (s.noted notes)) hfound).trans
      (ih (s.table.get? name) own s notes)
  | request name text work next ihwork ihnext =>
    have hrequest : Act.Notes (Session.request name text fun signature => (work signature).run) _
        (Except.map Binding.noted) _ :=
      Session.notes_request fun signature => notes_asked (ihwork signature name) signature
    refine (hrequest.andThen fun given => ?_).congr (filter_ownVisits_request own name text work next)
    have hgiven : (given.map Binding.noted).map Binding.plain = given := by
      cases given <;> rfl
    show Act.Notes _ _ _ ((next ((given.map Binding.noted).map Binding.plain)).noted own).run
    rw [hgiven]
    exact ihnext given own

end Plan

/-- **A resolver that takes notes does what the resolver does**, and notes the visits of its
requests. -/
theorem Session.notes_resolve (resolver : Resolver σ) (name text : String) :
    Act.Notes (Session.resolve resolver name text) (resolver.visits name text)
      (Except.map Binding.noted) (Session.resolve resolver.noted name text) :=
  notes_request fun signature =>
    Plan.notes_asked ((resolver name signature).notes_run name) signature

end NativeLink
