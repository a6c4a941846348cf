import NativeLink.Context
import NativeLink.Proofs.Cache.Table
import NativeLink.Proofs.Session.Request

/-!
# Where bindings come from

A cache makes no callable itself.  Each binding in it was made from a callable that a
resolver answered, for the name and the signature the resolver was asked with, and that
signature was read from a text.  An `Offer` says what a resolver may answer; then
`Binding.Offered` says where a binding comes from, and `Plan.Yields` that a plan, and
each plan it requests, answers nothing else.

Acts in a session are treated by the rule `Act.Keeps`: if the bindings in the table are
offered before, so they are after, whatever the outcome, and what is returned has a
property.  Runs of plans keep that, by induction on the plan, and so do requests and all
that contexts make of them.  Unlike the course of a run this holds of runs that panic or
never end as well.
-/

namespace NativeLink

variable {σ : Type}

/-- What a resolver may answer for a name and a signature. -/
abbrev Offer (σ : Type) : Type := String → Signature → Callable σ → Prop

/-- The plan, which resolves a name under a signature, answers only what is offered, and so do the
plans it requests. -/
def Plan.Yields (offer : Offer σ) : String → Signature → Plan σ → Prop
  | name, signature, .answer result => ∀ callable, result = .ok callable →
    offer name signature callable
  | _, _, .panic _ => True
  | _, _, .stuck => True
  | name, signature, .tell _ next => Yields offer name signature next
  | name, signature, .step _ next => ∀ world, Yields offer name signature (next world)
  | name, signature, .look _ next => ∀ found, Yields offer name signature (next found)
  | name, signature, .request other _ work next =>
    (∀ requested, Yields offer other requested (work requested)) ∧
      ∀ given, Yields offer name signature (next given)

/-- A resolver whose plans answer only what is offered. -/
def Resolver.Yields (offer : Offer σ) (resolver : Resolver σ) : Prop :=
  ∀ name signature, (resolver name signature).Yields offer name signature

/-- A binding that was made from an offered callable, with a signature that was read. -/
structure Binding.Offered (offer : Offer σ) (b : Binding σ) : Prop where
  canonical : b.canonical = b.signature.text
  parsed : ∃ text, Signature.parse text = .ok b.signature
  offered : offer b.name b.signature b.callable

/-- All bindings in the table are offered. -/
def Table.Offered (offer : Offer σ) (t : Table σ) : Prop :=
  ∀ i b, t.cell i = .bound b → b.Offered offer

section

variable {offer : Offer σ} {t : Table σ}

theorem Binding.offered_make {text name : String} {signature : Signature} {callable : Callable σ}
    (parsed : Signature.parse text = .ok signature) (h : offer name signature callable) (id : Nat) :
    (Binding.make id name signature callable).Offered offer :=
  ⟨rfl, ⟨text, parsed⟩, h⟩

namespace Table

theorem offered_empty : Offered offer (empty : Table σ) := by
  intro i b h
  rw [cell_of_length_le (Nat.zero_le i)] at h
  cases h

theorem Offered.congr {u : Table σ} (h : t.Offered offer) (hc : ∀ i, u.cell i = t.cell i) :
    u.Offered offer := fun i b hb => h i b ((hc i).symm.trans hb)

theorem Offered.acquire (h : t.Offered offer) (name : String) :
    (t.acquire name).2.Offered offer := h.congr fun _ => cell_acquire ..

theorem Offered.release (h : t.Offered offer) (i : Nat) : (t.release i).Offered offer :=
  h.congr fun _ => cell_release ..

theorem Offered.discardUnbound (h : t.Offered offer) (name : String) (i : Nat) :
    (t.discardUnbound name i).Offered offer := h.congr fun _ => cell_discardUnbound ..

theorem Offered.setCell (h : t.Offered offer) (i : Nat) {c : Cell σ}
    (hc : ∀ b, c = .bound b → b.Offered offer) : (t.setCell i c).Offered offer := by
  intro j b hb
  rcases Nat.lt_or_ge i t.slots.length with hi | hi
  · rw [cell_setCell hi] at hb
    split at hb
    · exact hc b hb
    · exact h j b hb
  · -- beyond the end there is nothing to set
    by_cases hj : i = j
    · rw [cell_of_length_le (by rw [length_setCell, ← hj]; exact hi)] at hb
      cases hb
    · rw [cell_setCell_of_ne t c hj] at hb
      exact h j b hb

/-- A cell may be emptied or marked busy. -/
theorem Offered.unbind (h : t.Offered offer) (i : Nat) {c : Cell σ} (hc : c.binding? = none) :
    (t.setCell i c).Offered offer := by
  refine h.setCell i fun b hb => ?_
  rw [hb] at hc
  cases hc

theorem Offered.get? (h : t.Offered offer) {name : String} {b : Binding σ}
    (hb : t.get? name = some b) : b.Offered offer := by
  obtain ⟨i, -, hc⟩ := get?_eq_some_iff.mp hb
  exact h i b hc

end Table

/-! ## Acts -/

/-- What the act returns has a property, and the bindings in the table are offered as before. -/
def Act.Keeps {α : Type} (offer : Offer σ) (act : Act σ α) (returns : α → Prop) : Prop :=
  ∀ ⦃s u : Session σ⦄ ⦃outcome : Outcome α⦄, act s = (outcome, u) → s.table.Offered offer →
    u.table.Offered offer ∧ ∀ a, outcome = .returned a → returns a

theorem Act.Keeps.andThen {α β : Type} {act : Act σ α} {next : α → Act σ β} {returns : α → Prop}
    {later : β → Prop} (h : act.Keeps offer returns)
    (k : ∀ a, returns a → (next a).Keeps offer later) :
    (act.andThen next).Keeps offer later := by
  intro s u outcome heq hs
  rw [Act.andThen] at heq
  rcases hact : act s with ⟨a | cause | _, v⟩
  · rw [hact] at heq
    obtain ⟨hv, ha⟩ := h hact hs
    exact k a (ha a rfl) heq hv
  · rw [hact] at heq
    cases heq
    exact ⟨(h hact hs).1, fun b hb => by cases hb⟩
  · rw [hact] at heq
    cases heq
    exact ⟨(h hact hs).1, fun b hb => by cases hb⟩

/-- An act that leaves the table alone. -/
theorem Act.Keeps.of_table {α : Type} {act : Act σ α} {returns : α → Prop}
    (ht : ∀ s, (act s).2.table = s.table)
    (hr : ∀ s a, (act s).1 = .returned a → returns a) : act.Keeps offer returns := by
  intro s u outcome heq hs
  have hu : u.table = s.table := by rw [← ht s, heq]
  exact ⟨hu ▸ hs, fun a ha => hr s a (by rw [heq, ha])⟩

/-! ## Requests and plans -/

/-- **A request keeps its table offered** if its resolver does and answers what is offered. -/
theorem Session.request_keeps {name text : String}
    {resolve : Signature → Act σ (Except ResolveError (Callable σ))}
    (h : ∀ signature, (resolve signature).Keeps offer fun result =>
      ∀ callable, result = .ok callable → offer name signature callable) :
    (Session.request name text resolve).Keeps offer fun answer =>
      ∀ b, answer = .ok b → b.Offered offer := by
  intro s u outcome heq hs
  have hacquired := hs.acquire name
  have hopened : ∀ signature, (s.opened (s.table.acquire name).2 (s.table.acquire name).1 name
      signature).table.Offered offer := fun _ => hacquired.unbind _ rfl
  cases Session.requested_of_request heq with
  | hit cell =>
    refine ⟨hacquired.release _, fun a ha b hb => ?_⟩
    cases ha
    cases hb
    exact hacquired _ _ cell
  | blocked cell => exact ⟨hacquired, by simp⟩
  | refused cell parsed =>
    exact ⟨((hacquired.unbind _ rfl).discardUnbound _ _).release _, by simp⟩
  | @accepted signature callable v cell parsed run =>
    obtain ⟨hv, hcallable⟩ := h signature run (hopened signature)
    have hmade := Binding.offered_make parsed (hcallable _ rfl callable rfl) v.fresh
    refine ⟨(hv.setCell _ fun b hb => ?_).release _, fun a ha b hb => ?_⟩
    · cases hb
      exact hmade
    · cases ha
      cases hb
      exact hmade
  | @failed signature error v cell parsed run =>
    obtain ⟨hv, -⟩ := h signature run (hopened signature)
    exact ⟨((hv.unbind _ rfl).discardUnbound _ _).release _, by simp⟩
  | @panicked signature cause v cell parsed run =>
    obtain ⟨hv, -⟩ := h signature run (hopened signature)
    exact ⟨(hv.unbind _ rfl).release _, by simp⟩
  | @stuck signature v cell parsed run =>
    exact ⟨(h signature run (hopened signature)).1, by simp⟩

/-- **The run of a plan that yields what is offered keeps the table offered.** -/
theorem Plan.run_keeps {name : String} {signature : Signature} {p : Plan σ}
    (hp : p.Yields offer name signature) :
    p.run.Keeps offer fun result =>
      ∀ callable, result = .ok callable → offer name signature callable := by
  induction p generalizing name signature with
  | answer result =>
    refine .of_table (fun _ => rfl) fun s a ha => ?_
    cases ha
    exact hp
  | panic cause => exact .of_table (fun _ => rfl) fun s a ha => by cases ha
  | stuck => exact .of_table (fun _ => rfl) fun s a ha => by cases ha
  | tell event next ih => exact fun s u outcome heq hs => ih hp heq hs
  | step change next ih => exact fun s u outcome heq hs => ih s.world (hp s.world) heq hs
  | look other next ih => exact fun s u outcome heq hs => ih _ (hp _) heq hs
  | request other text work next ihwork ihnext =>
    exact (Session.request_keeps fun requested => ihwork requested (hp.1 requested)).andThen
      fun given _ => ihnext given (hp.2 given)

/-! ## What contexts do -/

namespace Session

variable {resolver : Resolver σ}

theorem resolve_keeps (h : resolver.Yields offer) (name text : String) :
    (resolve resolver name text).Keeps offer fun answer =>
      ∀ b, answer = .ok b → b.Offered offer :=
  request_keeps fun signature => Plan.run_keeps (h name signature)

theorem construct_keeps (h : resolver.Yields offer) (o : Operation) :
    (construct resolver o).Keeps offer fun made =>
      ∀ invoker, made = .ok invoker → invoker.binding.Offered offer := by
  refine (resolve_keeps h _ _).andThen fun answer hanswer =>
    .of_table (fun _ => rfl) fun s made hmade invoker hinvoker => ?_
  cases hmade
  cases answer with
  | error error => cases hinvoker
  | ok b =>
    rw [Invoker.make_eq_ok_iff.mp hinvoker]
    exact hanswer b rfl

theorem attempt_keeps (h : resolver.Yields offer) (o : Operation) :
    (attempt resolver o).Keeps offer fun _ => True :=
  (construct_keeps h o).andThen fun _ _ => .of_table (fun _ => rfl) fun _ _ _ => trivial

theorem probe_keeps (h : resolver.Yields offer) :
    (probe resolver).Keeps offer fun _ => True :=
  (attempt_keeps h _).andThen fun _ _ => (attempt_keeps h _).andThen fun _ _ =>
    (attempt_keeps h _).andThen fun _ _ => .of_table (fun _ => rfl) fun _ _ _ => trivial

end Session

end

end NativeLink
