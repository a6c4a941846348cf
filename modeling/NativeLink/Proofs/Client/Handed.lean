import NativeLink.Client
import NativeLink.Proofs.Session.Origin

/-!
# What a client is handed

A client is handed bindings by its contexts, as such and inside operations, and it
keeps them after a context is gone.  Whatever it does in whatever order, each of them
comes from a callable that the resolver answered (`offered_of_hands`): no command makes
a binding, and the only way into the hands of a client leads through the table of a
context.

The invariant is `Client.Offered`, and `Client.Offered.obey` goes through the commands.
-/

namespace NativeLink

variable {σ : Type} {offer : Offer σ}

/-- The resolver answers what is offered, and so all bindings are in all contexts. -/
structure Contexts.Offered (offer : Offer σ) (c : Contexts σ) : Prop where
  resolver : c.resolver.Yields offer
  tables : ∀ t, some t ∈ c.tables → t.Offered offer

namespace Contexts.Offered

variable {c : Contexts σ}

theorem add (h : c.Offered offer) : c.add.2.Offered offer := by
  refine ⟨h.resolver, fun t ht => ?_⟩
  rcases List.mem_append.mp ht with ht | ht
  · exact h.tables t ht
  · cases List.mem_singleton.mp ht
    exact Table.offered_empty

theorem drop (h : c.Offered offer) (i : Nat) : (c.drop i).Offered offer := by
  refine ⟨h.resolver, fun t ht => ?_⟩
  rcases List.mem_or_eq_of_mem_set ht with ht | ht
  · exact h.tables t ht
  · cases ht

/-- The table of a context has come into it by acts that keep it offered. -/
theorem table? (h : c.Offered offer) {i : Nat} {t : Table σ} (ht : c.table? i = some t) :
    t.Offered offer := by
  rw [Contexts.table?, Option.join_eq_some_iff] at ht
  exact h.tables t (List.mem_of_getElem? ht)

theorem within {α : Type} {act : Act σ α} {returns : α → Prop} (h : c.Offered offer)
    (hact : act.Keeps offer returns) (i : Nat) :
    (c.within i act).2.Offered offer ∧ ∀ a, (c.within i act).1 = .returned a → returns a := by
  unfold Contexts.within
  cases htable : c.table? i with
  | none => exact ⟨h, fun a ha => by cases ha⟩
  | some table =>
    obtain ⟨hkept, hreturns⟩ := hact (s := ⟨table, c.world, c.fresh, c.log⟩) rfl (h.table? htable)
    refine ⟨⟨h.resolver, fun t ht => ?_⟩, hreturns⟩
    rcases List.mem_or_eq_of_mem_set ht with ht | ht
    · exact h.tables t ht
    · cases ht
      exact hkept

theorem perform {α : Type} (h : c.Offered offer) (reaction : Reaction σ α) :
    (c.perform reaction).2.Offered offer := ⟨h.resolver, h.tables⟩

end Contexts.Offered

namespace Client

/-- The client has the binding in its hands, by itself or inside an operation. -/
def Hands (c : Client σ) (b : Binding σ) : Prop :=
  b ∈ c.bindings ∨ ∃ m ∈ c.operations, m.invoker.binding = b

/-- All bindings are offered, those in the contexts and those in the hands of the client. -/
structure Offered (offer : Offer σ) (c : Client σ) : Prop where
  contexts : c.contexts.Offered offer
  hands : ∀ b, c.Hands b → b.Offered offer

namespace Offered

variable {c : Client σ}

theorem start {resolver : Resolver σ} (h : resolver.Yields offer) (world : σ) :
    (Client.start resolver world).Offered offer := by
  refine ⟨⟨h, fun t ht => ?_⟩, fun b hb => ?_⟩
  · cases List.mem_singleton.mp ht
    exact Table.offered_empty
  · rcases hb with hb | ⟨m, hm, -⟩
    · cases hb
    · cases hm

/-- The contexts of a client may be others. -/
theorem withContexts (h : c.Offered offer) {contexts : Contexts σ}
    (hc : contexts.Offered offer) : ({ c with contexts := contexts } : Client σ).Offered offer :=
  ⟨hc, h.hands⟩

theorem hand (h : c.Offered offer) {b : Binding σ} (hb : b.Offered offer) :
    (c.hand b).2.Offered offer := by
  unfold Client.hand
  split
  · exact h
  · refine ⟨h.contexts, fun other hother => ?_⟩
    rcases hother with hother | hother
    · rcases List.mem_append.mp hother with hold | hnew
      · exact h.hands other (.inl hold)
      · rw [List.mem_singleton.mp hnew]
        exact hb
    · exact h.hands other (.inr hother)

theorem keep (h : c.Offered offer) {o : Operation} {made : Except ResolveError (Invoker σ o.arity)}
    (hmade : ∀ invoker, made = .ok invoker → invoker.binding.Offered offer) :
    (c.keep o made).2.Offered offer := by
  unfold Client.keep
  split
  · next invoker =>
    refine ⟨h.contexts, fun other hother => ?_⟩
    rcases hother with hother | ⟨m, hm, rfl⟩
    · exact h.hands other (.inl hother)
    · rcases List.mem_append.mp hm with hold | hnew
      · exact h.hands _ (.inr ⟨m, hold, rfl⟩)
      · cases List.mem_singleton.mp hnew
        exact hmade invoker rfl
  · exact h

theorem after {α : Type} {returns : α → Prop} {done : Outcome α × Contexts σ}
    {next : α → Client σ → Response σ × Client σ} (h : c.Offered offer)
    (hdone : done.2.Offered offer ∧ ∀ a, done.1 = .returned a → returns a)
    (hnext : ∀ a (c : Client σ), c.Offered offer → returns a → (next a c).2.Offered offer) :
    (c.after done next).2.Offered offer := by
  obtain ⟨hcontexts, hreturns⟩ := hdone
  unfold Client.after
  split
  · next a ha => exact hnext a _ (h.withContexts hcontexts) (hreturns a ha)
  · exact h.withContexts hcontexts
  · exact h.withContexts hcontexts

/-- A call changes the world and nothing else. -/
theorem performed {α : Type} {reaction : Reaction σ α} {response : α → Response σ}
    (h : c.Offered offer) :
    (c.after (c.contexts.perform reaction) fun a c => (response a, c)).2.Offered offer := by
  have hdone : ∀ a, (c.contexts.perform reaction).1 = .returned a → True := fun _ _ => trivial
  exact h.after ⟨h.contexts.perform reaction, hdone⟩ fun _ _ hc _ => hc

theorem invoke (h : c.Offered offer) (b : Binding σ) (n : Nat) (args : List Value) :
    (c.invoke b n args).2.Offered offer := by
  unfold Client.invoke
  split
  · exact h
  · split
    · exact h.performed
    · exact h

theorem make {o : Operation} {b : Binding σ} (h : c.Offered offer) (hb : b.Offered offer) :
    (c.keep o (Invoker.make o.arity b)).2.Offered offer := by
  refine h.keep fun invoker hinvoker => ?_
  rw [Invoker.make_eq_ok_iff.mp hinvoker]
  exact hb

/-- **Every command keeps what the client has offered.** -/
theorem obey (h : c.Offered offer) (command : Command σ) : (c.obey command).2.Offered offer := by
  have hbinding : ∀ {i : Nat} {b : Binding σ}, c.bindings[i]? = some b → b.Offered offer :=
    fun hb => h.hands _ (.inl (List.mem_of_getElem? hb))
  have hoperation : ∀ {i : Nat} {m : Made σ}, c.operations[i]? = some m →
      m.invoker.binding.Offered offer :=
    fun hm => h.hands _ (.inr ⟨_, List.mem_of_getElem? hm, rfl⟩)
  cases command with
  | add => exact h.withContexts h.contexts.add
  | drop context => exact h.withContexts (h.contexts.drop context)
  | resolve context name text =>
    refine h.after (h.contexts.within
      (Session.resolve_keeps h.contexts.resolver name text) context) fun answer c hc hanswer => ?_
    cases answer with
    | ok b => exact hc.hand (hanswer b rfl)
    | error error => exact hc
  | find context name =>
    rw [Client.obey]
    split
    · next b hb =>
      obtain ⟨t, ht, hget⟩ := Option.bind_eq_some_iff.mp hb
      exact h.hand ((h.contexts.table? ht).get? hget)
    · exact h
  | construct context o =>
    exact h.after (h.contexts.within (Session.construct_keeps h.contexts.resolver o) context)
      fun made c hc hmade => hc.keep hmade
  | make o i =>
    rw [Client.obey]
    split
    · next b hb => exact h.make (hbinding hb)
    · exact h
  | copy i =>
    rw [Client.obey]
    split
    · next m hm =>
      refine h.keep fun invoker hinvoker => ?_
      cases hinvoker
      exact hoperation hm
    · exact h
  | run i numbers =>
    rw [Client.obey]
    split
    · exact h.performed
    · exact h
  | invoke i n args =>
    rw [Client.obey]
    split
    · exact h.invoke _ n args
    · exact h
  | call i args =>
    rw [Client.obey]
    split
    · exact h.performed
    · exact h
  | probe context =>
    exact h.after (h.contexts.within (Session.probe_keeps h.contexts.resolver) context)
      fun _ _ hc _ => hc
  | change f => exact h.withContexts ⟨h.contexts.resolver, h.contexts.tables⟩

theorem obeyAll (h : c.Offered offer) (commands : List (Command σ)) :
    (c.obeyAll commands).Offered offer := by
  induction commands generalizing c with
  | nil => exact h
  | cons command commands ih => exact ih (h.obey command)

end Offered

/-- **All a client is ever handed comes from what its resolver answered.** -/
theorem offered_of_hands {resolver : Resolver σ} (h : resolver.Yields offer) {world : σ}
    {commands : List (Command σ)} {b : Binding σ}
    (hb : ((start resolver world).obeyAll commands).Hands b) : b.Offered offer :=
  ((Offered.start h world).obeyAll commands).hands b hb

end Client

end NativeLink
