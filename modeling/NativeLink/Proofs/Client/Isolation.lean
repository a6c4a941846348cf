import NativeLink.Proofs.Client.Apart
import NativeLink.Proofs.Scripted.Stocking

/-!
# Isolation

Contexts that share a resolver share the world it acts on, the log and the count of bindings, and
nothing else.  Each has bindings of its own, which no command changes that is about another context
(`Isolated.framed`), and which are not those of any other context (`Isolated.apart`).  What is bound
in one context is never found from another and gives rise to no warning there
(`Isolated.unheeded`).

What has been handed out goes on to work when its context is dropped (`Isolated.dropped`).
Operations and their copies are made over bindings and call them (`Isolated.made`,
`Isolated.reached`), so that all calls of a binding reach the same callable.  If a resolver gives
each binding a callable with a state of its own, the calls of a binding move that state, and no
other calls do (`Isolated.turns`).
-/

namespace NativeLink

variable {σ : Type}

namespace Client

/-! ## What has been handed out stays -/

section

variable {c d : Client σ}

/-- Nothing is taken out of the hands of the client. -/
structure Retains (c d : Client σ) : Prop where
  bindings : c.bindings <+: d.bindings
  operations : c.operations <+: d.operations

theorem Retains.refl (c : Client σ) : Retains c c := ⟨List.prefix_refl _, List.prefix_refl _⟩

theorem Retains.trans {e : Client σ} (h : Retains c d) (k : Retains d e) : Retains c e :=
  ⟨h.bindings.trans k.bindings, h.operations.trans k.operations⟩

theorem retains_hand (c : Client σ) (b : Binding σ) : Retains c (c.hand b).2 := by
  unfold hand
  split
  · exact .refl c
  · exact ⟨List.prefix_append _ _, List.prefix_refl _⟩

theorem retains_keep (c : Client σ) {o : Operation}
    (made : Except ResolveError (Invoker σ o.arity)) : Retains c (c.keep o made).2 := by
  unfold keep
  split
  · exact ⟨List.prefix_refl _, List.prefix_append _ _⟩
  · exact .refl c

theorem retains_after {α : Type} (done : Outcome α × Contexts σ)
    {next : α → Client σ → Response σ × Client σ}
    (hnext : ∀ a (d : Client σ), Retains d (next a d).2) : Retains c (c.after done next).2 := by
  unfold after
  split
  · obtain ⟨hbindings, hoperations⟩ := hnext _ { c with contexts := done.2 }
    exact ⟨hbindings, hoperations⟩
  · exact ⟨List.prefix_refl _, List.prefix_refl _⟩
  · exact ⟨List.prefix_refl _, List.prefix_refl _⟩

theorem retains_obey (c : Client σ) (command : Command σ) : Retains c (c.obey command).2 := by
  cases command with
  | add | drop | change => exact ⟨List.prefix_refl _, List.prefix_refl _⟩
  | resolve i name text =>
    refine retains_after _ fun answer d => ?_
    cases answer with
    | ok b => exact retains_hand d b
    | error error => exact .refl d
  | construct i o => exact retains_after _ fun made d => retains_keep d made
  | probe i => exact retains_after _ fun _ d => .refl d
  | find i name =>
    rw [obey]
    split
    · exact retains_hand c _
    · exact .refl c
  | make o i =>
    rw [obey]
    split
    · exact retains_keep c _
    · exact .refl c
  | copy i =>
    rw [obey]
    split
    · exact retains_keep c _
    · exact .refl c
  | run i numbers =>
    rw [obey]
    split
    · exact retains_after _ fun _ d => .refl d
    · exact .refl c
  | call i args =>
    rw [obey]
    split
    · exact retains_after _ fun _ d => .refl d
    · exact .refl c
  | invoke i n args =>
    rw [obey]
    split
    · unfold invoke
      split
      · exact .refl c
      · split
        · exact retains_after _ fun _ d => .refl d
        · exact .refl c
    · exact .refl c

theorem retains_obeyAll (c : Client σ) (later : List (Command σ)) : Retains c (c.obeyAll later) := by
  induction later generalizing c with
  | nil => exact .refl c
  | cons command later ih => exact (retains_obey c command).trans (ih _)

/-- An operation that is made stands last. -/
theorem operation_of_keep {o : Operation} {made : Except ResolveError (Invoker σ o.arity)} {m : Nat}
    (h : (c.keep o made).1 = .operation m) :
    ∃ invoker, made = .ok invoker ∧ (c.keep o made).2.operations[m]? = some ⟨o, invoker⟩ := by
  cases made with
  | error error => cases h
  | ok invoker =>
    cases h
    exact ⟨invoker, rfl, List.getElem?_concat_length⟩

/-- What is told of an activity in a context, if it is more than that it has not returned. -/
theorem returned_of_after {α : Type} {i : Nat} {act : Act σ α}
    {next : α → Client σ → Response σ × Client σ} {response : Response σ}
    (h : (c.after (c.contexts.within i act) next).1 = response)
    (hpanicked : ∀ cause, response ≠ .panicked cause) (hnothing : response ≠ .nothing) :
    ∃ t a s, c.contexts.table? i = some t ∧ act (c.contexts.session t) = (.returned a, s) ∧
      (next a { c with contexts := c.contexts.leave i s }).1 = response ∧
      c.after (c.contexts.within i act) next =
        next a { c with contexts := c.contexts.leave i s } := by
  cases ht : c.contexts.table? i with
  | none =>
    rw [Contexts.within_eq_of_none ht] at h
    exact absurd h.symm hnothing
  | some t =>
    rw [Contexts.within_eq ht] at h ⊢
    rcases hact : act (c.contexts.session t) with ⟨a | cause | _, s⟩
    · rw [hact] at h
      exact ⟨t, a, s, rfl, hact, h, rfl⟩
    · rw [hact] at h
      exact absurd h.symm (hpanicked cause)
    · rw [hact] at h
      exact absurd h.symm hnothing

/-- A binding that is answered is bound in the context that was asked. -/
theorem bound_of_resolve (hc : c.contexts.WellFormed) {i n : Nat} {name text : String}
    {b : Binding σ} (h : (c.obey (.resolve i name text)).1 = .binding n b) :
    ∃ t, (c.obey (.resolve i name text)).2.contexts.table? i = some t ∧ t.get? name = some b := by
  obtain ⟨t, answer, s, ht, hact, hresponse, hobey⟩ :=
    returned_of_after h (by simp) (by simp)
  rw [show c.obey (.resolve i name text) = _ from hobey]
  cases answer with
  | error error => cases hresponse
  | ok other =>
    obtain ⟨m, hm⟩ := response_hand { c with contexts := c.contexts.leave i s } other
    obtain ⟨rfl, rfl⟩ := Response.binding.inj (hm.symm.trans hresponse)
    refine ⟨s.table, ?_, Session.get?_of_resolve (hc i t ht) hact⟩
    rw [contexts_hand, Contexts.table?_leave ht, if_pos rfl]

/-- An operation that is made in a context has the binding that its routine has there. -/
theorem bound_of_construct (hc : c.contexts.WellFormed) {i m : Nat} {o : Operation}
    (h : (c.obey (.construct i o)).1 = .operation m) : ∃ invoker t,
      (c.obey (.construct i o)).2.operations[m]? = some ⟨o, invoker⟩ ∧
      (c.obey (.construct i o)).2.contexts.table? i = some t ∧
      t.get? o.symbol = some invoker.binding := by
  obtain ⟨t, made, s, ht, hact, hresponse, hobey⟩ := returned_of_after h (by simp) (by simp)
  obtain ⟨invoker, rfl, hkept⟩ := operation_of_keep hresponse
  rw [show c.obey (.construct i o) = _ from hobey]
  refine ⟨invoker, s.table, hkept, ?_, ?_⟩
  · rw [contexts_keep, Contexts.table?_leave ht, if_pos rfl]
  · exact Session.get?_of_resolve (hc i t ht) (Session.resolve_of_construct hact)

/-- A binding that is answered was bound in the context that was asked, or is new. -/
theorem bound_or_new_of_resolve (hc : c.contexts.WellFormed) {i n : Nat} {name text : String}
    {b : Binding σ} (h : (c.obey (.resolve i name text)).1 = .binding n b) :
    (∃ t, c.contexts.table? i = some t ∧ t.get? name = some b) ∨ c.contexts.fresh ≤ b.id := by
  obtain ⟨t, ht, hget⟩ := bound_of_resolve hc h
  have hdid := did_of_obey hc (.resolve i name text)
  rcases hdid.bound hc (endows_true _) ht hget with hold | ⟨requests, -, hfrom, -, -⟩
  · exact .inl hold
  · exact .inr hfrom

/-- An operation that is made over a binding has that binding. -/
theorem binding_of_make {o : Operation} {n m : Nat} {b : Binding σ}
    (hb : c.bindings[n]? = some b) (h : (c.obey (.make o n)).1 = .operation m) : ∃ invoker,
      (c.obey (.make o n)).2.operations[m]? = some ⟨o, invoker⟩ ∧ invoker.binding = b := by
  simp only [obey, hb] at h ⊢
  obtain ⟨invoker, hmake, hop⟩ := operation_of_keep h
  exact ⟨invoker, hop, Invoker.make_eq_ok_iff.mp hmake ▸ rfl⟩

/-- A copy of an operation is that operation. -/
theorem operation_of_copy {k m : Nat} {op : Made σ} (hop : c.operations[k]? = some op)
    (h : (c.obey (.copy k)).1 = .operation m) :
    (c.obey (.copy k)).2.operations[m]? = some op := by
  simp only [obey, hop] at h ⊢
  obtain ⟨invoker, hsame, hkept⟩ := operation_of_keep h
  cases hsame
  exact hkept

/-- Commands that are about other contexts do not heed what is bound in this one. -/
theorem responses_of_replace (c : Client σ) {i : Nat} (table : Option (Table σ))
    {later : List (Command σ)} (elsewhere : ∀ command ∈ later, command.context? ≠ some i) :
    (c.replace i table).responses later = c.responses later ∧
      Contexts.Apart i (c.obeyAll later).contexts
        ((c.replace i table).obeyAll later).contexts := by
  have halike : Alike (Contexts.Apart i) c (c.replace i table) := ⟨⟨table, rfl⟩, rfl, rfl⟩
  obtain ⟨hresponses, hafter⟩ := responses_of_apart halike elsewhere
  exact ⟨hresponses, hafter.contexts⟩

end

/-- **Callables with a state of their own** are called in turns, after whatever history gave them
out. -/
theorem turns_of_stocks {κ : Type} {S : Shelf σ κ} {resolver : Resolver σ} (world : σ)
    {history : List (Command σ)} (stocks : resolver.Stocks S)
    (spares : ∀ f, .change f ∈ history → Spares S f) {b : Binding σ}
    (hb : ((start resolver world).obeyAll history).Hands b ∨
      ((start resolver world).obeyAll history).contexts.Binds b) :
    ∃ n k, b.callable = S.callable n ∧
      (S.states ((start resolver world).obeyAll history).contexts.world)[n]? = some k ∧
      ∀ later, (∀ f, .change f ∈ later → Spares S f) →
        (((start resolver world).obeyAll history).exchanges b.id later).map Prod.snd =
          S.turns k
            ((((start resolver world).obeyAll history).exchanges b.id later).map Prod.fst) := by
  have hstart := wellFormed_start resolver world
  have hresolver := resolver_obeyAll hstart history
  obtain ⟨places, hplaced⟩ := placed_obeyAll hstart (placed_start S resolver world) stocks history
    spares
  rw [List.nil_append] at hplaced
  obtain ⟨n, hn, hcallable⟩ := hb.elim hplaced.hands hplaced.bound
  have hinside := hplaced.books.inside n (List.mem_of_getElem? hn)
  have hk := List.getElem?_eq_getElem hinside
  refine ⟨n, _, hcallable, hk, fun later hspares => ?_⟩
  exact exchanges_eq_turns (wellFormed_obeyAll hstart history) hplaced (hresolver.symm ▸ stocks)
    hspares hn hk

/-! ## The theorem -/

/-- The binding was made in the context, by a command of the history. -/
abbrev BornIn (resolver : Resolver σ) (world : σ) (history : List (Command σ)) (i : Nat)
    (b : Binding σ) : Prop :=
  Born (fun _ _ _ => True) (start resolver world) history i b

section

variable (resolver : Resolver σ) (world : σ) (history : List (Command σ))

/-- A client after a history. -/
def followed : Client σ := (start resolver world).obeyAll history

/-- The contexts of a client are isolated from each other, as they are after a history. -/
structure Isolated : Prop where
  /-- A command leaves the contexts alone that it is not about. -/
  framed : ∀ command i t, (followed resolver world history).contexts.table? i = some t →
    command.context? ≠ some i →
      ((followed resolver world history).obey command).2.contexts.table? i = some t
  /-- What is bound in a context was made there, and what was handed out was made somewhere. -/
  born : (∀ i t name b, (followed resolver world history).contexts.table? i = some t →
      t.get? name = some b → BornIn resolver world history i b) ∧
    ∀ b, (followed resolver world history).Hands b → ∃ i, BornIn resolver world history i b
  /-- Bindings of different contexts are different. -/
  apart : ∀ i j b other, BornIn resolver world history i b → BornIn resolver world history j other →
    i ≠ j → b.id ≠ other.id
  /-- A request finds what is bound in its own context, and is answered something new else. -/
  own : ∀ i name text n b, ((followed resolver world history).obey (.resolve i name text)).1 =
    .binding n b →
      (∃ t, (followed resolver world history).contexts.table? i = some t ∧ t.get? name = some b) ∨
        (followed resolver world history).contexts.fresh ≤ b.id
  /-- It makes no difference what is bound in a context, as long as that is left alone.  The client
  is told the same, and everything else comes out the same: the other contexts, the world, and the
  log with its warnings. -/
  unheeded : ∀ i table later, (∀ command ∈ later, command.context? ≠ some i) →
    ((followed resolver world history).replace i table).responses later =
        (followed resolver world history).responses later ∧
      Contexts.Apart i ((followed resolver world history).obeyAll later).contexts
        (((followed resolver world history).replace i table).obeyAll later).contexts
  /-- Nor does it make a difference if that context is dropped. -/
  dropped : ∀ i later, (∀ command ∈ later, command.context? ≠ some i) →
    ((followed resolver world history).obey (.drop i)).2.responses later =
        (followed resolver world history).responses later ∧
      Contexts.Apart i ((followed resolver world history).obeyAll later).contexts
        (((followed resolver world history).obey (.drop i)).2.obeyAll later).contexts
  /-- What was handed out stays in the hands of the client. -/
  retained : ∀ later, Retains (followed resolver world history)
    ((followed resolver world history).obeyAll later)
  /-- An operation is made over the binding that it was asked for. -/
  made : ∀ o n b m, (followed resolver world history).bindings[n]? = some b →
    ((followed resolver world history).obey (.make o n)).1 = .operation m → ∃ invoker,
      ((followed resolver world history).obey (.make o n)).2.operations[m]? = some ⟨o, invoker⟩ ∧
        invoker.binding = b
  /-- A copy is the same operation. -/
  copied : ∀ k op m, (followed resolver world history).operations[k]? = some op →
    ((followed resolver world history).obey (.copy k)).1 = .operation m →
      ((followed resolver world history).obey (.copy k)).2.operations[m]? = some op
  /-- The operation of a context is made over what its routine is bound to there. -/
  constructed : ∀ i o m,
    ((followed resolver world history).obey (.construct i o)).1 = .operation m → ∃ invoker t,
      ((followed resolver world history).obey (.construct i o)).2.operations[m]? =
          some ⟨o, invoker⟩ ∧
        ((followed resolver world history).obey (.construct i o)).2.contexts.table? i = some t ∧
        t.get? o.symbol = some invoker.binding
  /-- A call runs the callable of its binding, once, and does nothing else. -/
  reached : ∀ command call, (followed resolver world history).call? command = some call →
    ∀ reply events left, call.binding.callable call.args
        (followed resolver world history).contexts.world = (reply, events, left) →
      (followed resolver world history).obey command =
        (call.respond reply, (followed resolver world history).called left (call.tell events reply))
  /-- If each binding gets a callable with a state of its own, its calls find this state as the last
  of them has left it. -/
  turns : ∀ {κ : Type} (S : Shelf σ κ), resolver.Stocks S →
    (∀ f, .change f ∈ history → Spares S f) → ∀ b,
      (followed resolver world history).Hands b ∨
          (followed resolver world history).contexts.Binds b →
        ∃ n k, b.callable = S.callable n ∧
          (S.states (followed resolver world history).contexts.world)[n]? = some k ∧
          ∀ later, (∀ f, .change f ∈ later → Spares S f) →
            ((followed resolver world history).exchanges b.id later).map Prod.snd =
              S.turns k (((followed resolver world history).exchanges b.id later).map Prod.fst)

/-- **Contexts that share a resolver are isolated**, whatever the resolver does. -/
theorem isolated : Isolated resolver world history := by
  have hc : (followed resolver world history).contexts.WellFormed :=
    wellFormed_obeyAll (wellFormed_start resolver world) history
  exact {
    framed := fun command i t ht elsewhere => by
      rw [table?_obey hc, tableAfter_of_ne ht elsewhere]
    born := born_of_obeyAll (endows_true resolver) world history
    apart := fun i j b other hb hother hne => hb.id_ne (wellFormed_start resolver world) hother hne
    own := fun i name text n b h => bound_or_new_of_resolve hc h
    unheeded := fun i table later elsewhere => responses_of_replace _ table elsewhere
    dropped := fun i later elsewhere => responses_of_replace _ none elsewhere
    retained := retains_obeyAll _
    made := fun o n b m hb h => binding_of_make hb h
    copied := fun k op m hop h => operation_of_copy hop h
    constructed := fun i o m h => bound_of_construct hc h
    reached := fun command call hcall reply events left hrun => obey_of_call hcall hrun
    turns := fun S stocks spares b hb => turns_of_stocks world stocks spares hb }

end

/-- Two contexts bind a name whose callables answer something else each time.  Each binding goes
through the answers by itself, and goes on when its context is gone. -/
example : ((start Planner.resolver { decisions := [("@f",
        [.accept (.inTurn [.give .null, .give (.uint8 1), .give (.uint8 2)])])] }).responses
      [.resolve 0 "@f" "():POINTER", .add, .resolve 1 "@f" "():POINTER", .call 0 [], .call 1 [],
        .invoke 0 0 [], .drop 0, .call 0 [], .call 1 []]).filterMap (fun
          | .reply (.ok value) => some value
          | .invoked _ value _ => some value
          | _ => none) = [.null, .null, .uint8 1, .uint8 2, .uint8 1] := by
  decide +kernel

end Client

end NativeLink
