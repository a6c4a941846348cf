import NativeLink.Proofs.Foreign.Registration

/-!
# Names that lead elsewhere

After a request has found a routine that was registered late, two histories that differ in this
registration go apart: one has a binding more, and all bindings made later have other numbers.  So
the rest of the two histories cannot be compared response by response.  What can be compared are
requests.  What a request comes to depends on what the name is bound to and, if it is not bound,
on what its native name is found to be, and on nothing else (`comesTo`).

Seen like that, up to the numbers of bindings, the two histories agree for ever on all names that
lead elsewhere than to the registered one (`Kindred`).  It does not matter what was requested in
between, or what was called.
-/

namespace NativeLink

variable {σ : Type}

namespace Binding

/-- The binding without its number. -/
def unnumbered (b : Binding σ) : Binding σ := { b with id := 0 }

theorem arity_unnumbered (b : Binding σ) : b.unnumbered.arity = b.arity := rfl

end Binding

/-- An answer without the number of the binding. -/
def Answer.unnumbered (answer : Answer σ) : Answer σ := answer.map Binding.unnumbered

/-- The tables bind the names to the same, up to numbers. -/
def Table.Like (P : String → Prop) (t other : Table σ) : Prop :=
  ∀ name, P name → (other.get? name).map Binding.unnumbered =
    (t.get? name).map Binding.unnumbered

namespace Foreign

variable {π : Type} {host : Host π} {name text : String} {s u : Session (Foreign π)}

/-! ## What a request comes to -/

/-- What a request comes to, by what the name is bound to and what the world has to say. -/
def comesTo (host : Host π) (name text : String) (f : Foreign π) :
    Option (Binding (Foreign π)) → Answer (Foreign π)
  | some b => .ok b.unnumbered
  | none =>
    match Signature.parse text with
    | .error error => .error error
    | .ok signature => (verdict host name signature f).result.map (.make 0 name signature)

/-- **A request is answered what it comes to**, up to the number of the binding. -/
theorem resolve_comesTo (host : Host π) (hs : s.table.Attended []) (name text : String) :
    (Session.resolve (resolver host) name text s).1.map Answer.unnumbered =
      .returned (comesTo host name text s.world (s.table.get? name)) := by
  rcases hresolve : Session.resolve (resolver host) name text s with ⟨outcome, u⟩
  cases Session.decided_of_resolve (resolver_decides host) hs hresolve with
  | found bound =>
    rw [bound]
    rfl
  | misread unbound parsed becomes =>
    simp only [unbound, comesTo, parsed]
    rfl
  | refused unbound parsed decided becomes | accepted unbound parsed decided becomes =>
    simp only [unbound, comesTo, parsed, decided]
    rfl

/-- After a request its name is bound to what it came to, and the others are as they were. -/
theorem get?_resolve (hs : s.table.Attended []) (name text other : String) :
    ((Session.resolve (resolver host) name text s).2.table.get? other).map Binding.unnumbered =
      if other = name then (comesTo host name text s.world (s.table.get? name)).toOption
      else (s.table.get? other).map Binding.unnumbered := by
  rcases hresolve : Session.resolve (resolver host) name text s with ⟨outcome, u⟩
  cases Session.decided_of_resolve (resolver_decides host) hs hresolve with
  | found bound =>
    by_cases heq : other = name
    · rw [if_pos heq, heq, Session.tell, bound]
      rfl
    · rw [if_neg heq, Session.tell]
  | misread unbound parsed becomes =>
    rw [becomes.get?]
    split
    · simp only [unbound, comesTo, parsed]
      rfl
    · rfl
  | refused unbound parsed decided becomes | accepted unbound parsed decided becomes =>
    rw [becomes.get?]
    split
    · simp only [unbound, comesTo, parsed, decided]
      rfl
    · rfl

/-- What a request comes to depends on the native name of its own only. -/
theorem comesTo_congr {f g : Foreign π} {bound other : Option (Binding (Foreign π))}
    (hname : g.nativeName name = f.nativeName name)
    (hlookup : g.symbols.lookup (f.nativeName name) = f.symbols.lookup (f.nativeName name))
    (hbound : other.map Binding.unnumbered = bound.map Binding.unnumbered) :
    comesTo host name text g other = comesTo host name text f bound := by
  have hresult : ∀ signature,
      (verdict host name signature g).result = (verdict host name signature f).result := by
    intro signature
    unfold verdict
    rw [hname, hlookup]
    split <;> rfl
  cases bound with
  | some b =>
    obtain ⟨b', rfl, hb⟩ := Option.map_eq_some_iff.mp hbound
    exact congrArg Except.ok hb
  | none =>
    obtain rfl := Option.map_eq_none_iff.mp hbound
    simp only [comesTo, hresult]

/-! ## Histories that went apart -/

/-- The worlds differ in nothing that a request can see, but for what is found under one name. -/
structure Near (key : String) (f g : Foreign π) : Prop where
  aliases : g.aliases = f.aliases
  agree : AgreeBut key f.symbols g.symbols

section

variable {key : String} {f g : Foreign π}

theorem Near.nativeName (h : Near key f g) (name : String) :
    g.nativeName name = f.nativeName name := by
  unfold Foreign.nativeName
  rw [h.aliases]

variable (near : Near key s.world u.world) (hs : s.table.Attended []) (hu : u.table.Attended [])
  (like : s.table.Like (fun name => s.world.nativeName name ≠ key) u.table)

include near like

theorem comesTo_of_near (host : Host π) (hname : s.world.nativeName name ≠ key) (text : String) :
    comesTo host name text u.world (u.table.get? name) =
      comesTo host name text s.world (s.table.get? name) :=
  comesTo_congr (near.nativeName name) (near.agree _ hname) (like name hname)

include hs hu

theorem Near.resolve (host : Host π) (name text : String) :
    (Session.resolve (resolver host) name text s).2.table.Like
      (fun name => s.world.nativeName name ≠ key)
      (Session.resolve (resolver host) name text u).2.table := by
  intro other hother
  rw [get?_resolve hs, get?_resolve hu]
  by_cases heq : other = name
  · subst heq
    rw [if_pos rfl, if_pos rfl, comesTo_of_near near like host hother]
  · rw [if_neg heq, if_neg heq, like other hother]

end

/-- **Requests that are served keep tables alike** on the names that lead elsewhere. -/
theorem Near.serve {key : String} {s u : Session (Foreign π)} (near : Near key s.world u.world)
    (hs : s.table.Attended []) (hu : u.table.Attended [])
    (like : s.table.Like (fun name => s.world.nativeName name ≠ key) u.table)
    (requests : List (String × String)) :
    (Session.serve (resolver host) requests s).table.Like
      (fun name => s.world.nativeName name ≠ key)
      (Session.serve (resolver host) requests u).table := by
  induction requests generalizing s u with
  | nil => exact like
  | cons request rest ih =>
    obtain ⟨name, text⟩ := request
    have hworld : ∀ v : Session (Foreign π),
        (Session.resolve (resolver host) name text v).2.world = v.world := by
      intro v
      rw [← Session.serve_singleton, world_serve]
    have hnext : ∀ {v : Session (Foreign π)}, v.table.Attended [] →
        (Session.resolve (resolver host) name text v).2.table.Attended [] :=
      fun hv => (Session.decided_of_resolve (resolver_decides host) hv rfl).attended hv
    rw [Session.serve_cons (resolver_decides host) hs, Session.serve_cons (resolver_decides host) hu]
    have hlike := near.resolve hs hu like host name text
    rw [← hworld s] at near hlike
    rw [← hworld u] at near
    have hrest := ih near (hnext hs) (hnext hu) hlike
    rwa [hworld] at hrest

/-- The contexts are there or gone together, and bind names to the same, up to numbers, if these
lead elsewhere than to `key`. -/
structure Kindred (key : String) (c d : Contexts (Foreign π)) : Prop where
  near : Near key c.world d.world
  count : d.tables.length = c.tables.length
  tables : ∀ i, (c.table? i = none ∧ d.table? i = none) ∨
    ∃ t t', c.table? i = some t ∧ d.table? i = some t' ∧
      t.Like (fun name => c.world.nativeName name ≠ key) t'

section

variable {key : String} {c d : Client (Foreign π)} {command : Command (Foreign π)}
  {later : List (Command (Foreign π))}

/-- **A request for a name that leads elsewhere comes to the same** in contexts that are kindred. -/
theorem Kindred.resolve (h : Kindred key c.contexts d.contexts) (hc : Serves host c)
    (hd : Serves host d) {name : String} (hname : c.contexts.world.nativeName name ≠ key)
    (i : Nat) (text : String) :
    (d.contexts.resolve i name text).1.map Answer.unnumbered =
      (c.contexts.resolve i name text).1.map Answer.unnumbered := by
  unfold Contexts.resolve
  rw [hc.resolver, hd.resolver]
  rcases h.tables i with ⟨ht, ht'⟩ | ⟨t, t', ht, ht', like⟩
  · rw [Contexts.within_eq_of_none ht, Contexts.within_eq_of_none ht']
  · have hsame := comesTo_of_near (s := c.contexts.session t)
      (u := d.contexts.session t') h.near like host hname text
    have hleft := resolve_comesTo host (s := c.contexts.session t) (hc.attended i t ht)
      name text
    have hright := resolve_comesTo host (s := d.contexts.session t')
      (hd.attended i t' ht') name text
    rw [Contexts.within_eq ht, Contexts.within_eq ht', hleft, hright, hsame]

/-- The same for an operation that is made over the binding of such a name. -/
theorem Kindred.construct (h : Kindred key c.contexts d.contexts) (hc : Serves host c)
    (hd : Serves host d) {o : Operation} (hname : c.contexts.world.nativeName o.symbol ≠ key)
    (i : Nat) :
    (d.contexts.construct i o).1.map (Except.map fun invoker => invoker.binding.unnumbered) =
      (c.contexts.construct i o).1.map (Except.map fun invoker => invoker.binding.unnumbered) := by
  -- whether the arity fits does not depend on the number of the binding
  have hmake : ∀ answer : Answer (Foreign π),
      (answer.bind (Invoker.make o.arity)).map (fun invoker => invoker.binding.unnumbered) =
        answer.unnumbered.bind fun b => (Invoker.make o.arity b).map (·.binding) := by
    intro answer
    cases answer with
    | error error => rfl
    | ok b =>
      simp only [Answer.unnumbered, Except.map, Except.bind, Invoker.make]
      by_cases harity : b.arity = o.arity
      · rw [dif_pos harity, dif_pos (b.arity_unnumbered.trans harity)]
      · rw [dif_neg harity, dif_neg fun h => harity (b.arity_unnumbered.symm.trans h)]
        rfl
  have hmap : ∀ outcome : Outcome (Answer (Foreign π)),
      (outcome.map fun answer => answer.bind (Invoker.make o.arity)).map
          (Except.map fun invoker => invoker.binding.unnumbered) =
        (outcome.map Answer.unnumbered).map fun answer =>
          answer.bind fun b => (Invoker.make o.arity b).map (·.binding) := by
    intro outcome
    simp only [Outcome.map_map, hmake]
  rw [Client.construct_of_resolve, Client.construct_of_resolve, hmap, hmap,
    h.resolve hc hd hname i o.signature.text]

theorem Near.obey (near : Near key c.contexts.world d.contexts.world) (hc : Serves host c)
    (hd : Serves host d) (sound : ∀ f, command = .change f → Registers f) :
    Near key (c.obey command).2.contexts.world (d.obey command).2.contexts.world := by
  have hchange : ∀ f, command = .change f →
      Near key (c.obey command).2.contexts.world (d.obey command).2.contexts.world := by
    rintro f rfl
    obtain ⟨name, address, rfl⟩ := sound f rfl
    exact ⟨near.aliases, near.agree.register _ _⟩
  rcases hc.world command with ⟨f, hcommand, -⟩ | ⟨process, hworld⟩
  · exact hchange f hcommand
  · rcases hd.world command with ⟨f, hcommand, -⟩ | ⟨process', hworld'⟩
    · exact hchange f hcommand
    · rw [hworld, hworld']
      exact ⟨near.aliases, near.agree⟩

/-- **Contexts that are kindred stay so**, whatever their clients do, as long as nothing changes the
world but registrations. -/
theorem Kindred.obey (h : Kindred key c.contexts d.contexts) (hc : Serves host c)
    (hd : Serves host d) (sound : ∀ f, command = .change f → Registers f) :
    Kindred key (c.obey command).2.contexts (d.obey command).2.contexts := by
  refine ⟨h.near.obey hc hd sound, ?_, fun j => ?_⟩
  · by_cases hadd : command = .add
    · subst hadd
      simp [Client.obey, Contexts.add, h.count]
    · rw [Client.length_obey hc.attended.wellFormed hadd,
        Client.length_obey hd.attended.wellFormed hadd, h.count]
  · simp only [nativeName_obey hc sound, Client.table?_obey hc.attended.wellFormed,
      Client.table?_obey hd.attended.wellFormed]
    cases hasks : command.asks with
    | some asked =>
      obtain ⟨i, requests⟩ := asked
      rw [Client.tableAfter_of_asks hasks, Client.tableAfter_of_asks hasks, hc.resolver,
        hd.resolver]
      rcases h.tables j with ⟨ht, ht'⟩ | ⟨t, t', ht, ht', like⟩
      · exact .inl ⟨by rw [ht, Option.map_none], by rw [ht', Option.map_none]⟩
      · refine .inr ⟨_, _, by rw [ht, Option.map_some], by rw [ht', Option.map_some], ?_⟩
        by_cases hij : i = j
        · rw [if_pos hij, if_pos hij]
          exact h.near.serve (s := c.contexts.session t) (u := d.contexts.session t')
            (hc.attended j t ht) (hd.attended j t' ht') like requests
        · rwa [if_neg hij, if_neg hij]
    | none =>
      cases command with
      | add =>
        rw [Client.tableAfter, Client.tableAfter, h.count]
        split
        · exact .inr ⟨_, _, rfl, rfl, fun _ _ => rfl⟩
        · exact h.tables j
      | drop i =>
        rw [Client.tableAfter, Client.tableAfter]
        split
        · exact .inl ⟨rfl, rfl⟩
        · exact h.tables j
      | resolve | construct | probe => cases hasks
      | _ => exact h.tables j

/-- **Histories that differ in a registration stay kindred** on names that lead elsewhere. -/
theorem Kindred.obeyAll (h : Kindred key c.contexts d.contexts) (hc : Serves host c)
    (hd : Serves host d) (sound : ∀ f, .change f ∈ later → Registers f) :
    Kindred key (c.obeyAll later).contexts (d.obeyAll later).contexts := by
  induction later generalizing c d with
  | nil => exact h
  | cons command later ih =>
    have hcommand : ∀ f, command = .change f → Registers f :=
      fun f hf => sound f (hf ▸ List.mem_cons_self)
    exact ih (h.obey hc hd hcommand) (hc.obey command) (hd.obey command)
      fun f hf => sound f (List.mem_cons_of_mem _ hf)

/-- A registration leaves kindred what leads elsewhere. -/
theorem kindred_of_register (c : Client (Foreign π)) (name : String) (address : Address) :
    Kindred (stripSigil name) c.contexts
      (c.obey (.change (·.register name address))).2.contexts := by
  refine ⟨⟨rfl, fun other hne => Symbols.lookup_register_of_ne _ _ hne⟩, rfl, fun i => ?_⟩
  cases ht : c.contexts.table? i with
  | none => exact .inl ⟨rfl, ht⟩
  | some t => exact .inr ⟨t, t, rfl, ht, fun _ _ => rfl⟩

end

end Foreign

end NativeLink
