import NativeLink.Proofs.Foreign.Operations
import NativeLink.Proofs.Session.Direct

/-!
# When a foreign resolver looks

A foreign resolver looks a native name up when a request misses, and at no other time.  What it
finds goes into the callable, and from there on the symbol table is not looked at again.  So a
binding has the address that the look-up of its native name gave when it was made
(`exists_address`), and a call of it enters the routine at that address, whatever the look-up would give by then
(`Entered`).

The other way round, a request that misses binds its name to what the look-up gives at that moment
(`serve_bound`).  What was registered last under a native name comes before everything else, and
stays so until something else is registered under that name (`lookup_obeyAll`).
-/

namespace NativeLink

variable {π : Type}

namespace Foreign

/-- What the foreign resolver decides. -/
def verdict (host : Host π) (name : String) (signature : Signature) (f : Foreign π) :
    Verdict (Foreign π) :=
  match f.symbols.lookup (f.nativeName name) with
  | none => ⟨.error (.symbolNotFound name), [], f⟩
  | some (address, source) =>
    ⟨.ok (callable ⟨name, signature, address, host.routineAt address⟩),
      [.located name (f.nativeName name) source signature], f⟩

/-- The address that a name leads to at present. -/
def address? (f : Foreign π) (name : String) : Option Address :=
  (f.symbols.lookup (f.nativeName name)).map Prod.fst

section

variable {host : Host π} {name text : String} {signature : Signature} {f : Foreign π}

theorem resolver_decides (host : Host π) : (resolver host).Decides (verdict host) := by
  intro name signature s
  rw [verdict]
  cases hlookup : s.world.symbols.lookup (s.world.nativeName name) with
  | none => simp [resolver, Plan.run, hlookup]
  | some found => simp [resolver, Plan.run, hlookup, Session.tell]

/-- A look-up leaves the world as it is. -/
@[simp] theorem world_verdict : (verdict host name signature f).world = f := by
  unfold verdict
  split <;> rfl

theorem result_of_address? (host : Host π) {address : Address} (signature : Signature)
    (h : f.address? name = some address) :
    (verdict host name signature f).result =
      .ok (callable ⟨name, signature, address, host.routineAt address⟩) := by
  obtain ⟨⟨address, source⟩, hlookup, rfl⟩ := Option.map_eq_some_iff.mp h
  simp only [verdict, hlookup]

theorem address?_of_result {called : Callable (Foreign π)}
    (h : (verdict host name signature f).result = .ok called) :
    ∃ address, f.address? name = some address ∧
      called = callable ⟨name, signature, address, host.routineAt address⟩ := by
  unfold verdict at h
  cases hlookup : f.symbols.lookup (f.nativeName name) with
  | none =>
    simp only [hlookup] at h
    cases h
  | some found =>
    simp only [hlookup, Except.ok.injEq] at h
    exact ⟨found.1, by rw [address?, hlookup, Option.map_some], h.symm⟩

end

/-! ## The address of a binding -/

/-- The binding leads to the address that its name led to, and was made for one of the requests,
with the signature that this request came with. -/
def Makes (host : Host π) (address : Address) (f : Foreign π) (requests : List (String × String))
    (b : Binding (Foreign π)) : Prop :=
  f.address? b.name = some address ∧ LeadsTo host b address ∧
    ∃ text, (b.name, text) ∈ requests ∧ Signature.parse text = .ok b.signature

theorem endows_makes (host : Host π) :
    Client.Endows (fun f requests b => ∃ address, Makes host address f requests b)
      (resolver host) := by
  intro requests s hs
  have hmade := Client.endows_of_decides (resolver_decides host)
    (Q := fun f b => ∃ address, f.address? b.name = some address ∧
      b.callable = callable ⟨b.name, b.signature, address, host.routineAt address⟩)
    (fun id name signature f called h => address?_of_result h)
    (fun name signature f b h => by rwa [world_verdict] at h) requests s hs
  refine hmade.mono fun b h => ?_
  obtain ⟨⟨address, hlookup, hcallable⟩, text, hmem, hparse⟩ := h
  exact ⟨address, hlookup, ⟨hcallable, Signature.void_not_mem_of_parse hparse⟩, text, hmem, hparse⟩

/-- **Every binding has an address**: the one its name led to when it was made. -/
theorem exists_address (host : Host π) (f : Foreign π) (history : List (Command (Foreign π)))
    {b : Binding (Foreign π)}
    (hb : ((Client.start (resolver host) f).obeyAll history).Hands b ∨
      ((Client.start (resolver host) f).obeyAll history).contexts.Binds b) :
    ∃ i address, Client.Born (Makes host address) (.start (resolver host) f) history i b := by
  obtain ⟨hbound, hhands⟩ := Client.born_of_obeyAll (endows_makes host) f history
  have hborn : ∃ i, Client.Born (fun f requests b => ∃ address, Makes host address f requests b)
      (.start (resolver host) f) history i b := by
    rcases hb with hb | ⟨i, t, name, ht, hget⟩
    · exact hhands b hb
    · exact ⟨i, hbound i t name b ht hget⟩
  obtain ⟨i, before, command, after, requests, hsplit, asks, first, last, address, makes⟩ := hborn
  exact ⟨i, address, before, command, after, requests, hsplit, asks, first, last, makes⟩

/-- A call of a binding enters the routine at the address, with the process as it is. -/
structure Entered (host : Host π) (c : Client (Foreign π)) (command : Command (Foreign π))
    (call : Invocation (Foreign π)) (address : Address) : Prop where
  response : (c.obey command).1 = call.respond
    (ForeignFunction.call ⟨call.binding.name, call.binding.signature, address,
      host.routineAt address⟩ call.args c.contexts.world.process).1
  world : (c.obey command).2.contexts.world =
    { c.contexts.world with
      process := (ForeignFunction.call ⟨call.binding.name, call.binding.signature, address,
        host.routineAt address⟩ call.args c.contexts.world.process).2.2 }

theorem entered_of_leadsTo {host : Host π} {c : Client (Foreign π)} {command : Command (Foreign π)}
    {call : Invocation (Foreign π)} {address : Address} (h : c.call? command = some call)
    (leads : LeadsTo host call.binding address) : Entered host c command call address := by
  have hresponse := Client.response_of_call h
  have hworld := Client.world_of_call h
  rw [leads.callable] at hresponse hworld
  exact ⟨hresponse, hworld⟩

/-! ## What changes the symbols -/

section

variable {host : Host π} {c : Client (Foreign π)}

/-- Requests that are served leave the world as it is. -/
theorem world_serve (host : Host π) (requests : List (String × String)) (s : Session (Foreign π)) :
    (Session.serve (resolver host) requests s).world = s.world := by
  refine Session.serve_keeps (P := fun u => u.world = s.world) (fun name text u hu => ?_)
    requests rfl
  rcases hresolve : Session.resolve (resolver host) name text u with ⟨outcome, v⟩
  rcases Client.world_of_resolve (resolver_decides host) hresolve with hv | ⟨signature, hv⟩
  · exact hv.trans hu
  · exact hv.trans (world_verdict.trans hu)

/-- A client over a foreign resolver, as it is after any history. -/
structure Serves (host : Host π) (c : Client (Foreign π)) : Prop where
  resolver : c.contexts.resolver = resolver host
  attended : c.Attended
  offered : c.Offered (offer host)

theorem serves_obeyAll (host : Host π) (f : Foreign π) (history : List (Command (Foreign π))) :
    Serves host ((Client.start (Foreign.resolver host) f).obeyAll history) where
  resolver := Client.resolver_obeyAll (Client.wellFormed_start _ f) history
  attended := Client.attended_obeyAll (resolver_decides host) f history
  offered := (Client.Offered.start (resolver_yields host) f).obeyAll history

theorem Serves.obey (h : Serves host c) (command : Command (Foreign π)) :
    Serves host (c.obey command).2 := by
  have hdid := Client.did_of_obey h.attended.wellFormed command
  exact ⟨hdid.resolver.trans h.resolver, hdid.attended (h.resolver ▸ resolver_decides host)
    h.attended, h.offered.obey command⟩

/-- **Only a registration changes the symbols**, and nothing changes the aliases. -/
theorem Serves.world (h : Serves host c) (command : Command (Foreign π)) :
    (∃ f, command = .change f ∧
        (c.obey command).2.contexts.world = f c.contexts.world) ∨
      ∃ process, (c.obey command).2.contexts.world = { c.contexts.world with process } := by
  have hdid := Client.did_of_obey h.attended.wellFormed command
  generalize (c.obey command).2 = d at hdid ⊢
  cases hdid with
  | changed f => exact .inl ⟨f, rfl, rfl⟩
  | called asks call =>
    obtain ⟨address, leads⟩ := leadsTo_of_offered (h.offered.hands _ (Client.hands_of_call call))
    simp only [Client.called, leads.callable]
    exact .inr ⟨_, rfl⟩
  | handed asks call contexts hands =>
    rw [contexts]
    exact .inr ⟨_, rfl⟩
  | served asks table contexts hands =>
    rw [contexts, h.resolver]
    exact .inr ⟨_, world_serve _ _ _⟩
  | _ => exact .inr ⟨_, rfl⟩

end

/-! ## Requests that find something -/

section

variable {host : Host π} {s u : Session (Foreign π)} {name text : String} {signature : Signature}
  {address : Address} {outcome : Outcome (Answer (Foreign π))}

/-- The binding that leads a name to an address, under a signature. -/
structure Leads (host : Host π) (name : String) (signature : Signature) (address : Address)
    (b : Binding (Foreign π)) : Prop where
  name_eq : b.name = name
  signature_eq : b.signature = signature
  leadsTo : LeadsTo host b address

/-- **A request for a name that leads somewhere binds it there** if it is not bound yet. -/
theorem resolve_bound (hs : s.table.Attended []) (unbound : s.table.get? name = none)
    (parsed : Signature.parse text = .ok signature) (haddress : s.world.address? name = some address)
    (h : Session.resolve (resolver host) name text s = (outcome, u)) :
    ∃ b, outcome = .returned (.ok b) ∧ u.table.get? name = some b ∧
      Leads host name signature address b := by
  have hresult := result_of_address? host signature haddress
  cases Session.decided_of_resolve (resolver_decides host) hs h with
  | found bound =>
    rw [unbound] at bound
    cases bound
  | misread _ misread _ =>
    rw [parsed] at misread
    cases misread
  | refused _ other decided _ =>
    rw [parsed] at other
    cases other
    rw [hresult] at decided
    cases decided
  | accepted _ other decided becomes =>
    rw [parsed] at other
    cases other
    rw [hresult] at decided
    cases decided
    exact ⟨_, rfl, (becomes.get? name).trans (if_pos rfl), rfl, rfl, rfl,
      Signature.void_not_mem_of_parse parsed⟩

/-- A request for another name leaves a name unbound. -/
theorem get?_of_resolve_ne {other : String} (hs : s.table.Attended []) (hne : other ≠ name)
    (unbound : s.table.get? other = none)
    (h : Session.resolve (resolver host) name text s = (outcome, u)) :
    u.table.get? other = none := by
  cases Session.decided_of_resolve (resolver_decides host) hs h with
  | found bound => exact unbound
  | misread _ _ becomes => rw [becomes.get?, if_neg hne, unbound]
  | refused _ _ _ becomes => rw [becomes.get?, if_neg hne, unbound]
  | accepted _ _ _ becomes => rw [becomes.get?, if_neg hne, unbound]

/-- **Each of the requests that are served binds its name** to where that leads. -/
theorem serve_bound {requests : List (String × String)} (hs : s.table.Attended [])
    (nodup : (requests.map Prod.fst).Nodup) (asked : (name, text) ∈ requests)
    (unbound : s.table.get? name = none) (parsed : Signature.parse text = .ok signature)
    (haddress : s.world.address? name = some address) :
    ∃ b, (Session.serve (resolver host) requests s).table.get? name = some b ∧
      Leads host name signature address b := by
  induction requests generalizing s with
  | nil => cases asked
  | cons request rest ih =>
    obtain ⟨other, wanted⟩ := request
    obtain ⟨hfresh, hrest⟩ := List.nodup_cons.mp nodup
    rcases hresolve : Session.resolve (resolver host) other wanted s with ⟨outcome, u⟩
    have hu := (Session.decided_of_resolve (resolver_decides host) hs hresolve).attended hs
    rw [Session.serve_cons (resolver_decides host) hs, hresolve]
    rcases List.mem_cons.mp asked with heq | hmem
    · cases heq
      obtain ⟨b, -, hbound, hleads⟩ := resolve_bound hs unbound parsed haddress hresolve
      exact ⟨b, (Session.serve_evolves rest hu.wellFormed).get? hu.wellFormed hbound, hleads⟩
    · have hne : name ≠ other := by
        rintro rfl
        exact hfresh (List.mem_map.mpr ⟨_, hmem, rfl⟩)
      have hworld : u.world = s.world := by
        have hserve := world_serve host [(other, wanted)] s
        rwa [Session.serve_singleton, hresolve] at hserve
      exact ih hu hrest hmem (get?_of_resolve_ne hs hne unbound hresolve) (hworld ▸ haddress)

end

/-! ## Registrations -/

/-- The change is the registration of a routine. -/
def Registers (f : Foreign π → Foreign π) : Prop := ∃ name address, f = (·.register name address)

/-- The change is the registration of a routine under another native name. -/
def RegistersElsewhere (key : String) (f : Foreign π → Foreign π) : Prop :=
  ∃ name address, f = (·.register name address) ∧ stripSigil name ≠ key

section

variable {host : Host π} {c : Client (Foreign π)} {command : Command (Foreign π)}

/-- No command changes what names stand for. -/
theorem nativeName_obey (h : Serves host c) (sound : ∀ f, command = .change f → Registers f)
    (name : String) :
    (c.obey command).2.contexts.world.nativeName name = c.contexts.world.nativeName name := by
  rcases h.world command with ⟨f, hcommand, hworld⟩ | ⟨process, hworld⟩
  · obtain ⟨other, address, rfl⟩ := sound f hcommand
    rw [hworld]
    rfl
  · rw [hworld]
    rfl

/-- Names stand for the same all along a history. -/
theorem nativeName_obeyAll {later : List (Command (Foreign π))} (h : Serves host c)
    (sound : ∀ f, .change f ∈ later → Registers f) (name : String) :
    (c.obeyAll later).contexts.world.nativeName name = c.contexts.world.nativeName name := by
  induction later generalizing c with
  | nil => rfl
  | cons command later ih =>
    rw [Client.obeyAll_cons, ih (h.obey command) fun f hf => sound f (List.mem_cons_of_mem _ hf)]
    exact nativeName_obey h (fun f hf => sound f (hf ▸ List.mem_cons_self)) name

/-- **What is found under a native name stays** as long as nothing else is registered there. -/
theorem lookup_obeyAll {key : String} {later : List (Command (Foreign π))} (h : Serves host c)
    (sound : ∀ f, .change f ∈ later → RegistersElsewhere key f) :
    (c.obeyAll later).contexts.world.symbols.lookup key = c.contexts.world.symbols.lookup key := by
  induction later generalizing c with
  | nil => rfl
  | cons command later ih =>
    rw [Client.obeyAll_cons, ih (h.obey command) fun f hf => sound f (List.mem_cons_of_mem _ hf)]
    rcases h.world command with ⟨f, rfl, hworld⟩ | ⟨process, hworld⟩
    · obtain ⟨name, address, rfl, hne⟩ := sound f List.mem_cons_self
      rw [hworld]
      exact Symbols.lookup_register_of_ne _ _ hne.symm
    · rw [hworld]

end

end Foreign

end NativeLink
