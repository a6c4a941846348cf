import NativeLink.Proofs.Context.Constructor
import NativeLink.Proofs.Foreign.Elsewhere

/-!
# Late registration

Routines can be registered at any time, also after requests for their names have failed, and after
other routines have been bound under them.  What comes of it is in `Steadfast`.  A binding leads
for its whole life to the address that was found when it was made.  A registration makes no
difference before a request for its native name misses, and never makes one to other names.  A
request that does miss finds what was registered last and does not fail, whether or not the same
request has failed before.

There is one exception, which has nothing to do with symbols: if the text of a request is no
signature, the request is refused before anything is looked up (`refused_misspelt`).
-/

namespace NativeLink

variable {π : Type}

namespace Foreign

/-- What a request in the context `i` comes to that asks for an unbound name leading to an address. -/
structure Finds (host : Host π) (c : Client (Foreign π)) (i : Nat) (name text : String)
    (signature : Signature) (address : Address) : Prop where
  /-- Whatever command makes the request, the name is bound after it. -/
  bound : ∀ command requests, command.asks = some (i, requests) → (name, text) ∈ requests →
    ∃ t b, (c.obey command).2.contexts.table? i = some t ∧ t.get? name = some b ∧
      Leads host name signature address b
  resolve : ∃ n b, (c.obey (.resolve i name text)).1 = .binding n b ∧
    Leads host name signature address b
  construct : ∀ o : Operation, o.asked = (name, text) → ∃ n m,
    (c.obey (.construct i o)).1 = .operation n ∧
    (c.obey (.construct i o)).2.operations[n]? = some m ∧
    LeadsTo host m.invoker.binding address

section

variable {host : Host π} {c : Client (Foreign π)}

/-- **A request for an unbound name that leads to an address succeeds** with that address. -/
theorem finds_of_address? (h : Serves host c) {i : Nat} {t : Table (Foreign π)}
    {name text : String} {signature : Signature} {address : Address}
    (ht : c.contexts.table? i = some t) (unbound : t.get? name = none)
    (parsed : Signature.parse text = .ok signature)
    (haddress : c.contexts.world.address? name = some address) :
    Finds host c i name text signature address := by
  have hs : (c.contexts.session t).table.Attended [] := h.attended i t ht
  refine ⟨fun command requests asks asked => ?_, ?_, fun o ho => ?_⟩
  · obtain ⟨b, hb, hleads⟩ := serve_bound hs (Command.nodup_of_asks asks) asked unbound parsed
      haddress
    rw [Client.table?_obey h.attended.wellFormed, Client.tableAfter_of_asks asks, ht,
      Option.map_some, if_pos rfl, h.resolver]
    exact ⟨_, b, rfl, hb, hleads⟩
  · rcases hresolve : Session.resolve (resolver host) name text (c.contexts.session t) with
      ⟨outcome, u⟩
    obtain ⟨b, rfl, -, hleads⟩ := resolve_bound hs unbound parsed haddress hresolve
    obtain ⟨n, hn⟩ := Client.obey_resolve_ok (b := b) ht (by rw [h.resolver, hresolve])
    exact ⟨n, b, hn, hleads⟩
  · obtain ⟨rfl, rfl⟩ := Prod.mk.inj ho
    obtain rfl : o.signature = signature := by
      rw [Operation.parse_text] at parsed
      exact Except.ok.inj parsed
    rcases hresolve : Session.resolve (resolver host) o.symbol o.signature.text
      (c.contexts.session t) with ⟨outcome, u⟩
    obtain ⟨b, rfl, -, hleads⟩ := resolve_bound hs unbound parsed haddress hresolve
    have harity : b.arity = o.arity := by
      rw [Binding.arity, hleads.signature_eq, o.arity_signature]
    obtain ⟨m, hm, hbinding⟩ := Client.obey_construct_ok ht (by rw [h.resolver, hresolve]) harity
    exact ⟨_, m, hm.1, hm.2, hbinding ▸ hleads.leadsTo⟩

/-- **A request whose text is no signature is refused for that**, and nothing is looked up. -/
theorem misspelt_refused (h : Serves host c) {i : Nat} {t : Table (Foreign π)} {name text : String}
    {error : ResolveError} (ht : c.contexts.table? i = some t) (unbound : t.get? name = none)
    (parsed : Signature.parse text = .error error) :
    (c.obey (.resolve i name text)).1 = .refused error := by
  refine Client.obey_resolve_error ht ?_
  rw [h.resolver]
  rcases hresolve : Session.resolve (resolver host) name text (c.contexts.session t) with
    ⟨outcome, u⟩
  cases Session.decided_of_resolve (resolver_decides host) (h.attended i t ht) hresolve with
  | found bound =>
    have hnone : (c.contexts.session t).table.get? name = none := unbound
    rw [hnone] at bound
    cases bound
  | misread _ other _ =>
    rw [parsed] at other
    cases other
    rfl
  | refused _ other _ _ | accepted _ other _ _ =>
    rw [parsed] at other
    cases other

/-- **A registration makes no difference to names that lead elsewhere**, whatever follows it. -/
theorem comesTo_elsewhere (h : Serves host c) {name other : String} (address : Address)
    {later : List (Command (Foreign π))} (sound : ∀ g, .change g ∈ later → Registers g)
    (hc : Serves host (c.obeyAll later))
    (hd : Serves host (c.obeyAll (.change (·.register name address) :: later)))
    (hother : c.contexts.world.nativeName other ≠ stripSigil name) (i : Nat) :
    (∀ text,
      ((c.obeyAll (.change (·.register name address) :: later)).contexts.resolve i other text).1.map
          Answer.unnumbered =
        ((c.obeyAll later).contexts.resolve i other text).1.map Answer.unnumbered) ∧
    ∀ o : Operation, o.symbol = other →
      ((c.obeyAll (.change (·.register name address) :: later)).contexts.construct i o).1.map
          (Except.map fun invoker => invoker.binding.unnumbered) =
        ((c.obeyAll later).contexts.construct i o).1.map
          (Except.map fun invoker => invoker.binding.unnumbered) := by
  have hkindred := (kindred_of_register c name address).obeyAll h
    (h.obey (.change (·.register name address))) sound
  have hname : (c.obeyAll later).contexts.world.nativeName other ≠ stripSigil name := by
    rw [nativeName_obeyAll h sound]
    exact hother
  refine ⟨fun text => hkindred.resolve hc hd hname i text, ?_⟩
  rintro o rfl
  exact hkindred.construct hc hd hname i

/-- A name that was registered leads to its routine until it is registered again. -/
theorem lookup_of_register (h : Serves host c) (name : String) (address : Address)
    {later : List (Command (Foreign π))}
    (sound : ∀ g, .change g ∈ later → RegistersElsewhere (stripSigil name) g) :
    (c.obeyAll (.change (·.register name address) :: later)).contexts.world.symbols.lookup
      (stripSigil name) = some (address, .registered) := by
  rw [Client.obeyAll_cons, lookup_obeyAll (h.obey _) sound]
  exact Symbols.lookup_register_self _ _ _

end

/-! ## Whole histories -/

/-- A client over a foreign resolver, after a history. -/
def client (host : Host π) (f : Foreign π) (history : List (Command (Foreign π))) :
    Client (Foreign π) :=
  (Client.start (resolver host) f).obeyAll history

/-- What registrations do to the bindings of a client, and what they leave alone. -/
structure Steadfast (host : Host π) (f : Foreign π) (history : List (Command (Foreign π))) :
    Prop where
  /-- A binding has the address that its native name led to at the moment it was made, and calls
  it for its whole life. -/
  addressed : ∀ b,
    (client host f history).Hands b ∨ (client host f history).contexts.Binds b →
      ∃ i address, Client.Born (Makes host address) (.start (resolver host) f) history i b ∧
        ∀ later command call,
          (client host f (history ++ later)).call? command = some call → call.binding = b →
            Entered host (client host f (history ++ later)) command call address
  /-- A name that is bound stays bound to the same, as long as its context is there. -/
  kept : ∀ command i t, (client host f history).contexts.table? i = some t → command ≠ .drop i →
    ∃ t', (client host f (history ++ [command])).contexts.table? i = some t' ∧
      ∀ name b, t.get? name = some b → t'.get? name = some b
  /-- A registration makes no difference as long as no request for its native name misses. -/
  heedless : ∀ name address later, (∀ g, .change g ∈ later → Registers g) →
    (∀ missed ∈ (client host f history).misses later,
      (client host f history).contexts.world.nativeName missed ≠ stripSigil name) →
    (client host f (history ++ [.change (·.register name address)])).responses later =
      (client host f history).responses later
  /-- To requests for other native names it never makes a difference. -/
  elsewhere : ∀ name address later, (∀ g, .change g ∈ later → Registers g) → ∀ i other,
    (client host f history).contexts.world.nativeName other ≠ stripSigil name →
    (∀ text,
      ((client host f (history ++ .change (·.register name address) :: later)).contexts.resolve
          i other text).1.map Answer.unnumbered =
        ((client host f (history ++ later)).contexts.resolve i other text).1.map
          Answer.unnumbered) ∧
    ∀ o : Operation, o.symbol = other →
      ((client host f (history ++ .change (·.register name address) :: later)).contexts.construct
          i o).1.map (Except.map fun invoker => invoker.binding.unnumbered) =
        ((client host f (history ++ later)).contexts.construct i o).1.map
          (Except.map fun invoker => invoker.binding.unnumbered)
  /-- A request for its native name that misses finds the address that was registered last. -/
  latest : ∀ name address before after,
    history = before ++ .change (·.register name address) :: after →
    (∀ g, .change g ∈ after → RegistersElsewhere (stripSigil name) g) →
    ∀ i t wanted text signature, (client host f history).contexts.table? i = some t →
      (client host f history).contexts.world.nativeName wanted = stripSigil name →
      t.get? wanted = none → Signature.parse text = .ok signature →
        Finds host (client host f history) i wanted text signature address
  /-- A request whose text is no signature is refused for that. -/
  misspelt : ∀ i t name text error, (client host f history).contexts.table? i = some t →
    t.get? name = none → Signature.parse text = .error error →
      ((client host f history).obey (.resolve i name text)).1 = .refused error

/-- **Late registration never redirects a binding**, and it is never too late for a name that is not
bound. -/
theorem steadfast (host : Host π) (f : Foreign π) (history : List (Command (Foreign π))) :
    Steadfast host f history := by
  have hserves : Serves host (client host f history) := serves_obeyAll host f history
  have hgoes : ∀ later, client host f (history ++ later) = (client host f history).obeyAll later :=
    fun later => Client.obeyAll_append _ history later
  refine ⟨fun b hb => ?_, fun command i t ht hdrop => ?_,
    fun name address later sound hmissed => ?_,
    fun name address later sound i other hother => ?_,
    fun name address before after hsplit sound i t wanted text signature ht hwanted unbound
      parsed => ?_,
    fun i t name text error ht unbound parsed => misspelt_refused hserves ht unbound parsed⟩
  · obtain ⟨i, address, hborn⟩ := exists_address host f history hb
    refine ⟨i, address, hborn, fun later command call hcall heq => ?_⟩
    obtain ⟨-, -, -, -, -, -, -, -, -, leads, -⟩ := hborn
    exact entered_of_leadsTo hcall (heq ▸ leads)
  · rw [hgoes]
    exact (Client.did_of_obey hserves.attended.wellFormed command).kept
      hserves.attended.wellFormed ht fun j hj => fun heq => hdrop (heq ▸ hj)
  · rw [hgoes]
    refine responses_of_differ hserves ⟨?_, rfl, rfl⟩ sound hmissed
    exact ⟨_, fun other hne => Symbols.lookup_register_of_ne _ _ hne, rfl⟩
  · have hafter : ∀ later, Serves host ((client host f history).obeyAll later) := fun later =>
      hgoes later ▸ serves_obeyAll host f (history ++ later)
    rw [hgoes, hgoes]
    exact comesTo_elsewhere hserves address sound (hafter _) (hafter _) hother i
  · have hlookup := lookup_of_register (serves_obeyAll host f before) name address sound
    rw [← Client.obeyAll_append, ← hsplit] at hlookup
    refine finds_of_address? hserves ht unbound parsed ?_
    rw [address?, hwanted, client, hlookup, Option.map_some]

/-! ## A routine that is registered late -/

/-- A host without symbols, whose routines answer their addresses. -/
def bareHost : Host Nat where
  load path := .error path
  exports _ := none
  routineAt address _ calls := (address.raw, calls + 1)
  nullPointer := .null

/-- A foreign resolver that knows nothing. -/
def bare : Foreign Nat := ⟨.empty bareHost.exports false, [], 0⟩

/-- A request fails until its routine is registered, and the binding it gets then calls this routine
also when another one has taken its name. -/
example : ((Client.start (resolver bareHost) bare).responses
      [.resolve 0 "@f" "():UINT64", .change (·.register "f" ⟨16⟩), .resolve 0 "@f" "():UINT64",
        .change (·.register "@f" ⟨32⟩), .call 0 []]).filterMap (fun
          | .reply (.ok value) => some (some value)
          | .refused _ => some none
          | _ => none) = [none, some (.uint64 16)] := by
  decide +kernel

/-- **Not every request for a registered name succeeds**: one whose text is no signature is refused,
although its name is not bound and leads to the routine. -/
theorem refused_misspelt : ∃ t,
    (client bareHost bare [.change (·.register "@f" ⟨16⟩)]).contexts.table? 0 = some t ∧
      t.get? "@f" = none ∧
      (client bareHost bare [.change (·.register "@f" ⟨16⟩)]).contexts.world.nativeName "@f" =
        stripSigil "@f" ∧
      (client bareHost bare [.change (·.register "@f" ⟨16⟩)]).contexts.world.address? "@f" =
        some ⟨16⟩ ∧
      ∃ error, ((client bareHost bare [.change (·.register "@f" ⟨16⟩)]).obey
        (.resolve 0 "@f" "UINT64")).1 = .refused error := by
  refine ⟨.empty, rfl, rfl, by decide +kernel, by decide +kernel, ?_⟩
  have hmisspelt : (Signature.parse "UINT64").isOk = false := by decide +kernel
  cases hparse : Signature.parse "UINT64" with
  | ok signature =>
    rw [hparse] at hmisspelt
    cases hmisspelt
  | error error => exact ⟨error, misspelt_refused (serves_obeyAll _ _ _) rfl rfl hparse⟩

end Foreign

end NativeLink
