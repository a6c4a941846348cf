import NativeLink.Proofs.Client.Likeness
import NativeLink.Proofs.Foreign.Lookup

/-!
# Registration at any time

Routines can be registered while a client works.  That never touches a binding: what a binding
leads to was settled when it was made (`Proofs.Foreign.Lookup`).  A registration matters to requests
that miss, come later, and lead to the registered name; and to nothing else.

To say so is to compare a client with one for which a routine was registered.  Their symbol tables
give the same for all names but one.  They are told the same, command after command, until a request
for that name misses (`responses_of_differ`).  Acts that come to the same with either table are
`Blind` to the difference.
-/

namespace NativeLink

variable {π : Type}

namespace Foreign

/-! ## Symbol tables that differ in one name -/

/-- The tables give the same for all names but one. -/
def AgreeBut (key : String) (symbols other : Symbols) : Prop :=
  ∀ name, name ≠ key → other.lookup name = symbols.lookup name

/-- The session with another symbol table in its world. -/
def withSymbols (s : Session (Foreign π)) (symbols : Symbols) : Session (Foreign π) :=
  { s with world := { s.world with symbols } }

/-- The act does the same with another symbol table, and leaves that alone. -/
def Blind {α : Type} (symbols : Symbols) (act : Act (Foreign π) α) (s : Session (Foreign π)) : Prop :=
  act (withSymbols s symbols) = ((act s).1, withSymbols (act s).2 symbols)

section

variable {host : Host π} {key : String} {symbols : Symbols} {s : Session (Foreign π)}

theorem Blind.andThen {α β : Type} {act : Act (Foreign π) α} {next : α → Act (Foreign π) β}
    (h : Blind symbols act s)
    (k : ∀ a u, act s = (.returned a, u) → Blind symbols (next a) u) :
    Blind symbols (act.andThen next) s := by
  unfold Blind at h ⊢
  simp only [Act.andThen, h]
  rcases hact : act s with ⟨a | cause | _, u⟩
  · exact k a u hact
  · rfl
  · rfl

/-- A name that leads elsewhere is decided alike. -/
theorem run_blind (host : Host π) (agree : AgreeBut key s.world.symbols symbols) {name : String}
    (hname : s.world.nativeName name ≠ key) (signature : Signature) :
    Blind symbols (resolver host name signature).run s := by
  have hverdict : verdict host name signature { s.world with symbols } =
      { verdict host name signature s.world with
        world := { s.world with symbols } } := by
    have hlookup : symbols.lookup (s.world.nativeName name) = _ := agree _ hname
    unfold verdict
    rw [show nativeName { s.world with symbols } name = s.world.nativeName name from rfl, hlookup]
    split <;> rfl
  unfold Blind
  rw [resolver_decides, resolver_decides]
  simp only [withSymbols, hverdict, world_verdict]

/-- **A request is answered alike** unless it misses and leads to that name. -/
theorem resolve_blind (agree : AgreeBut key s.world.symbols symbols) {name text : String}
    (hmissed : ∀ n ∈ Session.missed (resolver host) [(name, text)] s, s.world.nativeName n ≠ key) :
    Blind symbols (Session.resolve (resolver host) name text) s := by
  -- if the resolver runs at all, the name has missed and so leads elsewhere
  have hwork : ∀ {signature : Signature} {outcome v},
      (s.table.acquire name).2.cell (s.table.acquire name).1 = .empty →
      Signature.parse text = .ok signature →
      (resolver host name signature).run (s.opened (s.table.acquire name).2
        (s.table.acquire name).1 name signature) = (outcome, v) →
        (resolver host name signature).run ((withSymbols s symbols).opened
          (s.table.acquire name).2 (s.table.acquire name).1 name signature) =
            (outcome, withSymbols v symbols) := by
    intro signature outcome v cell parsed run
    have hfree : s.table.contains name = false :=
      Table.contains_of_empty ((Session.cellOf_eq_cell_acquire _ _).trans cell)
    have hname : s.world.nativeName name ≠ key := hmissed name (by
      rw [Session.missed_singleton,
        if_pos ⟨hfree, by simp [parsed, Except.isOk, Except.toBool]⟩]
      exact List.mem_singleton_self name)
    have hrun := run_blind host (s := s.begun name signature) agree hname signature
    rw [Blind, Session.begun, run] at hrun
    exact hrun
  have hdone : ∀ {outcome v}, Session.Requested name text
      (fun signature => (resolver host name signature).run) (withSymbols s symbols)
      (s.table.acquire name).1 (s.table.acquire name).2 outcome v →
        Session.resolve (resolver host) name text (withSymbols s symbols) = (outcome, v) :=
    Session.Requested.request_eq
  rcases hresolve : Session.resolve (resolver host) name text s with ⟨outcome, u⟩
  rw [Blind, hresolve]
  cases Session.requested_of_request hresolve with
  | hit cell => exact hdone (.hit cell)
  | blocked cell => exact hdone (.blocked cell)
  | refused cell parsed => exact hdone (.refused cell parsed)
  | accepted cell parsed run =>
    exact (hdone (.accepted cell parsed (hwork cell parsed run))).trans rfl
  | failed cell parsed run =>
    exact (hdone (.failed cell parsed (hwork cell parsed run))).trans rfl
  | panicked cell parsed run =>
    exact (hdone (.panicked cell parsed (hwork cell parsed run))).trans rfl
  | stuck cell parsed run => exact hdone (.stuck cell parsed (hwork cell parsed run))

theorem construct_blind (agree : AgreeBut key s.world.symbols symbols) {o : Operation}
    (hmissed : ∀ n ∈ Session.missed (resolver host) [o.asked] s, s.world.nativeName n ≠ key) :
    Blind symbols (Session.construct (resolver host) o) s :=
  (resolve_blind agree hmissed).andThen fun _ _ _ => rfl

theorem attempt_blind (agree : AgreeBut key s.world.symbols symbols) {o : Operation}
    (hmissed : ∀ n ∈ Session.missed (resolver host) [o.asked] s, s.world.nativeName n ≠ key) :
    Blind symbols (Session.attempt (resolver host) o) s :=
  (construct_blind agree hmissed).andThen fun _ _ _ => rfl

/-- An attempt and what comes after it, from what comes after it. -/
theorem attempt_andThen_blind {α : Type} {o : Operation} {rest : List (String × String)}
    {next : Except ResolveError Unit → Act (Foreign π) α}
    (hnext : ∀ made {u : Session (Foreign π)}, AgreeBut key u.world.symbols symbols →
      (∀ n ∈ Session.missed (resolver host) rest u, u.world.nativeName n ≠ key) →
        Blind symbols (next made) u)
    (agree : AgreeBut key s.world.symbols symbols)
    (hmissed : ∀ n ∈ Session.missed (resolver host) (o.asked :: rest) s,
      s.world.nativeName n ≠ key) :
    Blind symbols ((Session.attempt (resolver host) o).andThen next) s := by
  have hfirst : ∀ n ∈ Session.missed (resolver host) [o.asked] s, s.world.nativeName n ≠ key :=
    fun n hn => hmissed n (Session.missed_subset _ _ rest s hn)
  refine (attempt_blind agree hfirst).andThen fun made u hattempt => ?_
  have hworld : u.world = s.world := by
    rw [Session.attempt_eq] at hattempt
    rw [← world_serve host [o.asked] s, ← (Prod.mk.inj hattempt).2]
  rw [Session.missed_attempt hattempt, List.forall_mem_append] at hmissed
  exact hnext made (hworld ▸ agree) (hworld ▸ hmissed.2)

theorem probe_blind (agree : AgreeBut key s.world.symbols symbols)
    (hmissed : ∀ n ∈ Session.missed (resolver host) (Operation.inTurn.map Operation.asked) s,
      s.world.nativeName n ≠ key) : Blind symbols (Session.probe (resolver host)) s :=
  attempt_andThen_blind (fun _ _ => attempt_andThen_blind fun _ _ =>
    attempt_andThen_blind fun _ _ _ _ => rfl) agree hmissed

end

/-! ## Histories that differ in a registration -/

/-- The contexts are the same but for their symbol tables, which differ in one name. -/
def Differ (key : String) (c d : Contexts (Foreign π)) : Prop :=
  ∃ symbols, AgreeBut key c.world.symbols symbols ∧
    d = { c with world := { c.world with symbols } }

section

variable {host : Host π} {key : String} {c d : Client (Foreign π)}
  {command : Command (Foreign π)} {later : List (Command (Foreign π))}

theorem AgreeBut.register {symbols other : Symbols} (h : AgreeBut key symbols other)
    (name : String) (address : Address) :
    AgreeBut key (symbols.register name address) (other.register name address) := by
  intro wanted hne
  by_cases heq : wanted = name
  · rw [heq, Symbols.lookup_register_self, Symbols.lookup_register_self]
  · rw [Symbols.lookup_register_of_ne _ _ heq, Symbols.lookup_register_of_ne _ _ heq, h _ hne]

/-- What an act does that is blind to the difference. -/
theorem within_blind {α : Type} {contexts : Contexts (Foreign π)} {symbols : Symbols} {i : Nat}
    (act : Act (Foreign π) α) (agree : AgreeBut key contexts.world.symbols symbols)
    (h : ∀ t, contexts.table? i = some t → Blind symbols act (contexts.session t) ∧
      (act (contexts.session t)).2.world = contexts.world) :
    Agree (Differ key) (contexts.within i act)
      ({ contexts with world := { contexts.world with symbols } }.within i act) := by
  have htable : ({ contexts with world := { contexts.world with symbols } } :
    Contexts (Foreign π)).table? i = contexts.table? i := rfl
  cases ht : contexts.table? i with
  | none =>
    rw [Contexts.within_eq_of_none ht, Contexts.within_eq_of_none (htable.trans ht)]
    exact ⟨rfl, symbols, agree, rfl⟩
  | some t =>
    obtain ⟨hblind, hworld⟩ := h t ht
    rw [Contexts.within_eq ht, Contexts.within_eq (htable.trans ht)]
    have hact : act (withSymbols (contexts.session t) symbols) = _ := hblind
    rw [show ({ contexts with world := { contexts.world with symbols } } :
      Contexts (Foreign π)).session t = withSymbols (contexts.session t) symbols from rfl, hact]
    exact ⟨rfl, symbols, by rw [Contexts.leave, hworld]; exact agree, rfl⟩

/-- **A registration makes no difference to a command** that misses nothing under its name. -/
theorem matches_of_differ (h : Serves host c) (alike : Client.Alike (Differ key) c d)
    (sound : ∀ f, command = .change f → Registers f)
    (hmissed : ∀ n ∈ c.missed command, c.contexts.world.nativeName n ≠ key) :
    Client.Matches (Differ key) c d command := by
  obtain ⟨symbols, agree, hd⟩ := alike.contexts
  have hasked : ∀ {i : Nat} {t : Table (Foreign π)} {requests : List (String × String)},
      command.asks = some (i, requests) → c.contexts.table? i = some t →
        ∀ n ∈ Session.missed (resolver host) requests (c.contexts.session t),
          (c.contexts.session t).world.nativeName n ≠ key := by
    intro i t requests asks ht n hn
    refine hmissed n ?_
    simp only [Client.missed, asks, ht, h.resolver]
    exact hn
  have hserved : ∀ {t : Table (Foreign π)} {requests : List (String × String)},
      (Session.serve (resolver host) requests (c.contexts.session t)).world = c.contexts.world :=
    world_serve _ _ _
  have hcalled : command.calls = true → ∀ call, c.call? command = some call →
      ∃ reply events left left',
        call.binding.callable call.args c.contexts.world = (reply, events, left) ∧
        call.binding.callable call.args d.contexts.world = (reply, events, left') ∧
        ∀ told, Differ key { c.contexts with world := left, log := c.contexts.log ++ told }
          { d.contexts with world := left', log := d.contexts.log ++ told } := by
    intro _ call hcall
    obtain ⟨address, leads⟩ := leadsTo_of_offered (h.offered.hands _ (Client.hands_of_call hcall))
    rw [leads.callable, hd]
    exact ⟨_, _, _, _, rfl, rfl, fun told => ⟨symbols, agree, rfl⟩⟩
  cases command with
  | add =>
    unfold Client.Matches
    rw [hd]
    exact ⟨rfl, symbols, agree, rfl⟩
  | drop i =>
    unfold Client.Matches
    rw [hd]
    exact ⟨symbols, agree, rfl⟩
  | resolve i name text =>
    unfold Client.Matches
    rw [hd]
    refine within_blind (Session.resolve c.contexts.resolver name text) agree fun t ht => ?_
    rw [h.resolver, ← Session.serve_singleton]
    exact ⟨resolve_blind agree (hasked rfl ht), hserved⟩
  | find i name =>
    unfold Client.Matches
    rw [hd]
    rfl
  | construct i o =>
    unfold Client.Matches
    rw [hd]
    refine within_blind (Session.construct c.contexts.resolver o) agree fun t ht => ?_
    rw [h.resolver]
    refine ⟨construct_blind agree (hasked rfl ht), ?_⟩
    rw [Session.construct_eq]
    exact hserved
  | probe i =>
    unfold Client.Matches
    rw [hd]
    refine within_blind (Session.probe c.contexts.resolver) agree fun t ht => ?_
    rw [h.resolver]
    refine ⟨probe_blind agree (hasked rfl ht), ?_⟩
    obtain ⟨events, heq⟩ := Session.probe_eq (resolver host) (c.contexts.session t)
    rw [heq]
    exact hserved
  | change f =>
    obtain ⟨name, address, rfl⟩ := sound f rfl
    unfold Client.Matches
    rw [hd]
    exact ⟨_, agree.register _ _, rfl⟩
  | make | copy => trivial
  | run | invoke | call => exact hcalled rfl

/-- **Clients whose symbol tables differ in one name are told the same**, until a request for that
name misses. -/
theorem responses_of_differ (h : Serves host c) (alike : Client.Alike (Differ key) c d)
    (sound : ∀ f, .change f ∈ later → Registers f)
    (hmissed : ∀ n ∈ c.misses later, c.contexts.world.nativeName n ≠ key) :
    d.responses later = c.responses later := by
  induction later generalizing c d with
  | nil => rfl
  | cons command later ih =>
    have hcommand : ∀ f, command = .change f → Registers f :=
      fun f hf => sound f (hf ▸ List.mem_cons_self)
    obtain ⟨hnow, hlater⟩ := List.forall_mem_append.mp hmissed
    obtain ⟨hsame, halike⟩ := alike.obey (matches_of_differ h alike hcommand hnow)
    have hrest := ih (h.obey command) halike (fun f hf => sound f (List.mem_cons_of_mem _ hf))
      fun n hn => by rw [nativeName_obey h hcommand]; exact hlater n hn
    exact congrArg₂ (fun response rest => [response] ++ rest) hsame.symm hrest

end

end Foreign

end NativeLink
