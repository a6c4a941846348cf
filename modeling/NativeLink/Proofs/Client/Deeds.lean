import NativeLink.Proofs.Client.Calls
import NativeLink.Proofs.Context.Attendance
import NativeLink.Proofs.Session.Failure

/-!
# What a command does

A command of a client does one of few things.  Three kinds of command make requests, all in
one context: they bind a name, make an operation, or probe.  As far as the cache and the world
are concerned these are the same thing, requests served one after the other as long as they
return (`Session.serve`); what is made of the answers comes on top, and at most warnings are
added to the log.  Commands that call a callable are treated in `Proofs.Client.Calls`.  All
others leave the world alone, but for the one that changes it on purpose.

`Client.Did` is the list, and `Client.did_of_obey` says that it is complete.  It also says where
new things in the hands of the client come from: out of the table of a context.
-/

namespace NativeLink

variable {σ : Type}

/-- What an operation requests: its routine, under its signature. -/
def Operation.asked (o : Operation) : String × String := (o.symbol, o.signature.text)

namespace Command

/-- The requests of a command, and the context in which they are made. -/
def asks : Command σ → Option (Nat × List (String × String))
  | .resolve context name text => some (context, [(name, text)])
  | .construct context o => some (context, [o.asked])
  | .probe context => some (context, Operation.inTurn.map Operation.asked)
  | _ => none

/-- The context that a command is about, if it is about one. -/
def context? : Command σ → Option Nat
  | .drop context => some context
  | .resolve context _ _ => some context
  | .find context _ => some context
  | .construct context _ => some context
  | .probe context => some context
  | _ => none

/-- A command asks for a name once at most. -/
theorem nodup_of_asks {command : Command σ} {i : Nat} {requests : List (String × String)}
    (h : command.asks = some (i, requests)) : (requests.map Prod.fst).Nodup := by
  cases command with
  | resolve | construct =>
    cases h
    simp
  | probe =>
    cases h
    decide
  | _ => cases h

end Command

namespace Session

/-- Serves requests one after the other, until one of them does not return. -/
def serve (resolver : Resolver σ) : List (String × String) → Session σ → Session σ
  | [], s => s
  | (name, text) :: rest, s =>
    match resolve resolver name text s with
    | (.returned _, u) => serve resolver rest u
    | (_, u) => u

/-- The names among them that are not bound when they are asked for, with a text that is a
signature. -/
def missed (resolver : Resolver σ) : List (String × String) → Session σ → List String
  | [], _ => []
  | (name, text) :: rest, s =>
    (if s.table.contains name = false ∧ (Signature.parse text).isOk then [name] else []) ++
      match resolve resolver name text s with
      | (.returned _, u) => missed resolver rest u
      | _ => []

theorem serve_singleton (resolver : Resolver σ) (name text : String) (s : Session σ) :
    serve resolver [(name, text)] s = (resolve resolver name text s).2 := by
  rw [serve]
  rcases resolve resolver name text s with ⟨answer | cause | _, u⟩ <;> rfl

theorem missed_singleton (resolver : Resolver σ) (name text : String) (s : Session σ) :
    missed resolver [(name, text)] s =
      if s.table.contains name = false ∧ (Signature.parse text).isOk then [name] else [] := by
  rw [missed]
  rcases resolve resolver name text s with ⟨answer | cause | _, u⟩ <;> exact List.append_nil _

/-- What the first request misses is missed. -/
theorem missed_subset (resolver : Resolver σ) (request : String × String)
    (rest : List (String × String)) (s : Session σ) :
    missed resolver [request] s ⊆ missed resolver (request :: rest) s := by
  obtain ⟨name, text⟩ := request
  rw [missed_singleton, missed]
  exact List.subset_append_left _ _

/-- **What each request keeps is kept when requests are served.** -/
theorem serve_keeps {resolver : Resolver σ} {P : Session σ → Prop}
    (step : ∀ name text s, P s → P (resolve resolver name text s).2)
    (requests : List (String × String)) {s : Session σ} (h : P s) :
    P (serve resolver requests s) := by
  induction requests generalizing s with
  | nil => exact h
  | cons request rest ih =>
    obtain ⟨name, text⟩ := request
    have hnext := step name text s h
    rw [serve]
    rcases hresolve : resolve resolver name text s with ⟨answer | cause | _, u⟩
    all_goals rw [hresolve] at hnext
    · exact ih hnext
    · exact hnext
    · exact hnext

/-! ## Operations and probes -/

section

variable (resolver : Resolver σ) (o : Operation) (s : Session σ)

theorem construct_eq :
    construct resolver o s =
      ((resolve resolver o.symbol o.signature.text s).1.map fun answer =>
        answer.bind (Invoker.make o.arity), serve resolver [o.asked] s) := by
  rw [construct, Act.andThen, Operation.asked, serve]
  rcases resolve resolver o.symbol o.signature.text s with ⟨answer | cause | _, u⟩ <;> rfl

/-- An operation that is made has the binding that its request is answered. -/
theorem resolve_of_construct {resolver : Resolver σ} {o : Operation} {s u : Session σ}
    {invoker : Invoker σ o.arity} (h : construct resolver o s = (.returned (.ok invoker), u)) :
    resolve resolver o.symbol o.signature.text s = (.returned (.ok invoker.binding), u) := by
  rw [construct_eq, Operation.asked, serve_singleton] at h
  rcases hresolve : resolve resolver o.symbol o.signature.text s with
    ⟨(error | b) | cause | _, v⟩
  all_goals
    rw [hresolve] at h
    simp only [Outcome.map, Except.bind, Prod.mk.injEq, Outcome.returned.injEq, reduceCtorEq,
      false_and] at h
  obtain ⟨hmake, rfl⟩ := h
  rw [Invoker.make_eq_ok_iff.mp hmake]

theorem attempt_eq :
    attempt resolver o s =
      ((construct resolver o s).1.map fun made => made.map fun _ => (),
        serve resolver [o.asked] s) := by
  have hserve : (construct resolver o s).2 = serve resolver [o.asked] s := by
    rw [construct_eq resolver o s]
  rw [attempt, Act.andThen, ← hserve]
  rcases construct resolver o s with ⟨made | cause | _, u⟩ <;> rfl

/-- One attempt and what comes after it serve the request of the attempt and those after it. -/
theorem serve_attempt {α : Type} {next : Except ResolveError Unit → Act σ α}
    {rest : List (String × String)}
    (h : ∀ made u, ∃ events, (next made u).2 = (serve resolver rest u).tell events) :
    ∃ events, ((attempt resolver o).andThen next s).2 =
      (serve resolver (o.asked :: rest) s).tell events := by
  have htell : ∀ u : Session σ, u = u.tell [] := fun u => by simp [tell]
  rw [Act.andThen, attempt_eq resolver o s, construct_eq resolver o s, Operation.asked, serve,
    serve]
  rcases resolve resolver o.symbol o.signature.text s with ⟨answer | cause | _, u⟩
  · exact h _ u
  · exact ⟨[], htell u⟩
  · exact ⟨[], htell u⟩

/-- What is missed in an attempt and after it. -/
theorem missed_attempt {resolver : Resolver σ} {o : Operation} {s u : Session σ}
    {made : Except ResolveError Unit} (h : attempt resolver o s = (.returned made, u))
    (rest : List (String × String)) :
    missed resolver (o.asked :: rest) s =
      missed resolver [o.asked] s ++ missed resolver rest u := by
  rw [attempt_eq, construct_eq, Operation.asked, serve] at h
  rw [Operation.asked, missed_singleton, missed]
  rcases hresolve : resolve resolver o.symbol o.signature.text s with ⟨answer | cause | _, v⟩
  all_goals
    rw [hresolve] at h
    cases h
  rfl

/-- **A probe serves three requests** and adds warnings. -/
theorem probe_eq : ∃ events, (probe resolver s).2 =
    (serve resolver (Operation.inTurn.map Operation.asked) s).tell events :=
  serve_attempt resolver .nullPointer s fun _ _ =>
    serve_attempt resolver .dynamicCast _ fun _ _ =>
      serve_attempt resolver .freeException _ fun _ _ => ⟨_, rfl⟩

end

/-- **What a request answers is bound** when it has returned. -/
theorem get?_of_resolve {resolver : Resolver σ} {name text : String} {s u : Session σ}
    {b : Binding σ} (hs : s.table.WellFormed)
    (h : resolve resolver name text s = (.returned (.ok b), u)) :
    u.table.get? name = some b := by
  have hcell := cellOf_eq_cell_acquire s.table name
  cases requested_of_request h with
  | hit cell =>
    have hb := hcell.trans cell
    refine (Table.get?_release ..).trans ((Table.get?_acquire ..).trans ?_)
    rw [Table.get?_eq_cellOf, hb]
    rfl
  | @accepted signature callable v cell parsed run =>
    have hretries : Retries name text (resolver name) s signature :=
      retries_of_empty hs (hcell.trans cell) parsed
    obtain ⟨w, hrequest, hbound⟩ := hretries.bound callable v run
    rw [show request name text _ s = _ from h] at hrequest
    cases hrequest
    exact hbound

/-- The tables along requests that are served evolve. -/
theorem serve_evolves {resolver : Resolver σ} (requests : List (String × String)) {s : Session σ}
    (hs : s.table.WellFormed) :
    s.table.Evolves (fun _ => True) (serve resolver requests s).table := by
  refine (serve_keeps (P := fun u => s.table.Evolves (fun _ => True) u.table)
    (fun name text u hu => ?_) requests (.refl _))
  have hresolve : resolve resolver name text u = (_, (resolve resolver name text u).2) := rfl
  exact hu.trans (resolve_leads resolver (hu.wellFormed hs) hresolve).evolves

end Session

/-! ## Commands -/

namespace Contexts

/-- The tables of all contexts are maps from names to slots. -/
def WellFormed (c : Contexts σ) : Prop := ∀ i t, c.table? i = some t → t.WellFormed

/-- A name is bound in some context to a binding. -/
def Binds (c : Contexts σ) (b : Binding σ) : Prop :=
  ∃ i t name, c.table? i = some t ∧ t.get? name = some b

/-- The session in a context. -/
def session (c : Contexts σ) (t : Table σ) : Session σ := ⟨t, c.world, c.fresh, c.log⟩

/-- The contexts after a session in the context `i`. -/
def leave (c : Contexts σ) (i : Nat) (s : Session σ) : Contexts σ :=
  { c with
    tables := c.tables.set i (some s.table)
    world := s.world
    fresh := s.fresh
    log := s.log }

theorem within_eq {α : Type} {c : Contexts σ} {i : Nat} {t : Table σ} (ht : c.table? i = some t)
    (act : Act σ α) :
    c.within i act = ((act (c.session t)).1, c.leave i (act (c.session t)).2) := by
  simp only [within, ht]
  rfl

theorem within_eq_of_none {α : Type} {c : Contexts σ} {i : Nat} (ht : c.table? i = none)
    (act : Act σ α) : c.within i act = (.stuck, c) := by
  simp only [within, ht]

theorem lt_of_table? {c : Contexts σ} {i : Nat} {t : Table σ} (ht : c.table? i = some t) :
    i < c.tables.length := by
  rw [table?, Option.join_eq_some_iff] at ht
  exact (List.getElem?_eq_some_iff.mp ht).1

theorem table?_leave {c : Contexts σ} {i : Nat} {t : Table σ} (ht : c.table? i = some t)
    (s : Session σ) (j : Nat) :
    (c.leave i s).table? j = if i = j then some s.table else c.table? j := by
  simp only [table?, leave, List.getElem?_set, if_pos (lt_of_table? ht)]
  split <;> rfl

theorem table?_drop (c : Contexts σ) (i j : Nat) :
    (c.drop i).table? j = if i = j then none else c.table? j := by
  simp only [table?, drop, List.getElem?_set]
  split
  · split <;> rfl
  · rfl

theorem table?_add (c : Contexts σ) (i : Nat) :
    c.add.2.table? i = if i = c.tables.length then some .empty else c.table? i := by
  simp only [table?, add, List.getElem?_append]
  by_cases hlt : i < c.tables.length
  · simp [hlt, Nat.ne_of_lt hlt]
  · rw [if_neg hlt, List.getElem?_eq_none (Nat.le_of_not_lt hlt)]
    by_cases heq : i = c.tables.length
    · simp [heq]
    · rw [if_neg heq, List.getElem?_eq_none (by rw [List.length_singleton]; omega)]

end Contexts

namespace Client

/-- The requests of a command that miss, with a text that is a signature. -/
def missed (c : Client σ) (command : Command σ) : List String :=
  match command.asks with
  | some (i, requests) =>
    match c.contexts.table? i with
    | some t => Session.missed c.contexts.resolver requests (c.contexts.session t)
    | none => []
  | none => []

/-- The requests of a history that miss, in order. -/
def misses : Client σ → List (Command σ) → List String := along missed

/-- What a command does. -/
inductive Did (c : Client σ) : Command σ → Client σ → Prop where
  | added : Did c .add { c with contexts := c.contexts.add.2 }
  | dropped (i : Nat) : Did c (.drop i) { c with contexts := c.contexts.drop i }
  | changed (f : σ → σ) :
    Did c (.change f) { c with contexts := { c.contexts with world := f c.contexts.world } }
  | called {command : Command σ} {invocation : Invocation σ} {events : List Event}
    (asks : command.asks = none) (call : c.call? command = some invocation) :
    Did c command (c.called
      (invocation.binding.callable invocation.args c.contexts.world).2.2 events)
  /-- It comes to nothing, or something is handed out without a request. -/
  | handed {command : Command σ} {d : Client σ} (asks : command.asks = none)
    (call : c.call? command = none) (contexts : d.contexts = c.contexts)
    (hands : ∀ b, d.Hands b → c.Hands b ∨ c.contexts.Binds b) : Did c command d
  /-- The context is gone. -/
  | absent {command : Command σ} {i : Nat} {requests : List (String × String)}
    (asks : command.asks = some (i, requests)) (table : c.contexts.table? i = none) :
    Did c command c
  | served {command : Command σ} {i : Nat} {requests : List (String × String)} {t : Table σ}
    {events : List Event} {d : Client σ} (asks : command.asks = some (i, requests))
    (table : c.contexts.table? i = some t)
    (contexts : d.contexts = c.contexts.leave i
      ((Session.serve c.contexts.resolver requests (c.contexts.session t)).tell events))
    (hands : ∀ b, d.Hands b → c.Hands b ∨ ∃ name,
      (Session.serve c.contexts.resolver requests (c.contexts.session t)).table.get? name =
        some b) :
    Did c command d

section

variable {c : Client σ}

theorem hands_hand {b other : Binding σ} (h : (c.hand b).2.Hands other) :
    c.Hands other ∨ other = b := by
  unfold hand at h
  split at h
  · exact .inl h
  · rcases h with h | h
    · rcases List.mem_append.mp h with hold | hnew
      · exact .inl (.inl hold)
      · exact .inr (List.mem_singleton.mp hnew)
    · exact .inl (.inr h)

theorem contexts_hand (b : Binding σ) : (c.hand b).2.contexts = c.contexts := by
  unfold hand
  split <;> rfl

theorem hands_keep {o : Operation} {made : Except ResolveError (Invoker σ o.arity)}
    {other : Binding σ} (h : (c.keep o made).2.Hands other) :
    c.Hands other ∨ ∃ invoker, made = .ok invoker ∧ invoker.binding = other := by
  unfold keep at h
  split at h
  · next invoker =>
    rcases h with h | ⟨m, hm, heq⟩
    · exact .inl (.inl h)
    · rcases List.mem_append.mp hm with hold | hnew
      · exact .inl (.inr ⟨m, hold, heq⟩)
      · cases List.mem_singleton.mp hnew
        exact .inr ⟨invoker, rfl, heq⟩
  · exact .inl h

theorem contexts_keep {o : Operation} (made : Except ResolveError (Invoker σ o.arity)) :
    (c.keep o made).2.contexts = c.contexts := by
  unfold keep
  split <;> rfl

/-- A command that has nothing to say leaves everything as it was. -/
theorem did_idle {command : Command σ} (asks : command.asks = none)
    (call : c.call? command = none) : Did c command c :=
  .handed asks call rfl fun _ => .inl

theorem did_hand {command : Command σ} (asks : command.asks = none)
    (call : c.call? command = none) {b : Binding σ} (hb : c.contexts.Binds b) :
    Did c command (c.hand b).2 := by
  refine .handed asks call (contexts_hand b) fun other hother => ?_
  rcases hands_hand hother with hold | rfl
  · exact .inl hold
  · exact .inr hb

/-- An operation over a binding that the client has. -/
theorem did_keep {command : Command σ} (asks : command.asks = none)
    (call : c.call? command = none) {o : Operation}
    {made : Except ResolveError (Invoker σ o.arity)}
    (hmade : ∀ invoker, made = .ok invoker → c.Hands invoker.binding) :
    Did c command (c.keep o made).2 := by
  refine .handed asks call (contexts_keep made) fun other hother => ?_
  rcases hands_keep hother with hold | ⟨invoker, hok, rfl⟩
  · exact .inl hold
  · exact .inl (hmade invoker hok)

/-- A command that makes requests, from what it hands out if its act returns. -/
theorem did_served {α : Type} {command : Command σ} {i : Nat} {requests : List (String × String)}
    {t : Table σ} {act : Act σ α} {next : α → Client σ → Response σ × Client σ}
    (events : List Event) (asks : command.asks = some (i, requests))
    (table : c.contexts.table? i = some t)
    (served : (act (c.contexts.session t)).2 =
      (Session.serve c.contexts.resolver requests (c.contexts.session t)).tell events)
    (hcontexts : ∀ a (d : Client σ), (next a d).2.contexts = d.contexts)
    (hhands : ∀ a (d : Client σ) b, (act (c.contexts.session t)).1 = .returned a →
      (next a d).2.Hands b → d.Hands b ∨ ∃ name,
        (Session.serve c.contexts.resolver requests (c.contexts.session t)).table.get? name =
          some b) :
    Did c command (c.after (c.contexts.within i act) next).2 := by
  rw [Contexts.within_eq table, served]
  cases houtcome : (act (c.contexts.session t)).1 with
  | returned a => exact .served asks table (hcontexts a _) (hhands a _ · houtcome)
  | panicked cause => exact .served asks table rfl fun _ => .inl
  | stuck => exact .served asks table rfl fun _ => .inl

theorem did_absent {α : Type} {command : Command σ} {i : Nat} {requests : List (String × String)}
    {act : Act σ α} {next : α → Client σ → Response σ × Client σ}
    (asks : command.asks = some (i, requests)) (table : c.contexts.table? i = none) :
    Did c command (c.after (c.contexts.within i act) next).2 := by
  rw [Contexts.within_eq_of_none table]
  exact .absent asks table

end

/-- **Every command does one of these things.** -/
theorem did_of_obey {c : Client σ} (hc : c.contexts.WellFormed) (command : Command σ) :
    Did c command (c.obey command).2 := by
  have hanswer : ∀ {i : Nat} {t : Table σ} {name text : String} {u : Session σ} {b : Binding σ},
      c.contexts.table? i = some t →
      Session.resolve c.contexts.resolver name text (c.contexts.session t) =
        (.returned (.ok b), u) →
      (Session.serve c.contexts.resolver [(name, text)] (c.contexts.session t)).table.get? name =
        some b := by
    intro i t name text u b ht hresolve
    rw [Session.serve, hresolve]
    exact Session.get?_of_resolve (hc i t ht) hresolve
  cases hcall : c.call? command with
  | some invocation =>
    have hasks : command.asks = none := by
      cases command with
      | run | invoke | call => rfl
      | _ => cases hcall
    rw [obey_of_call hcall rfl]
    exact .called hasks hcall
  | none =>
    cases command with
    | add => exact .added
    | drop i => exact .dropped i
    | change f => exact .changed f
    | resolve i name text =>
      have hasks : (Command.resolve i name text : Command σ).asks = some (i, [(name, text)]) := rfl
      cases ht : c.contexts.table? i with
      | none => exact did_absent hasks ht
      | some t =>
        refine did_served [] hasks ht ?_ (fun answer d => ?_)
          fun answer d b houtcome hb => ?_
        · rw [Session.serve_singleton]
          simp [Session.tell]
        · cases answer with
          | ok b => exact contexts_hand b
          | error error => rfl
        · cases answer with
          | ok b =>
            rcases hands_hand hb with hold | rfl
            · exact .inl hold
            · exact .inr ⟨name, hanswer ht (Prod.ext houtcome rfl)⟩
          | error error => exact .inl hb
    | find i name =>
      rw [obey]
      split
      · next b hb =>
        obtain ⟨t, ht, hget⟩ := Option.bind_eq_some_iff.mp hb
        exact did_hand rfl hcall ⟨i, t, name, ht, hget⟩
      · exact did_idle rfl hcall
    | construct i o =>
      have hasks : (Command.construct i o : Command σ).asks = some (i, [o.asked]) := rfl
      cases ht : c.contexts.table? i with
      | none => exact did_absent hasks ht
      | some t =>
        refine did_served [] hasks ht ?_ (fun made d => contexts_keep made)
          fun made d b houtcome hb => ?_
        · rw [Session.construct_eq]
          simp [Session.tell]
        · rcases hands_keep hb with hold | ⟨invoker, rfl, rfl⟩
          · exact .inl hold
          · have hresolve := Session.resolve_of_construct (Prod.ext houtcome rfl)
            exact .inr ⟨o.symbol, hanswer ht hresolve⟩
    | probe i =>
      have hasks : (Command.probe i : Command σ).asks =
          some (i, Operation.inTurn.map Operation.asked) := rfl
      cases ht : c.contexts.table? i with
      | none => exact did_absent hasks ht
      | some t =>
        obtain ⟨events, heq⟩ := Session.probe_eq c.contexts.resolver (c.contexts.session t)
        exact did_served events hasks ht heq (fun _ _ => rfl) fun _ _ _ _ hb => .inl hb
    | make o i =>
      rw [obey]
      split
      · next b hb =>
        refine did_keep rfl hcall fun invoker hinvoker => ?_
        rw [Invoker.make_eq_ok_iff.mp hinvoker]
        exact .inl (List.mem_of_getElem? hb)
      · exact did_idle rfl hcall
    | copy i =>
      rw [obey]
      split
      · next m hm =>
        refine did_keep rfl hcall fun invoker hinvoker => ?_
        cases hinvoker
        exact .inr ⟨m, List.mem_of_getElem? hm, rfl⟩
      · exact did_idle rfl hcall
    | run | call | invoke =>
      rw [obey_of_no_call rfl hcall]
      exact did_idle rfl hcall

/-- The table of the context `j` after a command.  Only the context that a command is about gets
another one. -/
def tableAfter (c : Client σ) (j : Nat) : Command σ → Option (Table σ)
  | .add => if j = c.contexts.tables.length then some .empty else c.contexts.table? j
  | .drop i => if i = j then none else c.contexts.table? j
  | command =>
    match command.asks with
    | some (i, requests) =>
      (c.contexts.table? j).map fun t =>
        if i = j then (Session.serve c.contexts.resolver requests (c.contexts.session t)).table
        else t
    | none => c.contexts.table? j

theorem tableAfter_of_asks {c : Client σ} {command : Command σ} {i : Nat}
    {requests : List (String × String)} (asks : command.asks = some (i, requests)) (j : Nat) :
    c.tableAfter j command = (c.contexts.table? j).map fun t =>
      if i = j then (Session.serve c.contexts.resolver requests (c.contexts.session t)).table
      else t := by
  cases command <;> cases asks <;> rfl

theorem tableAfter_of_ne {c : Client σ} {command : Command σ} {j : Nat} {t : Table σ}
    (ht : c.contexts.table? j = some t) (elsewhere : command.context? ≠ some j) :
    c.tableAfter j command = some t := by
  have hne : ∀ {i}, command.context? = some i → i ≠ j := fun hi hij => elsewhere (hij ▸ hi)
  cases command with
  | add => rw [tableAfter, if_neg (Nat.ne_of_lt (Contexts.lt_of_table? ht)), ht]
  | drop i => rw [tableAfter, if_neg (hne rfl), ht]
  | resolve i name text => rw [tableAfter_of_asks rfl, ht, Option.map_some, if_neg (hne rfl)]
  | construct i o => rw [tableAfter_of_asks rfl, ht, Option.map_some, if_neg (hne rfl)]
  | probe i => rw [tableAfter_of_asks rfl, ht, Option.map_some, if_neg (hne rfl)]
  | _ => exact ht

/-- **What a command makes of the table of a context**: nothing, unless it is about that context. -/
theorem table?_obey {c : Client σ} (hc : c.contexts.WellFormed) (command : Command σ) (j : Nat) :
    (c.obey command).2.contexts.table? j = c.tableAfter j command := by
  have hdid := did_of_obey hc command
  cases hasks : command.asks with
  | some asked =>
    obtain ⟨i, requests⟩ := asked
    rw [tableAfter_of_asks hasks]
    generalize (c.obey command).2 = d at hdid ⊢
    cases hdid with
    | absent asks table =>
      rw [hasks] at asks
      cases asks
      by_cases hij : i = j
      · rw [← hij, table, Option.map_none]
      · simp [hij]
    | served asks table contexts hands =>
      rw [hasks] at asks
      cases asks
      rw [contexts, Contexts.table?_leave table]
      by_cases hij : i = j
      · rw [if_pos hij, ← hij, table, Option.map_some, if_pos rfl]
        rfl
      · simp [hij]
    | called asks call | handed asks call =>
      rw [hasks] at asks
      cases asks
    | _ => cases hasks
  | none =>
    -- the commands that have to do with tables say what they do themselves
    cases command with
    | add => exact Contexts.table?_add _ _
    | drop i => exact Contexts.table?_drop _ _ _
    | change f => rfl
    | resolve | construct | probe => cases hasks
    | _ =>
      generalize (Client.obey _ _).2 = d at hdid ⊢
      cases hdid with
      | called asks call => rfl
      | handed asks call contexts hands => exact congrArg (·.table? j) contexts
      | absent asks table | served asks table contexts hands => cases asks

/-- Only an added context adds to the number of contexts; one that is dropped leaves its place. -/
theorem length_obey {c : Client σ} (hc : c.contexts.WellFormed) {command : Command σ}
    (hne : command ≠ .add) :
    (c.obey command).2.contexts.tables.length = c.contexts.tables.length := by
  have hdid := did_of_obey hc command
  generalize (c.obey command).2 = d at hdid ⊢
  cases hdid with
  | added => exact absurd rfl hne
  | dropped i => exact List.length_set
  | handed asks call contexts hands => rw [contexts]
  | served asks table contexts hands =>
    rw [contexts]
    exact List.length_set
  | _ => rfl

/-! ## Answers -/

section

variable {c : Client σ} {i : Nat} {t : Table σ} {name text : String}

theorem response_hand (c : Client σ) (b : Binding σ) : ∃ n, (c.hand b).1 = .binding n b := by
  unfold hand
  split <;> exact ⟨_, rfl⟩

/-- A client is told the binding that its request is answered. -/
theorem obey_resolve_ok {b : Binding σ} (ht : c.contexts.table? i = some t)
    (h : (Session.resolve c.contexts.resolver name text (c.contexts.session t)).1 =
      .returned (.ok b)) : ∃ n, (c.obey (.resolve i name text)).1 = .binding n b := by
  rw [obey, Contexts.resolve, Contexts.within_eq ht, h]
  exact response_hand _ b

/-- An operation is made over the binding that its request is answered, if the arity fits. -/
theorem obey_construct_ok {o : Operation} {b : Binding σ} (ht : c.contexts.table? i = some t)
    (h : (Session.resolve c.contexts.resolver o.symbol o.signature.text (c.contexts.session t)).1 =
      .returned (.ok b)) (arity : b.arity = o.arity) :
    ∃ m : Made σ, ((c.obey (.construct i o)).1 = .operation c.operations.length ∧
      (c.obey (.construct i o)).2.operations[c.operations.length]? = some m) ∧
      m.invoker.binding = b := by
  have hmake : Invoker.make o.arity b = .ok ⟨b, arity⟩ := Invoker.make_eq_ok_iff.mpr rfl
  refine ⟨⟨o, b, arity⟩, ?_, rfl⟩
  rw [obey, Contexts.construct, Contexts.within_eq ht, Session.construct_eq, h]
  simp only [Outcome.map, Except.bind, hmake, after, keep, List.getElem?_concat_length, and_self]

/-- What comes of a constructor, from what comes of its request. -/
theorem construct_of_resolve (contexts : Contexts σ) (i : Nat) (o : Operation) :
    (contexts.construct i o).1 = (contexts.resolve i o.symbol o.signature.text).1.map fun answer =>
      answer.bind (Invoker.make o.arity) := by
  unfold Contexts.construct Contexts.resolve
  cases ht : contexts.table? i with
  | none =>
    rw [Contexts.within_eq_of_none ht, Contexts.within_eq_of_none ht]
    rfl
  | some t => rw [Contexts.within_eq ht, Contexts.within_eq ht, Session.construct_eq]

/-- A client is told the error that its request is answered. -/
theorem obey_resolve_error {error : ResolveError} (ht : c.contexts.table? i = some t)
    (h : (Session.resolve c.contexts.resolver name text (c.contexts.session t)).1 =
      .returned (.error error)) : (c.obey (.resolve i name text)).1 = .refused error := by
  rw [obey, Contexts.resolve, Contexts.within_eq ht, h]
  rfl

/-- A name that is bound is answered by its binding, under any text. -/
theorem obey_resolve_of_get? {b : Binding σ} (ht : c.contexts.table? i = some t)
    (hb : t.get? name = some b) (text : String) :
    ∃ n, (c.obey (.resolve i name text)).1 = .binding n b := by
  have hfound : Session.resolve c.contexts.resolver name text (c.contexts.session t) = _ :=
    Session.request_of_get? (s := c.contexts.session t) hb text _
  exact obey_resolve_ok ht (by rw [hfound])

end

end Client

end NativeLink
