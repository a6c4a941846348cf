import NativeLink.Proofs.Session.Direct
import NativeLink.Scripted.Recording

/-!
# The recording resolver is a faithful witness

Whatever a client does over a recording resolver, the recorder's lists say what happened: the
calls are those that have reached a callable, each once and in order, and the resolutions are the
requests that have missed.  `Client.calls` and `Client.misses` read both off the commands, without
a look at what the callables and the resolver do, and `Recorder.faithful` compares.

A command adds to one list at most.  A call adds an entry before the script of its name is
consulted, so it makes no difference to the list what the script says, or what the operation makes
of that.  A request that misses is counted whether it ends in a binding or not, because the
resolver counts before it looks at the list of missing names.

That list and the set of names with a script never change.  So a missing name stays unbound, and a
name without a script has zeros for answers as long as the binding lasts.
-/

namespace NativeLink

namespace Recorder

/-- What the recording resolver decides. -/
def verdict (name : String) (signature : Signature) (r : Recorder) : Verdict Recorder where
  result :=
    if name ∈ r.missing then .error (.symbolNotFound name)
    else .ok (callable name signature.result)
  events := []
  world := { r with asked := r.asked + 1, resolutions := r.resolutions ++ [name] }

theorem resolver_decides : resolver.Decides verdict := by
  intro name signature s
  by_cases hmissing : name ∈ s.world.missing
  all_goals simp [resolver, Plan.run, verdict, hmissing]

theorem result_of_missing {name : String} {r : Recorder} (h : name ∈ r.missing)
    (signature : Signature) : (verdict name signature r).result = .error (.symbolNotFound name) :=
  if_pos h

/-! ## One request -/

/-- The recorder after it was asked for some names. -/
def noted (r : Recorder) (names : List String) : Recorder :=
  { r with asked := r.asked + names.length, resolutions := r.resolutions ++ names }

@[simp] theorem noted_nil (r : Recorder) : r.noted [] = r := by simp [noted]

theorem noted_append (r : Recorder) (first second : List String) :
    r.noted (first ++ second) = (r.noted first).noted second := by
  simp [noted, Nat.add_assoc]

section

variable {s u : Session Recorder} {name text : String} {outcome : Outcome (Answer Recorder)}

/-- **A request is noted exactly if it misses** with a text that is a signature. -/
theorem world_of_resolve (hs : s.table.Attended [])
    (h : Session.resolve resolver name text s = (outcome, u)) :
    u.world = s.world.noted
      (if s.table.contains name = false ∧ (Signature.parse text).isOk then [name] else []) := by
  cases Session.decided_of_resolve resolver_decides hs h with
  | found bound =>
    rw [if_neg (by simp [Table.contains, bound]), noted_nil]
    rfl
  | misread unbound parsed becomes =>
    rw [if_neg (by simp [parsed, Except.isOk, Except.toBool]), noted_nil, becomes.world]
  | refused unbound parsed decided becomes =>
    rw [if_pos (by simp [Table.contains, unbound, parsed, Except.isOk, Except.toBool]),
      becomes.world]
    rfl
  | accepted unbound parsed decided becomes =>
    rw [if_pos (by simp [Table.contains, unbound, parsed, Except.isOk, Except.toBool]),
      becomes.world]
    rfl

/-- **What is noted when requests are served** are those that miss. -/
theorem world_of_serve (requests : List (String × String)) (hs : s.table.Attended []) :
    (Session.serve resolver requests s).world =
      s.world.noted (Session.missed resolver requests s) := by
  induction requests generalizing s with
  | nil => rw [Session.missed, noted_nil, Session.serve]
  | cons request rest ih =>
    obtain ⟨name, text⟩ := request
    rcases hresolve : Session.resolve resolver name text s with ⟨outcome, u⟩
    have hdecided := Session.decided_of_resolve resolver_decides hs hresolve
    obtain ⟨answer, rfl⟩ := hdecided.returned
    rw [Session.serve, Session.missed, hresolve, noted_append, ← world_of_resolve hs hresolve]
    exact ih (hdecided.attended hs)

end

/-! ## One call -/

theorem lookup_setResponder {name other : String} {script : Script}
    (responders : List (String × Script)) :
    (setResponder name script responders).lookup other = none ↔ responders.lookup other = none := by
  induction responders with
  | nil => rfl
  | cons entry responders ih =>
    obtain ⟨key, old⟩ := entry
    rw [setResponder]
    split
    · next hkey =>
      rw [← show key = name from hkey, List.lookup_cons, List.lookup_cons]
      split
      · simp
      · rfl
    · rw [List.lookup_cons, List.lookup_cons]
      split
      · simp
      · exact ih

/-- **A call adds its entry**, whatever comes of it, and changes no more than a script. -/
theorem world_of_callable (name : String) (result : Kind) (args : List Value) (r : Recorder) :
    ∃ responders, (callable name result args r).2.2 =
        { r with calls := r.calls ++ [(name, args)], responders := responders } ∧
      ∀ other, responders.lookup other = none ↔ r.responders.lookup other = none := by
  unfold callable
  cases hlookup : r.responders.lookup name with
  | none => exact ⟨r.responders, by simp only [hlookup], fun _ => Iff.rfl⟩
  | some script =>
    refine ⟨setResponder name (script.call args).2 r.responders, by simp only [hlookup], ?_⟩
    exact fun _ => lookup_setResponder _

/-- Without a script the answer is zero. -/
theorem callable_of_none {name : String} {r : Recorder} (h : r.responders.lookup name = none)
    (result : Kind) (args : List Value) :
    (callable name result args r).1 = .returned (.ok (.zero result)) := by
  simp only [callable, h]

/-! ## What is known of a binding -/

/-- The binding belongs to a name that can be resolved, and records its calls under that name; it
was made for one of the requests, with the signature that this request came with. -/
def Makes (r : Recorder) (requests : List (String × String)) (b : Binding Recorder) : Prop :=
  (b.name ∉ r.missing ∧ b.callable = callable b.name b.signature.result) ∧
    ∃ text, (b.name, text) ∈ requests ∧ Signature.parse text = .ok b.signature

theorem endows_makes : Client.Endows Makes resolver := by
  refine Client.endows_of_decides resolver_decides
    (Q := fun r b => b.name ∉ r.missing ∧ b.callable = callable b.name b.signature.result)
    (fun id name signature r called h => ?_) fun _ _ _ _ => id
  rw [verdict] at h
  split at h
  · cases h
  · next hname =>
    cases h
    exact ⟨hname, rfl⟩

/-! ## Histories -/

/-- A client over a new recorder. -/
def client (missing : List String) (responders : List (String × Script)) : Client Recorder :=
  .start resolver { missing, responders }

/-- What a history adds to a recorder. -/
structure Recorded (c : Client Recorder) (history : List (Command Recorder)) (r w : Recorder) :
    Prop where
  calls : w.calls = r.calls ++ (c.calls history).map fun call => (call.binding.name, call.args)
  resolutions : w.resolutions = r.resolutions ++ c.misses history
  asked : w.asked = r.asked + (c.misses history).length
  missing : w.missing = r.missing
  scripts : ∀ name, w.responders.lookup name = none ↔ r.responders.lookup name = none

section

variable (missing : List String) (responders : List (String × Script))
  (history : List (Command Recorder))

theorem resolver_client :
    ((client missing responders).obeyAll history).contexts.resolver = resolver :=
  Client.resolver_obeyAll (Client.wellFormed_start resolver _) history

theorem attended_client :
    ((client missing responders).obeyAll history).Attended :=
  Client.attended_obeyAll resolver_decides _ history

/-- What a client has in its hands was made by the recording resolver. -/
theorem callable_of_hands {b : Binding Recorder}
    (hb : ((client missing responders).obeyAll history).Hands b) :
    b.callable = callable b.name b.signature.result := by
  obtain ⟨i, before, command, after, requests, -, -, -, -, ⟨-, hcallable⟩, -⟩ :=
    (Client.born_of_obeyAll endows_makes _ history).2 b hb
  exact hcallable

/-- What one command adds. -/
theorem recorded_obey {command : Command Recorder}
    (sound : ∀ f, command ≠ .change f) :
    Recorded ((client missing responders).obeyAll history) [command]
      ((client missing responders).obeyAll history).contexts.world
      (((client missing responders).obeyAll history).obey command).2.contexts.world := by
  have hattended := attended_client missing responders history
  have hresolver := resolver_client missing responders history
  have hcallable := fun b => @callable_of_hands missing responders history b
  generalize (client missing responders).obeyAll history = c at *
  have hidle : ∀ {r : Recorder}, c.call? command = none → c.missed command = [] →
      Recorded c [command] r r := by
    intro r hcall hmissed
    constructor <;> simp [Client.calls, Client.misses, Client.along, hcall, hmissed]
  have hdid := Client.did_of_obey hattended.wellFormed command
  generalize (c.obey command).2 = d at hdid ⊢
  cases hdid with
  | added => exact hidle rfl rfl
  | dropped i => exact hidle rfl rfl
  | changed f => exact absurd rfl (sound f)
  | @called _ invocation events asks call =>
    obtain ⟨scripts, hworld, hscripts⟩ := world_of_callable invocation.binding.name
      invocation.binding.signature.result invocation.args c.contexts.world
    rw [← hcallable _ (Client.hands_of_call call)] at hworld
    simp only [Client.called, hworld]
    have hmissed : c.missed command = [] := by simp only [Client.missed, asks]
    constructor <;> simp [Client.calls, Client.misses, Client.along, call, hmissed, hscripts]
  | handed asks call contexts hands =>
    rw [contexts]
    exact hidle call (by simp only [Client.missed, asks])
  | absent asks table =>
    refine hidle ?_ (by simp only [Client.missed, asks, table])
    cases command <;> first | rfl | cases asks
  | @served _ i requests t events _ asks table contexts hands =>
    have hcall : c.call? command = none := by
      cases command <;> first | rfl | cases asks
    have hworld := world_of_serve requests (s := c.contexts.session t) (hattended i t table)
    have hmissed : c.missed command = Session.missed resolver requests (c.contexts.session t) := by
      simp only [Client.missed, asks, table, hresolver]
    rw [contexts, hresolver]
    simp only [Contexts.leave, Session.tell, hworld, ← hmissed]
    constructor <;>
      simp [Client.calls, Client.misses, Client.along, hcall, noted, Contexts.session]

/-- **A history adds its calls and its misses.** -/
theorem recorded_obeyAll (sound : ∀ f, Command.change f ∉ history) :
    Recorded (client missing responders) history { missing, responders }
      ((client missing responders).obeyAll history).contexts.world := by
  induction history using List.reverseRecOn with
  | nil =>
    constructor <;> simp [Client.calls, Client.misses, Client.along, client, Client.start,
      Contexts.start]
  | append_singleton history command ih =>
    have hbefore := ih fun f hf => sound f (List.mem_append_left _ hf)
    have hcommand : ∀ f, command ≠ .change f := fun f hf => sound f (by simp [hf])
    have hone := recorded_obey missing responders history hcommand
    rw [Client.obeyAll_snoc]
    refine ⟨?_, ?_, ?_, hone.missing.trans hbefore.missing, fun name => ?_⟩
    · rw [hone.calls, hbefore.calls, Client.calls, Client.along_append]
      simp
    · rw [hone.resolutions, hbefore.resolutions, Client.misses, Client.along_append]
      simp
    · rw [hone.asked, hbefore.asked, Client.misses, Client.along_append]
      simp
    · exact (hone.scripts name).trans (hbefore.scripts name)

end

/-! ## Names that cannot be resolved -/

/-- A missing name that is not bound is noted as often as it is asked for with a signature. -/
theorem count_missed {s : Session Recorder} {name : String} (hs : s.table.Attended [])
    (hname : name ∈ s.world.missing) (unbound : s.table.get? name = none)
    (requests : List (String × String)) :
    (Session.missed resolver requests s).countP (· = name) =
      requests.countP fun request => request.1 = name ∧ (Signature.parse request.2).isOk := by
  induction requests generalizing s with
  | nil => rfl
  | cons request rest ih =>
    obtain ⟨other, text⟩ := request
    rcases hresolve : Session.resolve resolver other text s with ⟨outcome, u⟩
    have hdecided := Session.decided_of_resolve resolver_decides hs hresolve
    have hworld := world_of_resolve hs hresolve
    have hmissing : u.world.missing = s.world.missing := by rw [hworld, noted]
    have hunbound : u.table.get? name = none := by
      cases hdecided with
      | found bound => exact unbound
      | misread _ _ becomes =>
        rw [becomes.get?, unbound]
        split <;> rfl
      | refused _ _ _ becomes =>
        rw [becomes.get?, unbound]
        split <;> rfl
      | accepted _ _ decided becomes =>
        rw [becomes.get?, unbound, if_neg]
        rintro rfl
        rw [result_of_missing hname] at decided
        cases decided
    obtain ⟨answer, rfl⟩ := hdecided.returned
    have hrest := ih (hdecided.attended hs) (hmissing ▸ hname) hunbound
    rw [Session.missed, hresolve, List.countP_append, hrest, List.countP_cons, Nat.add_comm]
    congr 1
    by_cases ho : other = name
    · subst ho
      by_cases hparse : (Signature.parse text).isOk
      all_goals simp [Table.contains, unbound, hparse]
    · split <;> simp [ho]

theorem resolve_of_missing {s : Session Recorder} {name text : String} (hs : s.table.Attended [])
    (hname : name ∈ s.world.missing) (hunbound : s.table.get? name = none)
    (parses : (Signature.parse text).isOk) :
    (Session.resolve resolver name text s).1 = .returned (.error (.symbolNotFound name)) := by
  rcases hresolve : Session.resolve resolver name text s with ⟨outcome, u⟩
  cases Session.decided_of_resolve resolver_decides hs hresolve with
  | found bound =>
    rw [hunbound] at bound
    cases bound
  | misread _ parsed _ =>
    rw [parsed] at parses
    cases parses
  | refused _ _ decided _ =>
    rw [result_of_missing hname] at decided
    cases decided
    rfl
  | accepted _ _ decided _ =>
    rw [result_of_missing hname] at decided
    cases decided

/-- What holds of a name that cannot be resolved, after whatever history. -/
structure Shut (c : Client Recorder) (name : String) : Prop where
  unbound : ∀ i t, c.contexts.table? i = some t → t.get? name = none
  unheld : ∀ b, c.Hands b → b.name ≠ name
  uncalled : ∀ args, (name, args) ∉ c.contexts.world.calls
  /-- Each request for it is counted again, if its text is a signature. -/
  counted : ∀ command i t requests, command.asks = some (i, requests) →
    c.contexts.table? i = some t → (c.missed command).countP (· = name) =
      requests.countP fun request => request.1 = name ∧ (Signature.parse request.2).isOk
  refused : ∀ i t text, c.contexts.table? i = some t → (Signature.parse text).isOk →
    (c.obey (.resolve i name text)).1 = .refused (.symbolNotFound name)

section

variable (missing : List String) (responders : List (String × Script))
  (history : List (Command Recorder))

/-- What the lists of a recorder say about a history, and what holds after it. -/
structure Faithful : Prop where
  /-- The calls are the invocations that reached a callable, with their arguments. -/
  calls : ((client missing responders).obeyAll history).contexts.world.calls =
    ((client missing responders).calls history).map fun call => (call.binding.name, call.args)
  /-- Each is one run of the callable. -/
  ran : ∀ command call, ((client missing responders).obeyAll history).call? command = some call →
    (((client missing responders).obeyAll history).obey command).2.contexts.world =
      (call.binding.callable call.args
        ((client missing responders).obeyAll history).contexts.world).2.2
  /-- The name of a call is the one its callable was resolved under. -/
  resolved : ∀ call ∈ (client missing responders).calls history,
    ∃ i, Client.Born Makes (client missing responders) history i call.binding
  callsTo : ∀ symbol,
    ((client missing responders).obeyAll history).contexts.world.callsTo symbol =
      ((((client missing responders).obeyAll history).contexts.world.calls.filter
        (·.1 = symbol)).map Prod.snd)
  resolutions : ((client missing responders).obeyAll history).contexts.world.resolutions =
    (client missing responders).misses history
  asked : ((client missing responders).obeyAll history).contexts.world.asked =
    ((client missing responders).obeyAll history).contexts.world.resolutions.length
  shut : ∀ name ∈ missing, Shut ((client missing responders).obeyAll history) name
  /-- Without a script, a call is answered by the zero of the kind the name was first bound with. -/
  zero : ∀ command call, ((client missing responders).obeyAll history).call? command = some call →
    responders.lookup call.binding.name = none →
      (((client missing responders).obeyAll history).obey command).1 =
        call.respond (.returned (.ok (.zero call.binding.signature.result)))
  /-- No other text changes that. -/
  again : ∀ i t name b,
    ((client missing responders).obeyAll history).contexts.table? i = some t →
      t.get? name = some b → ∀ text, ∃ n,
        (((client missing responders).obeyAll history).obey (.resolve i name text)).1 =
          .binding n b

end

section

variable {missing : List String} {responders : List (String × Script)}
  {history : List (Command Recorder)}

theorem callsTo_eq (r : Recorder) (symbol : String) :
    r.callsTo symbol = (r.calls.filter (·.1 = symbol)).map Prod.snd := by
  unfold callsTo
  induction r.calls with
  | nil => rfl
  | cons call calls ih =>
    by_cases hsymbol : call.1 = symbol
    all_goals simp [hsymbol, ih]

/-- What is born in a history was not missing at its beginning. -/
theorem name_of_born (sound : ∀ f, Command.change f ∉ history) {i : Nat} {b : Binding Recorder}
    (h : Client.Born Makes (client missing responders) history i b) : b.name ∉ missing := by
  obtain ⟨before, command, after, requests, rfl, -, -, -, ⟨hname, -⟩, -⟩ := h
  have hbefore := recorded_obeyAll missing responders before fun f hf =>
    sound f (List.mem_append_left _ hf)
  rwa [hbefore.missing] at hname

/-- What is called was born in the history. -/
theorem born_of_call {call : Invocation Recorder}
    (hcall : call ∈ (client missing responders).calls history) :
    ∃ i, Client.Born Makes (client missing responders) history i call.binding := by
  obtain ⟨before, command, after, rfl, hread⟩ := Client.mem_along hcall
  have hhands := Client.hands_of_call (Option.mem_toList.mp hread)
  obtain ⟨i, hborn⟩ := (Client.born_of_obeyAll endows_makes _ before).2 _ hhands
  exact ⟨i, hborn.append _⟩

theorem shut_of_missing (sound : ∀ f, Command.change f ∉ history) {name : String}
    (hname : name ∈ missing) : Shut ((client missing responders).obeyAll history) name := by
  have hrecorded := recorded_obeyAll missing responders history sound
  have hattended := attended_client missing responders history
  have hresolver := resolver_client missing responders history
  obtain ⟨hbound, hhands⟩ := Client.born_of_obeyAll endows_makes { missing, responders } history
  have hmissing : name ∈ ((client missing responders).obeyAll history).contexts.world.missing := by
    rw [hrecorded.missing]
    exact hname
  have hunbound : ∀ i t,
      ((client missing responders).obeyAll history).contexts.table? i = some t →
        t.get? name = none := by
    intro i t ht
    cases hget : t.get? name with
    | none => rfl
    | some b =>
      have hown := ((hattended i t ht).made name b hget).name_eq
      exact absurd (hown ▸ hname) (name_of_born sound (hbound i t name b ht hget))
  have hunheld : ∀ b, ((client missing responders).obeyAll history).Hands b → b.name ≠ name := by
    rintro b hb rfl
    obtain ⟨i, hborn⟩ := hhands b hb
    exact name_of_born sound hborn hname
  refine ⟨hunbound, hunheld, fun args hargs => ?_, ?_, ?_⟩
  · rw [hrecorded.calls, List.nil_append] at hargs
    obtain ⟨call, hcall, heq⟩ := List.mem_map.mp hargs
    cases heq
    obtain ⟨i, hborn⟩ := born_of_call hcall
    exact name_of_born sound hborn hname
  · intro command i t requests asks table
    simp only [Client.missed, asks, table, hresolver]
    exact count_missed (hattended i t table) hmissing (hunbound i t table) requests
  · intro i t text table parses
    refine Client.obey_resolve_error table ?_
    rw [hresolver]
    exact resolve_of_missing (hattended i t table) hmissing (hunbound i t table) parses

/-- **The recording resolver is a faithful witness** of everything a client does over it, as long
as nobody else changes the recorder. -/
theorem faithful (missing : List String) (responders : List (String × Script))
    {history : List (Command Recorder)} (sound : ∀ f, Command.change f ∉ history) :
    Faithful missing responders history := by
  have hrecorded := recorded_obeyAll missing responders history sound
  refine ⟨hrecorded.calls, fun command call => Client.world_of_call, fun call => born_of_call,
    fun symbol => callsTo_eq _ symbol, hrecorded.resolutions, ?_,
    fun name hname => shut_of_missing sound hname, fun command call h hnone => ?_,
    fun i t name b ht hb text => Client.obey_resolve_of_get? ht hb text⟩
  · rw [hrecorded.asked, hrecorded.resolutions]
    simp
  · rw [Client.response_of_call h, callable_of_hands _ _ _ (Client.hands_of_call h),
      callable_of_none ((hrecorded.scripts _).mpr hnone)]

/-! ## A recorded run -/

/-- A script that fails in two ways before it answers, and one that gives no pointer where the cast
expects one. -/
def rehearsedScripts : List (String × Script) :=
  [("@f", .inTurn [.refuse (.argumentCount 0 1), .panic "boom", .give (.uint64 7)]),
    ("@__dynamic_cast", .give (.uint64 3))]

/-- A client over a recorder that is missing one name. -/
def rehearsal : Client Recorder := client ["@gone"] rehearsedScripts

/-- Binds names in two contexts, and calls what it can. -/
def rehearsed : List (Command Recorder) :=
  [.resolve 0 "@f" "(UINT64):UINT64", .resolve 0 "@gone" "():VOID", .resolve 0 "@gone" "VOID",
    .resolve 0 "@f" "():VOID", .add, .construct 1 .dynamicCast, .construct 1 .nullPointer,
    .call 0 [.uint64 1], .invoke 0 1 [.uint64 2], .invoke 0 2 [.null, .null], .drop 1,
    .run 0 [1, 2, 3, 4], .run 1 [], .resolve 0 "@gone" "():POINTER"]

/-- The calls that fail are recorded like the one that does not; the call with a wrong number of
arguments is not made.  The missing name is counted when its text is a signature. -/
theorem faithful_rehearsed :
    (∀ f, Command.change f ∉ rehearsed) ∧ Faithful ["@gone"] rehearsedScripts rehearsed ∧
      (rehearsal.obeyAll rehearsed).contexts.world.calls =
        [("@f", [.uint64 1]), ("@f", [.uint64 2]),
          ("@__dynamic_cast", [.pointer ⟨1⟩, .pointer ⟨2⟩, .pointer ⟨3⟩, .uint64 4]),
          ("@getNullPointer", [])] ∧
      (rehearsal.obeyAll rehearsed).contexts.world.resolutions =
        ["@f", "@gone", "@__dynamic_cast", "@getNullPointer", "@gone"] := by
  have sound : ∀ f, Command.change f ∉ rehearsed := by
    intro f hf
    simp [rehearsed] at hf
  exact ⟨sound, faithful _ _ sound, by decide +kernel, by decide +kernel⟩

end

end Recorder

end NativeLink
