import NativeLink.Proofs.Client.Handed

/-!
# Calls that reach a callable

A client calls a binding as it is, through an invoker, or through an operation.  Whether the
call reaches the callable is settled before anything happens: the binding or the operation has
to be there, and an invoker takes no other number of arguments than the binding does.
`Client.call?` reads that off a command, together with the arguments that arrive and with what
the client is told of the outcome.

Such a command is one run of the callable and nothing else (`Client.obey_of_call`): the world
it leaves is the one the callable leaves, and the response depends on the callable through its
outcome only.  An operation can end with a defect after that, but it has made its call by then.

`Client.along` collects what is read off the commands of a history, one after the other.
`Client.calls` collects the calls.  It does not look into the callables, so that
what a callable has written down of itself can be compared with it.
-/

namespace NativeLink

variable {σ : Type}

theorem Outcome.map_map {α β γ : Type} (f : α → β) (g : β → γ) (outcome : Outcome α) :
    (outcome.map f).map g = outcome.map fun a => g (f a) := by
  cases outcome <;> rfl

/-- What a callable answers. -/
abbrev Reply : Type := Outcome (Except TransportError Value)

namespace Invoker

/-- What an invoker makes of the reply of its callable. -/
def valueOf (symbol : String) : Reply → Outcome Value
  | .returned (.ok value) => .returned value
  | .returned (.error refusal) => .panicked (.defect (.transport symbol refusal))
  | .panicked cause => .panicked cause
  | .stuck => .stuck

/-- What a cast makes of the reply of its callable. -/
def addressOf (symbol : String) (reply : Reply) : Outcome Address :=
  match valueOf symbol reply with
  | .returned value =>
    match value.asPointer with
    | .ok address => .returned address
    | .error found => .panicked (.defect (.resultShape symbol found))
  | .panicked cause => .panicked cause
  | .stuck => .stuck

/-- What an invoker tells of a call with these arguments, from what its callable has told. -/
def told (symbol : String) (args : List Value) (events : List Event) : Reply → List Event
  | .returned (.error refusal) =>
    .nativeCall symbol args :: (events ++ [.defect (.transport symbol refusal)])
  | _ => .nativeCall symbol args :: events

/-- What a cast tells: it may find a defect in the result. -/
def castTold (symbol : String) (args : List Value) (events : List Event) (reply : Reply) :
    List Event :=
  match valueOf symbol reply with
  | .returned value =>
    match value.asPointer with
    | .ok _ => told symbol args events reply
    | .error found => told symbol args events reply ++ [.defect (.resultShape symbol found)]
  | _ => told symbol args events reply

section

variable {world left : σ} {reply : Reply} {events : List Event}

/-- An invoker runs its callable once. -/
theorem invoke_eq {n : Nat} {invoker : Invoker σ n} (args : Vector Value n)
    (h : invoker.binding.callable args.toList world = (reply, events, left)) :
    invoker.invoke args world =
      (valueOf invoker.symbol reply, told invoker.symbol args.toList events reply, left) := by
  rcases reply with (refusal | value) | cause | _
  all_goals simp only [invoke, h, raise, valueOf, told]

/-- A cast looks at the result after the call, so a defect of its shape takes nothing back. -/
theorem cast_eq (invoker : Invoker σ 4) {object source target : Address} {hint : UInt64}
    (h : invoker.binding.callable
      [.pointer object, .pointer source, .pointer target, .uint64 hint] world =
        (reply, events, left)) :
    invoker.cast object source target hint world =
      (addressOf invoker.symbol reply,
        castTold invoker.symbol
          [.pointer object, .pointer source, .pointer target, .uint64 hint] events reply,
        left) := by
  have hinvoke : invoker.invoke #v[.pointer object, .pointer source, .pointer target, .uint64 hint]
      world = (valueOf invoker.symbol reply, told invoker.symbol
        [.pointer object, .pointer source, .pointer target, .uint64 hint] events reply, left) :=
    invoke_eq #v[.pointer object, .pointer source, .pointer target, .uint64 hint] h
  simp only [cast, hinvoke, addressOf, castTold]
  cases valueOf invoker.symbol reply with
  | returned value => cases hvalue : value.asPointer <;> simp only [hvalue, raise]
  | panicked cause => rfl
  | stuck => rfl

end

end Invoker

namespace Operation

/-- The arguments of an operation that is called with numbers; a number that is missing is zero. -/
def arguments (numbers : List UInt64) : Operation → List Value
  | nullPointer => []
  | dynamicCast =>
    [.pointer ⟨numbers.getD 0 0⟩, .pointer ⟨numbers.getD 1 0⟩, .pointer ⟨numbers.getD 2 0⟩,
      .uint64 (numbers.getD 3 0)]
  | freeException => [.pointer ⟨numbers.getD 0 0⟩]

/-- What an operation makes of the reply of its routine. -/
def result (symbol : String) (reply : Reply) : Operation → Outcome Result
  | nullPointer => (Invoker.valueOf symbol reply).map .value
  | dynamicCast => (Invoker.addressOf symbol reply).map .address
  | freeException => (Invoker.valueOf symbol reply).map fun _ => .done

/-- What an operation tells, from what its routine has told. -/
def told (symbol : String) (args : List Value) (events : List Event) (reply : Reply) :
    Operation → List Event
  | dynamicCast => Invoker.castTold symbol args events reply
  | _ => Invoker.told symbol args events reply

end Operation

/-- **An operation runs its callable once**, whatever becomes of the result. -/
theorem Made.run_eq {m : Made σ} {numbers : List UInt64} {world left : σ} {reply : Reply}
    {events : List Event}
    (h : m.invoker.binding.callable (m.operation.arguments numbers) world =
      (reply, events, left)) :
    m.run numbers world = (m.operation.result m.invoker.symbol reply,
      m.operation.told m.invoker.symbol (m.operation.arguments numbers) events reply, left) := by
  obtain ⟨o, invoker⟩ := m
  cases o with
  | nullPointer =>
    have hinvoke := Invoker.invoke_eq (n := 0) #v[] h
    simp only [Made.run, Invoker.nullPointer, hinvoke]
    rfl
  | dynamicCast =>
    have hcast := Invoker.cast_eq invoker h
    simp only [Made.run, hcast]
    rfl
  | freeException =>
    have hinvoke := Invoker.invoke_eq (n := 1) #v[.pointer ⟨numbers.getD 0 0⟩] h
    simp only [Made.run, Invoker.free, hinvoke]
    exact Prod.ext (Outcome.map_map ..) rfl

/-- A call that reaches a callable. -/
structure Invocation (σ : Type) where
  binding : Binding σ
  args : List Value
  /-- What the client is told, after the reply of the callable. -/
  respond : Reply → Response σ
  /-- What is added to the log, from what the callable has told. -/
  tell : List Event → Reply → List Event

/-- The response to an activity that may not return. -/
def Outcome.response {α : Type} (respond : α → Response σ) : Outcome α → Response σ
  | .returned a => respond a
  | .panicked cause => .panicked cause
  | .stuck => .nothing

/-- Whether a command is a call. -/
def Command.calls : Command σ → Bool
  | .run _ _ => true
  | .invoke _ _ _ => true
  | .call _ _ => true
  | _ => false

namespace Client

/-- The call that a command comes to, if it reaches a callable. -/
def call? (c : Client σ) : Command σ → Option (Invocation σ)
  | .run operation numbers =>
    (c.operations[operation]?).map fun m =>
      ⟨m.invoker.binding, m.operation.arguments numbers,
        fun reply => (m.operation.result m.invoker.symbol reply).response .result,
        fun events reply =>
          m.operation.told m.invoker.symbol (m.operation.arguments numbers) events reply⟩
  | .invoke binding n args =>
    (c.bindings[binding]?).bind fun b =>
      if b.arity = n ∧ args.length = n then
        some ⟨b, args,
          fun reply =>
            (Invoker.valueOf b.name reply).response fun value => .invoked b.name value b.name,
          Invoker.told b.name args⟩
      else none
  | .call binding args =>
    (c.bindings[binding]?).map fun b =>
      ⟨b, args, fun reply => reply.response .reply, fun events _ => events⟩
  | _ => none

/-- What the client is told of a call that does not reach a callable. -/
def refusal (c : Client σ) : Command σ → Response σ
  | .invoke binding n _ =>
    match (c.bindings[binding]?).map (Invoker.make n) with
    | some (.error error) => .refused error
    | _ => .nothing
  | _ => .nothing

/-- What is read off each command of a history, in order. -/
def along {α : Type} (read : Client σ → Command σ → List α) (c : Client σ) :
    List (Command σ) → List α
  | [] => []
  | command :: commands => read c command ++ along read (c.obey command).2 commands

/-- The calls of a history, in order. -/
def calls : Client σ → List (Command σ) → List (Invocation σ) :=
  along fun c command => (c.call? command).toList

/-- What the client is told, command after command. -/
def responses : Client σ → List (Command σ) → List (Response σ) :=
  along fun c command => [(c.obey command).1]

@[simp] theorem obeyAll_nil (c : Client σ) : c.obeyAll [] = c := rfl

@[simp] theorem obeyAll_cons (c : Client σ) (command : Command σ) (commands : List (Command σ)) :
    c.obeyAll (command :: commands) = (c.obey command).2.obeyAll commands := rfl

theorem obeyAll_append (c : Client σ) (before after : List (Command σ)) :
    c.obeyAll (before ++ after) = (c.obeyAll before).obeyAll after := by
  simp [obeyAll]

theorem along_append {α : Type} (read : Client σ → Command σ → List α) (c : Client σ)
    (before after : List (Command σ)) :
    c.along read (before ++ after) = c.along read before ++ (c.obeyAll before).along read after := by
  induction before generalizing c with
  | nil => rfl
  | cons command before ih => simp [along, ih]

/-- What is read off a history is read off one of its commands. -/
theorem mem_along {α : Type} {read : Client σ → Command σ → List α} {c : Client σ}
    {history : List (Command σ)} {a : α} (ha : a ∈ c.along read history) :
    ∃ before command after, history = before ++ command :: after ∧
      a ∈ read (c.obeyAll before) command := by
  induction history generalizing c with
  | nil => cases ha
  | cons command history ih =>
    rcases List.mem_append.mp ha with ha | ha
    · exact ⟨[], command, history, rfl, ha⟩
    · obtain ⟨before, later, after, rfl, hlater⟩ := ih ha
      exact ⟨command :: before, later, after, rfl, hlater⟩

variable {c : Client σ} {command : Command σ} {invocation : Invocation σ}

/-- The client after a call that has changed the world and told some events. -/
def called (c : Client σ) (world : σ) (events : List Event) : Client σ :=
  { c with contexts := { c.contexts with world := world, log := c.contexts.log ++ events } }

/-- A response after something was done in the world. -/
theorem after_perform {α : Type} {reaction : Reaction σ α} {outcome : Outcome α}
    {events : List Event} {left : σ} (h : reaction c.contexts.world = (outcome, events, left))
    (respond : α → Response σ) :
    c.after (c.contexts.perform reaction) (fun a c => (respond a, c)) =
      (outcome.response respond, c.called left events) := by
  cases outcome
  all_goals
    simp only [after, Contexts.perform, h, Outcome.response]
    rfl

/-- **A command that reaches a callable runs it once**, with the arguments of the call, and the
response and the log come of its reply. -/
theorem obey_of_call {reply : Reply} {events : List Event} {left : σ}
    (h : c.call? command = some invocation)
    (hrun : invocation.binding.callable invocation.args c.contexts.world = (reply, events, left)) :
    c.obey command = (invocation.respond reply, c.called left (invocation.tell events reply)) := by
  cases command with
  | run operation numbers =>
    obtain ⟨m, hm, rfl⟩ := Option.map_eq_some_iff.mp h
    simp only [obey, hm]
    exact after_perform (Made.run_eq hrun) _
  | invoke binding n args =>
    obtain ⟨b, hb, hcall⟩ := Option.bind_eq_some_iff.mp h
    split at hcall
    · next hcount =>
      cases hcall
      obtain ⟨rfl, hsize⟩ := hcount
      have hmake : Invoker.make b.arity b = .ok ⟨b, rfl⟩ := Invoker.make_eq_ok_iff.mpr rfl
      simp only [obey, hb, invoke, hmake, List.size_toArray, hsize, dite_true]
      exact after_perform (Invoker.invoke_eq (n := b.arity) ⟨args.toArray, hsize⟩ hrun) _
    · cases hcall
  | call binding args =>
    obtain ⟨b, hb, rfl⟩ := Option.map_eq_some_iff.mp h
    simp only [obey, hb]
    exact after_perform hrun _
  | _ => cases h

/-- **A call that does not reach a callable changes nothing.** -/
theorem obey_of_no_call (calls : command.calls = true) (h : c.call? command = none) :
    c.obey command = (c.refusal command, c) := by
  cases command with
  | run operation numbers =>
    have hnone : c.operations[operation]? = none := Option.map_eq_none_iff.mp h
    simp only [obey, hnone, refusal]
  | call binding args =>
    have hnone : c.bindings[binding]? = none := Option.map_eq_none_iff.mp h
    simp only [obey, hnone, refusal]
  | invoke binding n args =>
    cases hb : c.bindings[binding]? with
    | none => simp only [obey, hb, refusal, Option.map_none]
    | some b =>
      simp only [obey, hb, refusal, Option.map_some, invoke]
      cases hmake : Invoker.make n b with
      | error error => rfl
      | ok invoker =>
        have hcount : ¬(b.arity = n ∧ args.length = n) := fun hcount => by
          simp [call?, hb, hcount] at h
        have harity : b.arity = n := by
          rw [← Invoker.make_eq_ok_iff.mp hmake]
          exact invoker.arity_eq
        exact dif_neg fun hsize => hcount ⟨harity, hsize⟩
  | _ => cases calls

theorem response_of_call (h : c.call? command = some invocation) :
    (c.obey command).1 =
      invocation.respond (invocation.binding.callable invocation.args c.contexts.world).1 := by
  rcases hrun : invocation.binding.callable invocation.args c.contexts.world with
    ⟨reply, events, left⟩
  rw [obey_of_call h hrun]

theorem world_of_call (h : c.call? command = some invocation) :
    (c.obey command).2.contexts.world =
      (invocation.binding.callable invocation.args c.contexts.world).2.2 := by
  rcases hrun : invocation.binding.callable invocation.args c.contexts.world with
    ⟨reply, events, left⟩
  rw [obey_of_call h hrun]
  rfl

/-- The binding that is called is in the hands of the client. -/
theorem hands_of_call (h : c.call? command = some invocation) :
    c.Hands invocation.binding := by
  cases command with
  | run operation numbers =>
    obtain ⟨m, hm, rfl⟩ := Option.map_eq_some_iff.mp h
    exact .inr ⟨m, List.mem_of_getElem? hm, rfl⟩
  | invoke binding n args =>
    obtain ⟨b, hb, hcall⟩ := Option.bind_eq_some_iff.mp h
    split at hcall
    · cases hcall
      exact .inl (List.mem_of_getElem? hb)
    · cases hcall
  | call binding args =>
    obtain ⟨b, hb, rfl⟩ := Option.map_eq_some_iff.mp h
    exact .inl (List.mem_of_getElem? hb)
  | _ => cases h

end Client

end NativeLink
