import NativeLink.Context

/-!
# Clients

A client works with contexts that share a resolver.  It opens and drops contexts,
binds names, makes operations over bindings and calls them.  What it has been
handed out it refers to by number: bindings by the order in which they were first
handed out, operations by the order in which they were made.  A binding that is
handed out again keeps its number.

`Client.obey` carries a command out.  A history of a client is a list of commands,
and `Client.obeyAll` is the client after it.
-/

namespace NativeLink

/-- An operation that was made. -/
structure Made (σ : Type) where
  operation : Operation
  invoker : Invoker σ operation.arity

/-- What a call of an operation gives. -/
inductive Result where
  | value (value : Value)
  | address (address : Address)
  | done
  deriving DecidableEq

namespace Made

variable {σ : Type}

def inspect (m : Made σ) : Inspect := m.operation.inspect m.invoker

/-- Calls the operation with numbers for its arguments; a number that is missing is zero. -/
def run (m : Made σ) (numbers : List UInt64) : Reaction σ Result := fun world =>
  let number (i : Nat) : UInt64 := numbers.getD i 0
  match m with
  | ⟨.nullPointer, invoker⟩ =>
    let (outcome, events, world) := invoker.nullPointer world
    (outcome.map .value, events, world)
  | ⟨.dynamicCast, invoker⟩ =>
    let (outcome, events, world) :=
      invoker.cast ⟨number 0⟩ ⟨number 1⟩ ⟨number 2⟩ (number 3) world
    (outcome.map .address, events, world)
  | ⟨.freeException, invoker⟩ =>
    let (outcome, events, world) := invoker.free ⟨number 0⟩ world
    (outcome.map fun _ => .done, events, world)

end Made

/-- Something a client does. -/
inductive Command (σ : Type) where
  | add
  | drop (context : Nat)
  | resolve (context : Nat) (name text : String)
  /-- Looks a name up without resolving it. -/
  | find (context : Nat) (name : String)
  | construct (context : Nat) (operation : Operation)
  /-- Makes an operation over a binding. -/
  | make (operation : Operation) (binding : Nat)
  | copy (operation : Nat)
  | run (operation : Nat) (numbers : List UInt64)
  /-- Calls a binding through an invoker with `n` arguments. -/
  | invoke (binding n : Nat) (args : List Value)
  /-- Calls a binding as it is. -/
  | call (binding : Nat) (args : List Value)
  | probe (context : Nat)
  /-- Changes the world, as the registration of a routine does. -/
  | change (f : σ → σ)

/-- What comes of a command. -/
inductive Response (σ : Type) where
  | context (number : Nat)
  | binding (number : Nat) (binding : Binding σ)
  | operation (number : Nat)
  | refused (error : ResolveError)
  | result (result : Result)
  | reply (reply : Except TransportError Value)
  | invoked (symbol : String) (value : Value) (bound : String)
  | support (support : Support)
  | panicked (cause : Panic)
  | done
  /-- There is no such thing, or no answer. -/
  | nothing

/-- Contexts and what was handed out of them. -/
structure Client (σ : Type) where
  contexts : Contexts σ
  bindings : List (Binding σ) := []
  operations : List (Made σ) := []

namespace Client

variable {σ : Type}

/-- A client with one context. -/
def start (resolver : Resolver σ) (world : σ) : Client σ := { contexts := .start resolver world }

/-- The number of a binding that has been handed out. -/
def number? (c : Client σ) (b : Binding σ) : Option Nat := c.bindings.findIdx? (·.id == b.id)

/-- Hands out a binding. -/
def hand (c : Client σ) (b : Binding σ) : Response σ × Client σ :=
  match c.number? b with
  | some number => (.binding number b, c)
  | none => (.binding c.bindings.length b, { c with bindings := c.bindings ++ [b] })

/-- Keeps an operation that was made. -/
def keep (c : Client σ) (o : Operation) (made : Except ResolveError (Invoker σ o.arity)) :
    Response σ × Client σ :=
  match made with
  | .ok invoker =>
    (.operation c.operations.length, { c with operations := c.operations ++ [⟨o, invoker⟩] })
  | .error error => (.refused error, c)

/-- The client after something was done to its contexts. -/
def after {α : Type} (c : Client σ) (done : Outcome α × Contexts σ)
    (next : α → Client σ → Response σ × Client σ) : Response σ × Client σ :=
  let c := { c with contexts := done.2 }
  match done.1 with
  | .returned a => next a c
  | .panicked cause => (.panicked cause, c)
  | .stuck => (.nothing, c)

/-- Calls a binding through an invoker with `n` arguments, of which there must be as many. -/
def invoke (c : Client σ) (b : Binding σ) (n : Nat) (args : List Value) : Response σ × Client σ :=
  match Invoker.make n b with
  | .error error => (.refused error, c)
  | .ok invoker =>
    if h : args.toArray.size = n then
      c.after (c.contexts.perform (invoker.invoke ⟨args.toArray, h⟩)) fun value c =>
        (.invoked invoker.symbol value invoker.binding.name, c)
    else (.nothing, c)

/-- Carries a command out. -/
def obey (c : Client σ) : Command σ → Response σ × Client σ
  | .add =>
    let (number, contexts) := c.contexts.add
    (.context number, { c with contexts := contexts })
  | .drop context => (.done, { c with contexts := c.contexts.drop context })
  | .resolve context name text =>
    c.after (c.contexts.resolve context name text) fun
      | .ok binding, c => c.hand binding
      | .error error, c => (.refused error, c)
  | .find context name =>
    match (c.contexts.table? context).bind (·.get? name) with
    | some binding => c.hand binding
    | none => (.nothing, c)
  | .construct context o => c.after (c.contexts.construct context o) fun made c => c.keep o made
  | .make o binding =>
    match c.bindings[binding]? with
    | some b => c.keep o (Invoker.make o.arity b)
    | none => (.nothing, c)
  | .copy operation =>
    match c.operations[operation]? with
    | some m => c.keep m.operation (.ok m.invoker)
    | none => (.nothing, c)
  | .run operation numbers =>
    match c.operations[operation]? with
    | some m => c.after (c.contexts.perform (m.run numbers)) fun result c => (.result result, c)
    | none => (.nothing, c)
  | .invoke binding n args =>
    match c.bindings[binding]? with
    | some b => c.invoke b n args
    | none => (.nothing, c)
  | .call binding args =>
    match c.bindings[binding]? with
    | some b => c.after (c.contexts.perform (b.callable args)) fun reply c => (.reply reply, c)
    | none => (.nothing, c)
  | .probe context =>
    c.after (c.contexts.probe context) fun support c => (.support support, c)
  | .change f =>
    (.done, { c with contexts := { c.contexts with world := f c.contexts.world } })

/-- The client after a list of commands. -/
def obeyAll (c : Client σ) (commands : List (Command σ)) : Client σ :=
  commands.foldl (fun c command => (c.obey command).2) c

end Client

end NativeLink
