import NativeLink.Cache.Request
import NativeLink.Support

/-!
# Contexts

A context owns one cache of bindings and resolves names through a resolver.  The
operations are made over the bindings of their routines: a constructor asks for
the binding and checks its arity.  The startup probe makes all three, in order,
and warns of each that is missing.

Several contexts may share a resolver and the world it acts on.  Their caches have
nothing to do with each other.
-/

namespace NativeLink

namespace Session

variable {σ : Type}

/-- Binds a name, with the resolver's help the first time. -/
def resolve (resolver : Resolver σ) (name text : String) : Act σ (Answer σ) :=
  request name text fun signature => (resolver name signature).run

/-- The operation over the binding of its routine. -/
def construct (resolver : Resolver σ) (o : Operation) :
    Act σ (Except ResolveError (Invoker σ o.arity)) :=
  (resolve resolver o.symbol o.signature.text).andThen fun answer s =>
    (.returned (answer.bind (Invoker.make o.arity)), s)

/-- Whether an operation can be made. -/
def attempt (resolver : Resolver σ) (o : Operation) : Act σ (Except ResolveError Unit) :=
  (construct resolver o).andThen fun made s => (.returned (made.map fun _ => ()), s)

/-- Makes all three operations and tells which are missing. -/
def probe (resolver : Resolver σ) : Act σ Support :=
  (attempt resolver .nullPointer).andThen fun nullPointer =>
  (attempt resolver .dynamicCast).andThen fun dynamicCast =>
  (attempt resolver .freeException).andThen fun freeException s =>
    let support := Support.mk nullPointer dynamicCast freeException
    (.returned support, s.tell support.warnings)

end Session

/-- The inspection of a context shows its bindings, not its resolver. -/
def Table.inspectContext {σ : Type} (t : Table σ) : Inspect :=
  .record "NativeContext" [("bindings", t.inspect)] true

/-- Contexts over one resolver.  A context that was dropped leaves its place empty. -/
structure Contexts (σ : Type) where
  resolver : Resolver σ
  tables : List (Option (Table σ))
  world : σ
  /-- The number of bindings made so far, in all contexts. -/
  fresh : Nat
  log : List Event

namespace Contexts

variable {σ : Type}

/-- A resolver with one context. -/
def start (resolver : Resolver σ) (world : σ) : Contexts σ :=
  ⟨resolver, [some .empty], world, 0, []⟩

/-- The cache of a context. -/
def table? (c : Contexts σ) (i : Nat) : Option (Table σ) := (c.tables[i]?).join

/-- Adds a context and answers its position. -/
def add (c : Contexts σ) : Nat × Contexts σ :=
  (c.tables.length, { c with tables := c.tables ++ [some .empty] })

/-- Drops a context with its cache.  Bindings that were handed out go on to work. -/
def drop (c : Contexts σ) (i : Nat) : Contexts σ := { c with tables := c.tables.set i none }

/-- Does something in a context; there is no answer if the context was dropped. -/
def within {α : Type} (c : Contexts σ) (i : Nat)
    (act : Act σ α) : Outcome α × Contexts σ :=
  match c.table? i with
  | none => (.stuck, c)
  | some table =>
    let (outcome, s) := act ⟨table, c.world, c.fresh, c.log⟩
    (outcome,
      { c with
        tables := c.tables.set i (some s.table)
        world := s.world
        fresh := s.fresh
        log := s.log })

/-- Does something in the world, such as a call through a binding. -/
def perform {α : Type} (c : Contexts σ) (reaction : Reaction σ α) : Outcome α × Contexts σ :=
  let (outcome, events, world) := reaction c.world
  (outcome, { c with world := world, log := c.log ++ events })

/-- Binds a name in a context. -/
def resolve (c : Contexts σ) (i : Nat) (name text : String) :
    Outcome (Answer σ) × Contexts σ :=
  c.within i (Session.resolve c.resolver name text)

/-- Makes an operation in a context. -/
def construct (c : Contexts σ) (i : Nat) (o : Operation) :
    Outcome (Except ResolveError (Invoker σ o.arity)) × Contexts σ :=
  c.within i (Session.construct c.resolver o)

/-- Probes the support a context finds. -/
def probe (c : Contexts σ) (i : Nat) : Outcome Support × Contexts σ :=
  c.within i (Session.probe c.resolver)

end Contexts

end NativeLink
