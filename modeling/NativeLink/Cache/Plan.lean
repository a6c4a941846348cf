import NativeLink.Binding

/-!
# Plans

Resolving a name is work for a resolver, which may ask for other names of the
same cache before it answers.  A plan is that work written down: a finite tree
whose leaves are answers and whose nodes are single steps.  What a step learns
decides how the plan goes on.

Plans keep the resolver out of the cache's way.  The cache runs them one step at
a time, on one thread or on many, and a statement about every resolver is a
statement about every plan.
-/

namespace NativeLink

/-- What a request answers. -/
abbrev Answer (σ : Type) : Type := Except ResolveError (Binding σ)

/-- The work of resolving one name. -/
inductive Plan (σ : Type) where
  /-- The name has this callable, or none for this reason. -/
  | answer (result : Except ResolveError (Callable σ))
  | panic (cause : Panic)
  /-- The work never ends. -/
  | stuck
  /-- Tells an event. -/
  | tell (event : Event) (next : Plan σ)
  /-- Changes the world and goes on with what it was before. -/
  | step (change : σ → σ) (next : σ → Plan σ)
  /-- Looks a name up in the cache without resolving it. -/
  | look (name : String) (next : Option (Binding σ) → Plan σ)
  /-- Asks the cache for another name. -/
  | request (name text : String) (work : Signature → Plan σ) (next : Answer σ → Plan σ)

/-- What turns a name and a signature into a plan. -/
abbrev Resolver (σ : Type) : Type := String → Signature → Plan σ

namespace Plan

variable {σ : Type}

/-- Requests names one after the other, each resolved by `resolver`.  The first that fails ends
the plan with its error; `final` follows when none does. -/
def requireAll (resolver : Resolver σ) (final : Plan σ) : List (String × String) → Plan σ
  | [] => final
  | (name, text) :: rest =>
    .request name text (resolver name) fun
      | .ok _ => requireAll resolver final rest
      | .error error => .answer (.error error)

end Plan

/-- The resolver that requests the dependencies of a name before `base` decides on it.

Dependencies have dependencies; the requests reach as deep as `depth`.  A chain of requests that
is longer than the number of names with dependencies asks for a name that is being resolved
already, so no plan is ever run beyond that depth. -/
def Resolver.withDependencies {σ : Type} (dependencies : String → List (String × String))
    (base : Resolver σ) : Nat → Resolver σ
  | 0 => base
  | depth + 1 => fun name signature =>
    Plan.requireAll (withDependencies dependencies base depth) (base name signature)
      (dependencies name)

end NativeLink
