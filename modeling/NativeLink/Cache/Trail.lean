import NativeLink.Cache.Visits

/-!
# Trails

A cache is put to many uses one after the other.  Names are requested, each time with
a resolver of its own; the table is looked at; and the callables of bindings are called.
A history is a list of such uses, and a use that ends in a panic is followed by the next
one like any other.

A run can be observed while it goes on, because a resolver may look names up and make
requests at any moment of its work.  The points of a plan are the sessions in which it
takes its steps, those of the resolvers it asks included.  The trail of a history is the
list of all its points, in order, and of the session it leaves.  What a look-up would
find at some moment, and what a request would answer there, are questions to the session
at that point.

Like the visits, a trail is read off the run: its sessions are those of `Plan.run`.
-/

namespace NativeLink

variable {σ : Type}

/-- The points of a request for `name`: those of its resolver, if that is asked. -/
def Session.points (name text : String) (inner : Signature → Session σ → List (Session σ))
    (s : Session σ) : List (Session σ) :=
  let (i, table) := s.table.acquire name
  match table.cell i with
  | .bound _ => []
  | .busy => []
  | .empty =>
    match Signature.parse text with
    | .error _ => []
    | .ok signature =>
      inner signature ((s.withTable (table.setCell i .busy)).tell [.resolving name signature])

/-- The sessions in which a plan takes its steps. -/
def Plan.points : Plan σ → Session σ → List (Session σ)
  | .answer _ => fun s => [s]
  | .panic _ => fun s => [s]
  | .stuck => fun s => [s]
  | .tell event next => fun s => s :: next.points (s.tell [event])
  | .step change next => fun s => s :: (next s.world).points { s with world := change s.world }
  | .look name next => fun s => s :: (next (s.table.get? name)).points s
  | .request name text work next => fun s =>
    s :: (Session.points name text (fun signature => (work signature).points) s ++
      match Session.request name text (fun signature => (work signature).run) s with
      | (.returned given, s) => (next given).points s
      | _ => [])

/-- Something that is done with a cache. -/
inductive Use (σ : Type) where
  /-- Requests a name, with the work of a resolver. -/
  | request (name text : String) (work : Signature → Plan σ)
  /-- Looks a name up, or lists or counts the bound names. -/
  | observe
  /-- Calls the callable of a binding. -/
  | call (binding : Binding σ) (args : List Value)

namespace Use

/-- The session after a use. -/
def run : Use σ → Session σ → Session σ
  | .request name text work => fun s =>
    (Session.request name text (fun signature => (work signature).run) s).2
  | .observe => fun s => s
  | .call binding args => fun s =>
    let (_, events, world) := binding.callable args s.world
    { s with world := world, log := s.log ++ events }

/-- The points of a use. -/
def points : Use σ → Session σ → List (Session σ)
  | .request name text work => fun s =>
    s :: Session.points name text (fun signature => (work signature).points) s
  | .observe => fun s => [s]
  | .call _ _ => fun s => [s]

/-- The visits of a use. -/
def visits : Use σ → Session σ → List Visit
  | .request name text work =>
    Session.visits name text (fun signature => (work signature).run)
      fun signature => (work signature).visits
  | .observe => fun _ => []
  | .call _ _ => fun _ => []

end Use

/-- What is done with a cache, in order. -/
abbrev History (σ : Type) : Type := List (Use σ)

namespace History

/-- The session a history leaves. -/
def run : History σ → Session σ → Session σ
  | [], s => s
  | use :: rest, s => run rest (use.run s)

/-- All points of a history, and the session it leaves. -/
def trail : History σ → Session σ → List (Session σ)
  | [], s => [s]
  | use :: rest, s => use.points s ++ trail rest (use.run s)

/-- All visits of a history. -/
def visits : History σ → Session σ → List Visit
  | [], _ => []
  | use :: rest, s => use.visits s ++ visits rest (use.run s)

end History

end NativeLink
