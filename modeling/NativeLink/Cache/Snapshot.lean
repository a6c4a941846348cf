import NativeLink.Cache.Trail

/-!
# Snapshots of a run

An attempt is a request that found its name unbound, when it has come to its end: it has bound
the name, or has failed with an error of its own, or a panic has gone through it.  A request that
found its name bound attempts nothing.

A snapshot shows a run at one of its points: which names are being resolved just then, which
attempts have ended so far, and the session.  `History.snapshots` lists those of a whole history.
Between two requests of the history nothing is being resolved; while a resolver is at work its
name is, and those of the requests around it.  A request that never ends has nothing after it.

Like the visits and the points, snapshots are read off the run: their sessions are those of
`Plan.run`.
-/

namespace NativeLink

variable {σ : Type}

/-- A request that found its name unbound, and what has come of it. -/
structure Attempt (σ : Type) where
  name : String
  text : String
  outcome : Outcome (Answer σ)

/-- The latest attempt at a name. -/
def lastAttempt? (name : String) (attempts : List (Attempt σ)) : Option (Attempt σ) :=
  (attempts.filter fun attempt => attempt.name == name).getLast?

/-- A run as it is found at one of its points. -/
structure Snapshot (σ : Type) where
  /-- The names whose resolvers are at work, the innermost first. -/
  resolving : List String
  /-- The attempts that have ended, in the order of their ends. -/
  attempts : List (Attempt σ)
  session : Session σ

namespace Session

/-- The attempts of a request for `name`, in the order they end; those of its resolver are
`inner`. -/
def attempts (name text : String)
    (resolve : Signature → Act σ (Except ResolveError (Callable σ)))
    (inner : Signature → Session σ → List (Attempt σ)) (s : Session σ) : List (Attempt σ) :=
  let (i, table) := s.table.acquire name
  match table.cell i with
  | .bound _ => []
  | .busy => []
  | .empty =>
    let own := ⟨name, text, (Session.request name text resolve s).1⟩
    match Signature.parse text with
    | .error _ => [own]
    | .ok signature =>
      inner signature ((s.withTable (table.setCell i .busy)).tell [.resolving name signature]) ++
        [own]

/-- The snapshots of a request for `name` that is made while `resolving` are at work: those of its
resolver, if that is asked. -/
def snapshots (name text : String)
    (inner : Signature → List String → List (Attempt σ) → Session σ → List (Snapshot σ))
    (resolving : List String) (ended : List (Attempt σ)) (s : Session σ) : List (Snapshot σ) :=
  let (i, table) := s.table.acquire name
  match table.cell i with
  | .bound _ => []
  | .busy => []
  | .empty =>
    match Signature.parse text with
    | .error _ => []
    | .ok signature =>
      inner signature (name :: resolving) ended
        ((s.withTable (table.setCell i .busy)).tell [.resolving name signature])

end Session

namespace Plan

/-- The attempts of a run. -/
def attempts : Plan σ → Session σ → List (Attempt σ)
  | .answer _ => fun _ => []
  | .panic _ => fun _ => []
  | .stuck => fun _ => []
  | .tell event next => fun s => next.attempts (s.tell [event])
  | .step change next => fun s => (next s.world).attempts { s with world := change s.world }
  | .look name next => fun s => (next (s.table.get? name)).attempts s
  | .request name text work next => fun s =>
    Session.attempts name text (fun signature => (work signature).run)
      (fun signature => (work signature).attempts) s ++
    match Session.request name text (fun signature => (work signature).run) s with
    | (.returned given, s) => (next given).attempts s
    | _ => []

/-- The snapshots of a run that begins while `resolving` are at work, the attempts `ended` having
ended before. -/
def snapshots : Plan σ → List String → List (Attempt σ) → Session σ → List (Snapshot σ)
  | .answer _ => fun resolving ended s => [⟨resolving, ended, s⟩]
  | .panic _ => fun resolving ended s => [⟨resolving, ended, s⟩]
  | .stuck => fun resolving ended s => [⟨resolving, ended, s⟩]
  | .tell event next => fun resolving ended s =>
    ⟨resolving, ended, s⟩ :: next.snapshots resolving ended (s.tell [event])
  | .step change next => fun resolving ended s =>
    ⟨resolving, ended, s⟩ ::
      (next s.world).snapshots resolving ended { s with world := change s.world }
  | .look name next => fun resolving ended s =>
    ⟨resolving, ended, s⟩ :: (next (s.table.get? name)).snapshots resolving ended s
  | .request name text work next => fun resolving ended s =>
    ⟨resolving, ended, s⟩ ::
      (Session.snapshots name text (fun signature => (work signature).snapshots) resolving ended s ++
        match Session.request name text (fun signature => (work signature).run) s with
        | (.returned given, u) =>
          (next given).snapshots resolving
            (ended ++ Session.attempts name text (fun signature => (work signature).run)
              (fun signature => (work signature).attempts) s) u
        | _ => [])

end Plan

/-- The snapshots of a history, the attempts `ended` having ended before. -/
def History.snapshots : History σ → List (Attempt σ) → Session σ → List (Snapshot σ)
  | [], ended, s => [⟨[], ended, s⟩]
  | .request name text work :: rest, ended, s =>
    ⟨[], ended, s⟩ ::
      (Session.snapshots name text (fun signature => (work signature).snapshots) [] ended s ++
        match Session.request name text (fun signature => (work signature).run) s with
        | (.stuck, _) => []
        | (_, u) =>
          snapshots rest
            (ended ++ Session.attempts name text (fun signature => (work signature).run)
              (fun signature => (work signature).attempts) s) u)
  | .observe :: rest, ended, s => ⟨[], ended, s⟩ :: snapshots rest ended s
  | .call binding args :: rest, ended, s =>
    ⟨[], ended, s⟩ :: snapshots rest ended ((Use.call binding args).run s)

end NativeLink
