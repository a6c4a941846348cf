import NativeLink.Cache.Request

/-!
# Visits to names

While a request runs, its resolver may ask for other names, whose resolvers ask for
others again.  A visit is what becomes of one name on the way: it is found bound, its
text is no signature, or its resolver is asked and answers.  `Plan.visits` lists the
visits of a run in the order they happen, so that the answer of a resolver stands
behind all that its own requests have led to.

The list is read off the run: each visit is what the session says at that moment, and
the sessions are those of `Plan.run`.
-/

namespace NativeLink

/-- What becomes of a name that is asked for. -/
inductive Visit where
  /-- It is bound. -/
  | found (name : String)
  /-- It is being resolved by an enclosing request. -/
  | blocked (name : String)
  /-- The text is no signature, so the resolver is not asked. -/
  | misread (name : String) (error : ResolveError)
  | asked (name : String) (signature : Signature)
  /-- The resolver has answered, or has ended without an answer. -/
  | answered (name : String) (outcome : Outcome (Except ResolveError Unit))

namespace Visit

/-- The name that is visited. -/
def name : Visit → String
  | found name => name
  | blocked name => name
  | misread name _ => name
  | asked name _ => name
  | answered name _ => name

/-- Whether the resolver is asked for a name. -/
def asks (name : String) : Visit → Bool
  | asked other _ => other == name
  | _ => false

/-- Whether the resolver answers a name with a callable. -/
def succeeds (name : String) : Visit → Bool
  | answered other (.returned (.ok ())) => other == name
  | _ => false

/-- The name that fails in a visit, and its error. -/
def failure? : Visit → Option (String × ResolveError)
  | misread name error => some (name, error)
  | answered name (.returned (.error error)) => some (name, error)
  | _ => none

end Visit

/-- The visits of one thing done after another. -/
def Act.visitsThen {σ α : Type} (act : Act σ α) (first : Session σ → List Visit)
    (next : α → Session σ → List Visit) : Session σ → List Visit := fun s =>
  first s ++
    match act s with
    | (.returned a, s) => next a s
    | _ => []

/-- The visits that begin with a request for `name`; those of its resolver are `inner`. -/
def Session.visits {σ : Type} (name text : String)
    (resolve : Signature → Act σ (Except ResolveError (Callable σ)))
    (inner : Signature → Session σ → List Visit) (s : Session σ) : List Visit :=
  let (i, table) := s.table.acquire name
  match table.cell i with
  | .bound _ => [.found name]
  | .busy => [.blocked name]
  | .empty =>
    match Signature.parse text with
    | .error error => [.misread name error]
    | .ok signature =>
      let begun := (s.withTable (table.setCell i .busy)).tell [.resolving name signature]
      let ended := (resolve signature begun).1.map fun result => result.map fun _ => ()
      .asked name signature :: (inner signature begun ++ [.answered name ended])

/-- The visits of a run. -/
def Plan.visits {σ : Type} : Plan σ → Session σ → List Visit
  | .answer _ => fun _ => []
  | .panic _ => fun _ => []
  | .stuck => fun _ => []
  | .tell event next => fun s => next.visits (s.tell [event])
  | .step change next => fun s => (next s.world).visits { s with world := change s.world }
  | .look name next => fun s => (next (s.table.get? name)).visits s
  | .request name text work next => fun s =>
    Session.visits name text (fun signature => (work signature).run)
      (fun signature => (work signature).visits) s ++
    match Session.request name text (fun signature => (work signature).run) s with
    | (.returned given, s) => (next given).visits s
    | _ => []

/-- The visits of a request for `name` that is resolved by `resolver`. -/
def Resolver.visits {σ : Type} (resolver : Resolver σ) (name text : String) :
    Session σ → List Visit :=
  Session.visits name text (fun signature => (resolver name signature).run)
    fun signature => (resolver name signature).visits

end NativeLink
