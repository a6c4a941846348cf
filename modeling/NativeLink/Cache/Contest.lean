import NativeLink.Cache.Interleaving

/-!
# First requests at the same time

A contest lets a number of threads ask one new cache for names at the same time,
one request a thread, all with the same signature text.  The resolver fails the
first few times it is asked for a name and succeeds from then on.  However the
threads are interleaved, the same number of requests for a name fail, all others
answer one and the same binding, and the resolver runs equally often; the report
counts these things in one of the runs.
-/

namespace NativeLink

/-- The terms of a contest. -/
structure Contest where
  threads : Nat
  /-- Thread `i` asks for the name at `i`, counted round and round. -/
  names : List String
  text : String
  /-- How often the resolver fails for each name before it succeeds. -/
  failures : Nat

namespace Contest

/-- The names the resolver has been asked for, the latest first. -/
abbrev Asked : Type := List String

/-- What the resolver of a contest answers, by the name and by how often it was asked for that name
before. -/
structure Verdicts where
  /-- Why it fails. -/
  reason : String → Nat → ResolveError
  /-- What it hands out when it succeeds. -/
  callable : String → Nat → Callable Asked

/-- No name is found as long as the resolver fails; later ones have a callable that answers null. -/
def Verdicts.plain : Verdicts where
  reason name _ := .symbolNotFound name
  callable _ _ _ asked := (.returned (.ok .null), [], asked)

/-- The answer to being asked for a name when it was asked for `before` times already. -/
def Verdicts.verdict (v : Verdicts) (failures : Nat) (name : String) (before : Nat) :
    Except ResolveError (Callable Asked) :=
  if before < failures then .error (v.reason name before) else .ok (v.callable name before)

/-- The resolver of the contest. -/
def resolver (v : Verdicts) (failures : Nat) : Resolver Asked := fun name _ =>
  .step (name :: ·) fun asked => .answer (v.verdict failures name (asked.count name))

/-- The request for a name. -/
def request (c : Contest) (v : Verdicts) (name : String) : Request Asked :=
  ⟨name, c.text, resolver v c.failures name⟩

/-- The name that thread `i` asks for. -/
def name? (c : Contest) (i : Nat) : Option String := c.names[i % c.names.length]?

/-- The threads before their first step. -/
def start (c : Contest) (v : Verdicts) : Interleaving.State Asked :=
  .start [] ((List.range c.threads).map fun i => (c.name? i).toList.map (c.request v))

/-- The threads after their last step.  With two steps each they all hold their slots at the same
time; then each in turn goes on to its end, which takes a request at most nine steps. -/
def finish (c : Contest) : Interleaving.State Asked :=
  Interleaving.turns 9 (Interleaving.round (Interleaving.round (c.start .plain)))

/-- What a request for a name was answered at a moment. -/
def answer? (name : String) : Interleaving.Moment Asked → Option (Answer Asked)
  | .answered _ other (.returned answer) => if other = name then some answer else none
  | _ => none

/-- The answers given for a name, the latest first. -/
def answers (name : String) (history : List (Interleaving.Moment Asked)) : List (Answer Asked) :=
  history.filterMap (answer? name)

/-- How the requests for one name went. -/
structure Tally where
  name : String
  ok : Nat
  errors : Nat
  /-- Whether all bindings that were answered are the same. -/
  oneBinding : Bool

/-- The numbers of the bindings among some answers. -/
def bindings (given : List (Answer Asked)) : List Nat :=
  given.filterMap fun
    | .ok binding => some binding.id
    | .error _ => none

/-- The tally of a name. -/
def tally (s : Interleaving.State Asked) (name : String) : Tally :=
  let given := answers name s.history
  let ids := bindings given
  ⟨name, ids.length, given.length - ids.length, ids.all fun id => ids.all (· == id)⟩

/-- What is told of a contest. -/
structure Report where
  /-- The names the resolver was asked for, once for each time, in ascending order. -/
  resolverCalls : List String
  /-- A tally for each entry in the list of names. -/
  tallies : List Tally
  /-- The names that are bound at the end. -/
  bound : List String
  /-- The number of events. -/
  events : Nat

/-- Whether a moment is an event of the log. -/
def isEvent : Interleaving.Moment Asked → Bool
  | .told .. => true
  | _ => false

/-- The report of the contest. -/
def report (c : Contest) : Report :=
  let s := c.finish
  { resolverCalls := s.world.mergeSort fun a b => decide (a ≤ b)
    tallies := c.names.map (tally s)
    bound := s.table.names
    events := s.history.countP isEvent }

end Contest

end NativeLink
