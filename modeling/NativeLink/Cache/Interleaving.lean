import NativeLink.Cache.Plan
import NativeLink.Cache.Table

/-!
# Requests on many threads

Threads share one cache.  Each makes requests one after the other, and a request
is a sequence of atomic steps between which other threads may run:

* it looks the slot of its name up, under the lock of the table, and holds it;
* it reads the cell, and is done if the cell is bound;
* it waits until the cell is not busy, and is done if the cell is bound by then;
  otherwise it marks the cell busy;
* it reads the text of its signature and runs its plan, one step at a time; a
  request inside the plan is a call on top of this one;
* it ends: the cell becomes bound, or empty again;
* after an error it takes the slot out of the table, unless somebody else holds
  it;
* it gives the slot up and hands its answer on.

The lock is held only inside a single step, so no step waits for it.  The one
place where a thread can be held up is a busy cell.  `Cache.Lock` has the same runs
with the lock taken and given back.  With one thread only this is `Cache.Request`, as
`Proofs.Interleaving.Alone` shows.

A panic in a plan ends the request, and then every request below it on the same
thread.

Every request has a ticket, a number of its own, and whatever happens is recorded
under that ticket, the latest moment first.
-/

namespace NativeLink

/-- A request that a thread is to make. -/
structure Request (σ : Type) where
  name : String
  text : String
  work : Signature → Plan σ

namespace Interleaving

/-- How far a request has come. -/
inductive Stage (σ : Type) where
  | entering
  /-- It holds the slot and is about to read the cell. -/
  | reading (slot : Nat)
  /-- It found the cell unbound and is about to begin. -/
  | waiting (slot : Nat)
  /-- It has marked the cell busy and is about to read the signature. -/
  | opening (slot : Nat)
  /-- Its plan is running. -/
  | running (slot : Nat) (signature : Signature) (rest : Plan σ)
  /-- It has emptied the cell after an error and is about to discard the slot. -/
  | failing (slot : Nat) (error : ResolveError)
  /-- It is about to give the slot up. -/
  | leaving (slot : Nat) (outcome : Outcome (Answer σ))

/-- A request in flight. -/
structure Call (σ : Type) where
  ticket : Nat
  request : Request σ
  stage : Stage σ

/-- A thread: its requests in flight, the innermost first, and those it has still to make. -/
structure Thread (σ : Type) where
  calls : List (Call σ)
  todo : List (Request σ)

/-- Something that happened to the request with a ticket. -/
inductive Moment (σ : Type) where
  | asked (ticket : Nat) (name text : String)
  /-- It marked the cell of its name busy. -/
  | began (ticket : Nat) (name : String)
  /-- Its resolver was given the signature. -/
  | resolved (ticket : Nat) (name : String) (signature : Signature)
  | told (ticket : Nat) (event : Event)
  /-- It bound the cell, or emptied it again, with this outcome. -/
  | ended (ticket : Nat) (name : String) (outcome : Outcome (Answer σ))
  /-- It went to take its slot out of the table, while so many other requests held the slot. -/
  | discarded (ticket : Nat) (name : String) (others : Nat)
  | answered (ticket : Nat) (name : String) (outcome : Outcome (Answer σ))

/-- Threads at work on one cache. -/
structure State (σ : Type) where
  table : Table σ
  world : σ
  /-- The number of bindings made so far. -/
  fresh : Nat
  /-- The number of requests made so far. -/
  tickets : Nat
  threads : List (Thread σ)
  /-- What has happened, the latest first. -/
  history : List (Moment σ)

variable {σ : Type}

/-- Threads about to make their first request on a new cache. -/
def State.start (world : σ) (threads : List (List (Request σ))) : State σ :=
  ⟨.empty, world, 0, 0, threads.map fun requests => ⟨[], requests⟩, []⟩

namespace State

/-- The state after some moments, in the order they happened. -/
def record (s : State σ) (moments : List (Moment σ)) : State σ :=
  { s with history := moments.reverse ++ s.history }

/-- The state with another thread at position `i`. -/
def setThread (s : State σ) (i : Nat) (thread : Thread σ) : State σ :=
  { s with threads := s.threads.set i thread }

/-- Puts a new request on top of a thread. -/
def enter (s : State σ) (i : Nat) (calls : List (Call σ)) (todo : List (Request σ))
    (request : Request σ) : State σ :=
  ({ s with tickets := s.tickets + 1 }.setThread i
    ⟨⟨s.tickets, request, .entering⟩ :: calls, todo⟩).record
      [.asked s.tickets request.name request.text]

end State

/-- How a plan goes on once the request it made has ended. -/
def resume : Plan σ → Outcome (Answer σ) → Plan σ
  | .request _ _ _ next, .returned answer => next answer
  | _, .panicked cause => .panic cause
  | _, _ => .stuck

/-- Hands the outcome of a request to the request that made it. -/
def deliver (outcome : Outcome (Answer σ)) : List (Call σ) → List (Call σ)
  | [] => []
  | below :: calls =>
    match below.stage with
    | .running slot signature rest =>
      { below with stage := .running slot signature (resume rest outcome) } :: calls
    | _ => below :: calls

/-- One step of the request `call`, which is on top of thread `i`. -/
def advance (s : State σ) (i : Nat) (call : Call σ) (below : List (Call σ))
    (todo : List (Request σ)) : Option (State σ) :=
  let name := call.request.name
  let text := call.request.text
  let stay (s : State σ) (stage : Stage σ) : State σ :=
    s.setThread i ⟨{ call with stage := stage } :: below, todo⟩
  let setCell (slot : Nat) (cell : Cell σ) : State σ :=
    { s with table := s.table.setCell slot cell }
  /- The cell was found bound: this is the answer. -/
  let hit (slot : Nat) (binding : Binding σ) : State σ :=
    (stay s (.leaving slot (.returned (.ok binding)))).record
      ((binding.conflict text).map (.told call.ticket))
  match call.stage with
  | .entering =>
    let (slot, table) := s.table.acquire name
    some (stay { s with table := table } (.reading slot))
  | .reading slot =>
    match (s.table.cell slot).binding? with
    | some binding => some (hit slot binding)
    | none => some (stay s (.waiting slot))
  | .waiting slot =>
    match s.table.cell slot with
    | .busy => none
    | .bound binding => some (hit slot binding)
    | .empty => some ((stay (setCell slot .busy) (.opening slot)).record [.began call.ticket name])
  | .opening slot =>
    match Signature.parse text with
    | .error error =>
      some ((stay (setCell slot .empty) (.failing slot error)).record
        [.ended call.ticket name (.returned (.error error))])
    | .ok signature =>
      some ((stay s (.running slot signature (call.request.work signature))).record
        [.told call.ticket (.resolving name signature), .resolved call.ticket name signature])
  | .running slot signature rest =>
    match rest with
    | .answer (.ok callable) =>
      let binding := Binding.make s.fresh name signature callable
      some ((stay { setCell slot (.bound binding) with fresh := s.fresh + 1 }
        (.leaving slot (.returned (.ok binding)))).record
          [.ended call.ticket name (.returned (.ok binding))])
    | .answer (.error error) =>
      some ((stay (setCell slot .empty) (.failing slot error)).record
        [.ended call.ticket name (.returned (.error error))])
    | .panic cause =>
      some ((stay (setCell slot .empty) (.leaving slot (.panicked cause))).record
        [.ended call.ticket name (.panicked cause)])
    | .stuck => none
    | .tell event next =>
      some ((stay s (.running slot signature next)).record [.told call.ticket event])
    | .step change next =>
      some (stay { s with world := change s.world } (.running slot signature (next s.world)))
    | .look other next =>
      some (stay s (.running slot signature (next (s.table.get? other))))
    | .request other text work _ => some (s.enter i (call :: below) todo ⟨other, text, work⟩)
  | .failing slot error =>
    some ((stay { s with table := s.table.discardUnbound name slot }
      (.leaving slot (.returned (.error error)))).record
        [.discarded call.ticket name (s.table.holders slot - 1)])
  | .leaving slot outcome =>
    some ((({ s with table := s.table.release slot } : State σ).setThread i
      ⟨deliver outcome below, todo⟩).record [.answered call.ticket name outcome])

/-- One step of thread `i`, if it can make one. -/
def step? (s : State σ) (i : Nat) : Option (State σ) :=
  match s.threads[i]? with
  | none => none
  | some ⟨[], []⟩ => none
  | some ⟨[], request :: todo⟩ => some (s.enter i [] todo request)
  | some ⟨call :: below, todo⟩ => advance s i call below todo

/-- States that a state can come to, whatever thread makes each step. -/
inductive Reaches : State σ → State σ → Prop where
  | refl (s : State σ) : Reaches s s
  | tail {s t u : State σ} {i : Nat} : Reaches s t → step? t i = some u → Reaches s u

theorem Reaches.trans {s t u : State σ} (h : Reaches s t) (k : Reaches t u) : Reaches s u := by
  induction k with
  | refl => exact h
  | tail _ step ih => exact .tail ih step

/-! ## Schedules -/

/-- Steps of threads in the given order; a thread that cannot make one is passed over. -/
def follow (order : List Nat) (s : State σ) : State σ :=
  order.foldl (fun s i => (step? s i).getD s) s

/-- A step of each thread that can make one, from the first to the last. -/
def round (s : State σ) : State σ := follow (List.range s.threads.length) s

/-- Steps of thread `i` for as long as it can make one, at most `fuel` of them. -/
def turn (i : Nat) : Nat → State σ → State σ
  | 0, s => s
  | fuel + 1, s =>
    match step? s i with
    | some t => turn i fuel t
    | none => s

/-- A turn of each thread, from the first to the last. -/
def turns (fuel : Nat) (s : State σ) : State σ :=
  (List.range s.threads.length).foldl (fun s i => turn i fuel s) s

/-- Moves of one thread after the other make a way through the states. -/
theorem reaches_foldl {move : State σ → Nat → State σ} (h : ∀ s i, Reaches s (move s i))
    (order : List Nat) (s : State σ) : Reaches s (order.foldl move s) := by
  induction order generalizing s with
  | nil => exact .refl s
  | cons i order ih => exact (h s i).trans (ih (move s i))

theorem reaches_follow (order : List Nat) (s : State σ) : Reaches s (follow order s) := by
  refine reaches_foldl (fun s i => ?_) _ s
  cases h : step? s i with
  | none => exact .refl s
  | some t => exact (Reaches.refl s).tail h

theorem reaches_round (s : State σ) : Reaches s (round s) := reaches_follow _ s

theorem reaches_turn (i fuel : Nat) (s : State σ) : Reaches s (turn i fuel s) := by
  induction fuel generalizing s with
  | zero => exact .refl s
  | succ fuel ih =>
    rw [turn]
    split
    · rename_i t h
      exact ((Reaches.refl s).tail h).trans (ih t)
    · exact .refl s

theorem reaches_turns (fuel : Nat) (s : State σ) : Reaches s (turns fuel s) :=
  reaches_foldl (fun s i => reaches_turn i fuel s) _ s

end Interleaving

end NativeLink
