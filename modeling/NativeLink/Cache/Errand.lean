import NativeLink.Cache.Interleaving
import NativeLink.Cache.Trail

/-!
# Errands

An errand is a request that carries its outcome in it: its resolver makes no requests of
its own, does not panic, and answers the same whatever it finds.  What it tells and what it
does to the world is its own affair.  Errands have tickets, by which they are known apart.

A list of errands is carried out from the first to the last.  If the name of an errand is
being resolved, by an enclosing request or by a thread that rests, the errand waits for
ever; it is left waiting, and the next one is carried out on another thread.
-/

namespace NativeLink

variable {σ : Type}

/-- The plan makes no requests, whatever it finds. -/
def Plan.Alone : Plan σ → Prop
  | .answer _ => True
  | .panic _ => True
  | .stuck => True
  | .tell _ next => next.Alone
  | .step _ next => ∀ world, (next world).Alone
  | .look _ next => ∀ found, (next found).Alone
  | .request .. => False

/-- A request whose outcome depends on nothing but itself. -/
structure Errand (σ : Type) extends Request σ where
  ticket : Nat
  /-- What its resolver answers. -/
  result : Except ResolveError (Callable σ)
  alone : ∀ signature, Signature.parse text = .ok signature → (work signature).Alone
  answers : ∀ signature, Signature.parse text = .ok signature →
    ∀ s, ((work signature).run s).1 = .returned result

/-- What became of an errand. -/
structure Receipt (σ : Type) where
  errand : Errand σ
  outcome : Outcome (Answer σ)
  visits : List Visit

/-- The errand has made a binding: its own resolver has answered with a callable. -/
def Receipt.Makes (r : Receipt σ) (b : Binding σ) : Prop :=
  r.outcome = .returned (.ok b) ∧ ∃ v ∈ r.visits, v.succeeds r.errand.name = true

namespace Errand

/-- The request is made. -/
def act (e : Errand σ) : Act σ (Answer σ) :=
  Session.request e.name e.text fun signature => (e.work signature).run

def receipt (e : Errand σ) (s : Session σ) : Receipt σ where
  errand := e
  outcome := (e.act s).1
  visits := Session.visits e.name e.text (fun signature => (e.work signature).run)
    (fun signature => (e.work signature).visits) s

/-- What there is to bind the name to, or why it stays unbound. -/
def verdict (e : Errand σ) : Except ResolveError (Signature × Callable σ) :=
  match Signature.parse e.text with
  | .error error => .error error
  | .ok signature => e.result.map fun callable => (signature, callable)

end Errand

namespace Session

/-- The session after some errands. -/
def carryOut (errands : List (Errand σ)) (s : Session σ) : Session σ :=
  errands.foldl (fun s e => (e.act s).2) s

/-- What becomes of errands. -/
def receipts : List (Errand σ) → Session σ → List (Receipt σ)
  | [], _ => []
  | e :: rest, s => e.receipt s :: receipts rest (e.act s).2

/-- The binding was made by the errand when the list was carried out. -/
def Created (errands : List (Errand σ)) (s : Session σ) (e : Errand σ) (b : Binding σ) : Prop :=
  ∃ r ∈ receipts errands s, r.errand = e ∧ r.Makes b

end Session

end NativeLink
