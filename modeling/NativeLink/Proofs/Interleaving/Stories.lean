import NativeLink.Proofs.Interleaving.Origin
import NativeLink.Proofs.Interleaving.Record
import NativeLink.Proofs.Interleaving.Tickets
import NativeLink.Proofs.Session.Log

/-!
# What the cache tells of a request

The cache tells two events of its own.  It tells what it is about to resolve before it
hands the signature to a resolver, and it warns of a request that is answered a binding
with another signature than the one it asked for.  A resolver may tell events as well,
the same ones even, and other requests tell theirs in between.  So that the two events can
be counted, `Story` gives the whole account of a request that has come to an outcome, in
one of six ways:

* it was answered the binding it asked for, and nothing is told (`agreed`);
* it was answered another one, and the warning is all that is told (`differs`);
* its text could not be read, and nothing is told (`misread`);
* its resolver ran.  Then the first that is told is what was to be resolved, and the rest
  is what the plan of its resolver tells (`resolved`, `refused`, `panicked`).

`SoFar` is the same of a request in flight, stage by stage.  `Shift.soFar` is the step: it
appends to the account what the step records.  Whether the binding that was found is the
one that was asked for is decided by `Binding.isBoundWith_iff`, since what is found was
bound by a request that had read its signature (`found_of_reaches`).
-/

namespace NativeLink

variable {σ : Type}

namespace Interleaving

/-- **The binding a request finds** is that of its name, with a signature that was read. -/
theorem found_of_reaches {world : σ} {threads : List (List (Request σ))} {s : State σ}
    (h : Reaches (.start world threads) s) {call : Call σ} (hcall : call ∈ s.calls) {slot : Nat}
    (hseat : call.stage.phase.seat? = some slot) {b : Binding σ}
    (hcell : s.table.cell slot = .bound b) :
    b.name = call.request.name ∧ b.Offered fun _ _ _ => True := by
  have hsound := sound_of_reaches h
  have hflight : call.outline ∈ s.scene.flight := by
    rw [flight_eq_map]
    exact Multiset.mem_map_of_mem _ hcall
  have hseated := hsound.seated _ hflight slot hseat
  refine ⟨hsound.wellFormed.apart (hsound.bound slot b hcell) hseated, ?_⟩
  exact (offered_of_reaches h fun _ _ request _ signature =>
    (request.work signature).yields_anything request.name signature).table slot b hcell

end Interleaving

/-! ## Requests of a run -/

/-- The plan may come to another one, and tells these events on the way.  The requests it makes on
the way may be answered anything. -/
inductive Plan.Tells (p : Plan σ) : List Event → Plan σ → Prop where
  | nothing : Tells p [] p
  | tell {events : List Event} {event : Event} {next : Plan σ}
    (before : Tells p events (.tell event next)) : Tells p (events ++ [event]) next
  | step {events : List Event} {change : σ → σ} {next : σ → Plan σ} (world : σ)
    (before : Tells p events (.step change next)) : Tells p events (next world)
  | look {events : List Event} {name : String} {next : Option (Binding σ) → Plan σ}
    (found : Option (Binding σ)) (before : Tells p events (.look name next)) :
    Tells p events (next found)
  | request {events : List Event} {name text : String} {work : Signature → Plan σ}
    {next : Answer σ → Plan σ} (outcome : Outcome (Answer σ))
    (before : Tells p events (.request name text work next)) :
    Tells p events (Interleaving.resume (.request name text work next) outcome)

namespace Interleaving

/-- The requests of a run: those that threads are to make, and those that their plans come to
make. -/
inductive Arises (threads : List (List (Request σ))) : Request σ → Prop where
  | given {requests : List (Request σ)} {request : Request σ} (thread : requests ∈ threads)
    (mem : request ∈ requests) : Arises threads request
  | nested {outer : Request σ} {signature : Signature} {events : List Event}
    {name text : String} {work : Signature → Plan σ} {next : Answer σ → Plan σ}
    (arises : Arises threads outer) (read : Signature.parse outer.text = .ok signature)
    (plan : (outer.work signature).Tells events (.request name text work next)) :
    Arises threads ⟨name, text, work⟩

/-! ## Stories -/

/-- What happens to a request until its resolver is at work. -/
def opening (k : Nat) (r : Request σ) (signature : Signature) : List (Moment σ) :=
  [.asked k r.name r.text, .began k r.name, .told k (.resolving r.name signature),
    .resolved k r.name signature]

/-- What happens to a request until its resolver has told some events. -/
def working (k : Nat) (r : Request σ) (signature : Signature) (events : List Event) :
    List (Moment σ) :=
  opening k r signature ++ events.map (.told k)

/-- **All that happens to a request before it is answered**, in order. -/
inductive Story (k : Nat) (r : Request σ) : Outcome (Answer σ) → List (Moment σ) → Prop where
  /-- It found its name bound with the signature it asked for. -/
  | agreed {b : Binding σ} (name : b.name = r.name)
    (read : Signature.parse r.text = .ok b.signature) :
    Story k r (.returned (.ok b)) [.asked k r.name r.text]
  /-- It found its name bound with another signature. -/
  | differs {b : Binding σ} (name : b.name = r.name)
    (read : Signature.parse r.text ≠ .ok b.signature) :
    Story k r (.returned (.ok b))
      [.asked k r.name r.text, .told k (.conflict r.name b.signature r.text)]
  /-- It found its name unbound, and its text could not be read. -/
  | misread {error : ResolveError} {others : Nat} (read : Signature.parse r.text = .error error) :
    Story k r (.returned (.error error))
      [.asked k r.name r.text, .began k r.name, .ended k r.name (.returned (.error error)),
        .discarded k r.name others]
  /-- It bound its name. -/
  | resolved {signature : Signature} {events : List Event} {callable : Callable σ} {id : Nat}
    (read : Signature.parse r.text = .ok signature)
    (plan : (r.work signature).Tells events (.answer (.ok callable))) :
    Story k r (.returned (.ok (.make id r.name signature callable)))
      (working k r signature events ++
        [.ended k r.name (.returned (.ok (.make id r.name signature callable)))])
  /-- Its resolver had no callable. -/
  | refused {signature : Signature} {events : List Event} {error : ResolveError} {others : Nat}
    (read : Signature.parse r.text = .ok signature)
    (plan : (r.work signature).Tells events (.answer (.error error))) :
    Story k r (.returned (.error error))
      (working k r signature events ++
        [.ended k r.name (.returned (.error error)), .discarded k r.name others])
  /-- Its resolver panicked, or a request that its resolver made. -/
  | panicked {signature : Signature} {events : List Event} {cause : Panic}
    (read : Signature.parse r.text = .ok signature)
    (plan : (r.work signature).Tells events (.panic cause)) :
    Story k r (.panicked cause)
      (working k r signature events ++ [.ended k r.name (.panicked cause)])

/-- All that has happened to a request when it has come to a stage. -/
inductive SoFar (k : Nat) (r : Request σ) : Stage σ → List (Moment σ) → Prop where
  | entering : SoFar k r .entering [.asked k r.name r.text]
  | reading (slot : Nat) : SoFar k r (.reading slot) [.asked k r.name r.text]
  | waiting (slot : Nat) : SoFar k r (.waiting slot) [.asked k r.name r.text]
  | opening (slot : Nat) : SoFar k r (.opening slot) [.asked k r.name r.text, .began k r.name]
  | running {slot : Nat} {signature : Signature} {events : List Event} {rest : Plan σ}
    (read : Signature.parse r.text = .ok signature) (plan : (r.work signature).Tells events rest) :
    SoFar k r (.running slot signature rest) (working k r signature events)
  | misread {slot : Nat} {error : ResolveError} (read : Signature.parse r.text = .error error) :
    SoFar k r (.failing slot error)
      [.asked k r.name r.text, .began k r.name, .ended k r.name (.returned (.error error))]
  | refused {slot : Nat} {signature : Signature} {events : List Event} {error : ResolveError}
    (read : Signature.parse r.text = .ok signature)
    (plan : (r.work signature).Tells events (.answer (.error error))) :
    SoFar k r (.failing slot error)
      (working k r signature events ++ [.ended k r.name (.returned (.error error))])
  | leaving {slot : Nat} {outcome : Outcome (Answer σ)} {moments : List (Moment σ)}
    (story : Story k r outcome moments) : SoFar k r (.leaving slot outcome) moments

/-- What a call in flight can be in the middle of, given the plan it runs. -/
theorem SoFar.of_running {k : Nat} {r : Request σ} {slot : Nat} {signature : Signature}
    {rest : Plan σ} {moments : List (Moment σ)}
    (h : SoFar k r (.running slot signature rest) moments) :
    Signature.parse r.text = .ok signature ∧ ∃ events,
      (r.work signature).Tells events rest ∧ moments = working k r signature events := by
  cases h with
  | running read plan => exact ⟨read, _, plan, rfl⟩

/-- **What a step records is how the story goes on.** -/
theorem Shift.soFar {s : State σ} {call : Call σ} {stage : Stage σ} {c : Change σ}
    {moments : List (Moment σ)} (h : Shift s call stage c)
    (hfound : ∀ slot b, call.stage.phase.seat? = some slot → s.table.cell slot = .bound b →
      b.name = call.request.name ∧ b.Offered fun _ _ _ => True)
    (hcall : SoFar call.ticket call.request call.stage moments) :
    SoFar call.ticket call.request stage (moments ++ c.moments) := by
  -- the plan that runs goes on to `next` without an event
  have hruns : ∀ {slot : Nat} {signature : Signature} {rest next : Plan σ},
      call.stage = .running slot signature rest →
      (∀ events, (call.request.work signature).Tells events rest →
        (call.request.work signature).Tells events next) →
      SoFar call.ticket call.request (.running slot signature next) (moments ++ []) := by
    intro slot signature rest next hstage hnext
    rw [hstage] at hcall
    obtain ⟨hread, events, hplan, rfl⟩ := hcall.of_running
    rw [List.append_nil]
    exact .running hread (hnext events hplan)
  cases h with
  | enter stage =>
    rw [stage] at hcall
    cases hcall
    exact .reading _
  | miss stage =>
    rw [stage] at hcall
    cases hcall
    exact .waiting _
  | @hit slot b stage cell =>
    have hseat : call.stage.phase.seat? = some slot := by
      rcases stage with stage | stage <;> rw [stage] <;> rfl
    have hasked : moments = [.asked call.ticket call.request.name call.request.text] := by
      rcases stage with stage | stage <;> rw [stage] at hcall <;> cases hcall <;> rfl
    obtain ⟨hname, hoffered⟩ := hfound slot b hseat cell
    rw [hasked]
    rcases b.conflict_eq hoffered call.request.text with ⟨hread, hnone⟩ | ⟨hread, hone⟩
    · rw [hnone]
      exact .leaving (.agreed hname hread)
    · rw [hone, hname]
      exact .leaving (.differs hname hread)
  | begin stage cell =>
    rw [stage] at hcall
    cases hcall
    exact .opening _
  | accept stage text =>
    rw [stage] at hcall
    cases hcall
    exact .running text .nothing
  | reject stage text =>
    rw [stage] at hcall
    cases hcall
    exact .misread text
  | bind stage =>
    rw [stage] at hcall
    obtain ⟨hread, events, hplan, rfl⟩ := hcall.of_running
    exact .leaving (.resolved hread hplan)
  | refuse stage =>
    rw [stage] at hcall
    obtain ⟨hread, events, hplan, rfl⟩ := hcall.of_running
    exact .refused hread hplan
  | panic stage =>
    rw [stage] at hcall
    obtain ⟨hread, events, hplan, rfl⟩ := hcall.of_running
    exact .leaving (.panicked hread hplan)
  | @tell slot signature event next stage =>
    rw [stage] at hcall
    obtain ⟨hread, events, hplan, rfl⟩ := hcall.of_running
    have htold : working call.ticket call.request signature events ++ [.told call.ticket event] =
        working call.ticket call.request signature (events ++ [event]) := by
      simp [working]
    rw [State.still, htold]
    exact .running hread hplan.tell
  | step stage => exact hruns stage fun events => .step s.world
  | look stage => exact hruns stage fun events => .look _
  | discard stage =>
    rw [stage] at hcall
    cases hcall with
    | misread read => exact .leaving (.misread read)
    | refused read plan =>
      rw [State.altered, List.append_assoc]
      exact .leaving (.refused read plan)

end Interleaving

end NativeLink
