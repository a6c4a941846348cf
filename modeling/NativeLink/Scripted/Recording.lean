import NativeLink.Cache.Plan
import NativeLink.Scripted.Script

/-!
# The recording resolver

The recording resolver binds every name that is not on its list of missing names
to a callable that records its calls.  A name with a responder answers by its
script; any other answers the zero of the result kind it was resolved with.
-/

namespace NativeLink

/-- What a recording resolver knows and has seen. -/
structure Recorder where
  /-- The names that cannot be resolved. -/
  missing : List String
  /-- The scripts of the names that have one. -/
  responders : List (String × Script)
  /-- How often the resolver was asked. -/
  asked : Nat := 0
  /-- The names it was asked for, in order. -/
  resolutions : List String := []
  /-- The calls that were made, in order. -/
  calls : List (String × List Value) := []

namespace Recorder

/-- The arguments of the calls made under a name, in order. -/
def callsTo (r : Recorder) (symbol : String) : List (List Value) :=
  r.calls.filterMap fun (name, args) => if name = symbol then some args else none

/-- Replaces the script of a name. -/
def setResponder (name : String) (script : Script) :
    List (String × Script) → List (String × Script)
  | [] => []
  | entry :: rest =>
    if entry.1 = name then (name, script) :: rest else entry :: setResponder name script rest

/-- The callable of a name. -/
def callable (name : String) (result : Kind) : Callable Recorder := fun args r =>
  let r := { r with calls := r.calls ++ [(name, args)] }
  match r.responders.lookup name with
  | none => (.returned (.ok (.zero result)), [], r)
  | some script =>
    let (reply, script) := script.call args
    (reply, [], { r with responders := setResponder name script r.responders })

/-- The resolver. -/
def resolver : Resolver Recorder := fun name signature =>
  .step (fun r => { r with asked := r.asked + 1, resolutions := r.resolutions ++ [name] }) fun r =>
    if name ∈ r.missing then .answer (.error (.symbolNotFound name))
    else .answer (.ok (callable name signature.result))

end Recorder

end NativeLink
