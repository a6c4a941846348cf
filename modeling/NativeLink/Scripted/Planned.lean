import NativeLink.Scripted.Stock

/-!
# The planned resolver

The planned resolver follows a list of decisions for each name, one for each time
it is asked; the last decision of a name stays.  A name without decisions is
accepted, and its callable echoes the first argument.
-/

namespace NativeLink

/-- What a planned resolver will decide and what it was asked for. -/
structure Planner where
  /-- The decisions still to come for each name that has some. -/
  decisions : List (String × List Decision)
  stock : Stock := []
  /-- The names it was asked for, with their signatures, in order. -/
  resolutions : List (String × Signature) := []

namespace Planner

instance : HasStock Planner := ⟨Planner.stock, fun stock p => { p with stock := stock }⟩

/-- The next decision on a name.  A name without decisions is accepted and echoes its first
argument. -/
def next (p : Planner) (name : String) : Decision :=
  match p.decisions.lookup name with
  | some (decision :: _) => decision
  | _ => .accept (.echo 0)

/-- Uses up a decision, unless it is the last. -/
def useUp (name : String) : List (String × List Decision) → List (String × List Decision)
  | [] => []
  | entry :: rest =>
    if entry.1 = name then
      match entry.2 with
      | _ :: decision :: more => (name, decision :: more) :: rest
      | _ => entry :: rest
    else entry :: useUp name rest

/-- The resolver. -/
def resolver : Resolver Planner := fun name signature =>
  .step
    (fun p =>
      { p with
        decisions := useUp name p.decisions
        resolutions := p.resolutions ++ [(name, signature)] })
    fun p => (p.next name).plan

end Planner

end NativeLink
