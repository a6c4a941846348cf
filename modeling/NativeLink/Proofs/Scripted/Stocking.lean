import NativeLink.Proofs.Client.Shelf
import NativeLink.Scripted.Planned

/-!
# The stock as a shelf

A stock of scripts is a shelf: a scripted callable answers from its own script and changes no
other.  Decisions stock a script whenever they accept, so the planned resolver makes a new callable
for each name that it finds, and it still does when the dependencies of a name are requested first.
-/

namespace NativeLink

variable {σ κ : Type}

/-- A stock of scripts is a shelf, if what is put into the world is found there. -/
def Stock.shelf [HasStock σ]
    (lawful : ∀ stock (world : σ), HasStock.stock (HasStock.setStock stock world) = stock) :
    Shelf σ Script where
  states := HasStock.stock
  callable := Stock.callable
  turn script args := script.call args
  own := by
    intro world n script args h
    simp only [Stock.callable, h, lawful, and_self]

/-- A decision that accepts makes a new callable. -/
theorem Decision.plan_stocks [HasStock σ]
    (lawful : ∀ stock (world : σ), HasStock.stock (HasStock.setStock stock world) = stock)
    (d : Decision) (mine : Nat → Prop) : d.plan.Stocks (Stock.shelf lawful) mine := by
  cases d with
  | accept script =>
    intro world
    have hadded : (Stock.shelf lawful).states
        (HasStock.setStock (HasStock.stock world ++ [script]) world) =
          HasStock.stock world ++ [script] := lawful _ _
    refine ⟨⟨[script], hadded.symm⟩, (HasStock.stock world).length, .inr ⟨Nat.le_refl _, ?_⟩, rfl⟩
    rw [hadded, List.length_append]
    exact Nat.lt_succ_self _
  | reject error => trivial
  | panic text => trivial

section

variable {S : Shelf σ κ} {resolver base : Resolver σ}

theorem Plan.requireAll_stocks (hresolver : resolver.Stocks S) {final : Plan σ} {mine : Nat → Prop}
    (hfinal : final.Stocks S mine) (requests : List (String × String)) :
    (Plan.requireAll resolver final requests).Stocks S mine := by
  induction requests with
  | nil => exact hfinal
  | cons request rest ih =>
    refine ⟨fun signature => hresolver request.1 signature, fun answer => ?_⟩
    cases answer with
    | ok b => exact ih
    | error error => trivial

/-- Dependencies make no difference to that. -/
theorem Resolver.Stocks.withDependencies (h : base.Stocks S)
    (dependencies : String → List (String × String)) (depth : Nat) :
    (Resolver.withDependencies dependencies base depth).Stocks S := by
  induction depth with
  | zero => exact h
  | succ depth ih => exact fun name signature => Plan.requireAll_stocks ih (h name signature) _

end

/-- The stock of a planner. -/
def Planner.shelf : Shelf Planner Script := Stock.shelf fun _ _ => rfl

/-- **The planned resolver makes a new callable for every name that it finds.** -/
theorem Planner.stocks : Planner.resolver.Stocks Planner.shelf := by
  intro name signature p
  exact ⟨List.prefix_refl _, Decision.plan_stocks _ _ _⟩

end NativeLink
