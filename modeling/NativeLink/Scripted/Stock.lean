import NativeLink.Cache.Plan
import NativeLink.Scripted.Script

/-!
# Decisions and the stock of callables

What a resolver decides on a name can be laid down in advance.  Every decision in
favour of a name makes a new callable with a script of its own.  The scripts are
kept in a stock, where each callable has a number, and they change there as the
callable is called.
-/

namespace NativeLink

/-- What a resolver decides on a name. -/
inductive Decision where
  | accept (script : Script)
  | reject (error : ResolveError)
  | panic (text : String)

/-- The scripts of all callables that were made, by number. -/
abbrev Stock : Type := List Script

/-- A world with a stock in it. -/
class HasStock (σ : Type) where
  stock : σ → Stock
  setStock : Stock → σ → σ

namespace Stock

variable {σ : Type} [HasStock σ]

/-- The callable with a number. -/
def callable (number : Nat) : Callable σ := fun args world =>
  match (HasStock.stock world)[number]? with
  | none => (.stuck, [], world)
  | some script =>
    let (reply, script) := script.call args
    (reply, [], HasStock.setStock ((HasStock.stock world).set number script) world)

end Stock

/-- Carries a decision out. -/
def Decision.plan {σ : Type} [HasStock σ] : Decision → Plan σ
  | .accept script =>
    .step (fun world => HasStock.setStock (HasStock.stock world ++ [script]) world) fun world =>
      .answer (.ok (Stock.callable (HasStock.stock world).length))
  | .reject error => .answer (.error error)
  | .panic text => .panic (.plain text)

end NativeLink
