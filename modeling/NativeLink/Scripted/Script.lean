import NativeLink.Binding

/-!
# Scripted callables

A script says what a callable does with its arguments, call after call, without
any native code behind it.  Some scripts change from one call to the next: a
sequence uses up its scripts until only the last is left, and a closure may heed
all calls it has had.  `Script.call` answers the call and gives the script for the
next one.

A closure is as good as a state that it keeps to itself: `Script.keeping` is the
script of a function that is given a state with each call and returns another, and
`call_keeping` says that it answers as that function does.
-/

namespace NativeLink

/-- What a call comes to. -/
abbrev Script.Reply : Type := Outcome (Except TransportError Value)

/-- What a callable does with its arguments. -/
inductive Script where
  | give (value : Value)
  /-- The argument at a position, or a null pointer if there is none. -/
  | echo (position : Nat)
  | refuse (error : TransportError)
  | panic (text : String)
  /-- The number of arguments. -/
  | count
  /-- One script a call; the last one stays. -/
  | inTurn (scripts : List Script)
  /-- The first case whose arguments agree with those of the call. -/
  | choose (cases : List (List Value × Script)) (otherwise : Script)
  /-- Whatever is made of the arguments of the earlier calls and of this one. -/
  | closure (respond : List (List Value) → List Value → Script.Reply)

namespace Script

instance : Inhabited Script := ⟨.count⟩

mutual

/-- Answers a call and gives the script for the next one. -/
def call (args : List Value) : Script → Reply × Script
  | .give value => (.returned (.ok value), .give value)
  | .echo position => (.returned (.ok (args.getD position .null)), .echo position)
  | .refuse error => (.returned (.error error), .refuse error)
  | .panic text => (.panicked (.plain text), .panic text)
  | .count => (.returned (.ok (.uint64 (.ofNat args.length))), .count)
  | .inTurn scripts =>
    let (reply, scripts) := callFirst args scripts
    (reply, .inTurn scripts)
  | .choose cases otherwise =>
    match callCase args cases with
    | some (reply, cases) => (reply, .choose cases otherwise)
    | none =>
      let (reply, otherwise) := call args otherwise
      (reply, .choose cases otherwise)
  | .closure respond => (respond [] args, .closure fun earlier => respond (args :: earlier))

/-- Calls the first script of a sequence, which is then used up unless it is the last. -/
def callFirst (args : List Value) : List Script → Reply × List Script
  | [] => (.returned (.ok .void), [])
  | [script] =>
    let (reply, script) := call args script
    (reply, [script])
  | script :: next :: rest => ((call args script).1, next :: rest)

/-- Calls the first case that agrees with the arguments, if there is one. -/
def callCase (args : List Value) :
    List (List Value × Script) → Option (Reply × List (List Value × Script))
  | [] => none
  | (expected, script) :: rest =>
    if Value.agreeAll expected args then
      let (reply, script) := call args script
      some (reply, (expected, script) :: rest)
    else
      match callCase args rest with
      | some (reply, rest) => some (reply, (expected, script) :: rest)
      | none => none

end

/-- The script of a function that keeps a state from one call to the next. -/
def keeping {τ : Type} (respond : List Value → τ → Reply × τ) (state : τ) : Script :=
  .closure fun earlier args =>
    (respond args (earlier.foldl (fun state args => (respond args state).2) state)).1

/-- **Such a script answers as the function does**, and goes on with the state that it returns. -/
theorem call_keeping {τ : Type} (respond : List Value → τ → Reply × τ) (state : τ)
    (args : List Value) :
    (keeping respond state).call args =
      ((respond args state).1, keeping respond (respond args state).2) := by
  rw [keeping, call, keeping]
  rfl

end Script

end NativeLink
