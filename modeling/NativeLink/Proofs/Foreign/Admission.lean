import NativeLink.Foreign.Argument
import NativeLink.Proofs.Foreign.Call

/-!
# Calls are refused completely or made once

A wrong number of arguments, or one of a wrong type, would have native code read what was
never written.  So a call of a foreign function is decided before anything happens.

* The number of arguments is looked at first, whatever their kinds.
* Then the arguments are looked at from the left, and the call is refused for the first
  place that is at fault: where the kinds differ, or where both are `VOID`, which a
  signature that was built by hand may have.
* If there is none, the routine is entered once, with one argument for each position of
  the call interface and of the type that stands there.

To see how often the routine is entered it is put under watch: `ForeignFunction.watched`
keeps a list of the words it is entered with.  Nothing can be done with that list but add
to it, so for whoever calls it the function is the same.
-/

namespace NativeLink

namespace ForeignFunction

variable {π : Type} {f : ForeignFunction π} {args : List Value} {process : π}
  {error : TransportError}

/-! ## The routine under watch -/

/-- The function with a list of what its routine is entered with. -/
def watched (f : ForeignFunction π) : ForeignFunction (π × List (List UInt64)) where
  symbol := f.symbol
  signature := f.signature
  address := f.address
  routine words := fun (process, entries) =>
    let (word, process) := f.routine words process
    (word, process, entries ++ [words])

/-- The entries into the routine that a call makes. -/
def entries (f : ForeignFunction π) (args : List Value) (process : π) : List (List UInt64) :=
  (f.watched.call args (process, [])).2.2.2

/-- **Watching changes nothing.** -/
theorem call_watched (f : ForeignFunction π) (args : List Value) (process : π)
    (before : List (List UInt64)) :
    f.watched.call args (process, before) =
      ((f.call args process).1, (f.call args process).2.1, (f.call args process).2.2,
        before ++ f.entries args process) := by
  simp only [call, entries, watched]
  cases prepare f.signature args <;> simp

/-- A call is refused: nothing is told, the routine is not entered and the process is left as
it was. -/
structure Refused (f : ForeignFunction π) (args : List Value) (process : π)
    (error : TransportError) : Prop where
  call : f.call args process = (.returned (.error error), [], process)
  entries : f.entries args process = []

/-- A call is made: it is told of once, and the routine is entered once, with arguments of the
types in the call interface. -/
structure Made (f : ForeignFunction π) (args : List Value) (process : π)
    (prepared : List Argument) : Prop where
  types : prepared.map Argument.type = f.interface.arguments
  call : f.call args process =
    (.returned (.ok (.ofWord (f.routine (prepared.map Argument.word) process).1
      f.signature.result)), [.foreignCall f.symbol f.address],
      (f.routine (prepared.map Argument.word) process).2)
  level : (f.call args process).2.1.map Event.level = [.trace]
  entries : f.entries args process = [prepared.map Argument.word]

theorem refused_of_prepare (h : prepare f.signature args = .error error) (process : π) :
    f.Refused args process error := by
  constructor
  · simp only [ForeignFunction.call, h]
  · simp only [ForeignFunction.entries, watched, ForeignFunction.call, h]

theorem made_of_prepare {prepared : List Argument}
    (h : prepare f.signature args = .ok (prepared.map Argument.word))
    (htypes : prepared.map Argument.type = f.interface.arguments) (process : π) :
    f.Made args process prepared := by
  constructor
  case types => exact htypes
  case call => simp only [ForeignFunction.call, h]
  case level => simp only [ForeignFunction.call, h, List.map_cons, List.map_nil, Event.level]
  case entries =>
    simp only [ForeignFunction.entries, watched, ForeignFunction.call, h, List.nil_append]

/-- **A call with arguments that fit is made.** -/
theorem made_of_fits (hkinds : args.map Value.kind = f.signature.params)
    (hvoid : .void ∉ f.signature.params) (process : π) :
    f.Made args process (args.map Value.argument) :=
  made_of_prepare (by rw [prepare_of_kinds hkinds hvoid, Value.map_word_argument])
    (by rw [Value.map_type_argument, hkinds, interface]) process

/-- How a call is decided. -/
structure Decided (f : ForeignFunction π) (args : List Value) (process : π) : Prop where
  /-- An error is a refusal. -/
  silent : ∀ error, (f.call args process).1 = .returned (.error error) →
    f.Refused args process error
  miscounted : args.length ≠ f.signature.params.length →
    f.Refused args process (.argumentCount f.signature.params.length args.length)
  misfit : args.length = f.signature.params.length →
    (∃ i expected got, Fault f.signature.params (args.map Value.kind) i expected got) →
    ∃ i expected got, FirstFault f.signature.params (args.map Value.kind) i expected got ∧
      f.Refused args process (faultError i expected got)
  fitting : args.length = f.signature.params.length →
    (¬∃ i expected got, Fault f.signature.params (args.map Value.kind) i expected got) →
    f.Made args process (args.map Value.argument)
  /-- The entries that are counted are those of this call: it is the same under watch. -/
  watched : ∀ before, f.watched.call args (process, before) =
    ((f.call args process).1, (f.call args process).2.1, (f.call args process).2.2,
      before ++ f.entries args process)

/-- **A call is refused completely or made exactly once.** -/
theorem decided_before_entry (f : ForeignFunction π) (args : List Value) (process : π) :
    f.Decided args process := by
  constructor
  case silent =>
    intro error h
    cases hprepare : prepare f.signature args with
    | error found =>
      have hrefused := refused_of_prepare hprepare process
      rw [hrefused.call] at h
      cases h
      exact hrefused
    | ok words =>
      simp only [ForeignFunction.call, hprepare] at h
      cases h
  case miscounted =>
    intro h
    exact refused_of_prepare (prepare_of_length_ne h) process
  case misfit =>
    rintro hlength ⟨i, expected, got, hfault⟩
    rcases FirstFault.fits_or_exists ((List.length_map _).trans hlength) with
      ⟨hkinds, hvoid⟩ | ⟨i, expected, got, hfirst⟩
    · exact absurd (hkinds ▸ hfault) (Fault.not_self hvoid)
    · exact ⟨i, expected, got, hfirst,
        refused_of_prepare (prepare_of_firstFault hlength hfirst) process⟩
  case fitting =>
    intro hlength hnone
    rcases FirstFault.fits_or_exists ((List.length_map _).trans hlength) with
      ⟨hkinds, hvoid⟩ | ⟨i, expected, got, hfirst⟩
    · exact made_of_fits hkinds hvoid process
    · exact absurd ⟨i, expected, got, hfirst.toFault⟩ hnone
  case watched => exact f.call_watched args process

-- The second argument is a pointer where a number is wanted, but `VOID` stands before it.
example : call ⟨"f", ⟨[.void, .sint32], .void⟩, .null, fun _ p => (0, p)⟩ [.void, .null] () =
    (.returned (.error (.unsupported "argument 0 is VOID")), [], ()) := by rfl

end ForeignFunction

end NativeLink
