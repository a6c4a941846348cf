import Mathlib.Data.BitVec
import Mathlib.Data.Int.ModEq
import NativeLink.Proofs.Foreign.Admission

/-!
# Values cross the border bit for bit

Native code is a function of the bits of its arguments.  Of the call mechanism only this is
known: arguments arrive unchanged and in order, and the result stands in the low bits of a
word.  `Routine.CarriesOut` says just that, and leaves open what stands above the result.

Whatever the native code is, a call with arguments of the right kinds then answers the value
that has the bits of its result.  So arithmetic that wraps is exact modulo the width, for
signed and unsigned integers alike: both are read off bits whose residue is that of the
integer.
-/

namespace NativeLink

variable {π : Type}

/-! ## Native code -/

/-- What native code does with the bits of its arguments. -/
abbrev Native (π : Type) : Type := List Argument → π → Argument × π

/-- A routine carries out native code that is called through an interface. -/
structure Routine.CarriesOut (routine : Routine π) (i : Interface) (native : Native π) : Prop where
  result : ∀ arguments process, arguments.map Argument.type = i.arguments →
    .ofWord (routine (arguments.map Argument.word) process).1 i.result =
      (native arguments process).1
  process : ∀ arguments process, arguments.map Argument.type = i.arguments →
    (routine (arguments.map Argument.word) process).2 = (native arguments process).2

namespace Argument

/-- The word with an argument in its low bits, and others above them. -/
def under (a : Argument) (upper : UInt64) : UInt64 :=
  .ofBitVec (a.bits.setWidth 64 ||| upper.toBitVec <<< a.type.width)

/-- The bits above an argument do not matter. -/
@[simp] theorem ofWord_under (a : Argument) (upper : UInt64) :
    ofWord (a.under upper) a.type = a := by
  obtain ⟨t, bits⟩ := a
  have hlow : (bits.setWidth 64 ||| upper.toBitVec <<< t.width).setWidth t.width = bits := by
    ext j hj
    have hj64 : j < 64 := Nat.lt_of_lt_of_le hj t.width_le
    simp [hj, hj64]
  simp only [ofWord, under, hlow]

/-- Words of the right types are read back as the arguments they carry. -/
theorem zipWith_ofWord (arguments : List Argument) :
    List.zipWith ofWord (arguments.map word) (arguments.map type) = arguments := by
  induction arguments with
  | nil => rfl
  | cons a arguments ih => simp only [List.map_cons, List.zipWith_cons_cons, ofWord_word, ih]

end Argument

namespace Native

/-- The routine that carries out native code and leaves arbitrary bits above the result. -/
def behind (native : Native π) (i : Interface) (upper : List UInt64 → π → UInt64) : Routine π :=
  fun words process =>
    let (result, after) := native (List.zipWith .ofWord words i.arguments) process
    (result.under (upper words process), after)

/-- **All native code is carried out**, with whatever bits above its results. -/
theorem carriesOut_behind (native : Native π) (i : Interface)
    (h : ∀ arguments process, (native arguments process).1.type = i.result)
    (upper : List UInt64 → π → UInt64) : (native.behind i upper).CarriesOut i native where
  result arguments process harguments := by
    simp only [behind, ← harguments, Argument.zipWith_ofWord, ← h arguments process,
      Argument.ofWord_under]
  process arguments process harguments := by
    simp only [behind, ← harguments, Argument.zipWith_ofWord]

/-- Native code of two arguments and a result of one type. -/
def binary (t : NativeType) (op : BitVec t.width → BitVec t.width → BitVec t.width) : Native π :=
  fun arguments process =>
    match arguments with
    | [a, b] => (⟨t, op (a.bits.setWidth _) (b.bits.setWidth _)⟩, process)
    | _ => (⟨t, 0⟩, process)

/-- The sum of two arguments, which wraps. -/
def sum (t : NativeType) : Native π := binary t (· + ·)

/-- The difference of two arguments, which wraps. -/
def difference (t : NativeType) : Native π := binary t (· - ·)

@[simp] theorem type_binary (t : NativeType)
    (op : BitVec t.width → BitVec t.width → BitVec t.width) (arguments : List Argument)
    (process : π) : (binary t op arguments process).1.type = t := by
  unfold binary
  split <;> rfl

end Native

/-! ## Integers -/

section Residues

variable {w : Nat}

theorem intCast_toNat (x : BitVec w) : ((x.toNat : Int) : BitVec w) = x := by
  change BitVec.ofInt w x.toNat = x
  rw [BitVec.ofInt_natCast, BitVec.ofNat_toNat, BitVec.setWidth_eq]

theorem intCast_toInt (x : BitVec w) : (x.toInt : BitVec w) = x := BitVec.ofInt_toInt

/-- Integers with the same residue are congruent. -/
theorem modEq_of_intCast_eq {a b : Int} (h : (a : BitVec w) = b) : a ≡ b [ZMOD 2 ^ w] := by
  have hbmod : a.bmod (2 ^ w) = b.bmod (2 ^ w) := by
    rw [← BitVec.toInt_ofInt, ← BitVec.toInt_ofInt]
    exact congrArg BitVec.toInt h
  have hemod : a % ((2 ^ w : Nat) : Int) = b % ((2 ^ w : Nat) : Int) := by
    rw [← Int.bmod_emod, hbmod, Int.bmod_emod]
  simpa [Int.ModEq] using hemod

end Residues

/-- The kinds of integers. -/
def Kind.isInteger : Kind → Bool
  | uint8 | uint16 | uint32 | uint64 | sint8 | sint16 | sint32 | sint64 => true
  | void | pointer | float | double => false

namespace Value

/-- The integer that a value is. -/
def integer? : Value → Option Int
  | uint8 n => some n.toNat
  | uint16 n => some n.toNat
  | uint32 n => some n.toNat
  | uint64 n => some n.toNat
  | sint8 n => some n.toInt
  | sint16 n => some n.toInt
  | sint32 n => some n.toInt
  | sint64 n => some n.toInt
  | void | pointer _ | float _ | double _ => none

theorem isSome_integer? (v : Value) : v.integer?.isSome = v.kind.isInteger := by
  cases v <;> rfl

/-- **An integer leaves its residue**, signed or not. -/
theorem argument_of_integer? {v : Value} {a : Int} (h : v.integer? = some a) :
    v.argument = ⟨v.kind.nativeType, a⟩ := by
  cases v <;> cases h <;>
    first
    | exact congrArg (Argument.mk _) (intCast_toNat _).symm
    | exact congrArg (Argument.mk _) (intCast_toInt _).symm

end Value

namespace Native

/-- Native code of two integers answers the residue of an integer operation that its own
operation follows. -/
theorem binary_integers {t : NativeType} {op : BitVec t.width → BitVec t.width → BitVec t.width}
    {v u : Value} {a b : Int} (hv : v.integer? = some a) (hu : u.integer? = some b)
    (hvt : v.kind.nativeType = t) (hut : u.kind.nativeType = t) (process : π) :
    (binary t op [v.argument, u.argument] process).1 = ⟨t, op a b⟩ := by
  subst hvt
  have hu' : u.argument = ⟨v.kind.nativeType, b⟩ := by
    rw [Value.argument_of_integer? hu, ← hut]
  rw [Value.argument_of_integer? hv, hu']
  simp only [binary, BitVec.setWidth_eq]

end Native

namespace ForeignFunction

variable {f : ForeignFunction π} {native : Native π} {args : List Value} {process : π}

/-! ## Through the border and back -/

/-- What a call answers, when it answers a value. -/
def Answers (f : ForeignFunction π) (args : List Value) (process : π) (v : Value) : Prop :=
  (f.call args process).1 = .returned (.ok v)

/-- A call answers an integer of a kind, up to the width of that kind. -/
def AnswersInteger (f : ForeignFunction π) (args : List Value) (process : π) (k : Kind)
    (a : Int) : Prop :=
  ∃ v b, f.Answers args process v ∧ v.kind = k ∧ v.integer? = some b ∧ b ≡ a [ZMOD 2 ^ k.width]

/-- Values cross the border to native code and back without a bit being changed. -/
structure Conveyed (f : ForeignFunction π) (native : Native π) (args : List Value)
    (process : π) : Prop where
  /-- The routine is entered once, and the words it is given hold the bits of the values. -/
  received : f.entries args process = [args.map Value.word] ∧
    List.zipWith .ofWord (args.map Value.word) f.interface.arguments = args.map Value.argument
  /-- The value that comes back has the bits of the result. -/
  answered : ∃ v, f.Answers args process v ∧ v.kind = f.signature.result ∧
    v.argument = (native (args.map Value.argument) process).1
  after : (f.call args process).2.2 = (native (args.map Value.argument) process).2
  sum : ∀ k a b, f.signature = ⟨[k, k], k⟩ → native = .sum k.nativeType →
    args.map Value.integer? = [some a, some b] → f.AnswersInteger args process k (a + b)
  difference : ∀ k a b, f.signature = ⟨[k, k], k⟩ → native = .difference k.nativeType →
    args.map Value.integer? = [some a, some b] → f.AnswersInteger args process k (a - b)

/-- **The value that comes back has the bits of the result**, whatever stood above them. -/
theorem answers_of_carriesOut (hroutine : f.routine.CarriesOut f.interface native)
    (hvoid : .void ∉ f.signature.params) (hkinds : args.map Value.kind = f.signature.params)
    (process : π) : ∃ v, f.Answers args process v ∧ v.kind = f.signature.result ∧
      v.argument = (native (args.map Value.argument) process).1 := by
  have hmade := made_of_fits hkinds hvoid process
  refine ⟨_, congrArg Prod.fst hmade.call, Value.kind_ofWord _ _, ?_⟩
  rw [Value.argument_ofWord]
  exact hroutine.result _ process hmade.types

/-- Native code that follows an integer operation follows it up to the width. -/
theorem answersInteger_of_binary {k : Kind} {a b c : Int}
    {op : BitVec k.nativeType.width → BitVec k.nativeType.width → BitVec k.nativeType.width}
    (hroutine : f.routine.CarriesOut f.interface (.binary k.nativeType op))
    (hsignature : f.signature = ⟨[k, k], k⟩) (hvoid : .void ∉ f.signature.params)
    (hkinds : args.map Value.kind = f.signature.params)
    (hargs : args.map Value.integer? = [some a, some b])
    (hop : op a b = c) (process : π) : f.AnswersInteger args process k c := by
  obtain ⟨result, hanswers, hkind, hbits⟩ := answers_of_carriesOut hroutine hvoid hkinds process
  obtain ⟨v, u, rfl⟩ : ∃ v u, args = [v, u] :=
    List.length_eq_two.mp (by simpa using congrArg List.length hargs)
  simp only [hsignature, List.map_cons, List.map_nil, List.cons.injEq, and_true] at hargs hkinds
  have hvt : v.kind.nativeType = k.nativeType := congrArg Kind.nativeType hkinds.1
  have hut : u.kind.nativeType = k.nativeType := congrArg Kind.nativeType hkinds.2
  rw [List.map_cons, List.map_cons, List.map_nil,
    Native.binary_integers hargs.1 hargs.2 hvt hut, hop] at hbits
  have hresult : result.kind = k := by rw [hkind, hsignature]
  -- The result is an integer since its kind is that of an argument.
  obtain ⟨d, hd⟩ : ∃ d, result.integer? = some d := by
    rw [← Option.isSome_iff_exists, Value.isSome_integer?, hresult, ← hkinds.1,
      ← Value.isSome_integer?, hargs.1]
    rfl
  rw [Value.argument_of_integer? hd] at hbits
  subst hresult
  refine ⟨result, d, hanswers, rfl, hd, ?_⟩
  rw [← Kind.width_nativeType]
  exact modEq_of_intCast_eq (by simpa using hbits)

/-- **Values cross the border exactly.** -/
theorem conveyed_exactly (hroutine : f.routine.CarriesOut f.interface native)
    (hvoid : .void ∉ f.signature.params) (hkinds : args.map Value.kind = f.signature.params)
    (process : π) : f.Conveyed native args process := by
  have hmade := made_of_fits hkinds hvoid process
  constructor
  case received =>
    rw [hmade.entries, ← hmade.types, Value.map_word_argument]
    exact ⟨rfl, by rw [← Value.map_word_argument, Argument.zipWith_ofWord]⟩
  case answered => exact answers_of_carriesOut hroutine hvoid hkinds process
  case after =>
    rw [hmade.call]
    exact hroutine.process _ process hmade.types
  case sum =>
    rintro k a b hsignature rfl hargs
    exact answersInteger_of_binary hroutine hsignature hvoid hkinds hargs
      (Int.cast_add a b).symm process
  case difference =>
    rintro k a b hsignature rfl hargs
    exact answersInteger_of_binary hroutine hsignature hvoid hkinds hargs
      (Int.cast_sub a b).symm process

/-- A difference that wraps, with every bit above it set. -/
def wrapping : ForeignFunction Unit where
  symbol := "sub_i8"
  signature := ⟨[.sint8, .sint8], .sint8⟩
  address := .null
  routine := (Native.difference .i8).behind ⟨[.i8, .i8], .i8⟩ fun _ _ => -1

theorem conveyed_exactly_of_wrapping :
    wrapping.routine.CarriesOut wrapping.interface (.difference .i8) ∧
      .void ∉ wrapping.signature.params ∧
      [.sint8 (-128), .sint8 1].map Value.kind = wrapping.signature.params ∧
      wrapping.Conveyed (.difference .i8) [.sint8 (-128), .sint8 1] () ∧
      wrapping.Answers [.sint8 (-128), .sint8 1] () (.sint8 127) := by
  have hroutine : wrapping.routine.CarriesOut wrapping.interface (.difference .i8) :=
    Native.carriesOut_behind (.difference .i8) wrapping.interface (Native.type_binary _ _) _
  have hvoid : .void ∉ wrapping.signature.params := by decide
  have hkinds : [.sint8 (-128), .sint8 1].map Value.kind = wrapping.signature.params := by decide
  exact ⟨hroutine, hvoid, hkinds, conveyed_exactly hroutine hvoid hkinds (), rfl⟩

end ForeignFunction

end NativeLink
