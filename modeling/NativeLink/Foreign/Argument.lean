import NativeLink.Foreign.Function

/-!
# Arguments as native code sees them

Native code does not see values but bits, as many as the type at the position has.  An
argument is a type and that many bits; its word, as the call mechanism hands it over,
carries the bits at the low end and zeros above them.

A call interface says which types a routine is called with and which it answers.  It is
prepared once, together with the function.  The call mechanism has types of its own for
this, and every kind stands for one of them.
-/

namespace NativeLink

/-- The types of the call mechanism. -/
inductive NativeType where
  | void
  | pointer
  | u8
  | u16
  | u32
  | u64
  | i8
  | i16
  | i32
  | i64
  | f32
  | f64
  deriving DecidableEq

/-- The number of bits of a type. -/
def NativeType.width : NativeType → Nat
  | void => 0
  | pointer => 64
  | u8 => 8
  | u16 => 16
  | u32 => 32
  | u64 => 64
  | i8 => 8
  | i16 => 16
  | i32 => 32
  | i64 => 64
  | f32 => 32
  | f64 => 64

theorem NativeType.width_le (t : NativeType) : t.width ≤ 64 := by cases t <;> decide

namespace Kind

/-- The type that a call interface has for a kind. -/
def nativeType : Kind → NativeType
  | void => .void
  | pointer => .pointer
  | uint8 => .u8
  | uint16 => .u16
  | uint32 => .u32
  | uint64 => .u64
  | sint8 => .i8
  | sint16 => .i16
  | sint32 => .i32
  | sint64 => .i64
  | float => .f32
  | double => .f64

/-- The type is as wide as the kind. -/
@[simp] theorem width_nativeType (k : Kind) : k.nativeType.width = k.width := by cases k <;> rfl

end Kind

/-- The bits of one argument, with the type they are read as. -/
structure Argument where
  type : NativeType
  bits : BitVec type.width

namespace Argument

/-- The word that carries an argument. -/
def word (a : Argument) : UInt64 := .ofBitVec (a.bits.setWidth 64)

/-- The argument of a type in the low bits of a word. -/
def ofWord (w : UInt64) (t : NativeType) : Argument := ⟨t, w.toBitVec.setWidth t.width⟩

/-- The low bits of the word are those of the argument. -/
@[simp] theorem ofWord_word (a : Argument) : ofWord a.word a.type = a := by
  cases a with
  | mk type bits => simp [ofWord, word, BitVec.setWidth_setWidth_of_le, type.width_le]

end Argument

/-- The bits of a value. -/
def Value.argument : Value → Argument
  | void => ⟨.void, 0#0⟩
  | pointer a => ⟨.pointer, a.raw.toBitVec⟩
  | uint8 n => ⟨.u8, n.toBitVec⟩
  | uint16 n => ⟨.u16, n.toBitVec⟩
  | uint32 n => ⟨.u32, n.toBitVec⟩
  | uint64 n => ⟨.u64, n.toBitVec⟩
  | sint8 n => ⟨.i8, n.toBitVec⟩
  | sint16 n => ⟨.i16, n.toBitVec⟩
  | sint32 n => ⟨.i32, n.toBitVec⟩
  | sint64 n => ⟨.i64, n.toBitVec⟩
  | float bits => ⟨.f32, bits.toBitVec⟩
  | double bits => ⟨.f64, bits.toBitVec⟩

namespace Value

/-- A value is read as the type that its kind stands for. -/
@[simp] theorem type_argument (v : Value) : v.argument.type = v.kind.nativeType := by
  cases v <;> rfl

theorem map_type_argument (args : List Value) :
    (args.map argument).map Argument.type = (args.map kind).map Kind.nativeType := by
  rw [List.map_map, List.map_map]
  exact List.map_congr_left fun v _ => v.type_argument

/-- **The word of a value** is that of its bits. -/
@[simp] theorem word_argument (v : Value) : v.argument.word = v.word := by
  cases v <;> rfl

theorem map_word_argument (args : List Value) :
    (args.map argument).map Argument.word = args.map word := by
  rw [List.map_map]
  exact List.map_congr_left fun v _ => v.word_argument

/-- **The value in a word** has the low bits of the word. -/
@[simp] theorem argument_ofWord (w : UInt64) (k : Kind) :
    (ofWord w k).argument = .ofWord w k.nativeType := by
  cases k with
  | void => exact congrArg (Argument.mk .void) (BitVec.of_length_zero ).symm
  | _ => simp [ofWord, argument, Argument.ofWord, Kind.nativeType, NativeType.width]

end Value

/-- The types of a call: those of its arguments, and that of its result. -/
structure Interface where
  arguments : List NativeType
  result : NativeType
  deriving DecidableEq

namespace ForeignFunction

variable {π : Type}

/-- The call interface that is prepared for a function. -/
def interface (f : ForeignFunction π) : Interface :=
  ⟨f.signature.params.map Kind.nativeType, f.signature.result.nativeType⟩

end ForeignFunction

end NativeLink
