import NativeLink.Address
import NativeLink.Error
import NativeLink.Number.Binary

/-!
# Native values

A value that crosses the border to native code carries its kind.  Floating-point
values are kept as their bits, so that equality of values in the logic is equality
of bits.  The comparison that a program makes, `Value.agrees`, is that of numbers:
a value that is not a number agrees with nothing, not even itself, and the two
zeros agree.
-/

namespace NativeLink

/-- A native value with its kind. -/
inductive Value where
  | void
  | pointer (address : Address)
  | uint8 (n : UInt8)
  | uint16 (n : UInt16)
  | uint32 (n : UInt32)
  | uint64 (n : UInt64)
  | sint8 (n : Int8)
  | sint16 (n : Int16)
  | sint32 (n : Int32)
  | sint64 (n : Int64)
  | float (bits : UInt32)
  | double (bits : UInt64)
  deriving DecidableEq

namespace Value

/-- The pointer that points nowhere. -/
def null : Value := .pointer .null

instance : Inhabited Value := ⟨.void⟩

/-- The kind of a value. -/
def kind : Value → Kind
  | void => .void
  | pointer _ => .pointer
  | uint8 _ => .uint8
  | uint16 _ => .uint16
  | uint32 _ => .uint32
  | uint64 _ => .uint64
  | sint8 _ => .sint8
  | sint16 _ => .sint16
  | sint32 _ => .sint32
  | sint64 _ => .sint64
  | float _ => .float
  | double _ => .double

/-- The address in a pointer.  No integer is taken for one. -/
def asPointer : Value → Except NotAPointer Address
  | pointer address => .ok address
  | other => .error ⟨other.kind⟩

@[simp] theorem asPointer_pointer (a : Address) : (pointer a).asPointer = .ok a := rfl

/-- The refusal names the kind of the value. -/
theorem asPointer_of_ne {v : Value} (h : v.kind ≠ .pointer) : v.asPointer = .error ⟨v.kind⟩ := by
  cases v with
  | pointer _ => exact absurd rfl h
  | _ => rfl

def isNullPointer : Value → Bool
  | pointer address => address.isNull
  | _ => false

/-- Equality as a program sees it, which for floating-point values is that of numbers. -/
def agrees : Value → Value → Bool
  | float a, float b => Binary.single.agree a.toNat b.toNat
  | double a, double b => Binary.double.agree a.toNat b.toNat
  | a, b => a == b

/-- Pointwise agreement of two lists. -/
def agreeAll : List Value → List Value → Bool
  | [], [] => true
  | a :: as, b :: bs => a.agrees b && agreeAll as bs
  | _, _ => false

/-- The zero of a kind; for pointers the null pointer. -/
def zero : Kind → Value
  | .void => void
  | .pointer => null
  | .uint8 => uint8 0
  | .uint16 => uint16 0
  | .uint32 => uint32 0
  | .uint64 => uint64 0
  | .sint8 => sint8 0
  | .sint16 => sint16 0
  | .sint32 => sint32 0
  | .sint64 => sint64 0
  | .float => float 0
  | .double => double 0

@[simp] theorem kind_zero (k : Kind) : (zero k).kind = k := by cases k <;> rfl

/-- The inspection of a value.  Floating-point values have none: their text is no part of the
format. -/
def inspect? : Value → Option Inspect
  | void => some (.word "Void")
  | pointer a => some (.tuple "Pointer" [a.inspect])
  | uint8 n => some (.tuple "UInt8" [.word (toString n.toNat)])
  | uint16 n => some (.tuple "UInt16" [.word (toString n.toNat)])
  | uint32 n => some (.tuple "UInt32" [.word (toString n.toNat)])
  | uint64 n => some (.tuple "UInt64" [.word (toString n.toNat)])
  | sint8 n => some (.tuple "SInt8" [.word (toString n.toInt)])
  | sint16 n => some (.tuple "SInt16" [.word (toString n.toInt)])
  | sint32 n => some (.tuple "SInt32" [.word (toString n.toInt)])
  | sint64 n => some (.tuple "SInt64" [.word (toString n.toInt)])
  | float _ => none
  | double _ => none

end Value

end NativeLink
