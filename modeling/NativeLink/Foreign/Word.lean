import NativeLink.Value

/-!
# Values as words

A value crosses the border as a word of sixty-four bits.  An argument fills the
low bits of its word and leaves the others zero; a result is taken from the low
bits of the word it comes in, whatever stands in the others.
-/

namespace NativeLink

/-- The number of bits of a kind. -/
def Kind.width : Kind → Nat
  | .void => 0
  | .pointer => 64
  | .uint8 => 8
  | .uint16 => 16
  | .uint32 => 32
  | .uint64 => 64
  | .sint8 => 8
  | .sint16 => 16
  | .sint32 => 32
  | .sint64 => 64
  | .float => 32
  | .double => 64

namespace Value

/-- The word that carries a value. -/
def word : Value → UInt64
  | void => 0
  | pointer a => a.raw
  | uint8 n => n.toUInt64
  | uint16 n => n.toUInt64
  | uint32 n => n.toUInt64
  | uint64 n => n
  | sint8 n => n.toUInt8.toUInt64
  | sint16 n => n.toUInt16.toUInt64
  | sint32 n => n.toUInt32.toUInt64
  | sint64 n => n.toUInt64
  | float bits => bits.toUInt64
  | double bits => bits

/-- The value of a kind in the low bits of a word. -/
def ofWord (w : UInt64) : Kind → Value
  | .void => void
  | .pointer => pointer ⟨w⟩
  | .uint8 => uint8 w.toUInt8
  | .uint16 => uint16 w.toUInt16
  | .uint32 => uint32 w.toUInt32
  | .uint64 => uint64 w
  | .sint8 => sint8 w.toUInt8.toInt8
  | .sint16 => sint16 w.toUInt16.toInt16
  | .sint32 => sint32 w.toUInt32.toInt32
  | .sint64 => sint64 w.toInt64
  | .float => float w.toUInt32
  | .double => double w

@[simp] theorem kind_ofWord (w : UInt64) (k : Kind) : (ofWord w k).kind = k := by
  cases k <;> rfl

/-- A value comes back from the word that carries it. -/
@[simp] theorem ofWord_word (v : Value) : ofWord v.word v.kind = v := by
  cases v <;> simp [word, ofWord, kind]

end Value

end NativeLink
