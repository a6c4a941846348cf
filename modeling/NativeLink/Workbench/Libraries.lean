import NativeLink.Workbench.Routines

/-!
# Sample libraries

Two shared libraries can be loaded by their plain names; some names are in both,
with different routines.  The process itself offers a few functions of the C
library.
-/

namespace NativeLink

namespace Workbench

/-- The routines of the first library. -/
def libraryA : List (String × Routine Machine) := [
  ("a_only", compute fun _ => 1),
  ("shared_fn", compute fun _ => 10),
  ("labs", compute fun w => argument w 0 + 1000),
  ("__dynamic_cast", compute fun w =>
    if argument w 1 = argument w 2 then argument w 0
    else if argument w 2 < argument w 1 then 0
    else argument w 0 + argument w 3),
  ("__cxa_free_exception", compute fun _ => 0),
  ("oracle_data", compute fun _ => 0)]

/-- The routines of the second library. -/
def libraryB : List (String × Routine Machine) := [
  ("b_only", compute fun _ => 2),
  ("shared_fn", compute fun _ => 20),
  ("labs", compute fun w => argument w 0 + 2000),
  ("getNullPointer", compute fun _ => 0xb0b0),
  ("b_mul", compute fun w => floatWord (Binary.double.mul (argument w 0).toNat (argument w 1).toNat))]

/-! ## Functions of the C library -/

/-- The magnitude of a number of sixty-four bits; the least one has none and stays as it is. -/
def magnitude64 (w : UInt64) : UInt64 := if w.toInt64 < 0 then 0 - w else w

/-- The magnitude of a number of thirty-two bits. -/
def magnitude32 (w : UInt64) : UInt64 :=
  let n := w.toUInt32
  (if n.toInt32 < 0 then 0 - n else n).toUInt64

/-- The capital of a letter.  The table behind it reaches from -128 to 255; of the negative
numbers only the last is its own capital, the others count as bytes. -/
def upper (w : UInt64) : UInt64 :=
  let c := w.toUInt32.toInt32.toInt
  let answer : Int :=
    if 97 ≤ c ∧ c ≤ 122 then c - 32
    else if -128 ≤ c ∧ c < -1 then c + 256
    else c
  (Int32.ofInt answer).toUInt32.toUInt64

/-- Whether a byte is a blank. -/
def isSpaceByte (b : UInt8) : Bool := b == 32 || (9 ≤ b && b ≤ 13)

/-- Whether a byte is a decimal digit. -/
def isDigitByte (b : UInt8) : Bool := 48 ≤ b && b ≤ 57

/-- The number that digits denote. -/
def decimalOf (bytes : List UInt8) : Nat :=
  (bytes.takeWhile isDigitByte).foldl (fun n b => 10 * n + (b.toNat - 48)) 0

/-- The number a text begins with, after blanks and with a sign.  It is first brought within the
bounds of sixty-four bits and then cut to thirty-two. -/
def leadingNumber (bytes : List UInt8) : UInt64 :=
  let n : Int :=
    match bytes.dropWhile isSpaceByte with
    | 45 :: rest => -(decimalOf rest)
    | 43 :: rest => decimalOf rest
    | rest => decimalOf rest
  (Int32.ofInt (max Int64.minValue.toInt (min Int64.maxValue.toInt n))).toUInt32.toUInt64

/-- The functions of the process. -/
def processRoutines : List (String × Routine Machine) := [
  ("abs", compute fun w => magnitude32 (argument w 0)),
  ("labs", compute fun w => magnitude64 (argument w 0)),
  ("toupper", compute fun w => upper (argument w 0)),
  ("strlen", fun w p => (.ofNat (p.textAt (argument w 0)).length, p)),
  ("atoi", fun w p => (leadingNumber (p.textAt (argument w 0)), p)),
  ("free", compute fun _ => 0),
  ("malloc", fun w p =>
    let (address, p) := p.place [] (argument w 0).toNat
    (address.raw, p))]

end Workbench

end NativeLink
