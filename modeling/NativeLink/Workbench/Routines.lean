import NativeLink.Workbench.Machine

/-!
# Sample routines

Routines of many signatures: sums and differences that wrap, pointers that move,
floating-point arithmetic, long argument lists, and a cast and a release that
stand in for those of a C++ runtime.  Integers arrive in the low bits of their
words and are taken at the width the routine works with.
-/

namespace NativeLink

namespace Workbench

open Binary

/-- A floating-point result as a word. -/
def floatWord (bits : Nat) : UInt64 := .ofNat bits

/-- The bits of one half. -/
def halfSingle : Nat := 0x3f000000

/-- The bits of two. -/
def twoDouble : Nat := 0x4000000000000000

/-- A word of the given signed width as a number of sixty-four bits. -/
def signExtend (width : Nat) (w : UInt64) : UInt64 :=
  .ofNat (((BitVec.ofNat width w.toNat).signExtend 64).toNat)

/-- The low bits of a word. -/
def zeroExtend (width : Nat) (w : UInt64) : UInt64 := .ofNat (w.toNat % Binary.power width)

/-- The whole part of a floating-point argument, within the bounds of sixty-four bits. -/
def wholePart (f : Format) (w : UInt64) : UInt64 :=
  (Int64.ofInt (f.truncate Int64.minValue.toInt Int64.maxValue.toInt w.toNat)).toUInt64

/-- Ten arguments, each of another kind, as numbers of sixty-four bits. -/
def mixed (words : List UInt64) : List UInt64 :=
  [signExtend 8 (argument words 0), zeroExtend 8 (argument words 1), signExtend 16 (argument words 2),
    zeroExtend 16 (argument words 3), signExtend 32 (argument words 4), zeroExtend 32 (argument words 5),
    argument words 6, argument words 7, wholePart single (argument words 8), wholePart double (argument words 9)]

/-- The numbers `s * k + v` for the elements in turn, the first of which is where it starts. -/
def horner (k : UInt64) : List UInt64 → UInt64
  | [] => 0
  | first :: rest => rest.foldl (fun s v => s * k + v) first

/-- The first ten words. -/
def tenWords (words : List UInt64) : List UInt64 := (List.range 10).map (argument words)

/-- Remembers the address it is given. -/
def recordFree : Routine Machine := fun words p =>
  (0, { p with freed := p.freed ++ [⟨argument words 0⟩] })

/-- The sample routines. -/
def samples : List (String × Routine Machine) := [
  ("add_u8", compute fun w => (argument w 0 + argument w 1) % 0x100),
  ("add_u16", compute fun w => (argument w 0 + argument w 1) % 0x10000),
  ("add_u32", compute fun w => (argument w 0 + argument w 1) % 0x100000000),
  ("add_u64", compute fun w => argument w 0 + argument w 1),
  ("sub_i8", compute fun w => argument w 0 - argument w 1),
  ("sub_i16", compute fun w => argument w 0 - argument w 1),
  ("sub_i32", compute fun w => argument w 0 - argument w 1),
  ("sub_i64", compute fun w => argument w 0 - argument w 1),
  ("offset", compute fun w => argument w 0 + argument w 1),
  ("sentinel", compute fun _ => 0xdead0000),
  ("high_sentinel", compute fun _ => 0xffff800000001234),
  ("id_f32", compute fun w => argument w 0),
  ("id_f64", compute fun w => argument w 0),
  ("half_f32", compute fun w => floatWord (single.mul (argument w 0).toNat halfSingle)),
  ("scale", compute fun w =>
    floatWord (double.mul (argument w 0).toNat (single.convert double (argument w 1).toNat))),
  ("widen", compute fun w => floatWord (single.convert double (argument w 0).toNat)),
  ("narrow", compute fun w => floatWord (double.convert single (argument w 0).toNat)),
  ("nothing", compute fun _ => 0),
  ("sum10", compute fun w => horner 3 (tenWords w)),
  ("dot10", compute fun w =>
    match (tenWords w).map UInt64.toNat with
    | [] => 0
    | first :: rest =>
      floatWord (rest.foldl (fun s v => double.add (double.mul s twoDouble) v) first)),
  ("mix", compute fun w => horner 7 (mixed w)),
  ("fake_cast", compute fun w =>
    if argument w 1 = 1 ∧ argument w 2 = 2 then argument w 0 + 0x80 else 0),
  ("hint_cast", compute fun w => argument w 0 + argument w 3),
  ("record_free", recordFree)]

end Workbench

end NativeLink
