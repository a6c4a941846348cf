import NativeLink.Text.Inspect

/-!
# Addresses

A native pointer is carried as sixty-four bits and never followed.  Its text is
the mark `0x` and the shortest hexadecimal numeral, so the null address is
written `0x0`.
-/

namespace NativeLink

/-- The bits of a native pointer. -/
structure Address where
  raw : UInt64
  deriving DecidableEq

namespace Address

/-- The address no object has. -/
def null : Address := ⟨0⟩

instance : Inhabited Address := ⟨null⟩

def isNull (a : Address) : Bool := a.raw == 0

@[simp] theorem isNull_iff (a : Address) : a.isNull = true ↔ a = null := by
  cases a; simp [isNull, null]

/-- Addresses are ordered as the numbers they are. -/
def compare (a b : Address) : Ordering := Ord.compare a.raw.toNat b.raw.toNat

/-- The text of an address. -/
def text (a : Address) : String := "0x" ++ String.ofList (Hex.digits a.raw.toNat)

/-- The hexadecimal numeral of an address in a field. -/
def numeral (layout : Hex.Layout) (a : Address) : String :=
  String.ofList (Hex.lay layout a.raw.toNat)

/-- An inspected address stays on one line. -/
def inspect (a : Address) : Inspect := .word ("Address(" ++ a.text ++ ")")

/-- The addresses in ascending order. -/
def sort (addresses : List Address) : List Address :=
  addresses.mergeSort fun a b => a.raw.toNat ≤ b.raw.toNat

end Address

end NativeLink
