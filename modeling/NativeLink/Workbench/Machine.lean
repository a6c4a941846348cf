import NativeLink.Foreign.Function

/-!
# The machine of the workbench

The workbench is a small native world to run the resolver against: sample
routines, two sample libraries, and a few functions of the C library.  Its machine
has memory that is handed out in blocks, and it remembers which addresses were
given to the sample routine that releases objects.
-/

namespace NativeLink

namespace Workbench

/-- The state of the machine. -/
structure Machine where
  /-- The blocks of memory, each with its address and its first bytes, the latest first.  All
  bytes after those are zero. -/
  blocks : List (UInt64 × List UInt8) := []
  /-- The address of the next block. -/
  next : UInt64 := 0x7f0000000000
  /-- The addresses that were released, in order. -/
  freed : List Address := []

namespace Machine

/-- Hands out a block that begins with the given bytes and has a number of zeros after them. -/
def place (p : Machine) (bytes : List UInt8) (zeros : Nat) : Address × Machine :=
  let room : UInt64 := .ofNat (((bytes.length + zeros) / 16 + 2) * 16)
  (⟨p.next⟩, { p with blocks := (p.next, bytes) :: p.blocks, next := p.next + room })

/-- Hands out a block with a text and a zero after it. -/
def placeText (p : Machine) (text : String) : Address × Machine :=
  p.place text.toUTF8.toList 1

/-- The bytes of the block at an address, up to its first zero. -/
def textAt (p : Machine) (address : UInt64) : List UInt8 :=
  ((p.blocks.lookup address).getD []).takeWhile (· ≠ 0)

/-- A machine whose memory begins far from all the addresses.  Of the regions of 2 ^ 40 bytes an
address lies in one only, so among one region more than there are addresses there is a free one. -/
def clearOf (taken : List Address) : Machine :=
  let regions := (List.range (taken.length + 1)).map fun n => 0x7f + UInt64.ofNat n
  let region? := regions.find? fun region => taken.all fun a => a.raw >>> 40 != region
  { next := region?.getD 0x7f <<< 40 }

end Machine

/-- A routine with a name, at an address. -/
structure Native where
  name : String
  address : Address
  routine : Routine Machine

/-- A routine that computes its result and leaves the process alone. -/
def compute (f : List UInt64 → UInt64) : Routine Machine := fun words p => (f words, p)

/-- The word at a position, zero beyond the last. -/
def argument (words : List UInt64) (i : Nat) : UInt64 := words.getD i 0

/-- Routines at consecutive addresses. -/
def atAddresses (base : UInt64) : List (String × Routine Machine) → List Native
  | [] => []
  | (name, routine) :: rest => ⟨name, ⟨base⟩, routine⟩ :: atAddresses (base + 16) rest

/-- The addresses of routines by name. -/
def exportsOf (natives : List Native) : String → Option Address := fun name =>
  (natives.find? (·.name == name)).map Native.address

end Workbench

end NativeLink
