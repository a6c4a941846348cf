import NativeLink.Address
import NativeLink.Log

/-!
# Symbol tables

A symbol table finds the address of a native name.  Addresses that were registered
under the name come first, then the loaded libraries in the order they were
loaded, then the symbols of the process itself if the table searches them.

A library and the process give names to addresses, with the null address for a
name that they know but that has none; such a name counts as absent.  A name is
handed to a library as text that ends at a zero character, so that one zero at the
end is harmless and any other makes the name unknown.  The process knows no name
with a zero in it.
-/

namespace NativeLink

/-- The addresses a library, or the process, gives to names. -/
abbrev Exports : Type := String → Option Address

/-- A loaded library. -/
structure Library where
  /-- The path it was loaded from. -/
  path : String
  exports : Exports

/-- A name as it is handed to a library: without one zero at the end, and not at all with a zero
elsewhere. -/
def libraryName? (name : String) : Option String :=
  let t := name.toList
  let core := if t.getLast? = some '\x00' then t.dropLast else t
  if '\x00' ∈ core then none else some (String.ofList core)

/-- An address that is not null. -/
def proper (address : Address) : Option Address := if address.isNull then none else some address

/-- The address a library gives to a name. -/
def Library.find? (l : Library) (name : String) : Option Address :=
  ((libraryName? name).bind l.exports).bind proper

/-- The address the process gives to a name. -/
def processFind? (process : Exports) (name : String) : Option Address :=
  if '\x00' ∈ name.toList then none else (process name).bind proper

/-- Where native names are looked up. -/
structure Symbols where
  /-- Registered addresses; the latest of a name stands first. -/
  registered : List (String × Address)
  libraries : List Library
  process : Exports
  searchDefault : Bool

namespace Symbols

/-- A table without registrations and libraries. -/
def empty (process : Exports) (searchDefault : Bool) : Symbols := ⟨[], [], process, searchDefault⟩

/-- Makes an address known under a name, whatever the name stood for before. -/
def register (s : Symbols) (name : String) (address : Address) : Symbols :=
  { s with registered := (name, address) :: s.registered }

/-- Adds a library to the end of the search. -/
def addLibrary (s : Symbols) (library : Library) : Symbols :=
  { s with libraries := s.libraries ++ [library] }

/-- The first of some libraries that knows a name, and its position counted from `position`. -/
def findIn (name : String) (position : Nat) : List Library → Option (Address × Source)
  | [] => none
  | library :: rest =>
    match library.find? name with
    | some address => some (address, .library position)
    | none => findIn name (position + 1) rest

/-- The address of a name, and where it was found. -/
def lookup (s : Symbols) (name : String) : Option (Address × Source) :=
  match s.registered.lookup name with
  | some address => some (address, .registered)
  | none =>
    match findIn name 0 s.libraries with
    | some found => some found
    | none =>
      if s.searchDefault then (processFind? s.process name).map (·, .default) else none

@[simp] theorem lookup_register_self (s : Symbols) (name : String) (address : Address) :
    (s.register name address).lookup name = some (address, .registered) := by
  simp [lookup, register]

/-- A registration concerns its own name only. -/
theorem lookup_register_of_ne (s : Symbols) {name other : String} (address : Address)
    (h : other ≠ name) : (s.register name address).lookup other = s.lookup other := by
  have hr : (s.register name address).registered.lookup other = s.registered.lookup other := by
    have hb : (other == name) = false := by simpa using h
    simp [register, List.lookup_cons, hb]
  unfold lookup
  rw [hr]
  rfl

end Symbols

end NativeLink
