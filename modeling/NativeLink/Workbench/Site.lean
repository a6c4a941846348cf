import NativeLink.Foreign.Resolver
import NativeLink.Workbench.Files
import NativeLink.Workbench.Libraries

/-!
# Sites and the host

The machine puts its routines where it likes, and nobody can tell beforehand where
that is.  An address that a client writes out therefore never belongs to a routine.
A site is a place for all routines at once.  Sites do not overlap, and
`Site.clearOf` picks one with none of the given addresses in it.

The host of the workbench offers what lies at a site: the sample routines, the
bundled one, two libraries, and the functions of the process.  Any other path leads
to no library, and the refusal says what stands there.
-/

namespace NativeLink

namespace Workbench

/-! ## What is no library -/

/-- The least number of bytes in the header of a library. -/
def headerSize : Nat := 64

/-- Why the file with a name is no library.  A name without a slash is looked for among the
libraries, and no entry of a directory has a name that is too long; with a slash it is a path, and
none of the files of the workbench is a library. -/
def fileRefusal (name : String) : String :=
  if '/' ∈ name.toList then
    match disk.read home name with
    | .ok bytes => if bytes.length < headerSize then "file too short" else "invalid ELF header"
    | .error .isADirectory => "cannot read file data: " ++ Disk.Fault.isADirectory.text
    | .error fault => "cannot open shared object file: " ++ fault.text
  else
    let fault : Disk.Fault :=
      if Disk.longestName < name.utf8ByteSize then .nameTooLong else .notFound
    "cannot open shared object file: " ++ fault.text

/-- Why a path with a zero somewhere before its end is no path of a library. -/
def zeroRefusal (path : String) : String :=
  if path.toList.getLast? = some '\x00' then
    "could not create a C string from bytes with trailing null"
  else "could not create a C string from bytes"

/-! ## Places for the routines -/

/-- A place for everything that has an address. -/
structure Site where
  base : UInt64

namespace Site

/-- The sample routines. -/
def samples (s : Site) : List Native := atAddresses s.base Workbench.samples

/-- The bundled routine that answers the null pointer. -/
def bundled (s : Site) : Native := ⟨nullPointerName, ⟨s.base + 0x1000⟩, compute fun _ => 0⟩

/-- The routines of the first library. -/
def libraryA (s : Site) : List Native := atAddresses (s.base + 0x2000) Workbench.libraryA

/-- The routines of the second library. -/
def libraryB (s : Site) : List Native := atAddresses (s.base + 0x3000) Workbench.libraryB

/-- The functions of the process. -/
def process (s : Site) : List Native := atAddresses (s.base + 0x4000) processRoutines

/-- Everything that has an address. -/
def natives (s : Site) : List Native :=
  s.samples ++ [s.bundled] ++ s.libraryA ++ s.libraryB ++ s.process

/-- What is at an address; nothing happens where there is nothing. -/
def routineAt (s : Site) (address : Address) : Routine Machine :=
  match s.natives.find? (·.address == address) with
  | some native => native.routine
  | none => compute fun _ => 0

/-- The address of a sample routine. -/
def sample? (s : Site) (name : String) : Option Address := exportsOf s.samples name

/-- The name of the sample routine at an address. -/
def sampleName? (s : Site) (address : Address) : Option String :=
  (s.samples.find? (·.address == address)).map Native.name

/-- Loads a library.  The empty path is that of the process itself. -/
def load (s : Site) (path : String) : Except String Exports :=
  match libraryName? path with
  | none => .error (zeroRefusal path)
  | some name =>
    if name = "" then .ok (exportsOf s.process)
    else if name = "liboracle_a.so" then .ok (exportsOf s.libraryA)
    else if name = "liboracle_b.so" then .ok (exportsOf s.libraryB)
    else .error (name ++ ": " ++ fileRefusal name)

/-- The host of the workbench. -/
def host (s : Site) : Host Machine :=
  ⟨s.load, exportsOf s.process, s.routineAt, s.bundled.address⟩

/-! ## Choosing a site -/

/-- Whether no routine of the site has one of the addresses. -/
def isClearOf (s : Site) (taken : List Address) : Bool :=
  s.natives.all fun native => !taken.contains native.address

/-- The sites, one after the other. -/
def nth (n : Nat) : Site := ⟨0x550000000000 + 0x10000 * .ofNat n⟩

/-- A site with none of the addresses in it.  An address lies in one site at most, so among one
site more than there are addresses there is a free one. -/
def clearOf (taken : List Address) : Site :=
  (((List.range (taken.length + 1)).map nth).find? (·.isClearOf taken)).getD (nth 0)

end Site

end Workbench

end NativeLink
