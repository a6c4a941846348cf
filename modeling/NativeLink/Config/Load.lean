import NativeLink.Config.Reader

/-!
# Loading configurations from files

Files are found by walking a tree of directories.  `Disk.read` gives the bytes of
a file or the reason that there are none, in the words and with the numbers of the
operating system.  A file that holds a configuration must be UTF-8.
-/

namespace NativeLink

/-- What stands under a name in a directory. -/
inductive Disk where
  | file (bytes : List UInt8)
  | directory (entries : List (String × Disk))

namespace Disk

/-- Why a path leads to no file. -/
inductive Fault where
  | notFound
  | notADirectory
  | isADirectory
  | nameTooLong
  /-- No path can hold a zero character. -/
  | zeroInName
  deriving DecidableEq

/-- The words for a fault. -/
def Fault.text : Fault → String
  | notFound => "No such file or directory"
  | notADirectory => "Not a directory"
  | isADirectory => "Is a directory"
  | nameTooLong => "File name too long"
  | zeroInName => "file name contained an unexpected NUL byte"

/-- The number the operating system gives to a fault.  It never sees a name with a zero in it. -/
def Fault.number? : Fault → Option Nat
  | notFound => some 2
  | notADirectory => some 20
  | isADirectory => some 21
  | nameTooLong => some 36
  | zeroInName => none

/-- The words for a fault, with its number. -/
def Fault.reason (fault : Fault) : String :=
  match fault.number? with
  | some number => fault.text ++ " (os error " ++ toString number ++ ")"
  | none => fault.text

/-- The longest name of one entry, in bytes. -/
def longestName : Nat := 255

/-- The longest path, in bytes. -/
def longestPath : Nat := 4095

/-- Walks from the last of `trail` along the names; `trail` holds the directories passed, the
innermost first. -/
def walk (root : Disk) : List Disk → List String → Except Fault Disk
  | trail, [] => .ok (trail.headD root)
  | trail, name :: rest =>
    match trail.headD root with
    | .file _ => .error .notADirectory
    | .directory entries =>
      if name = "" ∨ name = "." then walk root trail rest
      else if name = ".." then walk root trail.tail rest
      else if longestName < name.utf8ByteSize then .error .nameTooLong
      else match entries.lookup name with
        | some node => walk root (node :: trail) rest
        | none => .error .notFound

/-- The names in a path. -/
def names (path : String) : List String :=
  (path.toList.splitOn '/').map String.ofList

/-- The bytes of the file at a path.  A path that does not begin with a slash starts where the
trail `home` ends. -/
def read (root : Disk) (home : List Disk) (path : String) : Except Fault (List UInt8) :=
  if '\x00' ∈ path.toList then .error .zeroInName
  else if path = "" then .error .notFound
  else if longestPath < path.utf8ByteSize then .error .nameTooLong
  else
    let trail := if path.toList.head? = some '/' then [] else home
    match walk root trail (names path) with
    | .error fault => .error fault
    | .ok (.file bytes) => .ok bytes
    | .ok (.directory _) => .error .isADirectory

end Disk

namespace Config

/-- The configuration in the bytes of a file. -/
def ofBytes (path : String) (bytes : List UInt8) : Except ConfigError Config :=
  match String.fromUTF8? ⟨bytes.toArray⟩ with
  | some text => parse text
  | none => .error (.unreadable path "stream did not contain valid UTF-8")

/-- The configuration in the file at a path. -/
def load (root : Disk) (home : List Disk) (path : String) : Except ConfigError Config :=
  match root.read home path with
  | .ok bytes => ofBytes path bytes
  | .error fault => .error (.unreadable path fault.reason)

end Config

end NativeLink
