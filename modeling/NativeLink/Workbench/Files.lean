import NativeLink.Config.Load

/-!
# The files of the workbench

A tree with the directories a system usually has, and device files: one reads as
empty, the others never end, and of those only the beginning is kept.  Paths that do
not begin with a slash start in an empty directory two levels below the root.  What
the directories on the way are called nobody can tell beforehand, so no path leads
into them by name.
-/

namespace NativeLink

namespace Workbench

/-- A directory with nothing in it. -/
def emptyDirectory : Disk := .directory []

/-- The beginning of a device that gives bytes without end. -/
def endless : Disk := .file (List.replicate 64 0)

/-- The list of users. -/
def passwords : List UInt8 :=
  "root:x:0:0:root:/root:/bin/sh\nnobody:x:65534:65534:nobody:/nonexistent:/bin/false\n".toUTF8.toList

/-- The file tree. -/
def disk : Disk :=
  .directory [
    ("bin", emptyDirectory),
    ("boot", emptyDirectory),
    ("dev", .directory [("null", .file []), ("zero", endless), ("full", endless),
      ("random", endless), ("urandom", endless), ("fd", emptyDirectory),
      ("pts", emptyDirectory), ("shm", emptyDirectory)]),
    ("etc", .directory [("passwd", .file passwords)]),
    ("home", emptyDirectory),
    ("lib", emptyDirectory),
    ("lib64", emptyDirectory),
    ("media", emptyDirectory),
    ("mnt", emptyDirectory),
    ("opt", emptyDirectory),
    ("proc", .directory [("self", emptyDirectory)]),
    ("root", emptyDirectory),
    ("run", emptyDirectory),
    ("sbin", emptyDirectory),
    ("srv", emptyDirectory),
    ("sys", emptyDirectory),
    ("tmp", emptyDirectory),
    ("usr", .directory [("bin", emptyDirectory), ("lib", emptyDirectory),
      ("local", emptyDirectory), ("share", emptyDirectory)]),
    ("var", .directory [("tmp", emptyDirectory), ("log", emptyDirectory)])]

/-- The directories on the way to where relative paths start, the innermost first. -/
def home : List Disk := [emptyDirectory, emptyDirectory]

end Workbench

end NativeLink
