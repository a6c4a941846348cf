import NativeLink.Kind
import NativeLink.Text.Inspect

/-!
# Errors and defects

Three things can go wrong between a caller and a native routine.

* A name cannot be bound: a `ResolveError`, which is an ordinary answer.
* The call mechanism refuses a call: a `TransportError`, which a callable
  answers.
* A bound routine turns out not to be what its caller relies on: a `Defect`.
  A defect is never an answer; it ends the operation it arises in.

Each has one message and one inspection.
-/

namespace NativeLink

/-- Why a name could not be bound. -/
inductive ResolveError where
  | symbolNotFound (name : String)
  | invalidSignature (signature reason : String)
  | arityMismatch (name : String) (bound expected : Nat)
  | libraryLoad (library text : String)
  deriving DecidableEq

namespace ResolveError

/-- The message of the error. -/
def message : ResolveError → String
  | symbolNotFound name => "native symbol '" ++ name ++ "' not found"
  | invalidSignature signature reason =>
    "invalid native signature '" ++ signature ++ "': " ++ reason
  | arityMismatch name bound expected =>
    "'" ++ name ++ "' is bound with " ++ toString bound ++ " argument(s), caller expects " ++
      toString expected
  | libraryLoad library text => "failed to load native library '" ++ library ++ "': " ++ text

def inspect : ResolveError → Inspect
  | symbolNotFound name => .record "SymbolNotFound" [("name", .quoted name)] false
  | invalidSignature signature reason =>
    .record "InvalidSignature" [("signature", .quoted signature), ("reason", .quoted reason)] false
  | arityMismatch name bound expected =>
    .record "ArityMismatch"
      [("name", .quoted name), ("bound", .word (toString bound)),
        ("expected", .word (toString expected))] false
  | libraryLoad library text =>
    .record "LibraryLoad" [("library", .quoted library), ("message", .quoted text)] false

end ResolveError

/-- Why the call mechanism refused a call. -/
inductive TransportError where
  | argumentCount (expected got : Nat)
  | argumentKind (index : Nat) (expected got : Kind)
  | unsupported (text : String)
  deriving DecidableEq

namespace TransportError

/-- The message of the error. -/
def message : TransportError → String
  | argumentCount expected got =>
    "expected " ++ toString expected ++ " argument(s), got " ++ toString got
  | argumentKind index expected got =>
    "argument " ++ toString index ++ " should be " ++ expected.name ++ ", got " ++ got.name
  | unsupported text => text

def inspect : TransportError → Inspect
  | argumentCount expected got =>
    .record "ArgumentCount"
      [("expected", .word (toString expected)), ("got", .word (toString got))] false
  | argumentKind index expected got =>
    .record "ArgumentKind"
      [("index", .word (toString index)), ("expected", .word expected.label),
        ("got", .word got.label)] false
  | unsupported text => .tuple "Unsupported" [.quoted text]

end TransportError

/-- A value of some other kind stood where a pointer was expected. -/
structure NotAPointer where
  found : Kind
  deriving DecidableEq

namespace NotAPointer

/-- The message of the error. -/
def message (e : NotAPointer) : String :=
  "native value of kind " ++ e.found.name ++ " cannot be read as a pointer"

def inspect (e : NotAPointer) : Inspect :=
  .record "NotAPointer" [("found", .word e.found.label)] false

end NotAPointer

/-- A binding that does not do what its caller relies on. -/
inductive Defect where
  | transport (symbol : String) (source : TransportError)
  | resultShape (symbol : String) (source : NotAPointer)
  deriving DecidableEq

namespace Defect

/-- The name whose binding is defective. -/
def symbol : Defect → String
  | transport symbol _ => symbol
  | resultShape symbol _ => symbol

/-- The message of the error behind the defect. -/
def cause : Defect → String
  | transport _ source => source.message
  | resultShape _ source => source.message

/-- The message of the defect. -/
def message : Defect → String
  | transport symbol source => "transport failure calling '" ++ symbol ++ "': " ++ source.message
  | resultShape symbol source =>
    "'" ++ symbol ++ "' violated its result contract: " ++ source.message

def inspect : Defect → Inspect
  | transport symbol source =>
    .record "Transport" [("symbol", .quoted symbol), ("source", source.inspect)] false
  | resultShape symbol source =>
    .record "ResultShape" [("symbol", .quoted symbol), ("source", source.inspect)] false

end Defect

/-- What ends an operation without an answer: a defect, or the failure of a routine with a text
of its own. -/
inductive Panic where
  | plain (text : String)
  | defect (defect : Defect)
  deriving DecidableEq

end NativeLink
