import NativeLink.Signature.Basic
import NativeLink.Value

/-!
# The log

What happens at the border to native code is told in events.  An event has a
level, a message and named fields; the functions below are the whole format of the
log.  Most fields are texts.  The arguments of a call and the address of a routine
are kept as they are, since not every value has a text of its own here.
-/

namespace NativeLink

/-- How much an event matters. -/
inductive Level where
  | trace
  | debug
  | warn
  | error
  deriving DecidableEq

def Level.name : Level → String
  | trace => "TRACE"
  | debug => "DEBUG"
  | warn => "WARN"
  | error => "ERROR"

/-- Where a native symbol was found. -/
inductive Source where
  | registered
  /-- The position of the library in the order of the search. -/
  | library (position : Nat)
  | default
  deriving DecidableEq

def Source.inspect : Source → Inspect
  | registered => .word "Registered"
  | library position => .tuple "Library" [.word (toString position)]
  | default => .word "Default"

/-- Something that happened. -/
inductive Event where
  /-- A name is about to be resolved for the first time. -/
  | resolving (symbol : String) (signature : Signature)
  /-- A name was asked for with another signature than the one it is bound with. -/
  | conflict (symbol : String) (bound : Signature) (requested : String)
  /-- A defect is about to end an operation. -/
  | defect (defect : Defect)
  /-- A bound routine is about to be called. -/
  | nativeCall (symbol : String) (args : List Value)
  /-- The arguments were accepted and the routine is about to be entered. -/
  | foreignCall (symbol : String) (address : Address)
  /-- A native symbol was found for a name. -/
  | located (symbol nativeName : String) (source : Source) (signature : Signature)
  | libraryLoaded (library : String)
  /-- The startup probe found a feature missing. -/
  | unavailable (feature : String) (error : ResolveError)
  deriving DecidableEq

namespace Event

def level : Event → Level
  | resolving .. => .debug
  | conflict .. => .warn
  | defect _ => .error
  | nativeCall .. => .trace
  | foreignCall .. => .trace
  | located .. => .debug
  | libraryLoaded _ => .debug
  | unavailable .. => .warn

def message : Event → String
  | resolving .. => "resolving native symbol"
  | conflict .. =>
    "signature differs from the one the symbol was bound with; keeping the first binding"
  | defect d => "internal native bridge defect: " ++ d.message
  | nativeCall .. => "native call"
  | foreignCall .. => "ffi call"
  | located .. => "bound native symbol"
  | libraryLoaded _ => "loaded native library"
  | unavailable _ error => "native ABI support unavailable: " ++ error.message

/-- The named fields of an event that are texts. -/
def fields : Event → List (String × String)
  | resolving symbol signature => [("symbol", symbol), ("signature", signature.text)]
  | conflict symbol bound requested =>
    [("symbol", symbol), ("bound", bound.text), ("requested", requested)]
  | defect d => [("symbol", d.symbol)]
  | nativeCall symbol _ => [("symbol", symbol)]
  | foreignCall symbol _ => [("symbol", symbol)]
  | located symbol nativeName source signature =>
    [("symbol", symbol), ("native_name", nativeName), ("source", source.inspect.line),
      ("signature", signature.text)]
  | libraryLoaded library => [("library", library)]
  | unavailable feature _ => [("feature", feature)]

/-- The named fields of an event that are lists of values; an address counts as a pointer. -/
def operands : Event → List (String × List Value)
  | nativeCall _ args => [("args", args)]
  | foreignCall _ address => [("address", [.pointer address])]
  | _ => []

end Event

end NativeLink
