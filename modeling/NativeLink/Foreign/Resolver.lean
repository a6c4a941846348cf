import NativeLink.Cache.Plan
import NativeLink.Config.Basic
import NativeLink.Foreign.Function
import NativeLink.Foreign.Symbols

/-!
# The foreign resolver

The foreign resolver turns a name into a native name, looks that up in its symbol
table, and prepares the routine it finds for the requested signature.

A name may begin with the sigil `@`, of which one is dropped.  What is left is
replaced by its alias, if it has one; the target of an alias is taken as it is.
Routines can be registered at any time, under names from which one sigil is
dropped as well.
-/

namespace NativeLink

/-- What the process around a resolver offers. -/
structure Host (π : Type) where
  /-- Loads a library, or says why not. -/
  load : String → Except String Exports
  /-- The symbols of the process. -/
  exports : Exports
  /-- The machine code at an address. -/
  routineAt : Address → Routine π
  /-- The bundled routine that answers the null pointer. -/
  nullPointer : Address

/-- A foreign resolver and the process it calls into. -/
structure Foreign (π : Type) where
  symbols : Symbols
  aliases : List (String × String)
  process : π

/-- A name without one leading sigil. -/
def stripSigil (name : String) : String :=
  match name.toList with
  | '@' :: rest => String.ofList rest
  | _ => name

/-- The native name of the bundled routine. -/
def nullPointerName : String := "getNullPointer"

/-- Loads libraries one after the other and tells of each.  The first that cannot be loaded ends
it. -/
def loadAll (load : String → Except String Exports) :
    List String → Symbols → Except ResolveError Symbols × List Event
  | [], symbols => (.ok symbols, [])
  | path :: rest, symbols =>
    match load path with
    | .error text => (.error (.libraryLoad path text), [])
    | .ok exports =>
      let (loaded, events) := loadAll load rest (symbols.addLibrary ⟨path, exports⟩)
      (loaded, .libraryLoaded path :: events)

namespace Foreign

variable {π : Type}

/-- The resolver of a configuration, with all its libraries loaded. -/
def build (host : Host π) (config : Config) (process : π) :
    Except ResolveError (Foreign π) × List Event :=
  let (loaded, events) :=
    loadAll host.load config.libraries (.empty host.exports config.searchDefault)
  let ready (symbols : Symbols) : Foreign π :=
    ⟨if config.builtins then symbols.register nullPointerName host.nullPointer else symbols,
      config.aliases, process⟩
  (loaded.map ready, events)

/-- Registers a routine under a name. -/
def register (f : Foreign π) (name : String) (address : Address) : Foreign π :=
  { f with symbols := f.symbols.register (stripSigil name) address }

/-- The name that is looked up for a requested one. -/
def nativeName (f : Foreign π) (name : String) : String :=
  (f.aliases.lookup (stripSigil name)).getD (stripSigil name)

/-- A foreign function as a callable, which acts on the process alone. -/
def callable (function : ForeignFunction π) : Callable (Foreign π) := fun args f =>
  let (outcome, events, process) := function.call args f.process
  (outcome, events, { f with process := process })

/-- The resolver. -/
def resolver (host : Host π) : Resolver (Foreign π) := fun name signature =>
  .step id fun f =>
    match f.symbols.lookup (f.nativeName name) with
    | none => .answer (.error (.symbolNotFound name))
    | some (address, source) =>
      .tell (.located name (f.nativeName name) source signature)
        (.answer (.ok (callable ⟨name, signature, address, host.routineAt address⟩)))

end Foreign

end NativeLink
