import NativeLink.Foreign.Resolver

/-!
# Entries of a symbol table

A symbol table is filled entry by entry: libraries are loaded and addresses are registered, in any
order and any number of times.  A library that cannot be loaded leaves the table as it is.  The
loader is not part of the table, so an entry says what the loader had to say at that time.

The entries are all that a table has to go by.  `Entry.library?` and `Entry.addressFor?` read off
them what the search looks at.
-/

namespace NativeLink

/-- The address that a library maps a name to, null or not. -/
def Library.maps (l : Library) (name : String) : Option Address :=
  (libraryName? name).bind l.exports

/-- The address that the process maps a name to, null or not. -/
def processMaps (process : Exports) (name : String) : Option Address :=
  if '\x00' ∈ name.toList then none else process name

namespace Symbols

/-- Adds a library to the end of the search and tells of it, unless the loader refuses. -/
def load (s : Symbols) (path : String) :
    Except String Exports → Except ResolveError Symbols × List Event
  | .error text => (.error (.libraryLoad path text), [])
  | .ok exports => (.ok (s.addLibrary ⟨path, exports⟩), [.libraryLoaded path])

/-- Something that is put into a symbol table. -/
inductive Entry where
  /-- The loader is asked for a library, and either has got it or says why not. -/
  | load (path : String) (loaded : Except String Exports)
  | register (name : String) (address : Address)

namespace Entry

/-- The library that an entry adds. -/
def library? : Entry → Option Library
  | load path (.ok exports) => some ⟨path, exports⟩
  | _ => none

/-- The address that an entry registers under a name. -/
def addressFor? (name : String) : Entry → Option Address
  | register other address => if other = name then some address else none
  | load _ _ => none

end Entry

/-- The table after an entry. -/
def enter (s : Symbols) : Entry → Symbols
  | .load path loaded =>
    match (s.load path loaded).1 with
    | .ok t => t
    | .error _ => s
  | .register name address => s.register name address

/-- The table after some entries. -/
def enterAll (s : Symbols) (entries : List Entry) : Symbols := entries.foldl enter s

/-- The libraries that entries add, in order. -/
def loaded (entries : List Entry) : List Library := entries.filterMap Entry.library?

@[simp] theorem enterAll_nil (s : Symbols) : s.enterAll [] = s := rfl

@[simp] theorem enterAll_cons (s : Symbols) (entry : Entry) (entries : List Entry) :
    s.enterAll (entry :: entries) = (s.enter entry).enterAll entries := rfl

theorem enterAll_append (s : Symbols) (before after : List Entry) :
    s.enterAll (before ++ after) = (s.enterAll before).enterAll after :=
  List.foldl_append

/-! ## What an entry changes -/

theorem libraries_enter (s : Symbols) (entry : Entry) :
    (s.enter entry).libraries = s.libraries ++ entry.library?.toList := by
  cases entry with
  | load path result =>
    cases result with
    | ok exports => rfl
    | error text => exact (List.append_nil _).symm
  | register name address => exact (List.append_nil _).symm

/-- An entry that registers an address under a name decides what is registered there. -/
theorem lookup_registered_enter (s : Symbols) (entry : Entry) (name : String) :
    (s.enter entry).registered.lookup name =
      (entry.addressFor? name).or (s.registered.lookup name) := by
  cases entry with
  | load path result => cases result <;> rfl
  | register other address =>
    by_cases h : other = name
    · simp [enter, register, Entry.addressFor?, h]
    · have hb : (name == other) = false := by simpa using Ne.symm h
      simp [enter, register, Entry.addressFor?, h, List.lookup_cons, hb]

@[simp] theorem process_enter (s : Symbols) (entry : Entry) :
    (s.enter entry).process = s.process := by
  cases entry with
  | load path result => cases result <;> rfl
  | register name address => rfl

@[simp] theorem searchDefault_enter (s : Symbols) (entry : Entry) :
    (s.enter entry).searchDefault = s.searchDefault := by
  cases entry with
  | load path result => cases result <;> rfl
  | register name address => rfl

end Symbols

/-! ## The entries of a resolver -/

/-- Loading libraries is loading the first, and then the others if it succeeds. -/
theorem loadAll_cons (load : String → Except String Exports) (path : String) (rest : List String)
    (s : Symbols) :
    loadAll load (path :: rest) s =
      match s.load path (load path) with
      | (.error error, events) => (.error error, events)
      | (.ok t, events) => ((loadAll load rest t).1, events ++ (loadAll load rest t).2) := by
  rw [loadAll]
  cases load path <;> rfl

/-- What a configuration puts into the symbol table: its libraries, and the bundled routine. -/
def Config.entries {π : Type} (config : Config) (host : Host π) : List Symbols.Entry :=
  (config.libraries.map fun path => .load path (host.load path)) ++
    if config.builtins then [.register nullPointerName host.nullPointer] else []

namespace Foreign

variable {π : Type}

/-- The resolver after some registrations. -/
def registerAll (f : Foreign π) (registrations : List (String × Address)) : Foreign π :=
  registrations.foldl (fun f registration => f.register registration.1 registration.2) f

/-- What registrations put into the symbol table. -/
def registrationEntries (registrations : List (String × Address)) : List Symbols.Entry :=
  registrations.map fun registration => .register (stripSigil registration.1) registration.2

theorem registerAll_append (f : Foreign π) (before after : List (String × Address)) :
    f.registerAll (before ++ after) = (f.registerAll before).registerAll after :=
  List.foldl_append

theorem symbols_registerAll (f : Foreign π) (registrations : List (String × Address)) :
    (f.registerAll registrations).symbols =
      f.symbols.enterAll (registrationEntries registrations) := by
  induction registrations generalizing f with
  | nil => rfl
  | cons registration rest ih => exact ih (f.register registration.1 registration.2)

@[simp] theorem aliases_registerAll (f : Foreign π) (registrations : List (String × Address)) :
    (f.registerAll registrations).aliases = f.aliases := by
  induction registrations generalizing f with
  | nil => rfl
  | cons registration rest ih => exact ih (f.register registration.1 registration.2)

end Foreign

end NativeLink
