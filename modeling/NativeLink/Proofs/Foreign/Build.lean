import NativeLink.Proofs.Foreign.Precedence

/-!
# Building a foreign resolver

A resolver is built from a configuration in one go.  Either every library of the configuration is
loaded, and then everything that was configured is there (`Whole`), or the first that cannot be
loaded is reported and there is no resolver (`Broken`).

A whole resolver has the symbol table that the entries of the configuration fill
(`build_of_loads`), and later registrations are further entries.  So what it answers is a matter of
precedence, which `Proofs.Foreign.Precedence` has settled: the position of a library is its position
in the configuration, and the bundled routine comes before everything but a later registration.

What a broken build has not done cannot be seen in its result.  It is seen by a loader that keeps a
list of what it is asked for (`loadAllBy`), which ends with the library that failed.  For the same
reason it makes no difference what any other loader would say of the libraries behind it.
-/

namespace NativeLink

/-! ## Loading libraries -/

/-- The loader has got the library. -/
def Loads (load : String → Except String Exports) (path : String) : Prop :=
  ∃ exports, load path = .ok exports

section

variable {load : String → Except String Exports} {paths before after : List String}
  {path text : String}

/-- Either all libraries load, or there is a first that does not. -/
theorem forall_loads_or_exists (load : String → Except String Exports) (paths : List String) :
    (∀ path ∈ paths, Loads load path) ∨ ∃ before path after text,
      paths = before ++ path :: after ∧ (∀ loaded ∈ before, Loads load loaded) ∧
        load path = .error text := by
  induction paths with
  | nil => exact .inl nofun
  | cons path rest ih =>
    cases hload : load path with
    | error text => exact .inr ⟨[], path, rest, text, rfl, nofun, hload⟩
    | ok exports =>
      have hpath : Loads load path := ⟨exports, hload⟩
      rcases ih with hall | ⟨before, failing, after, text, rfl, hbefore, hfails⟩
      · exact .inl (List.forall_mem_cons.mpr ⟨hpath, hall⟩)
      · exact .inr ⟨path :: before, failing, after, text, rfl,
          List.forall_mem_cons.mpr ⟨hpath, hbefore⟩, hfails⟩

/-- **Libraries that load are entered one after the other**, and each is told of. -/
theorem loadAll_append (s : Symbols) (after : List String) (h : ∀ path ∈ before, Loads load path) :
    loadAll load (before ++ after) s =
      ((loadAll load after (s.enterAll (before.map fun path => .load path (load path)))).1,
        before.map .libraryLoaded ++
          (loadAll load after (s.enterAll (before.map fun path => .load path (load path)))).2) := by
  induction before generalizing s with
  | nil => rfl
  | cons path rest ih =>
    obtain ⟨⟨exports, hload⟩, hrest⟩ := List.forall_mem_cons.mp h
    rw [List.cons_append, loadAll_cons, hload]
    simp only [Symbols.load, ih _ hrest, List.map_cons, Symbols.enterAll_cons, Symbols.enter, hload]
    rfl

theorem loadAll_of_loads (s : Symbols) (h : ∀ path ∈ paths, Loads load path) :
    loadAll load paths s =
      (.ok (s.enterAll (paths.map fun path => .load path (load path))),
        paths.map .libraryLoaded) := by
  have happend := loadAll_append s [] h
  rw [List.append_nil] at happend
  rw [happend]
  simp only [loadAll, List.append_nil]

/-- **The first library that does not load ends it.** -/
theorem loadAll_of_fails (s : Symbols) (h : ∀ path ∈ before, Loads load path)
    (hfails : load path = .error text) :
    loadAll load (before ++ path :: after) s =
      (.error (.libraryLoad path text), before.map .libraryLoaded) := by
  rw [loadAll_append s _ h, loadAll_cons, hfails]
  simp only [Symbols.load, List.append_nil]

end

/-! ## The loader under watch -/

/-- Loads libraries one after the other by a loader that has a state of its own. -/
def loadAllBy {κ : Type} (load : String → κ → Except String Exports × κ) :
    List String → Symbols → κ → (Except ResolveError Symbols × List Event) × κ
  | [], symbols, k => ((.ok symbols, []), k)
  | path :: rest, symbols, k =>
    match load path k with
    | (.error text, k) => ((.error (.libraryLoad path text), []), k)
    | (.ok exports, k) =>
      let ((loaded, events), k) := loadAllBy load rest (symbols.addLibrary ⟨path, exports⟩) k
      ((loaded, .libraryLoaded path :: events), k)

/-- The loader with a list of what it is asked for. -/
def watchedLoader (load : String → Except String Exports) :
    String → List String → Except String Exports × List String :=
  fun path asked => (load path, asked ++ [path])

section

variable {load : String → Except String Exports} {paths before after : List String}
  {path text : String}

/-- **Watching changes nothing.** -/
theorem loadAllBy_watch_fst (load : String → Except String Exports) (paths : List String)
    (s : Symbols) (asked : List String) :
    (loadAllBy (watchedLoader load) paths s asked).1 = loadAll load paths s := by
  induction paths generalizing s asked with
  | nil => rfl
  | cons path rest ih =>
    rw [loadAllBy, loadAll, watchedLoader]
    cases hload : load path with
    | error text => rfl
    | ok exports => simp only [← ih _ (asked ++ [path])]

/-- Libraries that load are all asked for, in order. -/
theorem loadAllBy_watch_append (s : Symbols) (asked after : List String)
    (h : ∀ path ∈ before, Loads load path) : ∃ t,
      (loadAllBy (watchedLoader load) (before ++ after) s asked).2 =
        (loadAllBy (watchedLoader load) after t (asked ++ before)).2 := by
  induction before generalizing s asked with
  | nil => exact ⟨s, by rw [List.nil_append, List.append_nil]⟩
  | cons path rest ih =>
    obtain ⟨⟨exports, hload⟩, hrest⟩ := List.forall_mem_cons.mp h
    obtain ⟨t, ht⟩ := ih (s.addLibrary ⟨path, exports⟩) (asked ++ [path]) hrest
    refine ⟨t, ?_⟩
    rw [List.append_cons asked path rest, ← ht, List.cons_append, loadAllBy, watchedLoader, hload]

/-- What the loader is asked for, all in all. -/
def askedFor (load : String → Except String Exports) (paths : List String) (s : Symbols) :
    List String :=
  (loadAllBy (watchedLoader load) paths s []).2

theorem askedFor_of_loads (s : Symbols) (h : ∀ path ∈ paths, Loads load path) :
    askedFor load paths s = paths := by
  obtain ⟨t, ht⟩ := loadAllBy_watch_append s [] [] h
  rw [List.append_nil] at ht
  exact ht

/-- Nothing is asked for after a library that does not load. -/
theorem askedFor_of_fails (s : Symbols) (h : ∀ path ∈ before, Loads load path)
    (hfails : load path = .error text) :
    askedFor load (before ++ path :: after) s = before ++ [path] := by
  obtain ⟨t, ht⟩ := loadAllBy_watch_append s [] (path :: after) h
  rw [askedFor, ht, loadAllBy, watchedLoader, hfails]
  rfl

end

namespace Foreign

variable {π : Type} {host : Host π} {config : Config} {process : π}

/-! ## The resolver that is built -/

/-- The resolver that a configuration describes. -/
def configured (host : Host π) (config : Config) (process : π) : Foreign π :=
  ⟨Symbols.filled host.exports config.searchDefault (config.entries host), config.aliases, process⟩

/-- **If every library loads, the resolver is the configured one.** -/
theorem build_of_loads (process : π) (h : ∀ path ∈ config.libraries, Loads host.load path) :
    build host config process =
      (.ok (configured host config process), config.libraries.map .libraryLoaded) := by
  rw [build, loadAll_of_loads _ h]
  simp only [Except.map, configured, Symbols.filled, Config.entries, Symbols.enterAll_append]
  cases config.builtins <;> rfl

/-- If a library does not load, there is none. -/
theorem build_of_fails (process : π) {before after : List String} {path text : String}
    (hsplit : config.libraries = before ++ path :: after)
    (h : ∀ path ∈ before, Loads host.load path) (hfails : host.load path = .error text) :
    build host config process =
      (.error (.libraryLoad path text), before.map .libraryLoaded) := by
  rw [build, hsplit, loadAll_of_fails _ h hfails]
  rfl

/-- A resolver that was built is the configured one. -/
theorem loads_of_build {f : Foreign π} (h : (build host config process).1 = .ok f) :
    (∀ path ∈ config.libraries, Loads host.load path) ∧ f = configured host config process := by
  rcases forall_loads_or_exists host.load config.libraries with
    hall | ⟨before, path, after, text, hsplit, hbefore, hfails⟩
  · rw [build_of_loads process hall] at h
    cases h
    exact ⟨hall, rfl⟩
  · rw [build_of_fails process hsplit hbefore hfails] at h
    cases h

/-- Registrations are further entries. -/
theorem symbols_configured (registrations : List (String × Address)) :
    ((configured host config process).registerAll registrations).symbols =
      Symbols.filled host.exports config.searchDefault
        (config.entries host ++ registrationEntries registrations) := by
  rw [symbols_registerAll, Symbols.filled, Symbols.enterAll_append]
  rfl

theorem library?_of_registration {registrations : List (String × Address)} :
    (registrationEntries registrations).filterMap Symbols.Entry.library? = [] := by
  rw [List.filterMap_eq_nil_iff]
  intro entry hentry
  obtain ⟨registration, -, rfl⟩ := List.mem_map.mp hentry
  rfl

/-- The libraries of a configuration, with what they export. -/
theorem loaded_entries (h : ∀ path ∈ config.libraries, Loads host.load path)
    (registrations : List (String × Address)) :
    (Symbols.loaded (config.entries host ++ registrationEntries registrations)).map Library.path =
        config.libraries ∧
      ∀ l ∈ Symbols.loaded (config.entries host ++ registrationEntries registrations),
        host.load l.path = .ok l.exports := by
  have hloaded : Symbols.loaded (config.entries host ++ registrationEntries registrations) =
      (config.libraries.map fun path => Symbols.Entry.load path (host.load path)).filterMap
        Symbols.Entry.library? := by
    rw [Symbols.loaded, Config.entries, List.filterMap_append, List.filterMap_append,
      library?_of_registration, List.append_nil]
    cases config.builtins <;> exact List.append_nil _
  rw [hloaded]
  generalize config.libraries = paths at h
  induction paths with
  | nil => exact ⟨rfl, List.forall_mem_nil _⟩
  | cons path rest ih =>
    obtain ⟨⟨exports, hload⟩, hrest⟩ := List.forall_mem_cons.mp h
    obtain ⟨hpaths, hexports⟩ := ih hrest
    have hlibrary : (Symbols.Entry.load path (host.load path)).library? = some ⟨path, exports⟩ := by
      rw [hload]
      rfl
    rw [List.map_cons, List.filterMap_cons_some hlibrary, List.map_cons, hpaths,
      List.forall_mem_cons]
    exact ⟨rfl, hload, hexports⟩

/-! ## The bundled routine -/

/-- Only the bundled routine is registered to begin with. -/
theorem lastRegistered_entries_iff {name : String} {address : Address} :
    Symbols.LastRegistered (config.entries host) name address ↔
      config.builtins = true ∧ name = nullPointerName ∧ address = host.nullPointer := by
  have hlibraries : (config.libraries.map fun path => Symbols.Entry.load path
      (host.load path)).filterMap (Symbols.Entry.addressFor? name) = [] := by
    rw [List.filterMap_eq_nil_iff]
    intro entry hentry
    obtain ⟨path, -, rfl⟩ := List.mem_map.mp hentry
    rfl
  rw [Symbols.lastRegistered_iff, Config.entries, List.filterMap_append, hlibraries,
    List.nil_append]
  cases config.builtins with
  | false => simp
  | true =>
    by_cases hname : nullPointerName = name
    · simp [Symbols.Entry.addressFor?, hname, eq_comm]
    · simp [Symbols.Entry.addressFor?, hname, Ne.symm hname]

theorem unregistered_of_registrations {name : String} {registrations : List (String × Address)}
    (h : ∀ registration ∈ registrations, stripSigil registration.1 ≠ name) :
    Symbols.Unregistered (registrationEntries registrations) name := by
  intro address hentry
  obtain ⟨registration, hmem, heq⟩ := List.mem_map.mp hentry
  exact h registration hmem (Symbols.Entry.register.inj heq).1

/-- What was registered last stays the last, whatever is registered under other names. -/
theorem lastRegistered_append {entries : List Symbols.Entry} {name : String} {address : Address}
    {registrations : List (String × Address)} (last : Symbols.LastRegistered entries name address)
    (h : ∀ registration ∈ registrations, stripSigil registration.1 ≠ name) :
    Symbols.LastRegistered (entries ++ registrationEntries registrations) name address := by
  obtain ⟨before, after, rfl, hafter⟩ := last
  refine ⟨before, after ++ registrationEntries registrations, by simp, fun other hother => ?_⟩
  rcases List.mem_append.mp hother with hold | hnew
  · exact hafter other hold
  · exact unregistered_of_registrations h other hnew

/-- A registration is the last under its name until the next. -/
theorem lastRegistered_of_registration (entries : List Symbols.Entry)
    (before : List (String × Address)) {name : String} (address : Address)
    {after : List (String × Address)}
    (h : ∀ registration ∈ after, stripSigil registration.1 ≠ stripSigil name) :
    Symbols.LastRegistered (entries ++ registrationEntries (before ++ (name, address) :: after))
      (stripSigil name) address := by
  refine ⟨entries ++ registrationEntries before, registrationEntries after, ?_,
    unregistered_of_registrations h⟩
  simp [registrationEntries]

/-! ## All or nothing -/

/-- The whole configuration has come into effect. -/
structure Whole (host : Host π) (config : Config) (process : π) (f : Foreign π) : Prop where
  loads : ∀ path ∈ config.libraries, Loads host.load path
  /-- Each library is told of, in order. -/
  told : (build host config process).2 = config.libraries.map .libraryLoaded
  /-- The libraries are those of the configuration, in order and with repetitions. -/
  libraries : f.symbols.libraries.map Library.path = config.libraries
  exports : ∀ l ∈ f.symbols.libraries, host.load l.path = .ok l.exports
  asked : askedFor host.load config.libraries (.empty host.exports config.searchDefault) =
    config.libraries
  /-- A position that is answered at any later time is one in the configuration. -/
  position : ∀ registrations name address i,
    (f.registerAll registrations).symbols.lookup name = some (address, .library i) →
      ∃ path exports, config.libraries[i]? = some path ∧ host.load path = .ok exports ∧
        (Library.mk path exports).maps name = some address
  /-- The bundled routine, and nothing else, is registered if the configuration says so. -/
  bundled : ∀ name address, f.symbols.lookup name = some (address, .registered) ↔
    config.builtins = true ∧ name = nullPointerName ∧ address = host.nullPointer
  /-- It comes before the libraries and the process until its name is registered again. -/
  preferred : config.builtins = true → ∀ registrations,
    (∀ registration ∈ registrations, stripSigil registration.1 ≠ nullPointerName) →
      (f.registerAll registrations).symbols.lookup nullPointerName =
        some (host.nullPointer, .registered)
  /-- Whatever is registered under its name then takes its place. -/
  replaced : ∀ before name address after, stripSigil name = nullPointerName →
    (∀ registration ∈ after, stripSigil registration.1 ≠ nullPointerName) →
      (f.registerAll (before ++ (name, address) :: after)).symbols.lookup nullPointerName =
        some (address, .registered)

/-- The build has ended with a library that cannot be loaded. -/
structure Broken (host : Host π) (config : Config) (process : π) (before : List String)
    (path : String) (after : List String) (text : String) : Prop where
  libraries : config.libraries = before ++ path :: after
  /-- It is the first of them. -/
  loads : ∀ loaded ∈ before, Loads host.load loaded
  fails : host.load path = .error text
  build : build host config process =
    (.error (.libraryLoad path text), before.map .libraryLoaded)
  /-- The loader was not asked for the libraries behind it. -/
  asked : askedFor host.load config.libraries (.empty host.exports config.searchDefault) =
    before ++ [path]
  /-- It makes no difference what it would have said of them. -/
  heedless : ∀ load : String → Except String Exports,
    (∀ tried ∈ before ++ [path], load tried = host.load tried) →
      Foreign.build { host with load } config process = Foreign.build host config process

/-- Building a resolver gives all or nothing. -/
structure AllOrNothing (host : Host π) (config : Config) (process : π) : Prop where
  succeeds : (∃ f, (build host config process).1 = .ok f) ↔
    ∀ path ∈ config.libraries, Loads host.load path
  whole : ∀ f, (build host config process).1 = .ok f → Whole host config process f
  broken : (¬∀ path ∈ config.libraries, Loads host.load path) →
    ∃ before path after text, Broken host config process before path after text
  level : ∀ event ∈ (build host config process).2, event.level = .debug
  /-- The loader that notes what it is asked for loads the same libraries. -/
  watched : ∀ symbols, (loadAllBy (watchedLoader host.load) config.libraries symbols []).1 =
    loadAll host.load config.libraries symbols

theorem whole_of_loads (h : ∀ path ∈ config.libraries, Loads host.load path) :
    Whole host config process (configured host config process) := by
  have hregistered : ∀ registrations name address,
      ((configured host config process).registerAll registrations).symbols.lookup name =
          some (address, .registered) ↔
        Symbols.LastRegistered (config.entries host ++ registrationEntries registrations) name
          address := by
    intro registrations name address
    rw [symbols_configured]
    exact Symbols.lookup_eq_registered_iff
  obtain ⟨hpaths, hexports⟩ := loaded_entries h []
  rw [show registrationEntries [] = [] from rfl, List.append_nil] at hpaths hexports
  have hlibraries : (configured host config process).symbols.libraries =
      Symbols.loaded (config.entries host) := Symbols.libraries_filled
  constructor
  case loads => exact h
  case told => rw [build_of_loads process h]
  case libraries => rw [hlibraries, hpaths]
  case exports => rwa [hlibraries]
  case asked => exact askedFor_of_loads _ h
  case position =>
    intro registrations name address i hlookup
    rw [symbols_configured] at hlookup
    obtain ⟨l, hl, hmaps⟩ := (Symbols.firstOffer_of_lookup hlookup).maps
    obtain ⟨hlater, hlaterExports⟩ := loaded_entries h registrations
    refine ⟨l.path, l.exports, ?_, hlaterExports l (List.mem_of_getElem? hl), hmaps⟩
    rw [← hlater, List.getElem?_map, hl, Option.map_some]
  case bundled =>
    intro name address
    rw [← lastRegistered_entries_iff]
    exact Symbols.lookup_eq_registered_iff
  case preferred =>
    intro hbuiltins registrations hothers
    have hlast : Symbols.LastRegistered (config.entries host) nullPointerName host.nullPointer :=
      lastRegistered_entries_iff.mpr ⟨hbuiltins, rfl, rfl⟩
    exact (hregistered ..).mpr (lastRegistered_append hlast hothers)
  case replaced =>
    intro before name address after hname hothers
    rw [← hname] at hothers ⊢
    exact (hregistered ..).mpr (lastRegistered_of_registration _ before address hothers)

theorem broken_of_fails {before after : List String} {path text : String}
    (hsplit : config.libraries = before ++ path :: after)
    (h : ∀ loaded ∈ before, Loads host.load loaded) (hfails : host.load path = .error text) :
    Broken host config process before path after text := by
  have hbuild := build_of_fails process hsplit h hfails
  constructor
  case libraries => exact hsplit
  case loads => exact h
  case fails => exact hfails
  case build => exact hbuild
  case asked => rw [hsplit, askedFor_of_fails _ h hfails]
  case heedless =>
    intro load hsame
    obtain ⟨hbefore, hpath⟩ := List.forall_mem_append.mp hsame
    have hloads : ∀ loaded ∈ before, Loads load loaded := by
      intro loaded hmem
      obtain ⟨exports, hload⟩ := h loaded hmem
      exact ⟨exports, (hbefore loaded hmem).trans hload⟩
    have hpathFails : load path = .error text :=
      (hpath path (List.mem_singleton_self path)).trans hfails
    rw [hbuild]
    exact build_of_fails process hsplit hloads hpathFails

/-- **Building a resolver is all or nothing.** -/
theorem build_all_or_nothing (host : Host π) (config : Config) (process : π) :
    AllOrNothing host config process := by
  have hevents : ∀ paths : List String, ∀ event ∈ paths.map Event.libraryLoaded,
      event.level = .debug := by
    intro paths event hevent
    obtain ⟨path, -, rfl⟩ := List.mem_map.mp hevent
    rfl
  constructor
  case succeeds =>
    constructor
    · rintro ⟨f, hf⟩
      exact (loads_of_build hf).1
    · intro h
      exact ⟨_, congrArg Prod.fst (build_of_loads process h)⟩
  case whole =>
    intro f hf
    obtain ⟨h, rfl⟩ := loads_of_build hf
    exact whole_of_loads h
  case broken =>
    intro hnot
    rcases forall_loads_or_exists host.load config.libraries with
      hall | ⟨before, path, after, text, hsplit, hbefore, hfails⟩
    · exact absurd hall hnot
    · exact ⟨before, path, after, text, broken_of_fails hsplit hbefore hfails⟩
  case level =>
    rcases forall_loads_or_exists host.load config.libraries with
      hall | ⟨before, path, after, text, hsplit, hbefore, hfails⟩
    · rw [build_of_loads process hall]
      exact hevents _
    · rw [build_of_fails process hsplit hbefore hfails]
      exact hevents _
  case watched => exact fun symbols => loadAllBy_watch_fst host.load config.libraries symbols []

/-- A library that cannot be loaded stands between two that are the same. -/
example :
    let load (path : String) : Except String Exports :=
      if path = "a" then .ok fun _ => none else .error "no such file"
    let host : Host Unit := ⟨load, fun _ => none, fun _ _ process => (0, process), ⟨8⟩⟩
    (build host { libraries := ["a", "a", "b", "a"] } ()).2 =
        [.libraryLoaded "a", .libraryLoaded "a"] ∧
      askedFor load ["a", "a", "b", "a"] (.empty host.exports false) = ["a", "a", "b"] := by
  decide +kernel

end Foreign

end NativeLink
