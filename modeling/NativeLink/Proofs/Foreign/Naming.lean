import NativeLink.Cache.Request
import NativeLink.Proofs.Foreign.Build

/-!
# From names to native names

A requested name loses one sigil, if it begins with one, and is then replaced by its alias, if it
has one (`Stands`).  That is all.  The target of an alias is not looked at again: neither for a
sigil, nor for an alias of its own, so that a cycle of aliases leads to its next member and no
further.

Registrations lose a sigil too, but no alias is applied to them.  A registration is therefore
reached by the names that stand for its key, and they need not include the key: if the key has an
alias to something else, whoever asks for the key is led there (`Named.hidden`).

`Named` says what comes of a request, for a resolver that was built from a configuration and of
which it is known what was registered since.  The look-up behind it is that of the entries of the
configuration and of the registrations, in this order.
-/

namespace NativeLink

/-! ## Sigils -/

/-- What is left of a name without one leading sigil. -/
inductive Bare : String → String → Prop where
  | sigil (rest : String) : Bare ("@" ++ rest) rest
  | plain {name : String} (h : ∀ rest, name ≠ "@" ++ rest) : Bare name name

theorem stripSigil_sigil (rest : String) : stripSigil ("@" ++ rest) = rest := by
  have hlist : ("@" ++ rest).toList = '@' :: rest.toList := by simp
  simp only [stripSigil, hlist, String.ofList_toList]

theorem stripSigil_of_plain {name : String} (h : ∀ rest, name ≠ "@" ++ rest) :
    stripSigil name = name := by
  unfold stripSigil
  split
  · next rest hlist =>
    refine absurd ?_ (h (String.ofList rest))
    apply String.toList_inj.mp
    rw [hlist]
    simp
  · rfl

theorem bare_iff {name rest : String} : Bare name rest ↔ stripSigil name = rest := by
  constructor
  · intro h
    cases h with
    | sigil rest => exact stripSigil_sigil rest
    | plain h => exact stripSigil_of_plain h
  · rintro rfl
    by_cases h : ∃ rest, name = "@" ++ rest
    · obtain ⟨rest, rfl⟩ := h
      rw [stripSigil_sigil]
      exact .sigil rest
    · have hplain : ∀ rest, name ≠ "@" ++ rest := fun rest heq => h ⟨rest, heq⟩
      rw [stripSigil_of_plain hplain]
      exact .plain hplain

/-- What a requested name stands for, under some aliases. -/
inductive Stands (aliases : List (String × String)) (name : String) : String → Prop where
  | aliased {rest target : String} (bare : Bare name rest)
    (entry : aliases.lookup rest = some target) : Stands aliases name target
  | itself {rest : String} (bare : Bare name rest) (free : aliases.lookup rest = none) :
    Stands aliases name rest

namespace Foreign

variable {π : Type} {host : Host π} {config : Config} {process : π} {f : Foreign π}
  {name native : String} {registrations : List (String × Address)}

/-- **The native name is the one that the name stands for.** -/
theorem nativeName_eq_iff : f.nativeName name = native ↔ Stands f.aliases name native := by
  unfold nativeName
  constructor
  · rintro rfl
    have hbare : Bare name (stripSigil name) := bare_iff.mpr rfl
    cases halias : f.aliases.lookup (stripSigil name) with
    | none => exact .itself hbare halias
    | some target => exact .aliased hbare halias
  · rintro (⟨bare, entry⟩ | ⟨bare, free⟩)
    · rw [bare_iff.mp bare, entry, Option.getD_some]
    · rw [bare_iff.mp bare, free, Option.getD_none]

theorem nativeName_congr {other : String} (h : stripSigil name = stripSigil other) :
    f.nativeName name = f.nativeName other := by
  rw [nativeName, nativeName, h]

@[simp] theorem nativeName_registerAll (registrations : List (String × Address)) (name : String) :
    (f.registerAll registrations).nativeName name = f.nativeName name := by
  rw [nativeName, nativeName, aliases_registerAll]

theorem register_congr {key other : String} (h : stripSigil key = stripSigil other)
    (address : Address) : f.register key address = f.register other address := by
  rw [register, register, h]

/-! ## Resolving -/

section

variable {address : Address} {source : Source} {s : Session (Foreign π)} {signature : Signature}

/-- A name that leads somewhere is bound there, and that is told. -/
theorem run_of_lookup
    (h : s.world.symbols.lookup (s.world.nativeName name) = some (address, source)) :
    (resolver host name signature).run s =
      (.returned (.ok (callable ⟨name, signature, address, host.routineAt address⟩)),
        s.tell [.located name (s.world.nativeName name) source signature]) := by
  simp only [resolver, Plan.run, id, h]

/-- A name that leads nowhere is not found, and nothing is told. -/
theorem run_of_lookup_none (h : s.world.symbols.lookup (s.world.nativeName name) = none) :
    (resolver host name signature).run s = (.returned (.error (.symbolNotFound name)), s) := by
  simp only [resolver, Plan.run, id, h]

end

/-! ## Registrations -/

/-- A registration under another key makes no difference, whatever is registered after it. -/
theorem lookup_register_elsewhere {key : String} (address : Address) (h : native ≠ stripSigil key)
    (later : List (String × Address)) :
    ((f.register key address).registerAll later).symbols.lookup native =
      (f.registerAll later).symbols.lookup native := by
  induction later using List.reverseRecOn with
  | nil => exact Symbols.lookup_register_of_ne f.symbols address h
  | append_singleton later registration ih =>
    rw [registerAll_append, registerAll_append]
    by_cases hname : native = stripSigil registration.1
    · subst hname
      exact (Symbols.lookup_register_self ..).trans (Symbols.lookup_register_self ..).symm
    · exact (Symbols.lookup_register_of_ne _ _ hname).trans
        (ih.trans (Symbols.lookup_register_of_ne _ _ hname).symm)

/-- A registration is found under its key until the next. -/
theorem lookup_register_own {key : String} (address : Address) {later : List (String × Address)}
    (h : ∀ registration ∈ later, stripSigil registration.1 ≠ stripSigil key) :
    ((f.register key address).registerAll later).symbols.lookup (stripSigil key) =
      some (address, .registered) := by
  induction later using List.reverseRecOn with
  | nil => exact Symbols.lookup_register_self f.symbols (stripSigil key) address
  | append_singleton later registration ih =>
    obtain ⟨hlater, hlast⟩ := List.forall_mem_append.mp h
    rw [registerAll_append]
    have hne := hlast registration (List.mem_singleton_self registration)
    exact (Symbols.lookup_register_of_ne _ _ hne.symm).trans (ih hlater)

/-! ## What comes of a request -/

/-- The resolver answers for a name with a routine, prepared for the name and the signature that
were asked for, and tells so once. -/
structure Reaches (host : Host π) (f : Foreign π) (name native : String) (signature : Signature)
    (address : Address) (source : Source) : Prop where
  run : ∀ s : Session (Foreign π), s.world = f → (resolver host name signature).run s =
    (.returned (.ok (callable ⟨name, signature, address, host.routineAt address⟩)),
      s.tell [.located name native source signature])
  level : (Event.located name native source signature).level = .debug
  fields : (Event.located name native source signature).fields =
    [("symbol", name), ("native_name", native), ("source", source.inspect.line),
      ("signature", signature.text)]

/-- The resolver answers that it has not found the name as it was asked for, and tells nothing. -/
def Misses (host : Host π) (f : Foreign π) (name : String) (signature : Signature) : Prop :=
  ∀ s : Session (Foreign π), s.world = f →
    (resolver host name signature).run s = (.returned (.error (.symbolNotFound name)), s)

/-- What the names of a resolver stand for, and what that comes to.  The resolver was built from the
configuration, and the registrations were made since. -/
structure Named (host : Host π) (config : Config) (registrations : List (String × Address))
    (f : Foreign π) : Prop where
  native : ∀ name native, f.nativeName name = native ↔ Stands config.aliases name native
  /-- The look-up is that of the configuration and the registrations. -/
  lookup : ∀ native answer, f.symbols.lookup native = answer ↔
    Symbols.Answers host.exports config.searchDefault
      (config.entries host ++ registrationEntries registrations) native answer
  reaches : ∀ name native signature, Stands config.aliases name native → ∀ address source,
    f.symbols.lookup native = some (address, source) →
      Reaches host f name native signature address source
  misses : ∀ name native signature, Stands config.aliases name native →
    f.symbols.lookup native = none → Misses host f name signature
  /-- A sigil in front of a name that has none makes no difference to where it leads. -/
  sigil : ∀ rest, (∀ other, rest ≠ "@" ++ other) →
    f.nativeName ("@" ++ rest) = f.nativeName rest ∧
      ∀ signature,
        (∃ native address source, Reaches host f ("@" ++ rest) native signature address source ∧
          Reaches host f rest native signature address source) ∨
        (Misses host f ("@" ++ rest) signature ∧ Misses host f rest signature)
  /-- Nor does it to a registration. -/
  registering : ∀ rest, (∀ other, rest ≠ "@" ++ other) → ∀ address,
    f.register ("@" ++ rest) address = f.register rest address
  /-- A registration is reached by the names that stand for its key, until the next. -/
  reached : ∀ key address name later, f.nativeName name = stripSigil key →
    (∀ registration ∈ later, stripSigil registration.1 ≠ stripSigil key) → ∀ signature,
      Reaches host ((f.register key address).registerAll later) name (stripSigil key) signature
        address .registered
  /-- It makes no difference to any other name. -/
  unreached : ∀ key address name later, f.nativeName name ≠ stripSigil key →
    ((f.register key address).registerAll later).nativeName name = f.nativeName name ∧
      ((f.register key address).registerAll later).symbols.lookup (f.nativeName name) =
        (f.registerAll later).symbols.lookup (f.nativeName name)
  /-- Nor to its own key, if that has an alias to something else. -/
  hidden : ∀ key target, config.aliases.lookup (stripSigil key) = some target →
    target ≠ stripSigil key → ∀ name, stripSigil name = stripSigil key → ∀ address later,
      ((f.register key address).registerAll later).nativeName name = target ∧
        ((f.register key address).registerAll later).symbols.lookup target =
          (f.registerAll later).symbols.lookup target

theorem reaches_of_lookup {address : Address} {source : Source} {signature : Signature}
    (h : f.symbols.lookup (f.nativeName name) = some (address, source)) :
    Reaches host f name (f.nativeName name) signature address source := by
  refine ⟨?_, rfl, rfl⟩
  rintro s rfl
  exact run_of_lookup h

theorem misses_of_lookup {signature : Signature}
    (h : f.symbols.lookup (f.nativeName name) = none) : Misses host f name signature := by
  rintro s rfl
  exact run_of_lookup_none h

/-- **A request leads to what its name stands for**, in a resolver that was built from a
configuration and added to since. -/
theorem named_of_build {events : List Event} {built : Foreign π}
    (h : build host config process = (.ok built, events))
    (registrations : List (String × Address)) :
    Named host config registrations (built.registerAll registrations) := by
  obtain ⟨-, rfl⟩ := loads_of_build (congrArg Prod.fst h)
  have haliases : ((configured host config process).registerAll registrations).aliases =
      config.aliases := aliases_registerAll ..
  have hsymbols : ((configured host config process).registerAll registrations).symbols = _ :=
    symbols_configured registrations
  generalize (configured host config process).registerAll registrations = f at haliases hsymbols
  have hnative : ∀ {name native}, Stands config.aliases name native → f.nativeName name = native :=
    fun stands => nativeName_eq_iff.mpr (haliases.symm ▸ stands)
  constructor
  case native =>
    intro name native
    rw [nativeName_eq_iff, haliases]
  case lookup =>
    intro native answer
    rw [hsymbols]
    exact Symbols.lookup_eq_iff
  case reaches =>
    intro name native signature stands address source hlookup
    obtain rfl := hnative stands
    exact reaches_of_lookup hlookup
  case misses =>
    intro name native signature stands hlookup
    obtain rfl := hnative stands
    exact misses_of_lookup hlookup
  case sigil =>
    intro rest hplain
    have hbare : stripSigil ("@" ++ rest) = stripSigil rest := by
      rw [stripSigil_sigil, stripSigil_of_plain hplain]
    have hsame : f.nativeName ("@" ++ rest) = f.nativeName rest := nativeName_congr hbare
    refine ⟨hsame, fun signature => ?_⟩
    cases hlookup : f.symbols.lookup (f.nativeName rest) with
    | none =>
      exact .inr ⟨misses_of_lookup (hsame.symm ▸ hlookup), misses_of_lookup hlookup⟩
    | some found =>
      obtain ⟨address, source⟩ := found
      refine .inl ⟨f.nativeName rest, address, source, ?_, reaches_of_lookup hlookup⟩
      have hreaches : Reaches host f ("@" ++ rest) (f.nativeName ("@" ++ rest)) signature address
          source := reaches_of_lookup (hsame.symm ▸ hlookup)
      rwa [hsame] at hreaches
  case registering =>
    intro rest hplain address
    refine register_congr ?_ address
    rw [stripSigil_sigil, stripSigil_of_plain hplain]
  case reached =>
    intro key address name later hname hlater signature
    have hown := lookup_register_own (f := f) address hlater
    have hkey : ((f.register key address).registerAll later).nativeName name = stripSigil key :=
      (nativeName_registerAll later name).trans hname
    rw [← hkey] at hown
    have hreaches : Reaches host ((f.register key address).registerAll later) name _ signature
        address .registered := reaches_of_lookup hown
    rwa [hkey] at hreaches
  case unreached =>
    intro key address name later hname
    exact ⟨nativeName_registerAll later name, lookup_register_elsewhere address hname later⟩
  case hidden =>
    intro key target halias hne name hname address later
    refine ⟨?_, lookup_register_elsewhere address hne later⟩
    rw [nativeName_registerAll]
    exact hnative (.aliased (bare_iff.mpr hname) halias)

/-! ## Aliases that cross -/

/-- A host with one library, which maps one name to null. -/
def crossedHost : Host Unit where
  load path := if path = "lib" then .ok fun name => if name = "b" then some .null else none
    else .error "no such file"
  exports _ := none
  routineAt _ _ process := (0, process)
  nullPointer := ⟨8⟩

/-- Two names that are aliases of each other, and an alias to a name with a sigil. -/
def crossedConfig : Config where
  libraries := ["lib"]
  aliases := [("a", "b"), ("b", "a"), ("c", "@d")]

/-- What is registered under names of these. -/
def crossedRegistrations : List (String × Address) := [("@a", ⟨16⟩), ("@@d", ⟨32⟩), ("d", ⟨48⟩)]

/-- The resolver with what is registered. -/
def crossed : Foreign Unit :=
  (configured crossedHost crossedConfig ()).registerAll crossedRegistrations

/-- The routine that is registered as `a` is reached by `b` alone, and `c` does not lead to `d`. -/
theorem named_of_build_crossed :
    build crossedHost crossedConfig () =
        (.ok (configured crossedHost crossedConfig ()), [.libraryLoaded "lib"]) ∧
      Named crossedHost crossedConfig crossedRegistrations crossed ∧
      ∀ signature,
        Reaches crossedHost crossed "@b" "a" signature ⟨16⟩ .registered ∧
          Misses crossedHost crossed "@a" signature ∧ Misses crossedHost crossed "a" signature ∧
          Reaches crossedHost crossed "c" "@d" signature ⟨32⟩ .registered := by
  have hbuild : build crossedHost crossedConfig () =
      (.ok (configured crossedHost crossedConfig ()), [.libraryLoaded "lib"]) := rfl
  have hnamed : Named crossedHost crossedConfig crossedRegistrations crossed :=
    named_of_build hbuild crossedRegistrations
  have hstands : ∀ {name native}, crossed.nativeName name = native →
      Stands crossedConfig.aliases name native := fun h => (hnamed.native _ _).mp h
  refine ⟨hbuild, hnamed, fun signature => ⟨?_, ?_, ?_, ?_⟩⟩
  · exact hnamed.reaches _ _ _ (hstands (by decide +kernel)) _ _ (by decide +kernel)
  · exact hnamed.misses _ "b" _ (hstands (by decide +kernel)) (by decide +kernel)
  · exact hnamed.misses _ "b" _ (hstands (by decide +kernel)) (by decide +kernel)
  · exact hnamed.reaches _ _ _ (hstands (by decide +kernel)) _ _ (by decide +kernel)

end Foreign

end NativeLink
