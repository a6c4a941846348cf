import Mathlib.Data.List.Induction
import NativeLink.Foreign.Entries

/-!
# Precedence among symbols

A name may be registered, defined by several of the loaded libraries, and known to the process as
well.  `Answers` says which of these a look-up gives, from the entries of the table alone.

1. What was registered last under exactly this name, the null address included.
2. Else what the first library gives that maps the name to an address that is not null, with the
   position of that library among those that were loaded.
3. Else what the process gives, if the table searches it and the address is not null.
4. Else nothing.

The null address is treated differently on purpose: a registration is the word of the embedder, but
a library that maps a name to null has nothing to call.

The four cases exclude each other, so that `lookup_eq_iff` determines the look-up.  It is read off
in two parts that do not know of each other: what is registered depends on the entries through the
last registration (`lookup_registered`), and the search through the libraries ends at the first that
has something to offer (`findIn_eq_some_iff`).
-/

namespace NativeLink

variable {name : String} {address : Address}

theorem proper_eq_some_iff {other : Address} :
    proper other = some address ↔ other = address ∧ address ≠ .null := by
  unfold proper
  by_cases h : other = .null
  · rw [if_pos ((Address.isNull_iff other).mpr h)]
    exact ⟨nofun, fun ⟨heq, hne⟩ => absurd (heq ▸ h) hne⟩
  · rw [if_neg fun hnull => h ((Address.isNull_iff other).mp hnull), Option.some.injEq]
    exact ⟨fun heq => ⟨heq, heq ▸ h⟩, And.left⟩

namespace Library

variable {l : Library}

/-- The library maps the name to nothing, or to the null address. -/
def Lacks (l : Library) (name : String) : Prop :=
  ∀ address, l.maps name = some address → address = .null

/-- **A library offers what it maps a name to**, unless that is null. -/
theorem find?_eq_some_iff :
    l.find? name = some address ↔ l.maps name = some address ∧ address ≠ .null := by
  rw [find?, Option.bind_eq_some_iff]
  simp only [proper_eq_some_iff]
  exact ⟨fun ⟨_, hmaps, heq, hne⟩ => ⟨heq ▸ hmaps, hne⟩, fun ⟨hmaps, hne⟩ => ⟨_, hmaps, rfl, hne⟩⟩

theorem find?_eq_none_iff : l.find? name = none ↔ l.Lacks name := by
  rw [Option.eq_none_iff_forall_ne_some]
  refine forall_congr' fun address => ?_
  rw [Ne, find?_eq_some_iff, not_and, not_not]

end Library

theorem processFind?_eq_some_iff {process : Exports} :
    processFind? process name = some address ↔
      processMaps process name = some address ∧ address ≠ .null := by
  have hfind : processFind? process name = (processMaps process name).bind proper := by
    unfold processFind? processMaps
    split <;> rfl
  rw [hfind, Option.bind_eq_some_iff]
  simp only [proper_eq_some_iff]
  exact ⟨fun ⟨_, hmaps, heq, hne⟩ => ⟨heq ▸ hmaps, hne⟩, fun ⟨hmaps, hne⟩ => ⟨_, hmaps, rfl, hne⟩⟩

namespace Symbols

/-! ## The search through the libraries -/

section

variable {libraries : List Library} {source : Source}

theorem findIn_eq_none_iff {position : Nat} :
    findIn name position libraries = none ↔ ∀ l ∈ libraries, l.Lacks name := by
  induction libraries generalizing position with
  | nil => simp [findIn]
  | cons l rest ih =>
    rw [findIn, List.forall_mem_cons, ← Library.find?_eq_none_iff, ← ih]
    cases l.find? name with
    | some address => exact ⟨nofun, fun h => nomatch h.1⟩
    | none => exact ⟨fun h => ⟨rfl, h⟩, And.right⟩

/-- The library at a position is the first that offers an address for a name. -/
structure FirstOffer (libraries : List Library) (name : String) (i : Nat) (address : Address) :
    Prop where
  maps : ∃ l, libraries[i]? = some l ∧ l.maps name = some address
  proper : address ≠ .null
  first : ∀ j < i, ∀ l, libraries[j]? = some l → l.Lacks name

theorem firstOffer_zero_iff {l : Library} : FirstOffer (l :: libraries) name 0 address ↔
    l.find? name = some address := by
  rw [Library.find?_eq_some_iff]
  constructor
  · rintro ⟨⟨_, hl, hmaps⟩, hproper, -⟩
    cases hl
    exact ⟨hmaps, hproper⟩
  · rintro ⟨hmaps, hproper⟩
    exact ⟨⟨l, rfl, hmaps⟩, hproper, fun j hj => absurd hj (Nat.not_lt_zero j)⟩

theorem firstOffer_succ_iff {l : Library} {i : Nat} :
    FirstOffer (l :: libraries) name (i + 1) address ↔
      l.Lacks name ∧ FirstOffer libraries name i address := by
  constructor
  · rintro ⟨hmaps, hproper, hfirst⟩
    exact ⟨hfirst 0 (Nat.succ_pos i) l rfl, hmaps, hproper,
      fun j hj => hfirst (j + 1) (Nat.succ_lt_succ hj)⟩
  · rintro ⟨hlacks, hmaps, hproper, hfirst⟩
    refine ⟨hmaps, hproper, fun j hj other hother => ?_⟩
    cases j with
    | zero =>
      cases hother
      exact hlacks
    | succ j => exact hfirst j (Nat.lt_of_succ_lt_succ hj) other hother

/-- **The search ends at the first library that has something to offer.** -/
theorem findIn_eq_some_iff {position : Nat} :
    findIn name position libraries = some (address, source) ↔
      ∃ i, source = .library (position + i) ∧ FirstOffer libraries name i address := by
  induction libraries generalizing position with
  | nil =>
    rw [findIn]
    exact ⟨nofun, fun ⟨_, _, ⟨_, hl, _⟩, _, _⟩ => nomatch hl⟩
  | cons l rest ih =>
    rw [findIn]
    cases hfind : l.find? name with
    | some found =>
      constructor
      · intro h
        cases h
        exact ⟨0, rfl, firstOffer_zero_iff.mpr hfind⟩
      · rintro ⟨i, rfl, hoffer⟩
        cases i with
        | zero =>
          rw [firstOffer_zero_iff, hfind] at hoffer
          cases hoffer
          rfl
        | succ i =>
          rw [firstOffer_succ_iff, ← Library.find?_eq_none_iff, hfind] at hoffer
          cases hoffer.1
    | none =>
      rw [ih]
      constructor
      · rintro ⟨i, rfl, hoffer⟩
        refine ⟨i + 1, by rw [Nat.add_assoc, Nat.add_comm 1], ?_⟩
        exact firstOffer_succ_iff.mpr ⟨Library.find?_eq_none_iff.mp hfind, hoffer⟩
      · rintro ⟨i, rfl, hoffer⟩
        cases i with
        | zero =>
          rw [firstOffer_zero_iff, hfind] at hoffer
          cases hoffer
        | succ i =>
          exact ⟨i, by rw [Nat.add_assoc, Nat.add_comm 1], (firstOffer_succ_iff.mp hoffer).2⟩

end

/-! ## What is registered -/

section

variable {entries : List Entry}

/-- The address was registered under the name, and no other was after that. -/
def LastRegistered (entries : List Entry) (name : String) (address : Address) : Prop :=
  ∃ before after, entries = before ++ .register name address :: after ∧
    ∀ other, .register name other ∉ after

/-- The name was never registered. -/
def Unregistered (entries : List Entry) (name : String) : Prop :=
  ∀ address, .register name address ∉ entries

theorem Entry.addressFor?_eq_some_iff {entry : Entry} :
    entry.addressFor? name = some address ↔ entry = .register name address := by
  cases entry with
  | load path result => simp [addressFor?]
  | register other found => simp [addressFor?]

theorem unregistered_iff :
    Unregistered entries name ↔ entries.filterMap (Entry.addressFor? name) = [] := by
  rw [List.filterMap_eq_nil_iff]
  constructor
  · intro h entry hentry
    rw [Option.eq_none_iff_forall_ne_some]
    rintro address haddress
    exact h address (Entry.addressFor?_eq_some_iff.mp haddress ▸ hentry)
  · intro h address hentry
    have hnone := h _ hentry
    rw [Entry.addressFor?_eq_some_iff.mpr rfl] at hnone
    cases hnone

theorem lastRegistered_iff : LastRegistered entries name address ↔
    (entries.filterMap (Entry.addressFor? name)).getLast? = some address := by
  constructor
  · rintro ⟨before, after, rfl, hafter⟩
    have hself : (Entry.register name address).addressFor? name = some address :=
      Entry.addressFor?_eq_some_iff.mpr rfl
    rw [List.filterMap_append, List.filterMap_cons_some hself, unregistered_iff.mp hafter,
      List.getLast?_concat]
  · intro h
    obtain ⟨addresses, hsplit⟩ := List.getLast?_eq_some_iff.mp h
    obtain ⟨before, rest, rfl, -, hrest⟩ := List.filterMap_eq_append_iff.mp hsplit
    obtain ⟨skipped, entry, after, rfl, -, hentry, hafter⟩ := List.filterMap_eq_cons_iff.mp hrest
    cases Entry.addressFor?_eq_some_iff.mp hentry
    exact ⟨before ++ skipped, after, (List.append_assoc ..).symm, unregistered_iff.mpr hafter⟩

end

/-! ## The look-up -/

section

variable (process : Exports) (searchDefault : Bool)

/-- What a table that was filled with these entries answers for a name. -/
inductive Answers (entries : List Entry) (name : String) : Option (Address × Source) → Prop where
  | registered {address : Address} (last : LastRegistered entries name address) :
    Answers entries name (some (address, .registered))
  | library {i : Nat} {address : Address} (unregistered : Unregistered entries name)
    (offer : FirstOffer (loaded entries) name i address) :
    Answers entries name (some (address, .library i))
  | default {address : Address} (unregistered : Unregistered entries name)
    (lacking : ∀ l ∈ loaded entries, l.Lacks name) (searched : searchDefault = true)
    (maps : processMaps process name = some address) (proper : address ≠ .null) :
    Answers entries name (some (address, .default))
  | nothing (unregistered : Unregistered entries name)
    (lacking : ∀ l ∈ loaded entries, l.Lacks name)
    (absent : searchDefault = true →
      ∀ address, processMaps process name = some address → address = .null) :
    Answers entries name none

/-- The table that was filled with these entries. -/
def filled (entries : List Entry) : Symbols := (empty process searchDefault).enterAll entries

variable {process searchDefault} {entries : List Entry}

theorem filled_concat (entries : List Entry) (entry : Entry) :
    filled process searchDefault (entries ++ [entry]) =
      (filled process searchDefault entries).enter entry :=
  enterAll_append ..

/-- **What is registered is what was registered last.** -/
theorem lookup_registered : (filled process searchDefault entries).registered.lookup name =
    (entries.filterMap (Entry.addressFor? name)).getLast? := by
  induction entries using List.reverseRecOn with
  | nil => rfl
  | append_singleton entries entry ih =>
    rw [filled_concat, lookup_registered_enter, ih, List.filterMap_append]
    cases h : entry.addressFor? name with
    | none => rw [List.filterMap_cons_none h, List.filterMap_nil, List.append_nil, Option.none_or]
    | some address =>
      rw [List.filterMap_cons_some h, List.filterMap_nil, List.getLast?_concat, Option.some_or]

theorem libraries_filled :
    (filled process searchDefault entries).libraries = loaded entries := by
  induction entries using List.reverseRecOn with
  | nil => rfl
  | append_singleton entries entry ih =>
    rw [filled_concat, libraries_enter, ih, loaded, loaded, List.filterMap_append]
    cases h : entry.library? with
    | none => rw [List.filterMap_cons_none h, List.filterMap_nil, Option.toList_none]
    | some l => rw [List.filterMap_cons_some h, List.filterMap_nil, Option.toList_some]

theorem process_filled : (filled process searchDefault entries).process = process := by
  induction entries using List.reverseRecOn with
  | nil => rfl
  | append_singleton entries entry ih => rw [filled_concat, process_enter, ih]

theorem searchDefault_filled :
    (filled process searchDefault entries).searchDefault = searchDefault := by
  induction entries using List.reverseRecOn with
  | nil => rfl
  | append_singleton entries entry ih => rw [filled_concat, searchDefault_enter, ih]

/-- A look-up goes by what is registered under the name and by what was loaded. -/
theorem lookup_filled : (filled process searchDefault entries).lookup name =
    match (entries.filterMap (Entry.addressFor? name)).getLast? with
    | some address => some (address, .registered)
    | none =>
      match findIn name 0 (loaded entries) with
      | some found => some found
      | none => if searchDefault then (processFind? process name).map (·, .default) else none := by
  have hregistered : (filled process searchDefault entries).registered.lookup name = _ :=
    lookup_registered
  have hlibraries : (filled process searchDefault entries).libraries = _ := libraries_filled
  have hprocess : (filled process searchDefault entries).process = _ := process_filled
  have hsearch : (filled process searchDefault entries).searchDefault = _ := searchDefault_filled
  generalize filled process searchDefault entries = s at *
  rw [← hregistered, ← hlibraries]
  subst hprocess hsearch
  rfl

theorem answers_lookup (process : Exports) (searchDefault : Bool) (entries : List Entry)
    (name : String) : Answers process searchDefault entries name
      ((filled process searchDefault entries).lookup name) := by
  rw [lookup_filled]
  cases hlast : (entries.filterMap (Entry.addressFor? name)).getLast? with
  | some address => exact .registered (lastRegistered_iff.mpr hlast)
  | none =>
    have hunregistered := unregistered_iff.mpr (List.getLast?_eq_none_iff.mp hlast)
    cases hfind : findIn name 0 (loaded entries) with
    | some found =>
      obtain ⟨address, source⟩ := found
      obtain ⟨i, rfl, hoffer⟩ := findIn_eq_some_iff.mp hfind
      rw [Nat.zero_add]
      exact .library hunregistered hoffer
    | none =>
      have hlacking := findIn_eq_none_iff.mp hfind
      cases searchDefault with
      | false => exact .nothing hunregistered hlacking nofun
      | true =>
        cases hprocess : processFind? process name with
        | some address =>
          obtain ⟨hmaps, hproper⟩ := processFind?_eq_some_iff.mp hprocess
          exact .default hunregistered hlacking rfl hmaps hproper
        | none =>
          refine .nothing hunregistered hlacking fun _ address hmaps => ?_
          by_contra hproper
          rw [processFind?_eq_some_iff.mpr ⟨hmaps, hproper⟩] at hprocess
          cases hprocess

theorem Answers.eq_lookup {answer : Option (Address × Source)}
    (h : Answers process searchDefault entries name answer) :
    (filled process searchDefault entries).lookup name = answer := by
  rw [lookup_filled]
  cases h with
  | registered last => rw [lastRegistered_iff.mp last]
  | library unregistered offer =>
    rw [unregistered_iff.mp unregistered,
      findIn_eq_some_iff.mpr ⟨_, (congrArg Source.library (Nat.zero_add _)).symm, offer⟩]
    rfl
  | default unregistered lacking searched maps proper =>
    rw [unregistered_iff.mp unregistered, findIn_eq_none_iff.mpr lacking, searched,
      processFind?_eq_some_iff.mpr ⟨maps, proper⟩]
    rfl
  | nothing unregistered lacking absent =>
    rw [unregistered_iff.mp unregistered, findIn_eq_none_iff.mpr lacking]
    cases searchDefault with
    | false => rfl
    | true =>
      have hnone : processFind? process name = none := by
        rw [Option.eq_none_iff_forall_ne_some]
        intro address h
        obtain ⟨hmaps, hproper⟩ := processFind?_eq_some_iff.mp h
        exact hproper (absent rfl address hmaps)
      rw [hnone]
      rfl

/-- **The entries determine the answer.** -/
theorem lookup_eq_iff {answer : Option (Address × Source)} :
    (filled process searchDefault entries).lookup name = answer ↔
      Answers process searchDefault entries name answer := by
  constructor
  · rintro rfl
    exact answers_lookup process searchDefault entries name
  · exact Answers.eq_lookup

theorem lookup_eq_registered_iff :
    (filled process searchDefault entries).lookup name = some (address, .registered) ↔
      LastRegistered entries name address := by
  rw [lookup_eq_iff]
  constructor
  · rintro ⟨last⟩
    exact last
  · exact .registered

/-- What is found in a library is found in the first that offers it. -/
theorem firstOffer_of_lookup {i : Nat}
    (h : (filled process searchDefault entries).lookup name = some (address, .library i)) :
    FirstOffer (loaded entries) name i address := by
  cases lookup_eq_iff.mp h with
  | library unregistered offer => exact offer

/-- Entries that come to the same under a name lead to the same there. -/
theorem lookup_congr {other : List Entry}
    (registered : other.filterMap (Entry.addressFor? name) =
      entries.filterMap (Entry.addressFor? name))
    (libraries : loaded other = loaded entries) :
    (filled process searchDefault other).lookup name =
      (filled process searchDefault entries).lookup name := by
  rw [lookup_filled, lookup_filled, registered, libraries]

theorem addressFor?_register_of_ne {other : String} (address : Address) (h : other ≠ name) :
    (Entry.register other address).addressFor? name = none :=
  if_neg h

theorem loaded_insert_register (before after : List Entry) (name : String) (address : Address) :
    loaded (before ++ .register name address :: after) = loaded (before ++ after) := by
  rw [loaded, loaded, List.filterMap_append, List.filterMap_append, List.filterMap_cons_none rfl]

/-- A registration makes no difference to other names, whatever comes before and after it. -/
theorem lookup_insert_register (before after : List Entry) {other : String} (address : Address)
    (h : name ≠ other) :
    (filled process searchDefault (before ++ .register other address :: after)).lookup name =
      (filled process searchDefault (before ++ after)).lookup name := by
  refine lookup_congr ?_ (loaded_insert_register before after other address)
  rw [List.filterMap_append, List.filterMap_append,
    List.filterMap_cons_none (addressFor?_register_of_ne address h.symm)]

/-- Two registrations under different names may be made in either order. -/
theorem lookup_swap_register (before after : List Entry) {first second : String}
    (address other : Address) (h : first ≠ second) (name : String) :
    (filled process searchDefault
        (before ++ .register second other :: .register first address :: after)).lookup name =
      (filled process searchDefault
        (before ++ .register first address :: .register second other :: after)).lookup name := by
  refine lookup_congr ?_ ?_
  · -- one of the two is under another name than the one that is looked up
    have hone : (Entry.register first address).addressFor? name = none ∨
        (Entry.register second other).addressFor? name = none := by
      by_cases hfirst : first = name
      · exact .inr (addressFor?_register_of_ne other fun hsecond => h (hfirst.trans hsecond.symm))
      · exact .inl (addressFor?_register_of_ne address hfirst)
    rcases hone with hnone | hnone
    all_goals simp only [List.filterMap_append, List.filterMap_cons, hnone]
  · simp only [loaded_insert_register]

end

/-! ## The order of the search -/

section

variable (process : Exports) (searchDefault : Bool) (entries : List Entry)

/-- What a look-up gives, and what makes no difference to it. -/
structure Precedence : Prop where
  /-- The answer is the one that the entries call for, and no other. -/
  answer : ∀ name answer, (filled process searchDefault entries).lookup name = answer ↔
    Answers process searchDefault entries name answer
  /-- The libraries of the table are those that could be loaded, in that order. -/
  libraries : (filled process searchDefault entries).libraries = loaded entries
  /-- A position that is answered is that of the library that was found. -/
  position : ∀ name address i,
    (filled process searchDefault entries).lookup name = some (address, .library i) →
      ∃ l, (filled process searchDefault entries).libraries[i]? = some l ∧
        l.maps name = some address ∧ address ≠ .null
  /-- A registration concerns its own name only, whenever it is made. -/
  others : ∀ before after, entries = before ++ after → ∀ name address,
    (filled process searchDefault (before ++ .register name address :: after)).libraries =
        (filled process searchDefault entries).libraries ∧
      ∀ other, other ≠ name →
        (filled process searchDefault (before ++ .register name address :: after)).lookup other =
          (filled process searchDefault entries).lookup other
  /-- Registrations under different names may be made in either order. -/
  commute : ∀ before after name address second other,
    entries = before ++ .register name address :: .register second other :: after →
    name ≠ second →
      (filled process searchDefault
          (before ++ .register second other :: .register name address :: after)).libraries =
          (filled process searchDefault entries).libraries ∧
        ∀ wanted, (filled process searchDefault
            (before ++ .register second other :: .register name address :: after)).lookup wanted =
          (filled process searchDefault entries).lookup wanted

/-- **A look-up goes through registrations, libraries and the process in this order**, after any
history of the table. -/
theorem lookup_precedence : Precedence process searchDefault entries := by
  constructor
  case answer => exact fun _ _ => lookup_eq_iff
  case libraries => exact libraries_filled
  case position =>
    intro name address i h
    have offer := firstOffer_of_lookup h
    obtain ⟨l, hl, hmaps⟩ := offer.maps
    exact ⟨l, libraries_filled.symm ▸ hl, hmaps, offer.proper⟩
  case others =>
    rintro before after rfl name address
    refine ⟨?_, fun other hother => lookup_insert_register before after address hother⟩
    rw [libraries_filled, libraries_filled, loaded_insert_register]
  case commute =>
    rintro before after name address second other rfl hne
    refine ⟨?_, fun wanted => lookup_swap_register before after address other hne wanted⟩
    simp only [libraries_filled, loaded_insert_register]

end

/-- The second library is loaded between two registrations and gives what the first one maps to
null.  A name that was registered as null stays null. -/
example : let library (path : String) (address : Address) : Entry :=
      .load path (.ok fun name => if name = "f" ∨ name = "g" then some address else none)
    let s := filled (fun _ => some ⟨4⟩) true [library "a" .null, .load "b" (.error "no such file"),
      .register "f" ⟨1⟩, library "c" ⟨2⟩, library "d" ⟨3⟩, .register "f" .null]
    (s.lookup "f", s.lookup "g", s.lookup "h") =
      (some (.null, .registered), some (⟨2⟩, .library 1), some (⟨4⟩, .default)) := by
  decide +kernel

end Symbols

end NativeLink
