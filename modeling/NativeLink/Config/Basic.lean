/-!
# Configurations

A configuration says which shared libraries are searched for native symbols, what
other names symbols go by, whether the symbols of the process itself are searched,
and whether the bundled routines are registered.

Aliases are kept in ascending order of their names, one for each name, so that two
configurations are equal exactly when they say the same.
-/

namespace NativeLink

/-- Adds an alias, which replaces an earlier one of the same name. -/
def insertAlias (name target : String) : List (String × String) → List (String × String)
  | [] => [(name, target)]
  | entry :: rest =>
    if name = entry.1 then (name, target) :: rest
    else if name < entry.1 then (name, target) :: entry :: rest
    else entry :: insertAlias name target rest

/-- Aliases from a list in which the last one of a name counts. -/
def aliasesOfList (entries : List (String × String)) : List (String × String) :=
  entries.foldl (fun aliases entry => insertAlias entry.1 entry.2 aliases) []

/-- Looking a name up finds the alias that was added last. -/
theorem lookup_insertAlias (name target other : String) (aliases : List (String × String)) :
    (insertAlias name target aliases).lookup other =
      if other = name then some target else aliases.lookup other := by
  induction aliases with
  | nil =>
    by_cases h : other = name
    · simp [insertAlias, h]
    · have hb : (other == name) = false := by simpa using h
      simp [insertAlias, List.lookup_cons, h, hb]
  | cons entry rest ih =>
    obtain ⟨key, value⟩ := entry
    unfold insertAlias
    by_cases h : other = name
    · subst h
      by_cases hk : other = key
      · simp [hk]
      · have hb : (other == key) = false := by simpa using hk
        simp only [hk, if_false]
        split <;> simp [List.lookup_cons, hb, ih]
    · have hb : (other == name) = false := by simpa using h
      by_cases hk : name = key
      · subst hk
        simp [List.lookup_cons, hb, h]
      · simp only [hk, if_false]
        split <;> simp [List.lookup_cons, hb, h, ih]

/-- Where native symbols are looked for. -/
structure Config where
  /-- The shared libraries to load and search, in order. -/
  libraries : List String := []
  /-- Native names and the native names that stand in for them. -/
  aliases : List (String × String) := []
  /-- Whether the symbols of the process are searched last. -/
  searchDefault : Bool := true
  /-- Whether the bundled routines are registered. -/
  builtins : Bool := true
  deriving DecidableEq

/-- Why there is no configuration. -/
inductive ConfigError where
  | unreadable (path reason : String)
  /-- The text is not well formed, or is not that of a configuration. -/
  | malformed
  deriving DecidableEq

/-- The message about a file that cannot be read.  A malformed text has no message of its own. -/
def ConfigError.message : ConfigError → String
  | unreadable path reason => "failed to read config " ++ path ++ ": " ++ reason
  | malformed => "invalid config"

end NativeLink
