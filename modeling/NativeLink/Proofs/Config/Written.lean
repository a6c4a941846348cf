import Mathlib.Data.List.Perm.Basic
import NativeLink.Config.Reader
import NativeLink.Proofs.Config.Tokens

/-!
# Texts of configurations

Which fields a configuration text has, and with which values, is a `Draft`: four values each of
which may be missing.  `Written fields t` says that `t` is the record of some fields, in this order,
with space between the tokens wherever one likes.  A text writes a draft if its fields are those of
the draft in some order.

Such a text is read as the draft with defaults for what is missing (`parse_of_written`).  Of the
notation this needs only that the fields of a record are read as they are written, and that is
`ReadsRecords`.  Going up from the tokens, it is true of `fieldsOf` (`readsRecords_fieldsOf`).  Then
the order of the fields can be forgotten, because it makes no difference which of two fields is
entered first (`Draft.add_bind_comm`), and those of a draft give the draft back
(`Draft.addAll_fields`).  Aliases are put in order on the way, and as their names are distinct none
is lost (`aliasesOfList_perm`).
-/

namespace NativeLink

open Notation

namespace Config

/-! ## Texts -/

/-- An item of the list of libraries. -/
def SpellsPath (path : String) (t : List Char) : Prop := t = quote path

/-- An entry of the map of aliases. -/
def SpellsAlias (a : String × String) (t : List Char) : Prop := Pair (quote a.1) (quote a.2) t

/-- The texts that show the value of a field, with the name of the field. -/
inductive Field.Shows : Field → String → List Char → Prop where
  | libraries {paths : List String} {t : List Char}
    (items : Listed ']' SpellsPath paths t) :
    Shows (.libraries paths) "libraries" ('[' :: t)
  | aliases {entries : List (String × String)} {t : List Char}
    (items : Listed '\x7d' SpellsAlias entries t) :
    Shows (.aliases entries) "aliases" ('\x7b' :: t)
  | searchDefault (on : Bool) :
    Shows (.searchDefault on) "search_default" (toString on).toList
  | builtins (on : Bool) : Shows (.builtins on) "builtins" (toString on).toList

/-- The texts of a field. -/
def Field.Spells (f : Field) (t : List Char) : Prop :=
  ∃ name shown, f.Shows name shown ∧ Pair name.toList shown t

/-- The texts of a record with these fields. -/
def Written (fields : List Field) (t : List Char) : Prop :=
  ∃ before name gap body after, Space before ∧ (name = "" ∨ name = "FfiConfig") ∧ Space gap ∧
    Listed ')' Field.Spells fields body ∧ Space after ∧
      t = before ++ (name.toList ++ (gap ++ '(' :: (body ++ after)))

/-- The fields of a draft. -/
def Draft.fields (d : Draft) : List Field :=
  d.libraries.toList.map .libraries ++ (d.aliases.toList.map .aliases ++
    (d.searchDefault.toList.map .searchDefault ++ d.builtins.toList.map .builtins))

/-! ## Values -/

theorem texts_of_listed {paths : List String} {t : List Char}
    (h : Listed ']' SpellsPath paths t) (rest : List Char) :
    texts ('[' :: t ++ rest) = some (paths, rest) := by
  refine items_of_listed (by decide) (by decide) ?_ h rest
  rintro s _ rfl
  exact ⟨⟨'"', _, rfl, by decide, by decide⟩, quoted_quote s⟩

/-- The reader of an entry of the map of aliases. -/
def aliasEntry : Reader (String × String) :=
  entry quoted fun key t => (quoted t).map fun (value, more) => ((key, value), more)

theorem reads_aliasEntry : Reads '\x7d' SpellsAlias aliasEntry := by
  intro a t h
  refine ⟨?_, fun rest => entry_of_pair h (by decide) (fun gap more _ => quoted_quote a.1 _) ?_⟩
  · obtain ⟨before, after, -, -, rfl⟩ := h
    exact ⟨'"', _, rfl, by decide, by decide⟩
  · have hvalue := quoted_quote a.2 rest
    rw [quote] at hvalue
    rw [hvalue]
    rfl

theorem textMap_of_listed {entries : List (String × String)} {t : List Char}
    (h : Listed '\x7d' SpellsAlias entries t) (rest : List Char) :
    textMap ('\x7b' :: t ++ rest) = some (entries, rest) :=
  items_of_listed (by decide) (by decide) reads_aliasEntry h rest

theorem flag_toString (on : Bool) (rest : List Char) :
    flag ((toString on).toList ++ rest) = some (on, rest) := by
  cases on <;> rfl

/-! ## Fields -/

theorem Field.Shows.isName {f : Field} {name : String} {shown : List Char}
    (h : f.Shows name shown) : IsName name.toList := by
  cases h <;> exact ⟨by decide, _, _, rfl, by decide, by decide⟩

theorem Field.Shows.solid {f : Field} {name : String} {shown : List Char}
    (h : f.Shows name shown) : ∃ c rest, shown = c :: rest ∧ Solid c := by
  cases h with
  | libraries items => exact ⟨_, _, rfl, by decide⟩
  | aliases items => exact ⟨_, _, rfl, by decide⟩
  | searchDefault on => cases on <;> exact ⟨_, _, rfl, by decide⟩
  | builtins on => cases on <;> exact ⟨_, _, rfl, by decide⟩

/-- **The value of a field is read by its name.** -/
theorem field_of_shows {f : Field} {name : String} {shown : List Char} (h : f.Shows name shown)
    (implicit : Bool) (rest : List Char) :
    field implicit name.toList (shown ++ rest) = some (f, rest) := by
  unfold field
  rw [String.ofList_toList]
  cases h with
  | libraries items =>
    rw [if_pos rfl, texts_of_listed items]
    rfl
  | aliases items =>
    rw [if_neg (by decide), if_pos rfl, textMap_of_listed items]
    rfl
  | searchDefault on =>
    rw [if_neg (by decide), if_neg (by decide), if_pos rfl, flag_toString]
    rfl
  | builtins on =>
    rw [if_neg (by decide), if_neg (by decide), if_neg (by decide), if_pos rfl, flag_toString]
    rfl

theorem reads_field (implicit : Bool) :
    Reads ')' Field.Spells (entry identifier (field implicit)) := by
  rintro f t ⟨name, shown, hshows, hpair⟩
  refine ⟨?_, fun rest => ?_⟩
  · obtain ⟨c, more, hname, hbegins, -⟩ := hshows.isName.begins
    obtain ⟨before, after, -, -, rfl⟩ := hpair
    obtain ⟨hsolid, hclosing⟩ := solid_of_beginsName hbegins
    exact ⟨c, _, by rw [hname, List.cons_append], hsolid, hclosing⟩
  · obtain ⟨c, more, rfl, hsolid⟩ := hshows.solid
    exact entry_of_pair hpair hsolid
      (fun gap more hgap => identifier_append hshows.isName (ends_of_space hgap rfl more))
      (field_of_shows hshows implicit rest)

/-! ## Records -/

theorem attributes_of_space {gap : List Char} (h : Space gap) {c : Char} (hc : Solid c)
    (hne : c ≠ '#') (t : List Char) : attributes (gap ++ c :: t) = some ([], c :: t) := by
  rw [attributes, blanks_append h hc]
  split
  · next heq => cases heq
  · next heq => exact absurd (List.cons.inj (Option.some.inj heq)).1 hne
  · next heq => rw [Option.some.inj heq]

theorem isName_record : IsName "FfiConfig".toList :=
  ⟨by decide, _, _, rfl, by decide, by decide⟩

/-- The name in front of a record is no matter. -/
theorem recordName_append {gap : List Char} (h : Space gap) (t : List Char) :
    recordName ("FfiConfig".toList ++ (gap ++ '(' :: t)) = some (gap ++ '(' :: t) := by
  have hstarts : startsWith continuesName ("FfiConfig".toList ++ (gap ++ '(' :: t)) = true := rfl
  rw [recordName, if_pos hstarts, identifier_append isName_record (ends_of_space h rfl t)]
  rfl

/-- The fields of a written record are read. -/
theorem record_of_listed {fields : List Field} {body t : List Char}
    (hbody : Listed ')' Field.Spells fields body) {rest : List Char}
    (ht : (recordName t).bind blanks = some ('(' :: (body ++ rest))) (implicit : Bool) :
    record implicit t = some (fields, rest) := by
  have hitems := items_of_listed (by decide) (by decide) (reads_field implicit) hbody rest
  simp only [record, ht, hitems]

/-- What is expected of a reader of the notation: whatever fields a record has, it is read as these
fields. -/
structure ReadsRecords (reader : String → Option (List Field)) : Prop where
  written : ∀ {fields : List Field} {text : String}, Written fields text.toList →
    reader text = some fields

/-- **The reader of this library reads records.** -/
theorem readsRecords_fieldsOf : ReadsRecords fieldsOf := by
  refine ⟨fun {fields text} h => ?_⟩
  obtain ⟨before, name, gap, body, after, hbefore, hname, hgap, hbody, hafter, htext⟩ := h
  have hparenthesis : Solid '(' := by decide
  -- all space in front of the first token is skipped with the attributes
  obtain ⟨u, hattributes, hrecord⟩ : ∃ u,
      attributes (before ++ (name.toList ++ (gap ++ '(' :: (body ++ after)))) = some ([], u) ∧
        (recordName u).bind blanks = some ('(' :: (body ++ after)) := by
    obtain rfl | rfl := hname
    · refine ⟨'(' :: (body ++ after), ?_, blanks_append space_nil hparenthesis _⟩
      have hspace : Space (before ++ gap) := hbefore.append hgap
      rw [← attributes_of_space hspace hparenthesis (by decide), List.append_assoc]
      rfl
    · refine ⟨"FfiConfig".toList ++ (gap ++ '(' :: (body ++ after)), ?_, ?_⟩
      · exact attributes_of_space hbefore (by decide) (by decide) _
      · rw [recordName_append hgap]
        exact blanks_append hgap hparenthesis _
  simp only [fieldsOf, htext, hattributes, record_of_listed hbody hrecord, blanks_of_space hafter]

/-! ## Drafts -/

namespace Draft

/-- Two fields may be added in either order, and if they are of one sort then in none. -/
theorem add_bind_comm (d : Draft) (f g : Field) :
    (d.add f).bind (·.add g) = (d.add g).bind (·.add f) := by
  rcases d with ⟨_ | _, _ | _, _ | _, _ | _⟩ <;> cases f <;> cases g <;> rfl

/-- **The order of fields does not matter.** -/
theorem addAll_perm {fields others : List Field} (h : fields.Perm others) (d : Draft) :
    d.addAll fields = d.addAll others := by
  induction h generalizing d with
  | nil => rfl
  | cons f _ ih =>
    simp only [addAll, ih]
  | swap f g rest =>
    have hcomm := congrArg (·.bind fun d => d.addAll rest) (d.add_bind_comm g f)
    simpa only [addAll, Option.bind_assoc] using hcomm
  | trans _ _ ih ih' => exact (ih d).trans (ih' d)

theorem addAll_fields (d : Draft) : addAll {} d.fields = some d := by
  rcases d with ⟨_ | _, _ | _, _ | _, _ | _⟩ <;> rfl

end Draft

/-! ## Aliases -/

theorem insertAlias_perm {name : String} {aliases : List (String × String)}
    (h : name ∉ aliases.map Prod.fst) (target : String) :
    (insertAlias name target aliases).Perm ((name, target) :: aliases) := by
  induction aliases with
  | nil => exact .refl _
  | cons entry rest ih =>
    rw [List.map_cons, List.mem_cons, not_or] at h
    unfold insertAlias
    rw [if_neg h.1]
    split
    · exact .refl _
    · exact ((ih h.2).cons entry).trans (.swap ..)

theorem foldl_insertAlias_perm (entries : List (String × String)) :
    ∀ aliases : List (String × String), ((aliases ++ entries).map Prod.fst).Nodup →
      (entries.foldl (fun aliases entry => insertAlias entry.1 entry.2 aliases) aliases).Perm
        (aliases ++ entries) := by
  induction entries with
  | nil => exact fun aliases _ => (aliases.append_nil).symm ▸ .refl _
  | cons entry rest ih =>
    intro aliases hnodup
    have hmiddle : (aliases ++ entry :: rest).Perm (entry :: (aliases ++ rest)) :=
      List.perm_middle
    have hnew := (hmiddle.map Prod.fst).nodup_iff.mp hnodup
    have hfresh : entry.1 ∉ aliases.map Prod.fst := fun hmem =>
      (List.nodup_cons.mp hnew).1 (List.map_append ▸ List.mem_append_left _ hmem)
    have hinsert : (insertAlias entry.1 entry.2 aliases ++ rest).Perm
        (entry :: (aliases ++ rest)) := (insertAlias_perm hfresh entry.2).append_right rest
    have hrest := ih _ ((hinsert.map Prod.fst).nodup_iff.mpr hnew)
    exact (hrest.trans hinsert).trans hmiddle.symm

/-- **No alias is lost** where each name has one. -/
theorem aliasesOfList_perm {entries : List (String × String)}
    (h : (entries.map Prod.fst).Nodup) : (aliasesOfList entries).Perm entries :=
  foldl_insertAlias_perm entries [] h

/-! ## Configurations -/

/-- The configuration has the values of the draft, and the defaults where it has none. -/
structure Follows (d : Draft) (config : Config) : Prop where
  libraries : config.libraries = d.libraries.getD ({} : Config).libraries
  /-- In some order. -/
  aliases : config.aliases.Perm (d.aliases.getD ({} : Config).aliases)
  searchDefault : config.searchDefault = d.searchDefault.getD ({} : Config).searchDefault
  builtins : config.builtins = d.builtins.getD ({} : Config).builtins

/-- Every field of a draft can be written. -/
theorem exists_spells {d : Draft} {f : Field} (h : f ∈ d.fields) : ∃ t, f.Spells t := by
  obtain ⟨name, shown, hshows⟩ : ∃ name shown, f.Shows name shown := by
    cases f with
    | libraries paths =>
      have hspells : ∀ path ∈ paths, ∃ t, SpellsPath path t := fun path _ => ⟨quote path, rfl⟩
      obtain ⟨t, ht⟩ := exists_listed ']' hspells
      exact ⟨_, _, .libraries ht⟩
    | aliases entries =>
      have hspells : ∀ a ∈ entries, ∃ t, SpellsAlias a t :=
        fun a _ => ⟨_, [], [], space_nil, space_nil, rfl⟩
      obtain ⟨t, ht⟩ := exists_listed '\x7d' hspells
      exact ⟨_, _, .aliases ht⟩
    | searchDefault on => exact ⟨_, _, .searchDefault on⟩
    | builtins on => exact ⟨_, _, .builtins on⟩
    | other => simp [Draft.fields] at h
  exact ⟨_, name, shown, hshows, [], [], space_nil, space_nil, rfl⟩

theorem exists_written {d : Draft} {fields : List Field} (order : fields.Perm d.fields) :
    ∃ text : String, Written fields text.toList := by
  obtain ⟨body, hbody⟩ := exists_listed ')' fun f (hf : f ∈ fields) =>
    exists_spells (order.mem_iff.mp hf)
  refine ⟨String.ofList ('(' :: body), [], "", [], body, [], space_nil, .inl rfl, space_nil, hbody,
    space_nil, ?_⟩
  simp

/-- **Whatever reads records, a configuration has the fields that are written**, with the defaults
for the rest. -/
theorem parseWith_of_written {reader : String → Option (List Field)} (hreader : ReadsRecords reader)
    {d : Draft} {fields : List Field} (order : fields.Perm d.fields)
    (names : ∀ entries, d.aliases = some entries → (entries.map Prod.fst).Nodup) {text : String}
    (written : Written fields text.toList) :
    ∃ config, parseWith reader text = .ok config ∧ config.Follows d := by
  have hdraft : Draft.addAll {} fields = some d :=
    (Draft.addAll_perm order {}).trans d.addAll_fields
  refine ⟨d.finish, ?_, rfl, ?_, rfl, rfl⟩
  · rw [parseWith, hreader.written written, Option.bind_some, hdraft]
  · rw [Draft.finish]
    cases haliases : d.aliases with
    | none => exact .refl _
    | some entries => exact aliasesOfList_perm (names entries haliases)

/-- **A text with some of the fields is read as those fields, with the defaults for the rest**, in
whatever order they are written and however they are laid out; and there is such a text. -/
theorem parse_of_written {d : Draft} {fields : List Field} (order : fields.Perm d.fields)
    (names : ∀ entries, d.aliases = some entries → (entries.map Prod.fst).Nodup) :
    (∃ text : String, Written fields text.toList) ∧
      ∀ text : String, Written fields text.toList → ∃ config, parse text = .ok config ∧
        config.Follows d ∧ (d.searchDefault = none → config.searchDefault = true) ∧
        (d.builtins = none → config.builtins = true) := by
  refine ⟨exists_written order, fun text written => ?_⟩
  obtain ⟨config, hparse, hfollows⟩ :=
    parseWith_of_written readsRecords_fieldsOf order names written
  refine ⟨config, hparse, hfollows, fun h => ?_, fun h => ?_⟩
  · rw [hfollows.searchDefault, h]
    rfl
  · rw [hfollows.builtins, h]
    rfl

/-- Three of the fields, the aliases first, with marks of the notation in their texts. -/
def scattered : String :=
  "\tFfiConfig (\n aliases : \x7b \"a\\\"b\\\\\" :\"x, )\n\" , \x7d," ++
    "libraries:[\"b\", \"b\"],builtins:false ,\n)\n"

/-- The missing field has its default, and what stands between quotes is no mark. -/
theorem parse_of_written_scattered :
    ∃ config, parse scattered = .ok config ∧ config.libraries = ["b", "b"] ∧
      config.aliases = [("a\"b\\", "x, )\n")] ∧ config.searchDefault = true ∧
      config.builtins = false := by
  let draft : Draft := ⟨some ["b", "b"], some [("a\"b\\", "x, )\n")], none, some false⟩
  let fields : List Field :=
    [.aliases [("a\"b\\", "x, )\n")], .libraries ["b", "b"], .builtins false]
  have hspace : Space [' '] := by decide
  have hline : Space ['\n'] := by decide
  have haliases : Field.Spells (.aliases [("a\"b\\", "x, )\n")]) _ :=
    ⟨_, _, .aliases (.more hspace ⟨[' '], [], hspace, space_nil, rfl⟩ hspace (.none hspace)),
      [' '], [' '], hspace, hspace, rfl⟩
  have hlibraries : Field.Spells (.libraries ["b", "b"]) _ :=
    ⟨_, _, .libraries (.more space_nil rfl space_nil (.last hspace rfl space_nil)), [], [],
      space_nil, space_nil, rfl⟩
  have hbuiltins : Field.Spells (.builtins false) _ :=
    ⟨_, _, .builtins false, [], [], space_nil, space_nil, rfl⟩
  have hbody : Listed ')' Field.Spells fields _ :=
    .more (hline.append hspace) haliases space_nil
      (.more space_nil hlibraries space_nil (.more space_nil hbuiltins hspace (.none hline)))
  have hwritten : Written fields scattered.toList :=
    ⟨['\t'], "FfiConfig", [' '], _, ['\n'], by decide, .inr rfl, hspace, hbody, hline,
      by decide⟩
  obtain ⟨config, hparse, hfollows, hdefault, -⟩ :=
    (parse_of_written (d := draft) (.swap ..) (by
      rintro _ ⟨⟩
      decide)).2 scattered hwritten
  refine ⟨config, hparse, hfollows.libraries, ?_, hdefault rfl, hfollows.builtins⟩
  exact List.perm_singleton.mp hfollows.aliases

end Config

end NativeLink
