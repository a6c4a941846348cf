import Mathlib.Data.List.Forall2
import NativeLink.Proofs.Text.Trim
import NativeLink.Signature.Reader

/-!
# The grammar of signatures

The reader of signatures trims, looks for characters and cuts at commas.  What it
accepts is said here without any of that: a text denotes a signature when it is a
concatenation of parentheses, a colon, commas and names of kinds, with white space
in the places where white space may stand.

* `Spells k t`: the text is the name of a kind with white space around it.
* `Body kinds t`: what stands between the parentheses, white space for no
  arguments, else as many pieces with commas between them.
* `Written s t`: the whole text.

The grammar mentions no search, so two things are to be shown of the reader.  It
cuts where the grammar puts its marks, since neither a name nor white space has a
mark in it (`Body.not_mem_closing`, `Spells.not_mem_comma`).  And trimming takes
away the white space and nothing else (`spells_iff`).

Main statements: `read_eq_ok_iff` for lists of characters, and
`parse_eq_ok_iff_written` for texts.
-/

namespace NativeLink

namespace Signature

open Text

/-! ## The grammar -/

/-- The texts that spell a kind: its name with white space around it. -/
def Spells (kind : Kind) (t : List Char) : Prop :=
  ∃ before after, Blanks before ∧ Blanks after ∧ t = before ++ kind.name.toList ++ after

/-- The texts that spell an argument, which is never `VOID`. -/
def SpellsArgument (kind : Kind) (t : List Char) : Prop := kind ≠ .void ∧ Spells kind t

/-- What stands between the parentheses. -/
inductive Body : List Kind → List Char → Prop where
  /-- White space alone is no argument. -/
  | blank {t : List Char} (blanks : Blanks t) : Body [] t
  /-- Otherwise one piece stands for each argument, with commas between the pieces. -/
  | pieces {kinds : List Kind} {parts : List (List Char)} (some : kinds ≠ [])
    (spelled : List.Forall₂ SpellsArgument kinds parts) : Body kinds ([','].intercalate parts)

/-- The texts that denote a signature. -/
def Written (s : Signature) (t : List Char) : Prop :=
  ∃ before body gap result, Blanks before ∧ Body s.params body ∧ Blanks gap ∧
    Spells s.result result ∧
      t = before ++ '(' :: (body ++ ')' :: (gap ++ ':' :: result))

/-! ## Names -/

/-- A name has neither white space nor marks in it. -/
theorem plain_of_mem_name (kind : Kind) :
    ∀ c ∈ kind.name.toList, isBlank c = false ∧ c ≠ ',' ∧ c ≠ ')' := by
  cases kind <;> simp [Kind.name, isBlank]

theorem tight_name (kind : Kind) : Tight kind.name.toList := by
  constructor
  · intro c hc
    exact (plain_of_mem_name kind c (List.mem_of_mem_head? hc)).1
  · intro c hc
    exact (plain_of_mem_name kind c (List.mem_reverse.mp (List.mem_of_mem_head? hc))).1

theorem spells_name (kind : Kind) : Spells kind kind.name.toList :=
  ⟨[], [], blanks_nil, blanks_nil, by simp⟩

/-- A text spells a kind if its name is what trimming leaves. -/
theorem spells_iff {kind : Kind} {t : List Char} : Spells kind t ↔ trim t = kind.name.toList := by
  rw [trim_eq_iff]
  exact ⟨fun h => ⟨tight_name kind, h⟩, fun h => h.2⟩

/-- White space around a text that spells a kind makes no difference. -/
theorem Spells.append {kind : Kind} {t after : List Char} (h : Spells kind t)
    (ha : Blanks after) : Spells kind (t ++ after) := by
  obtain ⟨b, a, hb, ha', rfl⟩ := h
  exact ⟨b, a ++ after, hb, blanks_append.mpr ⟨ha', ha⟩, by simp⟩

theorem Spells.plain {kind : Kind} {t : List Char} (h : Spells kind t) {c : Char} (hc : c ∈ t) :
    isBlank c = true ∨ c ∈ kind.name.toList := by
  obtain ⟨before, after, hb, ha, rfl⟩ := h
  rcases List.mem_append.mp hc with hc | hc
  · rcases List.mem_append.mp hc with hc | hc
    · exact .inl (hb c hc)
    · exact .inr hc
  · exact .inl (ha c hc)

theorem Spells.not_mem_comma {kind : Kind} {t : List Char} (h : Spells kind t) : ',' ∉ t := by
  intro hc
  rcases h.plain hc with hblank | hname
  · exact absurd hblank (by decide)
  · exact (plain_of_mem_name kind _ hname).2.1 rfl

theorem Spells.not_mem_closing {kind : Kind} {t : List Char} (h : Spells kind t) : ')' ∉ t := by
  intro hc
  rcases h.plain hc with hblank | hname
  · exact absurd hblank (by decide)
  · exact (plain_of_mem_name kind _ hname).2.2 rfl

/-! ## Kinds and their names in a reader -/

theorem ofName?_eq_some_iff {text : String} {kind : Kind} :
    Kind.ofName? text = some kind ↔ kind.name = text :=
  ⟨Kind.name_of_ofName?, fun h => h ▸ Kind.ofName?_name kind⟩

theorem ofName?_trimmed_eq_some_iff {t : List Char} {kind : Kind} :
    Kind.ofName? (trimmed t) = some kind ↔ Spells kind t := by
  rw [ofName?_eq_some_iff, spells_iff, trimmed]
  constructor
  · intro h
    rw [h, String.toList_ofList]
  · intro h
    rw [h, String.ofList_toList]

theorem readArgument_eq_ok_iff {t : List Char} {kind : Kind} :
    readArgument t = .ok kind ↔ SpellsArgument kind t := by
  rw [SpellsArgument, ← ofName?_trimmed_eq_some_iff, readArgument]
  split
  · next hvoid =>
    rw [hvoid]
    refine ⟨fun h => (by cases h), ?_⟩
    rintro ⟨hne, hsome⟩
    exact absurd (Option.some.inj hsome).symm hne
  · next k hne hk =>
    rw [hk]
    constructor
    · intro h
      cases h
      exact ⟨hne, rfl⟩
    · rintro ⟨-, hsome⟩
      rw [Option.some.inj hsome]
  · next hnone => simp [hnone]

theorem readEach_eq_ok_iff {parts : List (List Char)} {kinds : List Kind} :
    readEach parts = .ok kinds ↔ List.Forall₂ SpellsArgument kinds parts := by
  induction parts generalizing kinds with
  | nil => simp [readEach, eq_comm]
  | cons part parts ih =>
    rw [readEach, List.forall₂_cons_right_iff]
    simp only [← ih, ← readArgument_eq_ok_iff]
    cases readArgument part with
    | error fault => simp
    | ok kind => cases readEach parts <;> simp [eq_comm]

/-! ## Cutting at commas -/

/-- The pieces of a text are those of the library's cut. -/
theorem pieces_eq_splitOn (t : List Char) : pieces t = t.splitOn ',' := by
  induction t with
  | nil => rfl
  | cons c t ih =>
    rw [pieces, List.splitOn, List.splitOnP_cons_eq_if_modifyHead, ← List.splitOn, ← ih]
    by_cases hc : c = ','
    · simp [hc]
    · simp only [hc, if_false, beq_iff_eq]
      cases hp : pieces t with
      | nil => exact absurd hp (pieces_ne_nil t)
      | cons piece others => rfl

/-- Putting the commas back gives the text back. -/
theorem intercalate_pieces (t : List Char) : [','].intercalate (pieces t) = t := by
  rw [pieces_eq_splitOn, List.intercalate_splitOn]

/-- Parts without commas are the pieces of what they make up. -/
theorem pieces_intercalate {parts : List (List Char)} (hne : parts ≠ [])
    (h : ∀ part ∈ parts, ',' ∉ part) : pieces ([','].intercalate parts) = parts := by
  rw [pieces_eq_splitOn, List.splitOn_intercalate ',' h hne]

/-- What holds of all texts that spell a kind holds of each part that does. -/
theorem forall_parts {p : List Char → Prop} (hp : ∀ kind t, Spells kind t → p t)
    {kinds : List Kind} {parts : List (List Char)} (h : List.Forall₂ Spells kinds parts) :
    ∀ part ∈ parts, p part := by
  induction h with
  | nil => exact fun part hpart => absurd hpart List.not_mem_nil
  | cons hpart _ ih => exact List.forall_mem_cons.mpr ⟨hp _ _ hpart, ih⟩

theorem spells_of_argument {kinds : List Kind} {parts : List (List Char)}
    (h : List.Forall₂ SpellsArgument kinds parts) : List.Forall₂ Spells kinds parts :=
  h.imp fun _ _ hpart => hpart.2

/-- A character of parts with commas between them is a comma or stands in a part. -/
theorem mem_intercalate_comma {parts : List (List Char)} {c : Char}
    (hc : c ∈ [','].intercalate parts) : c = ',' ∨ ∃ part ∈ parts, c ∈ part := by
  induction parts with
  | nil => cases hc
  | cons part others ih =>
    cases others with
    | nil =>
      rw [List.intercalate_singleton] at hc
      exact .inr ⟨part, List.mem_cons_self, hc⟩
    | cons next others =>
      rw [List.intercalate_cons_cons] at hc
      rcases List.mem_append.mp hc with hc | hc
      · rcases List.mem_append.mp hc with hc | hc
        · exact .inr ⟨part, List.mem_cons_self, hc⟩
        · exact .inl (List.mem_singleton.mp hc)
      · rcases ih hc with hcomma | ⟨p, hp, hcp⟩
        · exact .inl hcomma
        · exact .inr ⟨p, List.mem_cons_of_mem _ hp, hcp⟩

/-- Each part stands in what the parts make up. -/
theorem mem_intercalate_of_mem {parts : List (List Char)} {part : List Char}
    (hpart : part ∈ parts) {c : Char} (hc : c ∈ part) : c ∈ [','].intercalate parts := by
  induction parts with
  | nil => cases hpart
  | cons first others ih =>
    cases others with
    | nil =>
      rw [List.intercalate_singleton, ← List.mem_singleton.mp hpart]
      exact hc
    | cons next others =>
      rw [List.intercalate_cons_cons]
      rcases List.mem_cons.mp hpart with rfl | hpart
      · exact List.mem_append_left _ (List.mem_append_left _ hc)
      · exact List.mem_append_right _ (ih hpart)

/-! ## What stands between the parentheses -/

theorem not_mem_closing_intercalate {kinds : List Kind} {parts : List (List Char)}
    (h : List.Forall₂ Spells kinds parts) : ')' ∉ [','].intercalate parts := by
  intro hc
  rcases mem_intercalate_comma hc with hcomma | ⟨part, hpart, hmem⟩
  · exact absurd hcomma (by decide)
  · exact forall_parts (fun _ _ hk => hk.not_mem_closing) h part hpart hmem

theorem Body.not_mem_closing {kinds : List Kind} {body : List Char} (h : Body kinds body) :
    ')' ∉ body := by
  cases h with
  | blank blanks => exact fun hc => absurd (blanks _ hc) (by decide)
  | pieces _ spelled => exact not_mem_closing_intercalate (spells_of_argument spelled)

/-- A text that spells a kind is more than white space. -/
theorem Spells.not_blanks {kind : Kind} {t : List Char} (h : Spells kind t) : ¬ Blanks t := by
  rw [← trim_eq_nil_iff, spells_iff.mp h]
  cases kind <;> decide

/-- Parts that spell kinds are what the reader reads, one after the other. -/
theorem readArguments_intercalate {kinds : List Kind} {parts : List (List Char)}
    (hne : parts ≠ []) (h : List.Forall₂ Spells kinds parts) :
    readArguments ([','].intercalate parts) = readEach parts := by
  have hnot : trim ([','].intercalate parts) ≠ [] := by
    intro hnil
    obtain ⟨part, hpart⟩ := List.exists_mem_of_ne_nil parts hne
    have hpart' : ¬ Blanks part := forall_parts (fun _ _ hk => hk.not_blanks) h part hpart
    exact hpart' fun c hc => trim_eq_nil_iff.mp hnil c (mem_intercalate_of_mem hpart hc)
  rw [readArguments, if_neg hnot,
    pieces_intercalate hne (forall_parts (fun _ _ hk => hk.not_mem_comma) h)]

/-- **The arguments are read as the grammar has them.** -/
theorem readArguments_eq_ok_iff {body : List Char} {kinds : List Kind} :
    readArguments body = .ok kinds ↔ Body kinds body := by
  constructor
  · intro h
    rw [readArguments] at h
    split at h
    · next hblank =>
      cases h
      exact .blank (trim_eq_nil_iff.mp hblank)
    · have hspelled := readEach_eq_ok_iff.mp h
      have hne : kinds ≠ [] := by
        rintro rfl
        exact pieces_ne_nil body (List.forall₂_nil_left_iff.mp hspelled)
      rw [← intercalate_pieces body]
      exact .pieces hne hspelled
  · intro h
    cases h with
    | blank blanks => rw [readArguments, if_pos (trim_eq_nil_iff.mpr blanks)]
    | @pieces kinds parts some spelled =>
      have hne : parts ≠ [] := by
        rintro rfl
        exact some (List.forall₂_nil_right_iff.mp spelled)
      rw [readArguments_intercalate hne (spells_of_argument spelled)]
      exact readEach_eq_ok_iff.mpr spelled

/-! ## The whole text -/

/-- What stands up to the first closing parenthesis. -/
theorem takeWhile_closing {body : List Char} (h : ')' ∉ body) (tail : List Char) :
    (body ++ ')' :: tail).takeWhile (· ≠ ')') = body := by
  rw [List.takeWhile_append_of_pos fun c hc => decide_eq_true (ne_of_mem_of_not_mem hc h)]
  simp

/-- What stands from the first closing parenthesis on. -/
theorem dropWhile_closing {body : List Char} (h : ')' ∉ body) (tail : List Char) :
    (body ++ ')' :: tail).dropWhile (· ≠ ')') = ')' :: tail := by
  rw [List.dropWhile_append_of_pos fun c hc => decide_eq_true (ne_of_mem_of_not_mem hc h)]
  simp

/-- A text with a closing parenthesis is cut at the first one. -/
theorem eq_of_dropWhile_closing {t tail : List Char} {c : Char}
    (h : t.dropWhile (· ≠ ')') = c :: tail) : t = t.takeWhile (· ≠ ')') ++ ')' :: tail := by
  have hne : t.dropWhile (· ≠ ')') ≠ [] := by
    rw [h]
    exact List.cons_ne_nil _ _
  have hfirst : (t.dropWhile (· ≠ ')')).head hne = c :=
    (List.head_eq_iff_head?_eq_some hne).mpr (by rw [h]; rfl)
  have hstop := List.head_dropWhile_not (· ≠ ')') hne
  have hc : c = ')' := by
    rw [hfirst] at hstop
    simpa using hstop
  calc t = t.takeWhile (· ≠ ')') ++ t.dropWhile (· ≠ ')') := List.takeWhile_append_dropWhile.symm
    _ = t.takeWhile (· ≠ ')') ++ ')' :: tail := by rw [h, hc]

theorem name_ne_nil (kind : Kind) : kind.name.toList ≠ [] := by
  cases kind <;> decide

/-- A text with its marks in place and the name of a kind at its end is read as its arguments
are. -/
theorem read_marked {before body gap result : List Char} {kind : Kind} (hbefore : Blanks before)
    (hbody : ')' ∉ body) (hgap : Blanks gap) (hresult : Spells kind result) :
    read (before ++ '(' :: (body ++ ')' :: (gap ++ ':' :: result))) =
      (readArguments body).map (⟨·, kind⟩) := by
  obtain ⟨left, right, hleft, hright, rfl⟩ := hresult
  have hcore : Tight ('(' :: (body ++ ')' :: (gap ++ ':' :: left) ++ kind.name.toList)) :=
    tight_cons_append (by decide) (name_ne_nil kind) (tight_name kind)
  have htrim : trim (before ++ '(' :: (body ++ ')' :: (gap ++ ':' ::
      (left ++ kind.name.toList ++ right)))) =
      '(' :: (body ++ ')' :: (gap ++ ':' :: (left ++ kind.name.toList))) :=
    trim_eq_iff.mpr ⟨by simpa using hcore, before, right, hbefore, hright, by simp⟩
  have hcolon : trimStart (gap ++ ':' :: (left ++ kind.name.toList)) =
      ':' :: (left ++ kind.name.toList) :=
    trimStart_eq_iff.mpr ⟨by simp [Starts, show isBlank ':' = false by decide], gap, hgap, rfl⟩
  have hkind : Kind.ofName? (trimmed (left ++ kind.name.toList)) = some kind :=
    ofName?_trimmed_eq_some_iff.mpr ⟨left, [], hleft, blanks_nil, by simp⟩
  simp only [read, htrim, dropWhile_closing hbody, takeWhile_closing hbody, hcolon, hkind]
  cases readArguments body <;> rfl

/-- What the grammar has is read. -/
theorem read_of_written {s : Signature} {t : List Char} (h : Written s t) : read t = .ok s := by
  obtain ⟨before, body, gap, result, hbefore, hbody, hgap, hresult, rfl⟩ := h
  rw [read_marked hbefore hbody.not_mem_closing hgap hresult, readArguments_eq_ok_iff.mpr hbody]
  rfl

/-- What is read is in the grammar. -/
theorem written_of_read {s : Signature} {t : List Char} (h : read t = .ok s) : Written s t := by
  unfold read at h
  split at h
  · next rest htrim =>
    obtain ⟨-, before, after, hbefore, hafter, rfl⟩ := trim_eq_iff.mp htrim
    split at h
    · cases h
    · next c tail htail =>
      split at h
      · next result hresult =>
        obtain ⟨-, gap, hgap, rfl⟩ := trimStart_eq_iff.mp hresult
        split at h
        · cases h
        · next kind hkind =>
          split at h
          · cases h
          · next kinds hkinds =>
            cases h
            have hspells := (ofName?_trimmed_eq_some_iff.mp hkind).append hafter
            refine ⟨before, _, gap, result ++ after, hbefore, readArguments_eq_ok_iff.mp hkinds,
              hgap, hspells, ?_⟩
            conv_lhs => rw [eq_of_dropWhile_closing htail]
            simp
      · cases h
  · cases h

/-- **The reader accepts the grammar.** -/
theorem read_eq_ok_iff {s : Signature} {t : List Char} : read t = .ok s ↔ Written s t :=
  ⟨written_of_read, read_of_written⟩

/-! ## Texts -/

theorem parse_eq_ok_iff {text : String} {s : Signature} :
    parse text = .ok s ↔ read text.toList = .ok s := by
  unfold parse
  cases read text.toList <;> simp

theorem parse_eq_error_iff {text : String} {error : ResolveError} :
    parse text = .error error ↔
      ∃ fault, read text.toList = .error fault ∧ error = .invalidSignature text fault.reason := by
  unfold parse
  cases read text.toList <;> simp [eq_comm]

theorem Body.void_not_mem {kinds : List Kind} {body : List Char} (h : Body kinds body) :
    .void ∉ kinds := by
  cases h with
  | blank _ => exact List.not_mem_nil
  | pieces _ spelled =>
    obtain ⟨hkinds, -⟩ := (List.forall₂_and_left _ _).mp spelled
    exact fun hvoid => hkinds _ hvoid rfl

/-- No text has `VOID` among the arguments. -/
theorem void_not_mem_of_parse {text : String} {s : Signature} (h : parse text = .ok s) :
    .void ∉ s.params := by
  obtain ⟨before, body, gap, result, -, hbody, -⟩ := read_eq_ok_iff.mp (parse_eq_ok_iff.mp h)
  exact hbody.void_not_mem

/-- **A text is accepted exactly when the grammar has it**, as the signature the grammar has it
for; every other text is refused as no signature. -/
theorem parse_eq_ok_iff_written (text : String) :
    (∀ kinds result,
      parse text = .ok ⟨kinds, result⟩ ↔ Written ⟨kinds, result⟩ text.toList) ∧
    ((∃ reason, parse text = .error (.invalidSignature text reason)) ↔
      ∀ kinds result, ¬ Written ⟨kinds, result⟩ text.toList) := by
  refine ⟨fun kinds result => parse_eq_ok_iff.trans read_eq_ok_iff, ?_, ?_⟩
  · rintro ⟨reason, hreason⟩ kinds result hwritten
    rw [parse_eq_ok_iff.mpr (read_eq_ok_iff.mpr hwritten)] at hreason
    cases hreason
  · intro h
    cases hread : read text.toList with
    | ok s => exact absurd (read_eq_ok_iff.mp hread) (h s.params s.result)
    | error fault => exact ⟨fault.reason, parse_eq_error_iff.mpr ⟨fault, hread, rfl⟩⟩

end Signature

end NativeLink
