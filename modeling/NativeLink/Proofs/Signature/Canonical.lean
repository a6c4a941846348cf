import NativeLink.Proofs.Signature.Grammar

/-!
# Canonical texts

The canonical text of a signature has no white space in it, so it is what remains of
any text of the signature when the white space is deleted.  That makes deleting white
space a test for equal signatures, and it makes canonical texts differ where
signatures do.

A signature that was built by hand may have `VOID` among its arguments.  It has a
canonical text like any other, which is then refused (`read_render`): the set of
signatures is larger than the set of those that a text denotes.

* `render_of_written`: the canonical text is any written form without its white space.
* `read_render`: what reading the canonical text gives, for every signature.
* `render_injective`: signatures with one canonical text are equal.
-/

namespace NativeLink

namespace Signature

open Text

/-! ## The arguments of a canonical text -/

/-- The arguments are the names with commas between them. -/
theorem renderParams_eq_intercalate (kinds : List Kind) :
    renderParams kinds = [','].intercalate (kinds.map fun kind => kind.name.toList) := by
  induction kinds with
  | nil => rfl
  | cons kind kinds ih =>
    cases kinds with
    | nil => simp [renderParams]
    | cons next kinds =>
      rw [renderParams, ih, List.map_cons, List.map_cons, List.map_cons,
        List.intercalate_cons_cons]
      · simp
      · exact List.cons_ne_nil _ _

theorem spells_names (kinds : List Kind) :
    List.Forall₂ Spells kinds (kinds.map fun kind => kind.name.toList) := by
  induction kinds with
  | nil => exact .nil
  | cons kind kinds ih => exact .cons (spells_name kind) ih

theorem not_mem_closing_renderParams (kinds : List Kind) : ')' ∉ renderParams kinds := by
  rw [renderParams_eq_intercalate]
  exact not_mem_closing_intercalate (spells_names kinds)

theorem readArgument_name (kind : Kind) :
    readArgument kind.name.toList =
      if kind = .void then .error .voidArgument else .ok kind := by
  cases kind <;> rfl

/-- Names are read until the first `VOID`. -/
theorem readEach_names (kinds : List Kind) :
    readEach (kinds.map fun kind => kind.name.toList) =
      if .void ∈ kinds then .error .voidArgument else .ok kinds := by
  induction kinds with
  | nil => rfl
  | cons kind kinds ih =>
    rw [List.map_cons, readEach, readArgument_name]
    by_cases hkind : kind = .void
    · simp [hkind]
    · rw [if_neg hkind, ih]
      by_cases hkinds : .void ∈ kinds
      · simp [hkinds]
      · simp [hkinds, Ne.symm hkind]

theorem readArguments_renderParams (kinds : List Kind) :
    readArguments (renderParams kinds) =
      if .void ∈ kinds then .error .voidArgument else .ok kinds := by
  cases kinds with
  | nil => rfl
  | cons kind kinds =>
    rw [renderParams_eq_intercalate, ← readEach_names,
      readArguments_intercalate (by simp) (spells_names _)]

/-- **Reading a canonical text** gives the signature back, unless an argument is `VOID`. -/
theorem read_render (s : Signature) :
    read s.render = if .void ∈ s.params then .error .voidArgument else .ok s := by
  have hmarked := read_marked blanks_nil (not_mem_closing_renderParams s.params) blanks_nil
    (spells_name s.result)
  rw [readArguments_renderParams] at hmarked
  have hrender : s.render = [] ++ '(' :: (renderParams s.params ++ ')' ::
      ([] ++ ':' :: s.result.name.toList)) := rfl
  rw [hrender, hmarked]
  split <;> rfl

/-! ## Deleting white space -/

/-- A text without its white space. -/
def solid (t : List Char) : List Char := t.filter fun c => !isBlank c

theorem solid_append (s t : List Char) : solid (s ++ t) = solid s ++ solid t :=
  List.filter_append ..

theorem solid_of_blanks {t : List Char} (h : Blanks t) : solid t = [] := by
  refine List.filter_eq_nil_iff.mpr fun c hc => ?_
  simp [h c hc]

theorem solid_cons {c : Char} (h : isBlank c = false) (t : List Char) :
    solid (c :: t) = c :: solid t := by
  simp [solid, h]

theorem solid_of_spells {kind : Kind} {t : List Char} (h : Spells kind t) :
    solid t = kind.name.toList := by
  obtain ⟨before, after, hb, ha, rfl⟩ := h
  have hname : solid kind.name.toList = kind.name.toList := by
    refine List.filter_eq_self.mpr fun c hc => ?_
    simp [(plain_of_mem_name kind c hc).1]
  rw [solid_append, solid_append, solid_of_blanks hb, solid_of_blanks ha, hname]
  simp

theorem solid_intercalate (parts : List (List Char)) :
    solid ([','].intercalate parts) = [','].intercalate (parts.map solid) := by
  induction parts with
  | nil => rfl
  | cons part others ih =>
    cases others with
    | nil => simp
    | cons next others =>
      rw [List.map_cons, List.map_cons, List.intercalate_cons_cons, List.intercalate_cons_cons,
        solid_append, solid_append, ih, List.map_cons]
      rfl

theorem map_solid_of_spells {kinds : List Kind} {parts : List (List Char)}
    (h : List.Forall₂ Spells kinds parts) :
    parts.map solid = kinds.map fun kind => kind.name.toList := by
  induction h with
  | nil => rfl
  | cons hpart _ ih => rw [List.map_cons, List.map_cons, solid_of_spells hpart, ih]

theorem solid_of_body {kinds : List Kind} {body : List Char} (h : Body kinds body) :
    solid body = renderParams kinds := by
  cases h with
  | blank blanks => exact solid_of_blanks blanks
  | pieces _ spelled =>
    rw [solid_intercalate, map_solid_of_spells (spells_of_argument spelled),
      renderParams_eq_intercalate]

/-- **The canonical text** is any written form of the signature without its white space. -/
theorem render_of_written {s : Signature} {t : List Char} (h : Written s t) :
    s.render = solid t := by
  obtain ⟨before, body, gap, result, hbefore, hbody, hgap, hresult, rfl⟩ := h
  rw [solid_append, solid_cons (by decide), solid_append, solid_cons (by decide), solid_append,
    solid_cons (by decide), solid_of_blanks hbefore, solid_of_blanks hgap, solid_of_body hbody,
    solid_of_spells hresult]
  rfl

/-! ## Equal texts -/

theorem pieces_renderParams {kinds : List Kind} (hne : kinds ≠ []) :
    pieces (renderParams kinds) = kinds.map fun kind => kind.name.toList := by
  rw [renderParams_eq_intercalate]
  refine pieces_intercalate (by simpa using hne) ?_
  exact forall_parts (fun _ _ h => h.not_mem_comma) (spells_names kinds)

theorem renderParams_cons_ne_nil (kind : Kind) (kinds : List Kind) :
    renderParams (kind :: kinds) ≠ [] := by
  cases kinds with
  | nil => exact name_ne_nil kind
  | cons next kinds => exact List.append_ne_nil_of_left_ne_nil (name_ne_nil kind) _

theorem nameList_injective : Function.Injective fun kind : Kind => kind.name.toList :=
  fun _ _ h => Kind.name_injective (String.toList_inj.mp h)

theorem renderParams_injective {kinds others : List Kind}
    (h : renderParams kinds = renderParams others) : kinds = others := by
  cases kinds with
  | nil =>
    cases others with
    | nil => rfl
    | cons other others => exact absurd h.symm (renderParams_cons_ne_nil other others)
  | cons kind kinds =>
    cases others with
    | nil => exact absurd h (renderParams_cons_ne_nil kind kinds)
    | cons other others =>
      have hpieces := congrArg pieces h
      rw [pieces_renderParams (List.cons_ne_nil _ _), pieces_renderParams (List.cons_ne_nil _ _)]
        at hpieces
      exact nameList_injective.list_map hpieces

/-- **Signatures with one canonical text are equal**, with or without `VOID` among their
arguments. -/
theorem render_injective {s u : Signature} (h : s.render = u.render) : s = u := by
  have hinner : renderParams s.params ++ ')' :: ':' :: s.result.name.toList =
      renderParams u.params ++ ')' :: ':' :: u.result.name.toList := (List.cons.inj h).2
  have hparams := congrArg (List.takeWhile (· ≠ ')')) hinner
  rw [takeWhile_closing (not_mem_closing_renderParams _),
    takeWhile_closing (not_mem_closing_renderParams _)] at hparams
  have hresult := congrArg (List.dropWhile (· ≠ ')')) hinner
  rw [dropWhile_closing (not_mem_closing_renderParams _),
    dropWhile_closing (not_mem_closing_renderParams _)] at hresult
  have hname : s.result.name.toList = u.result.name.toList := by simpa using hresult
  cases s
  cases u
  rw [mk.injEq]
  exact ⟨renderParams_injective hparams, nameList_injective hname⟩

/-! ## Texts -/

/-- A text without its white space. -/
def unspaced (text : String) : String := String.ofList (solid text.toList)

/-- The canonical text of what a text denotes. -/
theorem text_of_parse {text : String} {s : Signature} (h : parse text = .ok s) :
    s.text = unspaced text := by
  have hwritten := read_eq_ok_iff.mp (parse_eq_ok_iff.mp h)
  rw [Signature.text, unspaced, render_of_written hwritten]

theorem text_injective : Function.Injective Signature.text := by
  intro s u h
  refine render_injective ?_
  rw [← toList_text, ← toList_text, h]

theorem parse_text (s : Signature) :
    parse s.text = if .void ∈ s.params then
      .error (.invalidSignature s.text "VOID is not a valid argument kind") else .ok s := by
  by_cases hvoid : .void ∈ s.params
  · rw [if_pos hvoid, parse_eq_error_iff]
    refine ⟨.voidArgument, ?_, rfl⟩
    rw [toList_text, read_render, if_pos hvoid]
  · rw [if_neg hvoid, parse_eq_ok_iff, toList_text, read_render, if_neg hvoid]

/-- **Canonical texts and reading undo each other.**  The canonical text of what a text denotes
is the text without its white space, so two texts denote one signature exactly when they differ
in white space only.  The canonical text of a signature denotes the signature, unless an argument
is `VOID`, and then it is refused for that.  No two signatures have one canonical text. -/
theorem canonical_text_roundtrip :
    (∀ text s, parse text = .ok s → s.text = unspaced text) ∧
    (∀ text other s u, parse text = .ok s → parse other = .ok u →
      (s = u ↔ unspaced text = unspaced other)) ∧
    (∀ s : Signature, parse s.text = if .void ∈ s.params then
      .error (.invalidSignature s.text "VOID is not a valid argument kind") else .ok s) ∧
    Function.Injective Signature.text := by
  refine ⟨fun text s h => text_of_parse h, fun text other s u hs hu => ?_, parse_text,
    text_injective⟩
  rw [← text_of_parse hs, ← text_of_parse hu]
  exact text_injective.eq_iff.symm

/-- A text with white space of several sorts in it and the canonical text denote one signature. -/
theorem canonical_text_of_spaced :
    parse "\u2003( SINT32 ,\tDOUBLE\n)\u00a0: FLOAT " = .ok ⟨[.sint32, .double], .float⟩ ∧
      unspaced "\u2003( SINT32 ,\tDOUBLE\n)\u00a0: FLOAT " = unspaced "(SINT32,DOUBLE):FLOAT" := by
  have hspaced : parse "\u2003( SINT32 ,\tDOUBLE\n)\u00a0: FLOAT " =
      .ok ⟨[.sint32, .double], .float⟩ := rfl
  have hplain : parse "(SINT32,DOUBLE):FLOAT" = .ok ⟨[.sint32, .double], .float⟩ := rfl
  exact ⟨hspaced, (canonical_text_roundtrip.2.1 _ _ _ _ hspaced hplain).mp rfl⟩

end Signature

end NativeLink
