import Mathlib.Logic.Relation
import NativeLink.Proofs.Signature.Grammar

/-!
# Why a text denotes no signature

A text that denotes no signature may have several things wrong with it, and one of them is
reported.  `Refused t reason` says which, in the words of the grammar: a text is laid out as far
as its marks go, and the first mark that is missing is the reason; then the kind of the result
counts, and after it the leftmost bad piece between the parentheses.

The reader works on the trimmed text.  That is the text but for its ends, since no mark is white
space (`Text.trimEnd_append_cons`), so each layout is read in one equation (`read_unopened`,
`read_unclosed`, `read_uncoloned`, `read_laidOut`), and every text has a layout (`layout`).

With these equations two texts can be compared.  `read_congr_body` says that the text between the
parentheses counts for its kinds alone, whatever stands behind it.  Hence what follows the
leftmost bad piece does not matter, and neither does white space in any of the places where it
may stand (`read_eq_of_spaced`).
-/

namespace NativeLink

namespace Signature

open Text

/-! ## What is wrong -/

/-- Why a piece between the parentheses is no argument. -/
inductive RefusedPiece : List Char → String → Prop where
  | void {piece : List Char} (spelled : Spells .void piece) :
    RefusedPiece piece "VOID is not a valid argument kind"
  | unknown {piece : List Char} (unknown : ∀ kind, ¬ Spells kind piece) :
    RefusedPiece piece ("unknown argument kind '" ++ trimmed piece ++ "'")

/-- Why a text denotes no signature: the first thing that is wrong with it. -/
inductive Refused : List Char → String → Prop where
  /-- It does not begin with an opening parenthesis. -/
  | unopened {t : List Char} (opening : ∀ before rest, Blanks before → t ≠ before ++ '(' :: rest) :
    Refused t "expected '('"
  /-- No closing parenthesis follows. -/
  | unclosed {before rest : List Char} (blank : Blanks before) (closing : ')' ∉ rest) :
    Refused (before ++ '(' :: rest) "missing ')'"
  /-- What follows the first closing parenthesis does not begin with a colon. -/
  | uncoloned {before body tail : List Char} (blank : Blanks before) (inside : ')' ∉ body)
    (colon : ∀ gap result, Blanks gap → tail ≠ gap ++ ':' :: result) :
    Refused (before ++ '(' :: (body ++ ')' :: tail)) "expected ':' before the return kind"
  /-- What follows the colon is no kind. -/
  | result {before body gap result : List Char} (blank : Blanks before) (inside : ')' ∉ body)
    (space : Blanks gap) (unknown : ∀ kind, ¬ Spells kind result) :
    Refused (before ++ '(' :: (body ++ ')' :: (gap ++ ':' :: result)))
      ("unknown return kind '" ++ trimmed result ++ "'")
  /-- A piece between the parentheses is no argument, and all those before it are arguments. -/
  | argument {before body gap result bad : List Char} {kind : Kind} {reason : String}
    {good others : List (List Char)} (blank : Blanks before) (inside : ')' ∉ body)
    (space : Blanks gap) (spelled : Spells kind result) (some : ¬ Blanks body)
    (split : body.splitOn ',' = good ++ bad :: others)
    (arguments : ∀ piece ∈ good, ∃ kind, SpellsArgument kind piece)
    (refused : RefusedPiece bad reason) :
    Refused (before ++ '(' :: (body ++ ')' :: (gap ++ ':' :: result))) reason

/-! ## Layouts -/

/-- How far the marks of a text are in place. -/
inductive Layout : List Char → Prop where
  | unopened {t : List Char} (opening : ∀ before rest, Blanks before → t ≠ before ++ '(' :: rest) :
    Layout t
  | unclosed {before rest : List Char} (blank : Blanks before) (closing : ')' ∉ rest) :
    Layout (before ++ '(' :: rest)
  | uncoloned {before body tail : List Char} (blank : Blanks before) (inside : ')' ∉ body)
    (colon : ∀ gap result, Blanks gap → tail ≠ gap ++ ':' :: result) :
    Layout (before ++ '(' :: (body ++ ')' :: tail))
  | laidOut {before body gap result : List Char} (blank : Blanks before) (inside : ')' ∉ body)
    (space : Blanks gap) : Layout (before ++ '(' :: (body ++ ')' :: (gap ++ ':' :: result)))

/-- **Every text has a layout.** -/
theorem layout (t : List Char) : Layout t := by
  by_cases hopen : ∃ before rest, Blanks before ∧ t = before ++ '(' :: rest
  · obtain ⟨before, rest, hblank, rfl⟩ := hopen
    by_cases hclosing : ')' ∈ rest
    · obtain ⟨body, tail, rfl, hbody⟩ := List.eq_append_cons_of_mem hclosing
      by_cases hcolon : ∃ gap result, Blanks gap ∧ tail = gap ++ ':' :: result
      · obtain ⟨gap, result, hgap, rfl⟩ := hcolon
        exact .laidOut hblank hbody hgap
      · exact .uncoloned hblank hbody fun gap result hgap heq => hcolon ⟨gap, result, hgap, heq⟩
    · exact .unclosed hblank hclosing
  · exact .unopened fun before rest hblank heq => hopen ⟨before, rest, hblank, heq⟩

/-! ## Reading a layout -/

section

variable {t before body rest tail gap result : List Char}

theorem trim_opened (hblank : Blanks before) (rest : List Char) :
    trim (before ++ '(' :: rest) = '(' :: trimEnd rest := by
  have hstart : trimStart ('(' :: rest) = '(' :: rest := rfl
  rw [trim, trimStart_append hblank, hstart]
  exact trimEnd_append_cons (by decide) [] rest

/-- Trimming leaves no closing parenthesis that was not there. -/
theorem not_mem_trimEnd {c : Char} (h : c ∉ t) : c ∉ trimEnd t := by
  obtain ⟨-, after, -, ht⟩ := trimEnd_eq_iff.mp (rfl : trimEnd t = trimEnd t)
  intro hc
  rw [ht] at h
  exact h (List.mem_append_left _ hc)

theorem read_unopened (opening : ∀ before rest, Blanks before → t ≠ before ++ '(' :: rest) :
    read t = .error .noOpening := by
  unfold read
  split
  · next rest htrim =>
    obtain ⟨-, before, after, hbefore, -, ht⟩ := trim_eq_iff.mp htrim
    exact absurd (ht.trans (by simp)) (opening before (rest ++ after) hbefore)
  · rfl

theorem read_unclosed (hblank : Blanks before) (closing : ')' ∉ rest) :
    read (before ++ '(' :: rest) = .error .noClosing := by
  have hnone : (trimEnd rest).dropWhile (· ≠ ')') = [] := by
    refine List.dropWhile_eq_nil_iff.mpr fun c hc => decide_eq_true ?_
    exact ne_of_mem_of_not_mem hc (not_mem_trimEnd closing)
  simp only [read, trim_opened hblank, hnone]

/-- What is read once both parentheses are found. -/
theorem read_closed (hblank : Blanks before) (hbody : ')' ∉ body) (tail : List Char) :
    read (before ++ '(' :: (body ++ ')' :: tail)) =
      match trimStart (trimEnd tail) with
      | ':' :: result =>
        match Kind.ofName? (trimmed result) with
        | none => .error (.unknownResult (trimmed result))
        | some kind => (readArguments body).map (⟨·, kind⟩)
      | _ => .error .noColon := by
  simp only [read, trim_opened hblank, trimEnd_append_cons (c := ')') (by decide),
    dropWhile_closing hbody, takeWhile_closing hbody]
  cases readArguments body <;> rfl

theorem read_uncoloned (hblank : Blanks before) (hbody : ')' ∉ body)
    (colon : ∀ gap result, Blanks gap → tail ≠ gap ++ ':' :: result) :
    read (before ++ '(' :: (body ++ ')' :: tail)) = .error .noColon := by
  rw [read_closed hblank hbody]
  split
  · next result hstart =>
    obtain ⟨-, gap, hgap, hend⟩ := trimStart_eq_iff.mp hstart
    obtain ⟨-, after, -, htail⟩ := trimEnd_eq_iff.mp hend
    exact absurd (htail.trans (by simp)) (colon gap (result ++ after) hgap)
  · rfl

/-- **The result is read first, and then the arguments.** -/
theorem read_laidOut (hblank : Blanks before) (hbody : ')' ∉ body) (hgap : Blanks gap)
    (result : List Char) :
    read (before ++ '(' :: (body ++ ')' :: (gap ++ ':' :: result))) =
      match Kind.ofName? (trimmed result) with
      | none => .error (.unknownResult (trimmed result))
      | some kind => (readArguments body).map (⟨·, kind⟩) := by
  have hstart : trimStart (trimEnd (gap ++ ':' :: result)) = ':' :: trimEnd result := by
    rw [trimEnd_append_cons (by decide), trimStart_append hgap]
    rfl
  have htrimmed : trimmed (trimEnd result) = trimmed result := by
    rw [trimmed, trimmed, trim_trimEnd]
  rw [read_closed hblank hbody, hstart]
  simp only [htrimmed]

end

/-! ## Bad pieces -/

theorem ofName?_trimmed_eq_none_iff {t : List Char} :
    Kind.ofName? (trimmed t) = none ↔ ∀ kind, ¬ Spells kind t := by
  simp only [Option.eq_none_iff_forall_ne_some, ne_eq, ofName?_trimmed_eq_some_iff]

/-- A piece is read as an error for the reason that it is refused for. -/
theorem exists_readArgument_iff {piece : List Char} {reason : String} :
    (∃ fault, readArgument piece = .error fault ∧ fault.reason = reason) ↔
      RefusedPiece piece reason := by
  constructor
  · rintro ⟨fault, hread, rfl⟩
    unfold readArgument at hread
    split at hread
    · next hvoid =>
      cases hread
      exact .void (ofName?_trimmed_eq_some_iff.mp hvoid)
    · cases hread
    · next hnone =>
      cases hread
      exact .unknown (ofName?_trimmed_eq_none_iff.mp hnone)
  · rintro (hvoid | hunknown)
    · exact ⟨.voidArgument, by rw [readArgument, ofName?_trimmed_eq_some_iff.mpr hvoid], rfl⟩
    · exact ⟨.unknownArgument (trimmed piece),
        by rw [readArgument, ofName?_trimmed_eq_none_iff.mpr hunknown], rfl⟩

/-- A piece that is no argument is an error. -/
theorem exists_readArgument {piece : List Char} (h : ∀ kind, ¬ SpellsArgument kind piece) :
    ∃ fault, readArgument piece = .error fault := by
  cases hread : readArgument piece with
  | ok kind => exact absurd (readArgument_eq_ok_iff.mp hread) (h kind)
  | error fault => exact ⟨fault, rfl⟩

/-- Nothing that stands behind a bad piece is read. -/
theorem readEach_of_bad {good : List (List Char)} {bad : List Char} {fault : Fault}
    (arguments : ∀ piece ∈ good, ∃ kind, SpellsArgument kind piece)
    (hbad : readArgument bad = .error fault) (others : List (List Char)) :
    readEach (good ++ bad :: others) = .error fault := by
  induction good with
  | nil => rw [List.nil_append, readEach, hbad]
  | cons piece good ih =>
    obtain ⟨⟨kind, hkind⟩, hgood⟩ := List.forall_mem_cons.mp arguments
    rw [List.cons_append, readEach, readArgument_eq_ok_iff.mpr hkind, ih hgood]

/-- **The leftmost bad piece** is the one that is reported. -/
theorem readEach_eq_error_iff {parts : List (List Char)} {fault : Fault} :
    readEach parts = .error fault ↔ ∃ good bad others, parts = good ++ bad :: others ∧
      (∀ piece ∈ good, ∃ kind, SpellsArgument kind piece) ∧ readArgument bad = .error fault := by
  constructor
  · intro h
    induction parts with
    | nil => cases h
    | cons piece parts ih =>
      rw [readEach] at h
      cases hpiece : readArgument piece with
      | error first =>
        rw [hpiece] at h
        cases h
        exact ⟨[], piece, parts, rfl, List.forall_mem_nil _, hpiece⟩
      | ok kind =>
        rw [hpiece] at h
        have hrest : readEach parts = .error fault := by
          cases hparts : readEach parts with
          | ok kinds =>
            rw [hparts] at h
            cases h
          | error later =>
            rw [hparts] at h
            exact h
        obtain ⟨good, bad, others, rfl, hgood, hbad⟩ := ih hrest
        exact ⟨piece :: good, bad, others, rfl,
          List.forall_mem_cons.mpr ⟨⟨kind, readArgument_eq_ok_iff.mp hpiece⟩, hgood⟩, hbad⟩
  · rintro ⟨good, bad, others, rfl, hgood, hbad⟩
    exact readEach_of_bad hgood hbad others

theorem readArguments_eq_error_iff {body : List Char} {fault : Fault} :
    readArguments body = .error fault ↔ ¬ Blanks body ∧ ∃ good bad others,
      body.splitOn ',' = good ++ bad :: others ∧
        (∀ piece ∈ good, ∃ kind, SpellsArgument kind piece) ∧
          readArgument bad = .error fault := by
  rw [readArguments, ← pieces_eq_splitOn, ← readEach_eq_error_iff]
  by_cases hblank : Blanks body
  · simp [trim_eq_nil_iff.mpr hblank, hblank]
  · rw [if_neg (fun htrim => hblank (trim_eq_nil_iff.mp htrim))]
    exact (and_iff_right hblank).symm

/-- **A text is refused for the first thing that is wrong with it.** -/
theorem exists_read_iff {t : List Char} {reason : String} :
    (∃ fault, read t = .error fault ∧ fault.reason = reason) ↔ Refused t reason := by
  constructor
  · rintro ⟨fault, hread, rfl⟩
    cases layout t with
    | unopened opening =>
      rw [read_unopened opening] at hread
      cases hread
      exact .unopened opening
    | unclosed blank closing =>
      rw [read_unclosed blank closing] at hread
      cases hread
      exact .unclosed blank closing
    | uncoloned blank inside colon =>
      rw [read_uncoloned blank inside colon] at hread
      cases hread
      exact .uncoloned blank inside colon
    | @laidOut before body gap result blank inside space =>
      rw [read_laidOut blank inside space] at hread
      cases hkind : Kind.ofName? (trimmed result) with
      | none =>
        rw [hkind] at hread
        cases hread
        exact .result blank inside space (ofName?_trimmed_eq_none_iff.mp hkind)
      | some kind =>
        rw [hkind] at hread
        have harguments : readArguments body = .error fault := by
          cases hbody : readArguments body with
          | ok kinds =>
            rw [hbody] at hread
            cases hread
          | error first =>
            rw [hbody] at hread
            cases hread
            rfl
        obtain ⟨hsome, good, bad, others, hsplit, hgood, hbad⟩ :=
          readArguments_eq_error_iff.mp harguments
        exact .argument blank inside space (ofName?_trimmed_eq_some_iff.mp hkind) hsome hsplit
          hgood (exists_readArgument_iff.mp ⟨fault, hbad, rfl⟩)
  · intro h
    cases h with
    | unopened opening => exact ⟨.noOpening, read_unopened opening, rfl⟩
    | unclosed blank closing => exact ⟨.noClosing, read_unclosed blank closing, rfl⟩
    | uncoloned blank inside colon => exact ⟨.noColon, read_uncoloned blank inside colon, rfl⟩
    | @result _ _ _ result blank inside space unknown =>
      refine ⟨.unknownResult (trimmed result), ?_, rfl⟩
      rw [read_laidOut blank inside space, ofName?_trimmed_eq_none_iff.mpr unknown]
    | argument blank inside space spelled some split arguments refused =>
      obtain ⟨fault, hbad, hreason⟩ := exists_readArgument_iff.mpr refused
      refine ⟨fault, ?_, hreason⟩
      rw [read_laidOut blank inside space, ofName?_trimmed_eq_some_iff.mpr spelled,
        readArguments_eq_error_iff.mpr ⟨some, _, _, _, split, arguments, hbad⟩]
      rfl

/-! ## Two texts -/

/-- **Between the parentheses only the kinds count**, whatever stands behind them. -/
theorem read_congr_body {before body other : List Char} (hblank : Blanks before)
    (hbody : ')' ∉ body) (hother : ')' ∉ other) (h : readArguments body = readArguments other)
    (tail : List Char) :
    read (before ++ '(' :: (body ++ ')' :: tail)) =
      read (before ++ '(' :: (other ++ ')' :: tail)) := by
  rw [read_closed hblank hbody, read_closed hblank hother, h]

/-- Pieces are cut at each comma by itself. -/
theorem pieces_append_comma (s t : List Char) : pieces (s ++ ',' :: t) = pieces s ++ pieces t := by
  simp only [pieces_eq_splitOn, List.splitOn]
  exact List.splitOnP_append_cons s t (by simp)

theorem pieces_of_not_mem {piece : List Char} (h : ',' ∉ piece) : pieces piece = [piece] := by
  rw [pieces_eq_splitOn, List.splitOn_eq_singleton h]

theorem pieces_intercalate_flatMap {parts : List (List Char)} (hne : parts ≠ []) :
    pieces ([','].intercalate parts) = parts.flatMap pieces := by
  induction parts with
  | nil => exact absurd rfl hne
  | cons part others ih =>
    cases others with
    | nil => simp
    | cons next others =>
      rw [List.intercalate_cons_cons, List.flatMap_cons, ← ih (List.cons_ne_nil _ _),
        ← pieces_append_comma]
      simp

/-- White space has no comma in it, so it is one piece. -/
theorem blanks_iff_of_pieces {body piece : List Char} {first later : List (List Char)}
    (h : pieces body = first ++ piece :: later) :
    Blanks body ↔ first = [] ∧ later = [] ∧ Blanks piece := by
  constructor
  · intro hblank
    rw [pieces_of_not_mem fun hc => absurd (hblank _ hc) (by decide)] at h
    obtain ⟨rfl, hrest⟩ := (List.append_eq_singleton_iff.mp h.symm).resolve_right (by simp)
    obtain ⟨rfl, rfl⟩ := List.cons_eq_cons.mp hrest
    exact ⟨rfl, rfl, hblank⟩
  · rintro ⟨rfl, rfl, hblank⟩
    have hbody : body = piece := by
      rw [← intercalate_pieces body, h, List.nil_append, List.intercalate_singleton]
    rwa [hbody]

/-- A piece may be exchanged for one with the same core. -/
theorem readArguments_congr {body other piece replaced : List Char} {first later : List (List Char)}
    (hbody : pieces body = first ++ piece :: later)
    (hother : pieces other = first ++ replaced :: later) (h : trim piece = trim replaced) :
    readArguments body = readArguments other := by
  have hpiece : readArgument piece = readArgument replaced := by
    simp only [readArgument, trimmed, h]
  have heach : readEach (first ++ piece :: later) = readEach (first ++ replaced :: later) := by
    clear hbody hother
    induction first with
    | nil => rw [List.nil_append, List.nil_append, readEach, readEach, hpiece]
    | cons front first ih => rw [List.cons_append, List.cons_append, readEach, readEach, ih]
  have hblanks : trim body = [] ↔ trim other = [] := by
    rw [trim_eq_nil_iff, trim_eq_nil_iff, blanks_iff_of_pieces hbody, blanks_iff_of_pieces hother,
      ← trim_eq_nil_iff, ← trim_eq_nil_iff, h]
  rw [readArguments, readArguments, hbody, hother, heach]
  simp only [hblanks]

theorem not_mem_closing_of_parts {parts : List (List Char)} (h : ∀ part ∈ parts, ')' ∉ part) :
    ')' ∉ [','].intercalate parts := by
  intro hc
  rcases mem_intercalate_comma hc with hcomma | ⟨part, hpart, hmem⟩
  · exact absurd hcomma (by decide)
  · exact h part hpart hmem

/-- A bad argument is an error, if not the one that is reported. -/
theorem exists_read_of_bad {before body : List Char} {fault : Fault} (hblank : Blanks before)
    (hbody : ')' ∉ body) (h : readArguments body = .error fault) (tail : List Char) :
    ∃ reported, read (before ++ '(' :: (body ++ ')' :: tail)) = .error reported := by
  rw [read_closed hblank hbody, h]
  split
  · split
    · exact ⟨_, rfl⟩
    · exact ⟨fault, rfl⟩
  · exact ⟨_, rfl⟩

/-- What stands behind a bad piece is not looked at. -/
theorem exists_readArguments_of_bad {good : List (List Char)} {bad : List Char}
    (arguments : ∀ piece ∈ good, ∃ kind, SpellsArgument kind piece) (hcomma : ',' ∉ bad)
    (hbad : ∀ kind, ¬ SpellsArgument kind bad) :
    ∃ fault, ∀ more, readArguments ([','].intercalate (good ++ [bad, more])) = .error fault := by
  obtain ⟨fault, hfault⟩ := exists_readArgument hbad
  refine ⟨fault, fun more => ?_⟩
  have hgood : good.flatMap pieces = good := by
    have hsingle : ∀ piece ∈ good, pieces piece = [piece] := fun piece hpiece => by
      obtain ⟨kind, -, hspells⟩ := arguments piece hpiece
      exact pieces_of_not_mem hspells.not_mem_comma
    rw [List.flatMap_congr hsingle, List.flatMap_singleton']
  have hpieces : pieces ([','].intercalate (good ++ [bad, more])) =
      good ++ bad :: pieces more := by
    rw [pieces_intercalate_flatMap (by simp), List.flatMap_append, hgood]
    simp [pieces_of_not_mem hcomma]
  refine readArguments_eq_error_iff.mpr ⟨fun hblank => ?_, good, bad, pieces more, ?_,
    arguments, hfault⟩
  · exact pieces_ne_nil more ((blanks_iff_of_pieces hpieces).mp hblank).2.1
  · rw [← pieces_eq_splitOn, hpieces]

/-! ## White space -/

/-- The second text is the first with white space added in one place: around the whole, around a
piece between the parentheses, before the colon or behind it. -/
inductive Spaced : List Char → List Char → Prop where
  | whole {before after : List Char} (t : List Char) (left : Blanks before) (right : Blanks after) :
    Spaced t (before ++ t ++ after)
  | argument {before front back piece tail : List Char} {first later : List (List Char)}
    (blank : Blanks before) (left : Blanks front) (right : Blanks back)
    (inside : ')' ∉ [','].intercalate (first ++ piece :: later)) (single : ',' ∉ piece)
    (closing : ∀ c ∈ tail.head?, c = ')') :
    Spaced (before ++ '(' :: ([','].intercalate (first ++ piece :: later) ++ tail))
      (before ++ '(' :: ([','].intercalate (first ++ (front ++ piece ++ back) :: later) ++ tail))
  | colon {before body front tail : List Char} (blank : Blanks before) (inside : ')' ∉ body)
    (left : Blanks front) : Spaced (before ++ '(' :: (body ++ ')' :: tail))
      (before ++ '(' :: (body ++ ')' :: (front ++ tail)))
  | result {before body gap front result : List Char} (blank : Blanks before) (inside : ')' ∉ body)
    (space : Blanks gap) (left : Blanks front) :
    Spaced (before ++ '(' :: (body ++ ')' :: (gap ++ ':' :: result)))
      (before ++ '(' :: (body ++ ')' :: (gap ++ ':' :: (front ++ result))))

/-- A mark is not among the white space that is added. -/
theorem not_mem_added {c : Char} {front back piece : List Char} (hc : isBlank c = false)
    (left : Blanks front) (right : Blanks back) (h : c ∉ piece) : c ∉ front ++ piece ++ back := by
  have hblanks : ∀ {t : List Char}, Blanks t → c ∉ t := fun ht hmem => by
    rw [ht c hmem] at hc
    cases hc
  intro hmem
  rcases List.mem_append.mp hmem with hmem | hmem
  · exact (List.mem_append.mp hmem).elim (hblanks left) h
  · exact hblanks right hmem

theorem not_mem_closing_added {front back piece : List Char} {first later : List (List Char)}
    (left : Blanks front) (right : Blanks back)
    (inside : ')' ∉ [','].intercalate (first ++ piece :: later)) :
    ')' ∉ [','].intercalate (first ++ (front ++ piece ++ back) :: later) := by
  have hparts : ∀ part ∈ first ++ piece :: later, ')' ∉ part :=
    fun part hpart hc => inside (mem_intercalate_of_mem hpart hc)
  obtain ⟨hfirst, hrest⟩ := List.forall_mem_append.mp hparts
  obtain ⟨hpiece, hlater⟩ := List.forall_mem_cons.mp hrest
  exact not_mem_closing_of_parts (List.forall_mem_append.mpr
    ⟨hfirst, List.forall_mem_cons.mpr ⟨not_mem_added (by decide) left right hpiece, hlater⟩⟩)

/-- **White space makes no difference** in any of the places where it may stand. -/
theorem read_eq_of_spaced {t u : List Char} (h : Spaced t u) : read t = read u := by
  cases h with
  | whole t left right => rw [read, read, trim_append left right]
  | @argument before front back piece tail first later blank left right inside single closing =>
    have hinside := not_mem_closing_added left right inside
    cases tail with
    | nil =>
      rw [List.append_nil, List.append_nil, read_unclosed blank inside,
        read_unclosed blank hinside]
    | cons c tail =>
      obtain rfl := closing c rfl
      have hadded := not_mem_added (by decide) left right single
      have hpieces : ∀ {part : List Char}, ',' ∉ part →
          pieces ([','].intercalate (first ++ part :: later)) =
            first.flatMap pieces ++ part :: later.flatMap pieces := fun hpart => by
        rw [pieces_intercalate_flatMap (by simp), List.flatMap_append, List.flatMap_cons,
          pieces_of_not_mem hpart, List.singleton_append]
      exact read_congr_body blank inside hinside
        (readArguments_congr (hpieces single) (hpieces hadded) (trim_append left right piece).symm)
        tail
  | @colon before body front tail blank inside left =>
    have htrim : trim (front ++ tail) = trim tail := by
      simpa using trim_append left blanks_nil tail
    rw [read_closed blank inside, read_closed blank inside, trimStart_trimEnd, trimStart_trimEnd,
      htrim]
  | @result before body gap front result blank inside space left =>
    have htrimmed : trimmed (front ++ result) = trimmed result := by
      simpa [trimmed] using congrArg String.ofList (trim_append left blanks_nil result)
    rw [read_laidOut blank inside space, read_laidOut blank inside space, htrimmed]

/-! ## Texts -/

/-- The same is said of two texts: both denote one signature, or both are refused for one
reason. -/
def Alike (text other : String) : Prop :=
  (∀ s, parse text = .ok s ↔ parse other = .ok s) ∧
    ∀ reason, parse text = .error (.invalidSignature text reason) ↔
      parse other = .error (.invalidSignature other reason)

theorem parse_eq_error_iff_refused {text : String} {error : ResolveError} :
    parse text = .error error ↔
      ∃ reason, Refused text.toList reason ∧ error = .invalidSignature text reason := by
  simp only [parse_eq_error_iff, ← exists_read_iff]
  constructor
  · rintro ⟨fault, hread, rfl⟩
    exact ⟨fault.reason, ⟨fault, hread, rfl⟩, rfl⟩
  · rintro ⟨reason, ⟨fault, hread, rfl⟩, rfl⟩
    exact ⟨fault, hread, rfl⟩

theorem parse_of_refused {text : String} {reason : String} (h : Refused text.toList reason) :
    parse text = .error (.invalidSignature text reason) :=
  parse_eq_error_iff_refused.mpr ⟨reason, h, rfl⟩

theorem alike_of_read {text other : String} (h : read text.toList = read other.toList) :
    Alike text other := by
  refine ⟨fun s => ?_, fun reason => ?_⟩
  · rw [parse_eq_ok_iff, parse_eq_ok_iff, h]
  · simp [parse_eq_error_iff, h]

/-- **Which reason a text that denotes no signature is refused for.**  The text is quoted as it was
given, and the reason is that of the first thing that is wrong with it.  So a bad result is
reported whatever stands between the parentheses; whatever stands behind the comma after the
leftmost bad piece, up to the first closing parenthesis, does not change the reason; and white
space around the whole text or around its pieces changes neither the reason nor whether there is
one. -/
theorem refused_for_first_fault :
    (∀ text error, parse text = .error error ↔
      ∃ reason, Refused text.toList reason ∧ error = .invalidSignature text reason) ∧
    (∀ text before body gap result, Blanks before → ')' ∉ body → Blanks gap →
      (∀ kind, ¬ Spells kind result) →
      text.toList = before ++ '(' :: (body ++ ')' :: (gap ++ ':' :: result)) →
        parse text =
          .error (.invalidSignature text ("unknown return kind '" ++ trimmed result ++ "'"))) ∧
    (∀ text other before good bad more replaced tail, Blanks before →
      (∀ piece ∈ good, ∃ kind, SpellsArgument kind piece) → ',' ∉ bad → ')' ∉ bad →
      (∀ kind, ¬ SpellsArgument kind bad) → ')' ∉ more → ')' ∉ replaced →
      text.toList = before ++ '(' :: ([','].intercalate (good ++ [bad, more]) ++ ')' :: tail) →
      other.toList =
        before ++ '(' :: ([','].intercalate (good ++ [bad, replaced]) ++ ')' :: tail) →
        ∃ reason, parse text = .error (.invalidSignature text reason) ∧
          parse other = .error (.invalidSignature other reason)) ∧
    ∀ text other, Relation.EqvGen Spaced text.toList other.toList → Alike text other := by
  refine ⟨fun _ _ => parse_eq_error_iff_refused, ?_, ?_, fun text other h => ?_⟩
  · intro text before body gap result hblank hbody hgap hunknown htext
    refine parse_of_refused ?_
    rw [htext]
    exact .result hblank hbody hgap hunknown
  · intro text other before good bad more replaced tail hblank hgood hcomma hclosing hbad hmore
      hreplaced htext hother
    obtain ⟨fault, hfault⟩ := exists_readArguments_of_bad hgood hcomma hbad
    have hinside : ∀ {rest : List Char}, ')' ∉ rest →
        ')' ∉ [','].intercalate (good ++ [bad, rest]) := by
      intro rest hrest
      refine not_mem_closing_of_parts (List.forall_mem_append.mpr ⟨fun piece hpiece => ?_, ?_⟩)
      · obtain ⟨kind, -, hspells⟩ := hgood piece hpiece
        exact hspells.not_mem_closing
      · exact List.forall_mem_cons.mpr ⟨hclosing, List.forall_mem_singleton.mpr hrest⟩
    obtain ⟨reported, hreported⟩ := exists_read_of_bad hblank (hinside hmore) (hfault more) tail
    have hsame := read_congr_body hblank (hinside hmore) (hinside hreplaced)
      ((hfault more).trans (hfault replaced).symm) tail
    refine ⟨reported.reason, parse_eq_error_iff.mpr ⟨reported, ?_, rfl⟩,
      parse_eq_error_iff.mpr ⟨reported, ?_, rfl⟩⟩
    · rw [htext, hreported]
    · rw [hother, ← hsame, hreported]
  · refine alike_of_read ?_
    generalize text.toList = t at h
    generalize other.toList = u at h
    induction h with
    | rel t u h => exact read_eq_of_spaced h
    | refl t => rfl
    | symm t u _ ih => exact ih.symm
    | trans t u v _ _ ih jh => exact ih.trans jh

/-- Of two bad pieces and a bad result the result is reported; without the bad result it is the
first of the pieces, whatever stands behind it and with or without white space around it. -/
theorem refused_for_first_fault_of_several :
    parse "(INT,VOID):BOOL" =
        .error (.invalidSignature "(INT,VOID):BOOL" "unknown return kind 'BOOL'") ∧
      parse "(POINTER,INT,VOID):FLOAT" =
        .error (.invalidSignature "(POINTER,INT,VOID):FLOAT" "unknown argument kind 'INT'") ∧
      (∃ reason, parse "(POINTER,INT,VOID):FLOAT" =
          .error (.invalidSignature "(POINTER,INT,VOID):FLOAT" reason) ∧
        parse "(POINTER,INT,((:FLOAT,):FLOAT" =
          .error (.invalidSignature "(POINTER,INT,((:FLOAT,):FLOAT" reason)) ∧
      Alike "(POINTER,INT,VOID):FLOAT" "(POINTER,\t INT\u2003,VOID):FLOAT" := by
  have hbool : ∀ kind, ¬ Spells kind "BOOL".toList := ofName?_trimmed_eq_none_iff.mp rfl
  have hint : ∀ kind, ¬ Spells kind "INT".toList := ofName?_trimmed_eq_none_iff.mp rfl
  have hpointer : ∀ piece ∈ ["POINTER".toList], ∃ kind, SpellsArgument kind piece :=
    List.forall_mem_singleton.mpr ⟨.pointer, by decide, spells_name .pointer⟩
  obtain ⟨hfirst, hresult, hbehind, hspaced⟩ := refused_for_first_fault
  refine ⟨?_, ?_, ?_, ?_⟩
  · exact hresult _ [] "INT,VOID".toList [] "BOOL".toList blanks_nil (by decide) blanks_nil hbool
      rfl
  · refine (hfirst _ _).mpr ⟨_, ?_, rfl⟩
    have hsplit : "POINTER,INT,VOID".toList.splitOn ',' =
        ["POINTER".toList] ++ "INT".toList :: ["VOID".toList] := rfl
    exact .argument blanks_nil (by decide) blanks_nil (spells_name .float) (by decide) hsplit
      hpointer (.unknown hint)
  · exact hbehind _ _ [] ["POINTER".toList] "INT".toList "VOID".toList "((:FLOAT,".toList
      ":FLOAT".toList blanks_nil hpointer (by decide) (by decide) (fun kind h => hint kind h.2)
      (by decide) (by decide) rfl rfl
  · have hbefore : Blanks "\t ".toList := by decide
    have hafter : Blanks "\u2003".toList := by decide
    have hinside : ')' ∉ [','].intercalate
        (["POINTER".toList] ++ "INT".toList :: ["VOID".toList]) := by decide
    have hclosing : ∀ c ∈ "):FLOAT".toList.head?, c = ')' := by
      rintro c ⟨⟩
      rfl
    exact hspaced _ _ (.rel _ _ (.argument blanks_nil hbefore hafter hinside (by decide) hclosing))

end Signature

end NativeLink
