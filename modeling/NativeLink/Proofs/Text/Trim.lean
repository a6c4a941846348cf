import Mathlib.Data.List.DropRight
import NativeLink.Text.Blank

/-!
# What trimming leaves

Trimming is two `dropWhile`s, one of them backwards.  Proofs about readers do not
want to see them; they want to know that a text is what trimming leaves with white
space around it, and that nothing else could be left.

* `trim_eq_iff`: `trim t` is `core` exactly when `core` has no blank at either end
  and `t` is `core` with white space around it.
* `trimStart_eq_iff`: the same for the start alone.

So a text has one core, and a core is what any amount of white space around it
trims to.
-/

namespace NativeLink.Text

/-- White space: any number of blank characters, none included. -/
def Blanks (t : List Char) : Prop := ∀ c ∈ t, isBlank c = true

instance (t : List Char) : Decidable (Blanks t) := List.decidableBAll (isBlank · = true) t

theorem blanks_nil : Blanks [] := fun _ hc => absurd hc List.not_mem_nil

theorem blanks_append {s t : List Char} : Blanks (s ++ t) ↔ Blanks s ∧ Blanks t :=
  List.forall_mem_append

theorem blanks_reverse {t : List Char} : Blanks t.reverse ↔ Blanks t := by
  simp [Blanks]

/-- The text does not start with a blank. -/
def Starts (t : List Char) : Prop := ∀ c ∈ t.head?, isBlank c = false

/-- The text has no blank at either end. -/
structure Tight (t : List Char) : Prop where
  head : Starts t
  last : Starts t.reverse

theorem tight_nil : Tight [] := ⟨by simp [Starts], by simp [Starts]⟩

/-- Only the ends matter. -/
theorem tight_cons_append {c : Char} {middle core : List Char} (hc : isBlank c = false)
    (hne : core ≠ []) (h : Tight core) : Tight (c :: (middle ++ core)) := by
  constructor
  · intro d hd
    rw [← Option.some.inj hd]
    exact hc
  · intro d hd
    refine h.last d ?_
    have hne' : core.reverse ≠ [] := by simpa using hne
    rwa [List.reverse_cons, List.reverse_append, List.append_assoc,
      List.head?_append_of_ne_nil _ hne'] at hd

/-! ## The start -/

theorem trimStart_of_starts {t : List Char} (h : Starts t) : trimStart t = t := by
  cases t with
  | nil => rfl
  | cons c t =>
    have hc : isBlank c = false := h c rfl
    simp [trimStart, hc]

theorem trimStart_append {before : List Char} (h : Blanks before) (t : List Char) :
    trimStart (before ++ t) = trimStart t :=
  List.dropWhile_append_of_pos h

theorem starts_trimStart (t : List Char) : Starts (trimStart t) := by
  intro c hc
  have hne : trimStart t ≠ [] := by
    intro hnil
    rw [hnil] at hc
    cases hc
  have hhead : (trimStart t).head hne = c := (List.head_eq_iff_head?_eq_some hne).mpr hc
  rw [← hhead]
  exact List.head_dropWhile_not isBlank hne

/-- **What is left at the start**: the text from its first character that is not blank. -/
theorem trimStart_eq_iff {t core : List Char} :
    trimStart t = core ↔ Starts core ∧ ∃ before, Blanks before ∧ t = before ++ core := by
  constructor
  · rintro rfl
    refine ⟨starts_trimStart t, t.takeWhile isBlank, fun c hc => List.mem_takeWhile_imp hc, ?_⟩
    exact (List.takeWhile_append_dropWhile).symm
  · rintro ⟨hs, before, hb, rfl⟩
    rw [trimStart_append hb, trimStart_of_starts hs]

theorem trimStart_eq_nil_iff {t : List Char} : trimStart t = [] ↔ Blanks t :=
  List.dropWhile_eq_nil_iff

/-! ## Both ends -/

theorem trimEnd_eq (t : List Char) : trimEnd t = (trimStart t.reverse).reverse := rfl

/-- **What is left at the end**: the text up to its last character that is not blank. -/
theorem trimEnd_eq_iff {t core : List Char} :
    trimEnd t = core ↔ Starts core.reverse ∧ ∃ after, Blanks after ∧ t = core ++ after := by
  rw [trimEnd_eq, List.reverse_eq_iff, trimStart_eq_iff]
  refine and_congr_right fun _ => ⟨?_, ?_⟩
  · rintro ⟨before, hb, ht⟩
    exact ⟨before.reverse, blanks_reverse.mpr hb, by rw [← List.reverse_reverse t, ht]; simp⟩
  · rintro ⟨after, ha, rfl⟩
    exact ⟨after.reverse, blanks_reverse.mpr ha, by simp⟩

/-- **What trimming leaves** is the one tight text that the text is with white space around. -/
theorem trim_eq_iff {t core : List Char} :
    trim t = core ↔ Tight core ∧
      ∃ before after, Blanks before ∧ Blanks after ∧ t = before ++ core ++ after := by
  constructor
  · intro h
    obtain ⟨hlast, after, ha, hstart⟩ := trimEnd_eq_iff.mp h
    obtain ⟨hhead, before, hb, ht⟩ := trimStart_eq_iff.mp hstart
    refine ⟨⟨?_, hlast⟩, before, after, hb, ha, by rw [ht, List.append_assoc]⟩
    intro c hc
    refine hhead c ?_
    cases core with
    | nil => cases hc
    | cons d core => exact hc
  · rintro ⟨htight, before, after, hb, ha, rfl⟩
    rw [trim, List.append_assoc, trimStart_append hb]
    cases core with
    | nil =>
      rw [List.nil_append, trimStart_eq_nil_iff.mpr ha]
      rfl
    | cons c core =>
      have hs : Starts (c :: core ++ after) := htight.head
      rw [trimStart_of_starts hs]
      exact trimEnd_eq_iff.mpr ⟨htight.last, after, ha, rfl⟩

/-- White space around a text makes no difference. -/
theorem trim_append {before after : List Char} (hb : Blanks before) (ha : Blanks after)
    (t : List Char) : trim (before ++ t ++ after) = trim t := by
  obtain ⟨htight, left, right, hl, hr, ht⟩ := trim_eq_iff.mp (rfl : trim t = trim t)
  refine trim_eq_iff.mpr ⟨htight, before ++ left, right ++ after, blanks_append.mpr ⟨hb, hl⟩,
    blanks_append.mpr ⟨hr, ha⟩, ?_⟩
  conv_lhs => rw [ht]
  simp

/-- What was trimmed at the end is trimmed to the same core. -/
theorem trim_trimEnd (t : List Char) : trim (trimEnd t) = trim t := by
  obtain ⟨-, after, ha, ht⟩ := trimEnd_eq_iff.mp (rfl : trimEnd t = trimEnd t)
  conv_rhs => rw [ht]
  exact (trim_append blanks_nil ha (trimEnd t)).symm

/-- Trimming the end does not reach beyond a character that is not blank. -/
theorem trimEnd_append_cons {c : Char} (hc : isBlank c = false) (s t : List Char) :
    trimEnd (s ++ c :: t) = s ++ c :: trimEnd t := by
  obtain ⟨hlast, after, ha, ht⟩ := trimEnd_eq_iff.mp (rfl : trimEnd t = trimEnd t)
  have hsplit : s ++ c :: t = s ++ c :: trimEnd t ++ after := by
    conv_lhs => rw [ht]
    simp
  refine trimEnd_eq_iff.mpr ⟨fun d hd => ?_, after, ha, hsplit⟩
  rw [List.reverse_append, List.reverse_cons] at hd
  cases hrest : (trimEnd t).reverse with
  | nil =>
    rw [hrest] at hd
    rw [← Option.some.inj hd]
    exact hc
  | cons e rest =>
    refine hlast d ?_
    rw [hrest] at hd ⊢
    exact hd

/-- It does not matter which end is trimmed first. -/
theorem trimStart_trimEnd (t : List Char) : trimStart (trimEnd t) = trim t := by
  obtain ⟨hlast, -⟩ := trimEnd_eq_iff.mp (rfl : trimEnd t = trimEnd t)
  obtain ⟨-, before, -, hsplit⟩ :=
    trimStart_eq_iff.mp (rfl : trimStart (trimEnd t) = trimStart (trimEnd t))
  have htight : Starts (trimStart (trimEnd t)).reverse := by
    cases hcore : (trimStart (trimEnd t)).reverse with
    | nil => exact nofun
    | cons c rest =>
      intro d hd
      refine hlast d ?_
      rw [hsplit, List.reverse_append, hcore]
      exact hd
  rw [← trim_trimEnd, trim]
  exact (trimEnd_eq_iff.mpr ⟨htight, [], blanks_nil, by simp⟩).symm

/-- Nothing is left of white space, and only of it. -/
theorem trim_eq_nil_iff {t : List Char} : trim t = [] ↔ Blanks t := by
  rw [trim_eq_iff]
  constructor
  · rintro ⟨-, before, after, hb, ha, rfl⟩
    rw [List.append_nil]
    exact blanks_append.mpr ⟨hb, ha⟩
  · intro h
    exact ⟨tight_nil, t, [], h, blanks_nil, by simp⟩

end NativeLink.Text
