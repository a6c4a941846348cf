import NativeLink.Config.Lexical

/-!
# How tokens are written

A reader takes what it knows from the front of a text and hands the rest on.  To say that it reads
back what was written is therefore to say what it does with a written piece that has *any* text
behind it, and the pieces then fit together without further ado.

* `Space gap`: the blanks that may stand between two tokens.
* `quote s`: the text `s` between double quotes, with a backslash before each double quote and each
  backslash in it.  All other characters stand for themselves, line ends and commas included.
* `Pair key value t`: a key and a value with a colon between them, and space around that.
* `Listed closing Spells as t`: items with commas between them up to a closing character, perhaps
  with a comma after the last.

Two readers do look at what comes next.  Skipping stops at a character that is neither a blank nor
the beginning of a comment (`Solid`), and a name ends where no character follows that could belong
to one, raw names included (`Ends`).

The reader of a list stops after as many items as the text has characters.  A written list never
comes to that, since each comma takes a character (`itemsUpTo_of_listed`).
-/

namespace NativeLink

namespace Notation

/-! ## Space -/

/-- A character that may stand between tokens. -/
abbrev IsSpace (c : Char) : Prop := c = ' ' ∨ c = '\t' ∨ c = '\n' ∨ c = '\r'

/-- What may stand between two tokens, comments apart. -/
def Space (gap : List Char) : Prop := ∀ c ∈ gap, IsSpace c

instance (gap : List Char) : Decidable (Space gap) := List.decidableBAll IsSpace gap

/-- A character that neither is a space nor begins a comment. -/
abbrev Solid (c : Char) : Prop := ¬ IsSpace c ∧ c ≠ '/'

theorem space_nil : Space [] := nofun

theorem Space.tail {c : Char} {gap : List Char} (h : Space (c :: gap)) : Space gap :=
  fun d hd => h d (List.mem_cons_of_mem c hd)

theorem Space.append {gap more : List Char} (h : Space gap) (k : Space more) :
    Space (gap ++ more) := fun c hc =>
  (List.mem_append.mp hc).elim (h c) (k c)

theorem skip_space {c : Char} (hc : IsSpace c) (t : List Char) :
    skip .plain (c :: t) = skip .plain t := by
  obtain rfl | rfl | rfl | rfl := hc <;> simp [skip]

theorem skip_solid {c : Char} (hc : Solid c) (t : List Char) :
    skip .plain (c :: t) = some (c :: t) := by
  unfold skip
  split <;> simp_all

theorem skip_append {gap : List Char} (h : Space gap) (t : List Char) :
    skip .plain (gap ++ t) = skip .plain t := by
  induction gap with
  | nil => rfl
  | cons c gap ih => exact (skip_space (h c List.mem_cons_self) _).trans (ih h.tail)

/-- **Skipping goes over the space up to the next token.** -/
theorem blanks_append {gap : List Char} (h : Space gap) {c : Char} (hc : Solid c)
    (t : List Char) : blanks (gap ++ c :: t) = some (c :: t) :=
  (skip_append h _).trans (skip_solid hc t)

theorem blanks_of_space {gap : List Char} (h : Space gap) : blanks gap = some [] := by
  have hskip := skip_append h []
  rw [List.append_nil] at hskip
  rw [blanks, hskip, skip]

/-! ## Quotes -/

/-- A text with a backslash before each double quote and each backslash. -/
def escape : List Char → List Char
  | [] => []
  | c :: cs => if c = '"' ∨ c = '\\' then '\\' :: c :: escape cs else c :: escape cs

/-- A text between double quotes. -/
def quote (s : String) : List Char := '"' :: (escape s.toList ++ ['"'])

/-- After a backslash it goes on behind the escape. -/
theorem quotedRest_backslash {c : Char} {rest after : List Char}
    (h : escaped rest = some (c, after)) :
    quotedRest ('\\' :: rest) = (quotedRest after).map fun (text, more) => (c :: text, more) := by
  rw [quotedRest]
  split
  · next hnone => rw [h] at hnone; cases hnone
  · next hsome =>
    cases h.symm.trans hsome
    cases quotedRest after <;> rfl

theorem quotedRest_plain {c : Char} (hquote : c ≠ '"') (hbackslash : c ≠ '\\')
    (rest : List Char) :
    quotedRest (c :: rest) = (quotedRest rest).map fun (text, more) => (c :: text, more) := by
  rw [quotedRest]
  · cases quotedRest rest <;> rfl
  · exact hquote
  · exact hbackslash

theorem quotedRest_escape (cs rest : List Char) :
    quotedRest (escape cs ++ '"' :: rest) = some (cs, rest) := by
  induction cs with
  | nil => simp [escape, quotedRest]
  | cons c cs ih =>
    unfold escape
    split
    · next hc =>
      have hescaped : escaped (c :: (escape cs ++ '"' :: rest)) =
          some (c, escape cs ++ '"' :: rest) := by obtain rfl | rfl := hc <;> rfl
      rw [List.cons_append, List.cons_append, quotedRest_backslash hescaped, ih]
      rfl
    · next hc =>
      rw [not_or] at hc
      rw [List.cons_append, quotedRest_plain hc.1 hc.2, ih]
      rfl

/-- **A text between quotes is read back**, whatever is in it. -/
theorem quoted_quote (s : String) (rest : List Char) :
    quoted (quote s ++ rest) = some (s, rest) := by
  rw [quote, List.cons_append, List.append_assoc, List.singleton_append, quoted,
    quotedRest_escape]
  simp

/-! ## Names -/

/-- No character follows that could belong to a name. -/
def Ends (t : List Char) : Prop := startsWith continuesRawName t = false

/-- Space ends a name, and so does a character that belongs to none. -/
theorem ends_of_space {gap : List Char} (h : Space gap) {c : Char}
    (hc : continuesRawName c = false) (t : List Char) : Ends (gap ++ c :: t) := by
  cases gap with
  | nil => exact hc
  | cons d gap =>
    obtain rfl | rfl | rfl | rfl := h d List.mem_cons_self <;> rfl

/-- A name that is not mistaken for a raw name or a raw text. -/
structure IsName (name : List Char) : Prop where
  continues : name.all continuesName = true
  begins : ∃ c rest, name = c :: rest ∧ beginsName c = true ∧ c ≠ 'r'

theorem Ends.not_continuesName {t : List Char} (h : Ends t) :
    ∀ c ∈ t.head?, continuesName c = false := by
  intro c hc
  obtain ⟨rest, rfl⟩ := List.head?_eq_some_iff.mp hc
  have hraw : continuesRawName c = false := h
  simp only [continuesRawName, Bool.or_eq_false_iff] at hraw
  exact hraw.1.1.1

theorem plainName_append {name rest : List Char} (h : ∀ c ∈ name, continuesName c = true)
    (hrest : Ends rest) : plainName (name ++ rest) = some (name, rest) := by
  have hname : (name ++ rest).takeWhile continuesName = name ∧
      (name ++ rest).dropWhile continuesName = rest := by
    rw [List.takeWhile_append_of_pos h, List.dropWhile_append_of_pos h]
    cases rest with
    | nil => simp
    | cons d more => simp [hrest.not_continuesName d rfl]
  rw [plainName, hname.1, hname.2]
  exact if_neg (Bool.eq_false_iff.mp hrest)

/-- **A name is read up to where it ends.** -/
theorem identifier_append {name rest : List Char} (h : IsName name) (hrest : Ends rest) :
    identifier (name ++ rest) = some (name, rest) := by
  obtain ⟨c, more, rfl, hbegins, hr⟩ := h.begins
  have hplain := plainName_append (List.all_eq_true.mp h.continues) hrest
  rw [List.cons_append] at hplain ⊢
  rw [identifier]
  · rw [if_pos (show startsWith beginsName (c :: (more ++ rest)) = true from hbegins), hplain]
  · exact fun _ heq => hr (List.cons.inj heq).1
  · exact fun _ heq => hr (List.cons.inj heq).1

/-- What begins a name begins no space and no comment, and closes nothing. -/
theorem solid_of_beginsName {c : Char} (h : beginsName c = true) : Solid c ∧ c ≠ ')' := by
  refine ⟨⟨?_, ?_⟩, ?_⟩
  · rintro (rfl | rfl | rfl | rfl) <;> exact absurd h (by decide)
  · rintro rfl
    exact absurd h (by decide)
  · rintro rfl
    exact absurd h (by decide)

/-! ## Pairs -/

/-- A key and a value, with a colon between them. -/
def Pair (key value t : List Char) : Prop :=
  ∃ before after, Space before ∧ Space after ∧ t = key ++ (before ++ ':' :: (after ++ value))

section

variable {α β : Type} {key : Reader α} {value : α → Reader β} {k : α} {b : β}
  {written shown t rest : List Char} {c : Char}

/-- **A pair is read**, if its key and its value are. -/
theorem entry_of_pair (pair : Pair written (c :: shown) t) (solid : Solid c)
    (hkey : ∀ gap more, Space gap →
      key (written ++ (gap ++ ':' :: more)) = some (k, gap ++ ':' :: more))
    (hvalue : value k (c :: shown ++ rest) = some (b, rest)) :
    entry key value (t ++ rest) = some (b, rest) := by
  obtain ⟨before, after, hbefore, hafter, rfl⟩ := pair
  have hread : (written ++ (before ++ ':' :: (after ++ c :: shown))) ++ rest =
      written ++ (before ++ ':' :: (after ++ c :: (shown ++ rest))) := by simp
  have hcolon : Solid ':' := by decide
  rw [hread, entry, hkey before _ hbefore]
  simp only [blanks_append hbefore hcolon, blanks_append hafter solid]
  exact hvalue

end

/-! ## Items -/

/-- The text begins with a character that neither is a space nor begins a comment nor ends the
items. -/
def Begins (closing : Char) (t : List Char) : Prop :=
  ∃ c rest, t = c :: rest ∧ Solid c ∧ c ≠ closing

/-- The reader reads back what is spelled, with any text behind it. -/
def Reads {α : Type} (closing : Char) (Spells : α → List Char → Prop) (item : Reader α) : Prop :=
  ∀ a t, Spells a t → Begins closing t ∧ ∀ rest, item (t ++ rest) = some (a, rest)

/-- Items up to and with the closing character. -/
inductive Listed {α : Type} (closing : Char) (Spells : α → List Char → Prop) :
    List α → List Char → Prop where
  | none {gap : List Char} (space : Space gap) : Listed closing Spells [] (gap ++ [closing])
  | last {before after t : List Char} {a : α} (spaceBefore : Space before) (item : Spells a t)
    (spaceAfter : Space after) :
    Listed closing Spells [a] (before ++ (t ++ (after ++ [closing])))
  /-- If no items follow the comma, it is one after the last item. -/
  | more {before after t rest : List Char} {a : α} {as : List α} (spaceBefore : Space before)
    (item : Spells a t) (spaceAfter : Space after) (others : Listed closing Spells as rest) :
    Listed closing Spells (a :: as) (before ++ (t ++ (after ++ ',' :: rest)))

section

variable {α : Type} {closing : Char} {Spells : α → List Char → Prop} {item : Reader α}
  {as : List α} {t : List Char}

/-- What can be spelled can be listed. -/
theorem exists_listed (closing : Char) (h : ∀ a ∈ as, ∃ t, Spells a t) :
    ∃ t, Listed closing Spells as t := by
  induction as with
  | nil => exact ⟨_, .none space_nil⟩
  | cons a as ih =>
    obtain ⟨ha, has⟩ := List.forall_mem_cons.mp h
    obtain ⟨t, ht⟩ := ha
    obtain ⟨u, hu⟩ := ih has
    exact ⟨_, .more space_nil ht space_nil hu⟩

theorem Listed.length_pos (h : Listed closing Spells as t) : 0 < t.length := by
  cases h <;> simp only [List.length_append, List.length_cons] <;> omega

/-- Each comma takes a character, and so does the end, so all items are read before the limit is
reached. -/
theorem itemsUpTo_of_listed (hclosing : Solid closing) (hcomma : closing ≠ ',')
    (hitem : Reads closing Spells item) (h : Listed closing Spells as t) {limit : Nat}
    (hlimit : t.length ≤ limit + 1) (rest : List Char) :
    itemsUpTo closing item (limit + 1) (t ++ rest) = some (as, rest) := by
  induction h generalizing limit with
  | none space =>
    rw [List.append_assoc, List.singleton_append, itemsUpTo, blanks_append space hclosing]
    exact if_pos rfl
  | last spaceBefore spelled spaceAfter =>
    obtain ⟨⟨c, u, rfl, hsolid, hne⟩, hread⟩ := hitem _ _ spelled
    simp only [List.append_assoc, List.cons_append, List.nil_append] at hread ⊢
    rw [itemsUpTo, blanks_append spaceBefore hsolid]
    simp only [if_neg hne, hread, blanks_append spaceAfter hclosing, if_neg hcomma, if_true]
  | @more before after u others a as spaceBefore spelled spaceAfter listed ih =>
    obtain ⟨⟨c, u, rfl, hsolid, hne⟩, hread⟩ := hitem _ _ spelled
    -- what follows the comma is shorter than the whole and is not empty
    have hpos := listed.length_pos
    simp only [List.length_append, List.length_cons] at hlimit
    obtain ⟨limit, rfl⟩ : ∃ n, limit = n + 1 := ⟨limit - 1, by omega⟩
    have hothers : others.length ≤ limit + 1 := by omega
    have hsolidComma : Solid ',' := by decide
    simp only [List.append_assoc, List.cons_append] at hread ⊢
    rw [itemsUpTo, blanks_append spaceBefore hsolid]
    simp only [if_neg hne, hread, blanks_append spaceAfter hsolidComma, if_true, ih hothers]

/-- **A written list is read back.** -/
theorem items_of_listed (hclosing : Solid closing) (hcomma : closing ≠ ',')
    (hitem : Reads closing Spells item) (h : Listed closing Spells as t) (rest : List Char) :
    items closing item (t ++ rest) = some (as, rest) := by
  have hpos := h.length_pos
  obtain ⟨limit, hlimit⟩ : ∃ n, (t ++ rest).length = n + 1 :=
    ⟨(t ++ rest).length - 1, by rw [List.length_append]; omega⟩
  rw [items, hlimit]
  refine itemsUpTo_of_listed hclosing hcomma hitem h ?_ rest
  rw [← hlimit, List.length_append]
  exact Nat.le_add_right ..

end

end Notation

end NativeLink
