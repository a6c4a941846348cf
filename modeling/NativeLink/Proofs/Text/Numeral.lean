import Mathlib.Data.String.Basic
import Mathlib.Tactic.Ring
import NativeLink.Address

/-!
# Hexadecimal numerals and the texts of addresses

Where an address is shown, its text is all that is shown of it, so the text has to say which
address it is, and texts that are put in order have to say how the addresses are ordered.

`Hex.Numeral n t` says that `t` is the shortest numeral of `n` without saying how it is written:
digits in lower case, no zero in front of others, and `n` is what they denote in base sixteen.
`Hex.digits` writes such a numeral (`numeral_digits`), and there is only one (`Numeral.unique`).

Numerals are compared from the left and written from the right, so the order cannot be had by the
induction that writes them.  Both halves of it come from reading with a number in front, as
`Hex.value?` does.

* `value?_bounds`: `k` digits behind `a` denote a number from `a * 16 ^ k` on that is less than
  `(a + 1) * 16 ^ k`.  A numeral that starts with another digit than zero is therefore greater than
  every shorter one.
* `lt_iff_of_value?`: behind `a` and `b`, as many digits on either side are ordered as the pairs of
  the number in front and the digits are.  With nothing in front this is the order of the texts.

The length decides first, because the text `0x100` stands before `0xff`.  `Address.text_faithful`
puts all of this together for the sixty-four bits of an address.
-/

namespace NativeLink

namespace Hex

variable {a b m n x y : Nat} {c d : Char} {s t : List Char}

/-! ## Digits -/

/-- A digit in lower case. -/
def IsLower (c : Char) : Prop := ('0' ≤ c ∧ c ≤ '9') ∨ ('a' ≤ c ∧ c ≤ 'f')

theorem isLower_iff_toNat :
    IsLower c ↔ (48 ≤ c.toNat ∧ c.toNat ≤ 57) ∨ (97 ≤ c.toNat ∧ c.toNat ≤ 102) :=
  Iff.rfl

theorem toNat_ofNat (h : n < 0xd800) : (Char.ofNat n).toNat = n := by
  rw [Char.ofNat, dif_pos (Or.inl h)]
  rfl

theorem toNat_digit (h : x < 16) : (digit x).toNat = if x < 10 then 48 + x else 87 + x := by
  unfold digit
  split
  · exact toNat_ofNat (by omega)
  · exact toNat_ofNat (by omega)

theorem isLower_digit (h : x < 16) : IsLower (digit x) := by
  rw [isLower_iff_toNat, toNat_digit h]
  split <;> omega

theorem utf8Size_of_isLower (hc : IsLower c) : c.utf8Size = 1 := by
  rw [isLower_iff_toNat] at hc
  rw [Char.utf8Size_eq_one_iff]
  show c.toNat ≤ 127
  omega

theorem utf8Len_of_lower (h : ∀ c ∈ t, IsLower c) : String.utf8Len t = t.length := by
  induction t with
  | nil => rfl
  | cons c t ih =>
    obtain ⟨hc, ht⟩ := List.forall_mem_cons.mp h
    rw [String.utf8Len_cons, utf8Size_of_isLower hc, ih ht, List.length_cons]

/-- The three ranges of digits, the last of which is read but not written. -/
theorem digitValue?_eq_some_iff : digitValue? c = some x ↔
    (x < 10 ∧ c.toNat = 48 + x) ∨ (10 ≤ x ∧ x < 16 ∧ c.toNat = 87 + x) ∨
      (10 ≤ x ∧ x < 16 ∧ c.toNat = 55 + x) := by
  unfold digitValue?
  dsimp only
  split_ifs <;> simp only [Option.some.injEq, false_iff] <;> omega

theorem digitValue?_digit (h : x < 16) : digitValue? (digit x) = some x := by
  rw [digitValue?_eq_some_iff, toNat_digit h]
  split <;> omega

theorem lt_of_digitValue? (h : digitValue? c = some x) : x < 16 := by
  rw [digitValue?_eq_some_iff] at h
  omega

/-- A digit in lower case is known by its number. -/
theorem toNat_of_isLower (hc : IsLower c) (hx : digitValue? c = some x) :
    (x < 10 ∧ c.toNat = 48 + x) ∨ (10 ≤ x ∧ x < 16 ∧ c.toNat = 87 + x) := by
  rw [isLower_iff_toNat] at hc
  rw [digitValue?_eq_some_iff] at hx
  omega

theorem lt_iff_of_isLower (hc : IsLower c) (hd : IsLower d) (hx : digitValue? c = some x)
    (hy : digitValue? d = some y) : c < d ↔ x < y := by
  have hcx := toNat_of_isLower hc hx
  have hdy := toNat_of_isLower hd hy
  show c.toNat < d.toNat ↔ x < y
  omega

theorem eq_iff_of_isLower (hc : IsLower c) (hd : IsLower d) (hx : digitValue? c = some x)
    (hy : digitValue? d = some y) : c = d ↔ x = y := by
  have hcx := toNat_of_isLower hc hx
  have hdy := toNat_of_isLower hd hy
  rw [← Char.toNat_inj]
  omega

/-! ## Reading with a number in front -/

theorem value?_cons : value? a (c :: t) = (digitValue? c).bind fun x => value? (16 * a + x) t := by
  rw [value?]
  cases digitValue? c <;> rfl

theorem value?_cons_eq_some_iff : value? a (c :: t) = some n ↔
    ∃ x, digitValue? c = some x ∧ value? (16 * a + x) t = some n := by
  rw [value?_cons, Option.bind_eq_some_iff]

theorem value?_append : value? a (s ++ t) = (value? a s).bind fun m => value? m t := by
  induction s generalizing a with
  | nil => rfl
  | cons c s ih =>
    rw [List.cons_append, value?_cons, value?_cons, Option.bind_assoc]
    simp only [ih]

/-- **Digits behind a number leave it room for no other.** -/
theorem value?_bounds (h : value? a t = some n) :
    a * 16 ^ t.length ≤ n ∧ n < (a + 1) * 16 ^ t.length := by
  induction t generalizing a with
  | nil =>
    cases h
    simp
  | cons c t ih =>
    obtain ⟨x, hx, ht⟩ := value?_cons_eq_some_iff.mp h
    have hlt : x < 16 := lt_of_digitValue? hx
    obtain ⟨hle, hgt⟩ := ih ht
    rw [List.length_cons, pow_succ']
    constructor
    · calc a * (16 * 16 ^ t.length) = 16 * a * 16 ^ t.length := by ring
        _ ≤ (16 * a + x) * 16 ^ t.length := Nat.mul_le_mul_right _ (by omega)
        _ ≤ n := hle
    · calc n < (16 * a + x + 1) * 16 ^ t.length := hgt
        _ ≤ 16 * (a + 1) * 16 ^ t.length := Nat.mul_le_mul_right _ (by omega)
        _ = (a + 1) * (16 * 16 ^ t.length) := by ring

/-- **As many digits on either side are ordered from the left**, behind the numbers in front. -/
theorem lt_iff_of_value? (hlength : s.length = t.length) (hs : ∀ c ∈ s, IsLower c)
    (ht : ∀ c ∈ t, IsLower c) (hm : value? a s = some m) (hn : value? b t = some n) :
    m < n ↔ a < b ∨ a = b ∧ s < t := by
  induction s generalizing a b t with
  | nil =>
    obtain rfl : t = [] := List.length_eq_zero_iff.mp hlength.symm
    cases hm
    cases hn
    simp
  | cons c s ih =>
    cases t with
    | nil => cases hlength
    | cons d t =>
      obtain ⟨x, hx, hm⟩ := value?_cons_eq_some_iff.mp hm
      obtain ⟨y, hy, hn⟩ := value?_cons_eq_some_iff.mp hn
      obtain ⟨hc, hs⟩ := List.forall_mem_cons.mp hs
      obtain ⟨hd, ht⟩ := List.forall_mem_cons.mp ht
      have hxlt : x < 16 := lt_of_digitValue? hx
      have hylt : y < 16 := lt_of_digitValue? hy
      rw [ih (Nat.succ.inj hlength) hs ht hm hn, List.cons_lt_cons_iff,
        lt_iff_of_isLower hc hd hx hy, eq_iff_of_isLower hc hd hx hy]
      by_cases hrest : s < t
      · simp only [hrest, and_true]
        omega
      · simp only [hrest, and_false, or_false]
        omega

/-! ## The shortest numeral -/

/-- The text is the shortest numeral of a number. -/
structure Numeral (n : Nat) (t : List Char) : Prop where
  ne_nil : t ≠ []
  lower : ∀ c ∈ t, IsLower c
  /-- A zero stands in front only where it stands alone. -/
  leading : t.head? = some '0' → t = ['0']
  denotes : value? 0 t = some n

theorem numeral_digit (h : n < 16) : Numeral n [digit n] where
  ne_nil := List.cons_ne_nil _ _
  lower := by
    intro c hc
    rw [List.mem_singleton.mp hc]
    exact isLower_digit h
  leading := by
    intro hhead
    rw [Option.some.inj hhead]
  denotes := by
    rw [value?_cons_eq_some_iff]
    exact ⟨n, digitValue?_digit h, by rw [value?, Nat.mul_zero, Nat.zero_add]⟩

namespace Numeral

theorem append_digit (h : Numeral n t) (hn : 0 < n) (hx : x < 16) :
    Numeral (16 * n + x) (t ++ [digit x]) where
  ne_nil := List.append_ne_nil_of_left_ne_nil h.ne_nil _
  lower := List.forall_mem_append.mpr ⟨h.lower, (numeral_digit hx).lower⟩
  leading := by
    intro hhead
    rw [List.head?_append_of_ne_nil _ h.ne_nil] at hhead
    -- a zero in front would be all there was before, and denote zero
    have hdenotes := h.denotes
    rw [h.leading hhead] at hdenotes
    have hzero : 0 = n := Option.some.inj hdenotes
    omega
  denotes := by
    rw [value?_append, h.denotes, Option.bind_some, value?_cons, digitValue?_digit hx]
    rfl

theorem lt_pow_length (h : Numeral n t) : n < 16 ^ t.length := by
  obtain ⟨-, hlt⟩ := value?_bounds h.denotes
  rwa [Nat.zero_add, Nat.one_mul] at hlt

/-- Digits behind the one in front give the number its size. -/
theorem pow_length_le (h : Numeral n (c :: t)) (hne : t ≠ []) : 16 ^ t.length ≤ n := by
  obtain ⟨x, hx, hn⟩ := value?_cons_eq_some_iff.mp h.denotes
  have hfront : 0 < x := by
    by_contra hzero
    have hcx := toNat_of_isLower (h.lower c List.mem_cons_self) hx
    have hc : c = '0' := Char.toNat_inj.mp (show c.toNat = 48 by omega)
    have halone := h.leading (by rw [hc, List.head?_cons])
    exact hne (List.cons.inj halone).2
  calc 16 ^ t.length ≤ (16 * 0 + x) * 16 ^ t.length := Nat.le_mul_of_pos_left _ (by omega)
    _ ≤ n := (value?_bounds hn).1

/-- **A shorter numeral denotes a smaller number.** -/
theorem lt_of_length_lt (hs : Numeral m s) (ht : Numeral n t) (hlength : s.length < t.length) :
    m < n := by
  cases t with
  | nil => cases hlength
  | cons d t =>
    have hpos : 0 < s.length := List.length_pos_iff.mpr hs.ne_nil
    rw [List.length_cons] at hlength
    have hne : t ≠ [] := List.length_pos_iff.mp (by omega)
    calc m < 16 ^ s.length := hs.lt_pow_length
      _ ≤ 16 ^ t.length := Nat.pow_le_pow_right (by omega) (by omega)
      _ ≤ n := ht.pow_length_le hne

/-- **Numerals of one length are ordered as their numbers are.** -/
theorem lt_iff_of_length_eq (hs : Numeral m s) (ht : Numeral n t)
    (hlength : s.length = t.length) : m < n ↔ s < t := by
  rw [lt_iff_of_value? hlength hs.lower ht.lower hs.denotes ht.denotes]
  simp

/-- **A number has one shortest numeral.** -/
theorem unique (hs : Numeral n s) (ht : Numeral n t) : s = t := by
  rcases lt_trichotomy s.length t.length with hlength | hlength | hlength
  · exact absurd (hs.lt_of_length_lt ht hlength) (lt_irrefl n)
  · have hst : ¬ s < t := fun h => lt_irrefl n ((hs.lt_iff_of_length_eq ht hlength).mpr h)
    have hts : ¬ t < s := fun h => lt_irrefl n ((ht.lt_iff_of_length_eq hs hlength.symm).mpr h)
    exact le_antisymm (not_lt.mp hts) (not_lt.mp hst)
  · exact absurd (ht.lt_of_length_lt hs hlength) (lt_irrefl n)

end Numeral

/-- **What is written is the shortest numeral.** -/
theorem numeral_digits (n : Nat) : Numeral n (digits n) := by
  fun_induction digits n with
  | case1 n h => exact numeral_digit h
  | case2 n h ih =>
    have hpos : 0 < n / 16 := by omega
    have happend := ih.append_digit hpos (Nat.mod_lt n (by omega))
    rwa [Nat.div_add_mod] at happend

theorem eq_digits_iff : t = digits n ↔ Numeral n t :=
  ⟨fun h => h ▸ numeral_digits n, fun h => h.unique (numeral_digits n)⟩

theorem digits_injective : Function.Injective digits := by
  intro m n h
  have hm : value? 0 (digits n) = some m := h ▸ (numeral_digits m).denotes
  exact Option.some.inj (hm.symm.trans (numeral_digits n).denotes)

end Hex

/-! ## Addresses -/

namespace Address

variable {a b : Address}

theorem toList_text (a : Address) : a.text.toList = '0' :: 'x' :: Hex.digits a.raw.toNat := by
  rw [text, String.toList_append, String.toList_ofList, String.toList_ofList]
  rfl

theorem length_text (a : Address) : a.text.length = (Hex.digits a.raw.toNat).length + 2 := by
  rw [← String.length_toList, toList_text]
  rfl

/-- The text of an address is the mark and the shortest numeral, and it is the only such text. -/
theorem eq_text_iff {t : String} : t = a.text ↔
    ∃ ds, t.toList = '0' :: 'x' :: ds ∧ Hex.Numeral a.raw.toNat ds := by
  rw [← String.toList_inj, toList_text]
  constructor
  · intro h
    exact ⟨_, h, Hex.numeral_digits _⟩
  · rintro ⟨ds, h, hds⟩
    rw [h, Hex.eq_digits_iff.mpr hds]

theorem text_injective : Function.Injective Address.text := by
  intro a b h
  have hlist := congrArg String.toList h
  rw [toList_text, toList_text, List.cons_inj_right, List.cons_inj_right] at hlist
  exact congrArg mk (UInt64.toNat_inj.mp (Hex.digits_injective hlist))

theorem text_lt_iff (hlength : a.text.length = b.text.length) :
    a.text < b.text ↔ a.raw.toNat < b.raw.toNat := by
  rw [length_text, length_text, Nat.add_right_cancel_iff] at hlength
  rw [(Hex.numeral_digits _).lt_iff_of_length_eq (Hex.numeral_digits _) hlength,
    String.lt_iff_toList_lt, toList_text, toList_text]
  simp

theorem compare_eq_lt_iff : a.compare b = .lt ↔ a.raw.toNat < b.raw.toNat :=
  Nat.compare_eq_lt

theorem compare_eq_gt_iff : a.compare b = .gt ↔ b.raw.toNat < a.raw.toNat :=
  Nat.compare_eq_gt

@[simp] theorem compare_self (a : Address) : a.compare a = .eq :=
  Nat.compare_eq_eq.mpr rfl

/-- **Texts of one length are ordered as the addresses are.** -/
theorem compare_text (hlength : a.text.length = b.text.length) :
    a.compare b = Ord.compare a.text b.text := by
  rcases lt_trichotomy a.text b.text with h | h | h
  · rw [compare_lt_iff_lt.mpr h, compare_eq_lt_iff]
    exact (text_lt_iff hlength).mp h
  · rw [compare_eq_iff_eq.mpr h, text_injective h, compare_self]
  · rw [compare_gt_iff_gt.mpr h, compare_eq_gt_iff]
    exact (text_lt_iff hlength.symm).mp h

theorem utf8ByteSize_text (a : Address) : a.text.utf8ByteSize = a.text.length := by
  have hdigits : String.utf8Len (Hex.digits a.raw.toNat) = (Hex.digits a.raw.toNat).length :=
    Hex.utf8Len_of_lower (Hex.numeral_digits _).lower
  rw [length_text, text, String.utf8ByteSize_append, String.utf8ByteSize_ofList,
    String.utf8ByteSize_ofList, hdigits, Nat.add_comm]
  rfl

theorem render_inspect (a : Address) (spread : Bool) :
    a.inspect.render spread = "Address(" ++ a.text ++ ")" := by
  cases spread <;> simp [inspect, Inspect.render, Inspect.line, Inspect.block]

/-- What the text of an address says of it. -/
structure TextFaithful (a : Address) : Prop where
  /-- It is the mark and the shortest numeral of the bits, and no other text is. -/
  numeral : ∀ t, t = a.text ↔ ∃ ds, t.toList = '0' :: 'x' :: ds ∧ Hex.Numeral a.raw.toNat ds
  null : a.text = "0x0" ↔ a = null
  same : ∀ b : Address, a.text = b.text ↔ a = b
  shorter : ∀ b : Address, a.text.length < b.text.length → a.compare b = .lt
  level : ∀ b : Address, a.text.length = b.text.length →
    a.compare b = Ord.compare a.text b.text
  /-- It does not matter for the length whether bytes or characters are counted. -/
  bytes : a.text.utf8ByteSize = a.text.length
  /-- An inspection says as much, on one line or several. -/
  inspected : ∀ (b : Address) (spread : Bool),
    a.inspect.render spread = b.inspect.render spread ↔ a = b

/-- **The text of an address is faithful.**  It tells which address it is, and texts are in the
order of the addresses, once they are ordered by length. -/
theorem text_faithful (a : Address) : a.TextFaithful where
  numeral _ := eq_text_iff
  null := by
    have hnull : "0x0" = null.text :=
      eq_text_iff.mpr ⟨['0'], rfl, Hex.numeral_digit (by decide)⟩
    rw [hnull]
    exact text_injective.eq_iff
  same _ := text_injective.eq_iff
  shorter b h := by
    rw [length_text, length_text] at h
    exact compare_eq_lt_iff.mpr
      ((Hex.numeral_digits _).lt_of_length_lt (Hex.numeral_digits _) (by omega))
  level _ := compare_text
  bytes := utf8ByteSize_text a
  inspected b spread := by
    rw [render_inspect, render_inspect, ← text_injective.eq_iff]
    simp

/-- The longer text stands first, and the high bits are in it. -/
example : (⟨0x100⟩ : Address).text < (⟨0xff⟩ : Address).text ∧
    (⟨0xffff800000001234⟩ : Address).text = "0xffff800000001234" := by decide +kernel

end Address

end NativeLink
