import NativeLink.Binding
import NativeLink.Proofs.Signature.Canonical

/-!
# Texts that a binding accepts

Whoever asks for a bound name says in a text which signature the name should have.  The
binding keeps the canonical text of its own signature and compares with that first; a text is
read only if it is another one.  `Binding.denotedBy` is the test without the comparison.

Nothing is gained or lost by the comparison as long as the canonical text denotes the
signature, and that is so unless an argument is `VOID` (`isBoundWith_iff`).  A signature with
such an argument can be built by hand, and then the comparison is all there is: no text
denotes the signature, and the binding accepts its canonical text alone
(`isBoundWith_iff_of_void`).
-/

namespace NativeLink

namespace Binding

variable {σ : Type} {b c : Binding σ} {s u : Signature} {requested : String}

/-- Whether a text, when it is read, gives the signature of the binding. -/
def denotedBy (b : Binding σ) (requested : String) : Bool :=
  match Signature.parse requested with
  | .ok signature => signature == b.signature
  | .error _ => false

/-- The binding was made with the signature. -/
def MadeWith (s : Signature) (b : Binding σ) : Prop :=
  ∃ id name callable, b = make id name s callable

theorem denotedBy_iff :
    b.denotedBy requested = true ↔ Signature.parse requested = .ok b.signature := by
  unfold denotedBy
  cases Signature.parse requested with
  | error error => simp
  | ok signature => simp

theorem isBoundWith_iff_or : b.isBoundWith requested = true ↔
    requested = b.canonical ∨ Signature.parse requested = .ok b.signature := by
  have hor : b.isBoundWith requested = (requested == b.canonical || b.denotedBy requested) := rfl
  rw [hor, Bool.or_eq_true, beq_iff_eq, denotedBy_iff]

/-- **A text is accepted if reading it gives the signature**, also where it is not read. -/
theorem isBoundWith_iff (canonical : b.canonical = b.signature.text)
    (hvoid : .void ∉ b.signature.params) :
    b.isBoundWith requested = true ↔ Signature.parse requested = .ok b.signature := by
  rw [isBoundWith_iff_or, or_iff_right_iff_imp]
  rintro rfl
  rw [canonical, Signature.parse_text, if_neg hvoid]

/-- No text denotes a signature with `VOID` among its arguments. -/
theorem parse_ne_of_void (hvoid : .void ∈ s.params) : Signature.parse requested ≠ .ok s :=
  fun h => Signature.void_not_mem_of_parse h hvoid

/-- **Where no text denotes the signature, the canonical text is accepted alone.** -/
theorem isBoundWith_iff_of_void (canonical : b.canonical = b.signature.text)
    (hvoid : .void ∈ b.signature.params) :
    b.isBoundWith requested = true ↔ requested = b.signature.text := by
  rw [isBoundWith_iff_or, canonical, or_iff_left (parse_ne_of_void hvoid)]

/-- **The texts that a binding accepts.**  If no argument is `VOID`, they are those that denote
its signature, so that comparing with the canonical text never makes a difference, and no other
signature has a binding that accepts one of them.  If an argument is `VOID`, the canonical text
is the only one, although it denotes no signature. -/
theorem accepted_texts (hb : b.MadeWith s) :
    (.void ∉ s.params →
      (∀ requested, (b.isBoundWith requested = true ↔ Signature.parse requested = .ok s) ∧
        b.isBoundWith requested = b.denotedBy requested) ∧
      ∀ u, .void ∉ u.params → u ≠ s → ∀ c : Binding σ, c.MadeWith u → ∀ requested,
        ¬ (b.isBoundWith requested = true ∧ c.isBoundWith requested = true)) ∧
    (.void ∈ s.params → ∀ requested, (b.isBoundWith requested = true ↔ requested = s.text) ∧
      Signature.parse requested ≠ .ok s) := by
  obtain ⟨id, name, callable, rfl⟩ := hb
  refine ⟨fun hs => ⟨fun requested => ?_, fun u hu hne c hc requested => ?_⟩,
    fun hs requested => ?_⟩
  · have hread : (make id name s callable).isBoundWith requested = true ↔
        Signature.parse requested = .ok s := isBoundWith_iff rfl hs
    have hdenoted : (make id name s callable).denotedBy requested = true ↔
        Signature.parse requested = .ok s := denotedBy_iff
    exact ⟨hread, Bool.eq_iff_iff.mpr (hread.trans hdenoted.symm)⟩
  · obtain ⟨_, _, _, rfl⟩ := hc
    rintro ⟨hfirst, hsecond⟩
    -- both bindings would have the one signature that the text denotes
    have hparse := (isBoundWith_iff (b := make id name s callable) rfl hs).mp hfirst
    have hother := ((isBoundWith_iff (b := make _ _ u _) rfl hu).mp hsecond).symm.trans hparse
    exact hne (Except.ok.inj hother)
  · exact ⟨isBoundWith_iff_of_void (b := make id name s callable) rfl hs, parse_ne_of_void hs⟩

/-- A text with blanks in it is accepted for what it denotes and by no binding of another
signature; and the canonical text of a signature with `VOID` among its arguments is accepted
though it denotes none. -/
theorem accepted_texts_of_spaced :
    let callable : Callable Unit := fun _ world => (.returned (.ok .void), [], world)
    let pair := make 0 "@f" ⟨[.pointer, .uint64], .pointer⟩ callable
    let single := make 1 "@g" ⟨[.pointer], .pointer⟩ callable
    let empty := make 2 "@h" ⟨[.void], .void⟩ callable
    pair.isBoundWith " (POINTER, UINT64) : POINTER" = true ∧
      single.isBoundWith " (POINTER, UINT64) : POINTER" = false ∧
      empty.isBoundWith "(VOID):VOID" = true ∧ empty.isBoundWith "( VOID ):VOID" = false ∧
      Signature.parse "(VOID):VOID" ≠ .ok ⟨[.void], .void⟩ := by
  intro callable pair single empty
  have hread : Signature.parse " (POINTER, UINT64) : POINTER" =
      .ok ⟨[.pointer, .uint64], .pointer⟩ := rfl
  obtain ⟨haccepts, happart⟩ :=
    (accepted_texts (b := pair) ⟨_, _, _, rfl⟩).1 (by decide)
  have hvoid := (accepted_texts (b := empty) ⟨_, _, _, rfl⟩).2 (by decide)
  have hpair := (haccepts _).1.mpr hread
  refine ⟨hpair, ?_, (hvoid "(VOID):VOID").1.mpr rfl, ?_, (hvoid "(VOID):VOID").2⟩
  · have hnot := happart ⟨[.pointer], .pointer⟩ (by decide) (by decide) single ⟨_, _, _, rfl⟩
      " (POINTER, UINT64) : POINTER"
    exact Bool.eq_false_iff.mpr fun hsingle => hnot ⟨hpair, hsingle⟩
  · exact Bool.eq_false_iff.mpr fun haccepted =>
      absurd ((hvoid "( VOID ):VOID").1.mp haccepted) (by decide)

end Binding

end NativeLink
