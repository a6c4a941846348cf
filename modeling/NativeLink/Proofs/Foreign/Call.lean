import NativeLink.Foreign.Resolver
import NativeLink.Proofs.Signature.Grammar

/-!
# Calls of foreign functions

A call with as many arguments as the signature has goes one of two ways, and the kinds
of the arguments alone decide which.  If they are those of the signature, the routine is
entered once, with the words of the arguments, and what comes back is read as the kind
of the result.  If not, the call is refused at the first place where they differ, and
nothing has happened.

`FirstDifference` is that place.  The third refusal that marshalling knows, of a `VOID`
argument, needs a signature with `VOID` among the arguments, and no text reads as one.
With such a signature, arguments are at fault also where `VOID` is wanted and given, and a
call is refused at the first place that is at fault (`FirstFault`).
-/

namespace NativeLink

/-- The first place where two lists of kinds differ, with what stands there. -/
structure FirstDifference (bound given : List Kind) (i : Nat) (expected got : Kind) : Prop where
  wanted : bound[i]? = some expected
  found : given[i]? = some got
  differ : got ≠ expected
  /-- Up to there they are the same. -/
  same : ∀ j < i, bound[j]? = given[j]?

namespace FirstDifference

variable {bound given : List Kind} {i : Nat} {expected got kind : Kind}

/-- There is one such place at most. -/
theorem unique (h : FirstDifference bound given i expected got) {j : Nat} {other found : Kind}
    (k : FirstDifference bound given j other found) : j = i ∧ other = expected ∧ found = got := by
  have hle : ∀ {i j : Nat} {expected got other found : Kind},
      FirstDifference bound given i expected got → FirstDifference bound given j other found →
        i ≤ j := by
    intro i j expected got other found h k
    by_contra hlt
    have heq := h.same j (by omega)
    rw [k.wanted, k.found] at heq
    exact k.differ (Option.some.inj heq).symm
  obtain rfl := Nat.le_antisymm (hle h k) (hle k h)
  exact ⟨rfl, Option.some.inj (k.wanted.symm.trans h.wanted),
    Option.some.inj (k.found.symm.trans h.found)⟩

theorem head (h : got ≠ expected) :
    FirstDifference (expected :: bound) (got :: given) 0 expected got :=
  ⟨rfl, rfl, h, fun j hj => absurd hj (Nat.not_lt_zero j)⟩

theorem cons_iff : FirstDifference (kind :: bound) (kind :: given) (i + 1) expected got ↔
    FirstDifference bound given i expected got := by
  constructor
  · intro h
    exact ⟨h.wanted, h.found, h.differ, fun j hj => h.same (j + 1) (Nat.succ_lt_succ hj)⟩
  · intro h
    refine ⟨h.wanted, h.found, h.differ, fun j hj => ?_⟩
    cases j with
    | zero => rfl
    | succ j => exact h.same j (Nat.lt_of_succ_lt_succ hj)

/-- Lists of the same length are equal or differ at a first place. -/
theorem eq_or_exists : ∀ {bound given : List Kind}, bound.length = given.length →
    given = bound ∨ ∃ i expected got, FirstDifference bound given i expected got
  | [], [], _ => .inl rfl
  | expected :: bound, got :: given, h => by
    by_cases hne : got = expected
    · subst hne
      rcases eq_or_exists (Nat.succ.inj h) with rfl | ⟨i, k, l, hfirst⟩
      · exact .inl rfl
      · exact .inr ⟨i + 1, k, l, cons_iff.mpr hfirst⟩
    · exact .inr ⟨0, expected, got, head hne⟩

end FirstDifference

/-! ## Faults -/

/-- Arguments do not fit the kinds of a signature at a place. -/
structure Fault (params given : List Kind) (i : Nat) (expected got : Kind) : Prop where
  wanted : params[i]? = some expected
  found : given[i]? = some got
  unfit : got ≠ expected ∨ expected = .void ∧ got = .void

/-- The first such place. -/
structure FirstFault (params given : List Kind) (i : Nat) (expected got : Kind) : Prop
    extends Fault params given i expected got where
  first : ∀ j < i, ∀ wanted found, ¬Fault params given j wanted found

/-- The error for an argument at a place where it does not fit. -/
def faultError (i : Nat) (expected got : Kind) : TransportError :=
  if got ≠ expected then .argumentKind i expected got
  else .unsupported ("argument " ++ toString i ++ " is VOID")

section Faults

variable {params given : List Kind} {i : Nat} {param kind expected got : Kind}

namespace Fault

theorem cons_succ_iff : Fault (param :: params) (kind :: given) (i + 1) expected got ↔
    Fault params given i expected got :=
  ⟨fun h => ⟨h.wanted, h.found, h.unfit⟩, fun h => ⟨h.wanted, h.found, h.unfit⟩⟩

/-- At the first place only what stands there can be at fault. -/
theorem cons_zero_iff : Fault (param :: params) (kind :: given) 0 expected got ↔
    param = expected ∧ kind = got ∧ (got ≠ expected ∨ expected = .void ∧ got = .void) :=
  ⟨fun h => ⟨Option.some.inj h.wanted, Option.some.inj h.found, h.unfit⟩,
    fun ⟨hparam, hkind, h⟩ => ⟨congrArg some hparam, congrArg some hkind, h⟩⟩

/-- Arguments of the right kinds have no fault, unless `VOID` is among the kinds. -/
theorem not_self (hvoid : .void ∉ params) : ¬Fault params params i expected got := by
  intro h
  have heq : expected = got := Option.some.inj (h.wanted.symm.trans h.found)
  rcases h.unfit with hne | ⟨rfl, -⟩
  · exact hne heq.symm
  · exact hvoid (List.mem_of_getElem? h.wanted)

end Fault

namespace FirstFault

theorem head (h : got ≠ expected ∨ expected = .void ∧ got = .void) :
    FirstFault (expected :: params) (got :: given) 0 expected got :=
  ⟨⟨rfl, rfl, h⟩, fun j hj => absurd hj (Nat.not_lt_zero j)⟩

/-- A first fault further on is one behind a place where the arguments fit. -/
theorem cons_succ_iff : FirstFault (param :: params) (kind :: given) (i + 1) expected got ↔
    (kind = param ∧ kind ≠ .void) ∧ FirstFault params given i expected got := by
  constructor
  · intro h
    refine ⟨?_, Fault.cons_succ_iff.mp h.toFault, fun j hj wanted found hfault =>
      h.first (j + 1) (Nat.succ_lt_succ hj) wanted found (Fault.cons_succ_iff.mpr hfault)⟩
    have hfits := h.first 0 (Nat.succ_pos i) param kind
    rw [Fault.cons_zero_iff] at hfits
    by_cases hkind : kind = param
    · refine ⟨hkind, fun hvoid => hfits ⟨rfl, rfl, .inr ⟨?_, hvoid⟩⟩⟩
      rw [← hkind, hvoid]
    · exact absurd ⟨rfl, rfl, .inl hkind⟩ hfits
  · rintro ⟨⟨rfl, hvoid⟩, h⟩
    refine ⟨Fault.cons_succ_iff.mpr h.toFault, fun j hj wanted found hfault => ?_⟩
    cases j with
    | zero =>
      obtain ⟨rfl, rfl, hne | ⟨hkind, -⟩⟩ := Fault.cons_zero_iff.mp hfault
      · exact hne rfl
      · exact hvoid hkind
    | succ j =>
      exact h.first j (Nat.lt_of_succ_lt_succ hj) wanted found (Fault.cons_succ_iff.mp hfault)

/-- Arguments in the right number fit, or there is a first place where they do not. -/
theorem fits_or_exists : ∀ {params given : List Kind}, given.length = params.length →
    (given = params ∧ .void ∉ params) ∨ ∃ i expected got, FirstFault params given i expected got
  | [], [], _ => .inl ⟨rfl, List.not_mem_nil⟩
  | expected :: params, got :: given, h => by
    by_cases hunfit : got ≠ expected ∨ expected = .void ∧ got = .void
    · exact .inr ⟨0, expected, got, head hunfit⟩
    · rw [not_or, not_not] at hunfit
      obtain ⟨rfl, hvoid⟩ := hunfit
      have hkind : got ≠ .void := fun hk => hvoid ⟨hk, hk⟩
      rcases fits_or_exists (Nat.succ.inj h) with ⟨rfl, hnone⟩ | ⟨i, expected, found, hfirst⟩
      · exact .inl ⟨rfl, List.not_mem_cons_of_ne_of_not_mem hkind.symm hnone⟩
      · exact .inr ⟨i + 1, expected, found, cons_succ_iff.mpr ⟨⟨rfl, hkind⟩, hfirst⟩⟩

end FirstFault

end Faults

/-- Where `VOID` is not wanted, the first difference is the first fault. -/
theorem FirstDifference.firstFault {bound given : List Kind} {i : Nat} {expected got : Kind}
    (h : FirstDifference bound given i expected got) (hvoid : .void ∉ bound) :
    FirstFault bound given i expected got := by
  refine ⟨⟨h.wanted, h.found, .inl h.differ⟩, fun j hj wanted found hfault => ?_⟩
  have heq : wanted = found := by
    have hsame := h.same j hj
    rw [hfault.wanted, hfault.found] at hsame
    exact Option.some.inj hsame
  rcases hfault.unfit with hne | ⟨rfl, -⟩
  · exact hne heq.symm
  · exact hvoid (List.mem_of_getElem? hfault.wanted)

namespace ForeignFunction

open Value

/-- An argument of the right kind is marshalled, since it is not `VOID`. -/
theorem marshal_of_kind {v : Value} (hv : v.kind ≠ .void) (i : Nat) :
    marshal i v.kind v = .ok v.word := by
  have hne : v ≠ .void := by
    rintro rfl
    exact hv rfl
  simp [marshal, hne]

theorem marshal_of_ne {expected : Kind} {v : Value} (h : v.kind ≠ expected) (i : Nat) :
    marshal i expected v = .error (.argumentKind i expected v.kind) := by
  simp [marshal, h]

/-- Arguments of the right kinds are marshalled one by one. -/
theorem marshalFrom_map_kind {args : List Value} (hv : .void ∉ args.map kind) (i : Nat) :
    marshalFrom i (args.map kind) args = .ok (args.map word) := by
  induction args generalizing i with
  | nil => rfl
  | cons v args ih =>
    rw [List.map_cons, List.mem_cons, not_or] at hv
    simp only [List.map_cons, marshalFrom, marshal_of_kind (Ne.symm hv.1), ih hv.2]

theorem marshal_of_unfit {expected : Kind} {v : Value}
    (h : v.kind ≠ expected ∨ expected = .void ∧ v.kind = .void) (i : Nat) :
    marshal i expected v = .error (faultError i expected v.kind) := by
  by_cases hne : v.kind ≠ expected
  · rw [marshal_of_ne hne, faultError, if_pos hne]
  · obtain ⟨rfl, hvoid⟩ := h.resolve_left hne
    obtain rfl : v = .void := by cases v <;> first | rfl | cases hvoid
    rfl

/-- **Marshalling stops at the first argument that does not fit.** -/
theorem marshalFrom_of_firstFault {params : List Kind} {args : List Value} {i : Nat}
    {expected got : Kind} (h : FirstFault params (args.map kind) i expected got) (start : Nat) :
    marshalFrom start params args = .error (faultError (start + i) expected got) := by
  induction params generalizing args i start with
  | nil => simpa using h.wanted
  | cons param params ih =>
    cases args with
    | nil => simpa using h.found
    | cons v args =>
      cases i with
      | zero =>
        obtain ⟨rfl, rfl, hunfit⟩ := Fault.cons_zero_iff.mp h.toFault
        simp only [marshalFrom, marshal_of_unfit hunfit, Nat.add_zero]
      | succ i =>
        obtain ⟨⟨rfl, hvoid⟩, hfirst⟩ := FirstFault.cons_succ_iff.mp h
        have hrest := ih hfirst (start + 1)
        simp only [marshalFrom, marshal_of_kind hvoid, hrest]
        congr 2
        omega

section

variable {signature : Signature} {args : List Value}

theorem prepare_of_length_ne (h : args.length ≠ signature.params.length) :
    prepare signature args = .error (.argumentCount signature.params.length args.length) :=
  if_pos h

/-- **Arguments that fit are prepared one by one.** -/
theorem prepare_of_kinds (h : args.map kind = signature.params) (hv : .void ∉ signature.params) :
    prepare signature args = .ok (args.map word) := by
  have hlength : args.length = signature.params.length := by rw [← h, List.length_map]
  rw [prepare, if_neg (not_not.mpr hlength), ← h, marshalFrom_map_kind (h ▸ hv)]

theorem prepare_of_firstFault {i : Nat} {expected got : Kind}
    (hlength : args.length = signature.params.length)
    (h : FirstFault signature.params (args.map kind) i expected got) :
    prepare signature args = .error (faultError i expected got) := by
  rw [prepare, if_neg (not_not.mpr hlength), marshalFrom_of_firstFault h, Nat.zero_add]

end

end ForeignFunction

namespace Foreign

variable {π : Type} {f : ForeignFunction π} {args : List Value}

/-- What one call of a routine leaves: its word, and the process. -/
def entered (f : Foreign π) (routine : Routine π) (words : List UInt64) : UInt64 × Foreign π :=
  let (word, process) := routine words f.process
  (word, { f with process := process })

/-- **A call with arguments of the right kinds enters the routine once.** -/
theorem callable_of_kinds (h : args.map Value.kind = f.signature.params)
    (hv : .void ∉ f.signature.params) (w : Foreign π) :
    callable f args w =
      (.returned (.ok (.ofWord (w.entered f.routine (args.map Value.word)).1 f.signature.result)),
        [.foreignCall f.symbol f.address], (w.entered f.routine (args.map Value.word)).2) := by
  simp only [callable, ForeignFunction.call, ForeignFunction.prepare_of_kinds h hv, entered]

/-- **A call with arguments of other kinds is refused at the first of them.** -/
theorem callable_of_firstDifference {i : Nat} {expected got : Kind}
    (h : FirstDifference f.signature.params (args.map Value.kind) i expected got)
    (hlength : args.length = f.signature.params.length) (hv : .void ∉ f.signature.params)
    (w : Foreign π) :
    callable f args w = (.returned (.error (.argumentKind i expected got)), [], w) := by
  have hprepare : ForeignFunction.prepare f.signature args =
      .error (.argumentKind i expected got) := by
    rw [ForeignFunction.prepare_of_firstFault hlength (h.firstFault hv), faultError,
      if_pos h.differ]
  simp only [callable, ForeignFunction.call, hprepare]

end Foreign

end NativeLink
