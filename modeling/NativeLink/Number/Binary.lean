/-!
# Binary floating point

Values of the kinds `FLOAT` and `DOUBLE` are the binary interchange formats of
thirty-two and sixty-four bits.  They are kept as their bits and computed with in
exact integer arithmetic: `Format.decode` turns bits into a sign, a magnitude and
a power of two, and `Format.round` takes an exact `m · 2 ^ e` back to the nearest
representable number, a tie going to the even one.

An operation that meets a value that is not a number answers the first such
operand with its quiet bit set.  An operation that has no answer, such as
`0 · ∞`, answers the negative quiet value without payload.
-/

namespace NativeLink

namespace Binary

/-- The power of two with this exponent. -/
def power (exponent : Nat) : Nat := Nat.pow 2 exponent

/-- The widths of the exponent and fraction fields; the sign is one bit more. -/
structure Format where
  exponentBits : Nat
  fractionBits : Nat
  deriving DecidableEq

/-- The format of thirty-two bits. -/
def single : Format := ⟨8, 23⟩

/-- The format of sixty-four bits. -/
def double : Format := ⟨11, 52⟩

/-- What the bits of a format denote. -/
inductive Datum where
  /-- Not a number; the payload is the whole fraction field. -/
  | nan (negative : Bool) (payload : Nat)
  | infinite (negative : Bool)
  /-- The number `magnitude · 2 ^ scale`, with a sign also for zero. -/
  | finite (negative : Bool) (magnitude : Nat) (scale : Int)
  deriving DecidableEq

namespace Format

variable (f : Format)

/-- The largest exponent field, which marks what is not finite. -/
def topExponent : Nat := power f.exponentBits - 1

/-- The power of two that one unit of the fraction of a subnormal number stands for. -/
def leastScale : Int := 2 - (power (f.exponentBits - 1) : Int) - f.fractionBits

/-- The bit that is set in a quiet value that is not a number. -/
def quietBit : Nat := power (f.fractionBits - 1)

/-- Bits from their fields; a fraction that is one too wide carries into the exponent. -/
def assemble (negative : Bool) (exponent fraction : Nat) : Nat :=
  (if negative then power (f.exponentBits + f.fractionBits) else 0) +
    exponent * power f.fractionBits + fraction

/-- What the lowest bits of `n` denote. -/
def decode (n : Nat) : Datum :=
  let fraction := n % power f.fractionBits
  let exponent := n / power f.fractionBits % power f.exponentBits
  let negative := n / power (f.exponentBits + f.fractionBits) % 2 == 1
  if exponent = f.topExponent then
    if fraction = 0 then .infinite negative else .nan negative fraction
  else if exponent = 0 then .finite negative fraction f.leastScale
  else .finite negative (fraction + power f.fractionBits) (f.leastScale + (exponent - 1 : Nat))

/-- The bits of infinity. -/
def infinity (negative : Bool) : Nat := f.assemble negative f.topExponent 0

/-- The quotient of `m` by `2 ^ k`, to the nearest, a tie to the even one. -/
def shiftRightEven (m k : Nat) : Nat :=
  let quotient := m / power k
  let rest := 2 * (m % power k)
  if power k < rest ∨ (rest = power k ∧ quotient % 2 = 1) then quotient + 1 else quotient

/-- The bits of the representable number nearest to `m · 2 ^ e`. -/
def round (negative : Bool) (m : Nat) (e : Int) : Nat :=
  if m = 0 then f.assemble negative 0 0
  else
    let length : Int := m.log2 + 1
    let scale := max (e + length - (f.fractionBits + 1)) f.leastScale
    let significand :=
      if scale ≤ e then m * power (e - scale).toNat else shiftRightEven m (scale - e).toNat
    let bits :=
      if significand < power f.fractionBits then significand
      else ((scale - f.leastScale).toNat + 1) * power f.fractionBits +
        (significand - power f.fractionBits)
    if f.topExponent * power f.fractionBits ≤ bits then f.infinity negative
    else f.assemble negative 0 bits

/-- The bits of a value that is not a number, with its quiet bit set. -/
def quiet (negative : Bool) (payload : Nat) : Nat :=
  f.assemble negative f.topExponent (payload ||| f.quietBit)

/-- The answer of an operation that has none. -/
def invalid : Nat := f.quiet true 0

/-- Whether the bits are not a number. -/
def isNaN (n : Nat) : Bool :=
  match f.decode n with
  | .nan .. => true
  | _ => false

/-- Whether the bits denote one of the two zeros. -/
def isZero (n : Nat) : Bool :=
  match f.decode n with
  | .finite _ m _ => m == 0
  | _ => false

/-- Equality of numbers: nothing equals what is not a number, and the two zeros are equal. -/
def agree (a b : Nat) : Bool :=
  !f.isNaN a && !f.isNaN b && (a == b || (f.isZero a && f.isZero b))

/-- The product. -/
def mul (a b : Nat) : Nat :=
  match f.decode a, f.decode b with
  | .nan s p, _ => f.quiet s p
  | _, .nan s p => f.quiet s p
  | .infinite s, .infinite t => f.infinity (s != t)
  | .infinite s, .finite t m _ => if m = 0 then f.invalid else f.infinity (s != t)
  | .finite s m _, .infinite t => if m = 0 then f.invalid else f.infinity (s != t)
  | .finite s m d, .finite t n e => f.round (s != t) (m * n) (d + e)

/-- A signed integer from a sign and a magnitude. -/
def signed (negative : Bool) (m : Nat) : Int := if negative then -(m : Int) else m

/-- The sum. -/
def add (a b : Nat) : Nat :=
  match f.decode a, f.decode b with
  | .nan s p, _ => f.quiet s p
  | _, .nan s p => f.quiet s p
  | .infinite s, .infinite t => if s = t then f.infinity s else f.invalid
  | .infinite s, .finite .. => f.infinity s
  | .finite .., .infinite t => f.infinity t
  | .finite s m d, .finite t n e =>
    let scale := min d e
    let sum := signed s (m * power (d - scale).toNat) + signed t (n * power (e - scale).toNat)
    if sum = 0 then f.assemble (s && t) 0 0 else f.round (sum < 0) sum.natAbs scale

/-- The same number in another format.  The payload of what is not a number keeps its leading
bits. -/
def convert (target : Format) (n : Nat) : Nat :=
  match f.decode n with
  | .nan s p =>
    target.quiet s (p * power target.fractionBits / power f.fractionBits)
  | .infinite s => target.infinity s
  | .finite s m e => target.round s m e

/-- The whole part of the number within the given bounds; what is not a number counts as
zero. -/
def truncate (least most : Int) (n : Nat) : Int :=
  match f.decode n with
  | .nan .. => 0
  | .infinite s => if s then least else most
  | .finite s m e =>
    let whole := if 0 ≤ e then m * power e.toNat else m / power (-e).toNat
    max least (min most (signed s whole))

end Format

end Binary

end NativeLink
