/-!
# Hexadecimal numerals

Addresses are written in base sixteen with the digits `0` to `9` and `a` to `f`
and no leading zero.  `Hex.digits` writes a number that way and `Hex.value?`
reads a numeral back.

A numeral may also be laid out in a field: a least width, a fill character with
an alignment, the mark `0x` in front, or zeros between the mark and the digits.
The width counts the mark.  A field that is already full is left alone.
-/

namespace NativeLink.Hex

/-- The digit of a number below sixteen. -/
def digit (n : Nat) : Char :=
  if n < 10 then Char.ofNat (48 + n) else Char.ofNat (87 + n)

/-- The number of a digit, upper or lower case. -/
def digitValue? (c : Char) : Option Nat :=
  let n := c.toNat
  if 48 ≤ n ∧ n ≤ 57 then some (n - 48)
  else if 97 ≤ n ∧ n ≤ 102 then some (n - 87)
  else if 65 ≤ n ∧ n ≤ 70 then some (n - 55)
  else none

/-- The shortest numeral of a number, most significant digit first. -/
def digits (n : Nat) : List Char :=
  if n < 16 then [digit n] else digits (n / 16) ++ [digit (n % 16)]

/-- The number a run of digits denotes when `n` stands before it. -/
def value? (n : Nat) : List Char → Option Nat
  | [] => some n
  | c :: rest =>
    match digitValue? c with
    | some d => value? (16 * n + d) rest
    | none => none

/-- Where the fill characters of a field go. -/
inductive Align where
  | left
  | right
  /-- Half on either side; an odd one out goes to the right. -/
  | centre
  deriving DecidableEq

/-- How a numeral is laid out in a field. -/
structure Layout where
  /-- The least number of characters, the mark included. -/
  width : Nat := 0
  fill : Char := ' '
  align : Align := .right
  /-- Whether `0x` stands in front. -/
  marked : Bool := false
  /-- Whether the field is filled with zeros after the mark, whatever the fill and alignment. -/
  zeros : Bool := false

/-- The numeral of `n` in a field. -/
def lay (layout : Layout) (n : Nat) : List Char :=
  let mark := if layout.marked then ['0', 'x'] else []
  let body := digits n
  let missing := layout.width - (mark.length + body.length)
  let fill (k : Nat) := List.replicate k layout.fill
  if layout.zeros then mark ++ List.replicate missing '0' ++ body
  else match layout.align with
    | .left => mark ++ body ++ fill missing
    | .right => fill missing ++ mark ++ body
    | .centre => fill (missing / 2) ++ mark ++ body ++ fill (missing - missing / 2)

end NativeLink.Hex
