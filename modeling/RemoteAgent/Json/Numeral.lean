import RemoteAgent.Number

/-!
# Numerals

A numeral as it stands in a JSON text, before it becomes a number. A numeral without fraction and
exponent is an integer if it fits into 64 bits, with a sign or without. Every other numeral is
read as a significand of at most 64 bits times one power of ten: digits of the integer part that
no longer fit raise the power, digits of the fraction that no longer fit are dropped. Both the
significand and the product are rounded, so a long numeral may end one step away from the nearest
double.

A numeral too large for a finite double has no number; one too small is a zero of its sign.
-/

namespace RemoteAgent

/-- A numeral of a JSON text. -/
structure Numeral where
  /-- Whether a minus stands in front. -/
  negative : Bool
  /-- The digits of the integer part. -/
  whole : List Nat
  /-- The digits after the point; none if there is no point. -/
  fraction : List Nat
  /-- The power of ten, if one is written. -/
  exponent : Option Int
  deriving DecidableEq

namespace Numeral

/-- The greatest significand that is kept exactly. -/
def greatest : Nat := 18446744073709551615

/-- A significand of at most 64 bits and a power of ten. -/
structure Scaled where
  /-- The significand. -/
  significand : Nat
  /-- The power of ten. -/
  exponent : Int
  /-- Whether a digit has been turned away, after which no other one is taken. -/
  full : Bool

/-- Takes a digit of the integer part. -/
def Scaled.takeWhole (s : Scaled) (digit : Nat) : Scaled :=
  if s.full || greatest < s.significand * 10 + digit then
    { s with exponent := s.exponent + 1, full := true }
  else { s with significand := s.significand * 10 + digit }

/-- Takes a digit of the fraction. -/
def Scaled.takeFraction (s : Scaled) (digit : Nat) : Scaled :=
  if s.full || greatest < s.significand * 10 + digit then { s with full := true }
  else { s with significand := s.significand * 10 + digit, exponent := s.exponent - 1 }

/-- The significand of the integer part. -/
def integerPart (n : Numeral) : Scaled := n.whole.foldl Scaled.takeWhole ⟨0, 0, false⟩

/-- The significand of the whole numeral and its power of ten. -/
def scaled (n : Numeral) : Scaled :=
  let integer := n.integerPart
  let all := n.fraction.foldl Scaled.takeFraction { integer with full := false }
  { all with exponent := all.exponent + n.exponent.getD 0 }

/-- The greatest power of ten that a finite double comes near to. -/
def greatestPower : Nat := 308

/-- A power of ten as a double. -/
def powerOfTen (n : Nat) : Option Binary64 := Binary64.ofInt (Nat.pow 10 n)

/-- The quotient by a power of ten within reach. -/
def divideOnce (x : Binary64) (n : Nat) : Option Binary64 := (powerOfTen n).bind x.div

/-- The quotient by a power of ten. A power out of reach is divided out in two parts, and one out of
reach of both leaves zero of any 64-bit significand. -/
def divideByPower (x : Binary64) (n : Nat) : Option Binary64 :=
  if n ≤ greatestPower then divideOnce x n
  else if n ≤ 2 * greatestPower then
    (divideOnce x greatestPower).bind (divideOnce · (n - greatestPower))
  else some (.zero x.negative)

/-- The product with a power of ten; a power out of reach leaves only zero in range. -/
def multiplyByPower (x : Binary64) (n : Nat) : Option Binary64 :=
  if n ≤ greatestPower then (powerOfTen n).bind x.mul
  else if x.isZero then some x
  else none

/-- The double of a significand and a power of ten. -/
def Scaled.toBinary64? (s : Scaled) : Option Binary64 :=
  match Binary64.ofInt s.significand with
  | some x =>
    if 0 ≤ s.exponent then multiplyByPower x s.exponent.toNat
    else divideByPower x (-s.exponent).toNat
  | none => none

/-- The numeral as a double. -/
def toBinary64? (n : Numeral) : Option Binary64 :=
  n.scaled.toBinary64?.map fun x => if n.negative then x.negate else x

/-- The integer that the numeral writes, if it is written as one and fits into 64 bits. A negative
zero is no integer. -/
def toInt? (n : Numeral) : Option Int :=
  if n.fraction = [] ∧ n.exponent = none ∧ n.integerPart.full = false then
    let significand := n.integerPart.significand
    if n.negative then
      if 0 < significand ∧ significand ≤ 9223372036854775808 then some (-(significand : Int))
      else none
    else some significand
  else none

/-- The number that the numeral writes. -/
def toNumber? (n : Numeral) : Option Number :=
  match n.toInt? with
  | some value => some (.int value)
  | none => n.toBinary64?.map .float

end Numeral

end RemoteAgent
