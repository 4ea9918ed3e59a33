/-!
# Finite 64-bit binary floating-point numbers

A finite double is a sign, an exponent field and a fraction field. Every such number is a whole
multiple of the smallest positive one, `2 ^ -1074`, so its value is kept as an integer count of
those `units`: comparing, taking the floor and testing for a whole number are integer arithmetic,
and no operation depends on the machine's floating point.

Arithmetic is exact up to one final rounding, `ofUnits`, which goes to the nearest double and
sends a tie to the even significand. A result too large for a finite double is `none`.
-/

namespace RemoteAgent

/-- A finite double. The exponent field `2047`, kept for infinities and NaN, cannot be written. -/
structure Binary64 where
  /-- Whether the sign bit is set. -/
  negative : Bool
  /-- The biased exponent. -/
  exponent : Fin 2047
  /-- The fraction, without the leading bit. -/
  fraction : Fin 4503599627370496
  deriving DecidableEq

namespace Binary64

/-- How many units of `2 ^ -1074` make one. -/
def unitsPerOne : Nat := Nat.pow 2 1074

/-- The bit in front of the fraction, `2 ^ 52`. -/
def leadingBit : Nat := 4503599627370496

/-- The significand as an integer: the leading bit is there unless the exponent field is zero. -/
def significand (x : Binary64) : Nat :=
  if x.exponent.val = 0 then x.fraction.val else leadingBit + x.fraction.val

/-- The weight of the significand's last bit is `2 ^ scale` units. -/
def scale (x : Binary64) : Nat := x.exponent.val - 1

/-- The distance from zero in units. -/
def magnitude (x : Binary64) : Nat := x.significand * Nat.pow 2 x.scale

/-- The value in units of `2 ^ -1074`. -/
def units (x : Binary64) : Int := if x.negative then -(x.magnitude : Int) else x.magnitude

/-- Zero with the given sign. -/
def zero (negative : Bool) : Binary64 := ⟨negative, 0, 0⟩

/-- Whether the number is a zero of either sign. -/
def isZero (x : Binary64) : Bool := x.magnitude = 0

/-- The two numbers have one value; the zeros of both signs do. -/
def sameValue (x y : Binary64) : Bool := x.units = y.units

/-- The number is whole. -/
def isWhole (x : Binary64) : Bool := x.magnitude % unitsPerOne = 0

/-- The greatest integer that is not above the number. -/
def floor (x : Binary64) : Int := x.units / (unitsPerOne : Int)

/-- The interchange encoding as a 64-bit word. -/
def toBits (x : Binary64) : Nat :=
  (if x.negative then 9223372036854775808 else 0) + x.exponent.val * leadingBit + x.fraction.val

/-! ## Rounding -/

/-- The quotient rounded to the nearest integer, a tie to the even one. -/
def divideToEven (num den : Nat) : Nat :=
  let quotient := num / den
  let twice := 2 * (num % den)
  if twice < den then quotient
  else if den < twice then quotient + 1
  else quotient + quotient % 2

/-- A significand of at most 53 bits at a scale; `none` if the exponent does not fit. -/
def assemble (negative : Bool) (significand scale : Nat) : Option Binary64 :=
  if significand < leadingBit then
    some ⟨negative, 0, Fin.ofNat 4503599627370496 significand⟩
  else if h : scale + 1 < 2047 then
    some ⟨negative, ⟨scale + 1, h⟩, Fin.ofNat 4503599627370496 (significand - leadingBit)⟩
  else none

/-- The double nearest to `num / den` units, with the given sign. -/
def ofUnits (negative : Bool) (num den : Nat) : Option Binary64 :=
  let scale := (num / den).log2 - 52
  let significand := divideToEven num (den * Nat.pow 2 scale)
  if significand = 2 * leadingBit then assemble negative leadingBit (scale + 1)
  else assemble negative significand scale

/-- The double nearest to an integer. -/
def ofInt (n : Int) : Option Binary64 :=
  ofUnits (n < 0) (n.natAbs * unitsPerOne) 1

/-- The rounded product. -/
def mul (x y : Binary64) : Option Binary64 :=
  ofUnits (x.negative != y.negative) (x.magnitude * y.magnitude) unitsPerOne

/-- The rounded quotient; there is none by a zero. -/
def div (x y : Binary64) : Option Binary64 :=
  if y.isZero then none
  else ofUnits (x.negative != y.negative) (x.magnitude * unitsPerOne) y.magnitude

/-- The same distance from zero on the other side. -/
def negate (x : Binary64) : Binary64 := { x with negative := !x.negative }

end Binary64

end RemoteAgent
