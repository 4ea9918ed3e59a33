import RemoteAgent.Number.Binary64

/-!
# Shortest decimal digits of a double

`Decimal.shortest` finds the decimal with the fewest digits among those that read back as a given
positive double, and of several with that many digits the nearest one. The reals that read back as
`x` form an interval around it, half a step of the significand wide on each side (a quarter below
a power of two), which holds its ends when the significand is even. If the interval holds a point
of a decimal grid at all, it holds one of the two grid points next to `x`, so for each count of
digits only those two are tested, in exact integer arithmetic.

`DecimalLayout` fixes how the digits are written.
-/

namespace RemoteAgent

/-- The positive decimal `digits * 10 ^ exponent`. -/
structure Decimal where
  /-- The digits, read as one integer. -/
  digits : Nat
  /-- The power of ten of the last digit. -/
  exponent : Int
  deriving DecidableEq

namespace Decimal

/-- How many decimal digits an integer is written with. -/
def digitCount (n : Nat) : Nat := (Nat.toDigits 10 n).length

/-- The `e` with `10 ^ e ≤ num / den < 10 ^ (e + 1)`, for a positive quotient. -/
def leadingExponent (num den : Nat) : Int :=
  if den ≤ num then (digitCount (num / den) : Int) - 1
  else -(digitCount ((den + num - 1) / num - 1) : Int)

/-- The reals that round to a double, as integers over a common denominator. -/
structure Interval where
  /-- The lower end. -/
  low : Nat
  /-- The double itself. -/
  middle : Nat
  /-- The upper end. -/
  high : Nat
  /-- The common denominator. -/
  denominator : Nat
  /-- Whether the ends belong to the interval. -/
  closed : Bool

/-- The interval of a double, in quarters of a unit. -/
def Interval.ofBinary64 (x : Binary64) : Interval where
  low :=
    if x.fraction.val = 0 ∧ 1 < x.exponent.val then 4 * x.magnitude - Nat.pow 2 x.scale
    else 4 * x.magnitude - 2 * Nat.pow 2 x.scale
  middle := 4 * x.magnitude
  high := 4 * x.magnitude + 2 * Nat.pow 2 x.scale
  denominator := 4 * Binary64.unitsPerOne
  closed := x.significand % 2 = 0

/-- The interval measured in steps of `10 ^ exponent`. -/
def Interval.rescale (i : Interval) (exponent : Int) : Interval :=
  if exponent < 0 then
    let factor := Nat.pow 10 (-exponent).toNat
    { i with low := i.low * factor, middle := i.middle * factor, high := i.high * factor }
  else
    { i with denominator := i.denominator * Nat.pow 10 exponent.toNat }

/-- Whether the integer lies in the interval. -/
def Interval.holds (i : Interval) (n : Nat) : Bool :=
  let scaled := n * i.denominator
  if i.closed then i.low ≤ scaled && scaled ≤ i.high else i.low < scaled && scaled < i.high

/-- The grid point next to the middle that lies in the interval; of two the nearer one, and of two
equally near ones the even one. -/
def Interval.nearest? (i : Interval) : Option Nat :=
  let below := i.middle / i.denominator
  let above := below + 1
  let toBelow := i.middle - below * i.denominator
  let toAbove := above * i.denominator - i.middle
  match i.holds below, i.holds above with
  | true, true =>
    if toBelow < toAbove then some below
    else if toAbove < toBelow then some above
    else some (below + below % 2)
  | true, false => some below
  | false, true => some above
  | false, false => none

/-- Drops the zeros at the end of the digits, looking at most `fuel` places far. -/
def trim (fuel : Nat) (d : Decimal) : Decimal :=
  match fuel with
  | 0 => d
  | fuel + 1 =>
    if d.digits % 10 = 0 ∧ d.digits ≠ 0 then trim fuel ⟨d.digits / 10, d.exponent + 1⟩ else d

/-- The shortest decimal that reads back as the double's magnitude. Seventeen digits always do. -/
def shortest (x : Binary64) : Decimal :=
  let interval := Interval.ofBinary64 x
  let leading := leadingExponent interval.middle interval.denominator
  let found := (List.range 17).findSome? fun (n : Nat) =>
    let exponent := leading - (n : Int)
    (interval.rescale exponent).nearest?.map fun digits => Decimal.mk digits exponent
  trim 18 (found.getD ⟨0, 0⟩)

end Decimal

/-- How the digits of a decimal are written: plainly between two powers of ten, else with a power.
-/
structure DecimalLayout where
  /-- The least position of the point, counted from the first digit, that is written plainly. -/
  lowestPoint : Int
  /-- The greatest position of the point that is written plainly. -/
  highestPoint : Int
  /-- What ends a whole number that is written plainly. -/
  wholeEnding : String
  /-- What separates the digits from a power that is not negative. -/
  positivePower : String
  /-- What separates the digits from a negative power. -/
  negativePower : String

/-- Writes a positive decimal. The point stands after `digits + exponent` places. -/
def DecimalLayout.write (layout : DecimalLayout) (d : Decimal) : String :=
  let digits := (Nat.toDigits 10 d.digits)
  let count : Int := digits.length
  let point := count + d.exponent
  if layout.lowestPoint ≤ point ∧ point ≤ layout.highestPoint then
    if 0 ≤ d.exponent then
      String.ofList (digits ++ List.replicate d.exponent.toNat '0') ++ layout.wholeEnding
    else if 0 < point then
      String.ofList (digits.take point.toNat ++ '.' :: digits.drop point.toNat)
    else
      String.ofList ('0' :: '.' :: List.replicate (-point).toNat '0' ++ digits)
  else
    let power := point - 1
    let mantissa :=
      match digits with
      | [] => ""
      | [single] => String.ofList [single]
      | first :: rest => String.ofList (first :: '.' :: rest)
    let mark := if power < 0 then layout.negativePower else layout.positivePower
    mantissa ++ mark ++ toString power.natAbs

end RemoteAgent
