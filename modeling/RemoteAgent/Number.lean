import RemoteAgent.Number.Shortest

/-!
# Numbers

A number is an integer or a finite double, and the two are never the same number even when they
have one value: `1` is written `1` and `1.0` is written `1.0`.

JSON text yields integers from `-2 ^ 63` up to `2 ^ 64 - 1` only (`Number.InRange`); a longer
integer is read as a double.
-/

namespace RemoteAgent

/-- A JSON number. -/
inductive Number where
  /-- A number written without point and exponent. -/
  | int (value : Int)
  /-- Any other number. -/
  | float (value : Binary64)
  deriving DecidableEq

namespace Number

/-- The integers that a JSON text can write without turning into doubles. -/
def InRange : Number → Prop
  | int n => -9223372036854775808 ≤ n ∧ n < 18446744073709551616
  | float _ => True

/-- The number as a double, rounded if it is an integer. -/
def toBinary64? : Number → Option Binary64
  | int n => Binary64.ofInt n
  | float x => some x

/-- The number as a signed 64-bit integer; doubles have no such view. -/
def toInt64? : Number → Option Int
  | int n => if -9223372036854775808 ≤ n ∧ n < 9223372036854775808 then some n else none
  | float _ => none

/-- The number as an unsigned 64-bit integer; doubles have no such view. -/
def toUInt64? : Number → Option Nat
  | int n => if 0 ≤ n ∧ n < 18446744073709551616 then some n.toNat else none
  | float _ => none

/-- Equality of values: both numbers are taken as doubles. -/
def sameValue (a b : Number) : Bool :=
  match a.toBinary64?, b.toBinary64? with
  | some x, some y => x.sameValue y
  | _, _ => a = b

/-- Doubles from `0.00001` up to below `10 ^ 16` are written plainly, and keep a digit after the
point. -/
def layout : DecimalLayout where
  lowestPoint := -4
  highestPoint := 16
  wholeEnding := ".0"
  positivePower := "e+"
  negativePower := "e-"

/-- The text of a double: the fewest digits that read back. -/
def renderFloat (x : Binary64) : String :=
  let text := if x.isZero then "0.0" else layout.write (Decimal.shortest x)
  if x.negative then "-" ++ text else text

/-- The text of a number. -/
def render : Number → String
  | int n => toString n
  | float x => renderFloat x

end Number

end RemoteAgent
