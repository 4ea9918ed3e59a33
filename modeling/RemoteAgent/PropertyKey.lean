import RemoteAgent.Text.Quoted

/-!
# Property keys

A property is named by an index or by a name. The two views overlap: an index has a decimal name,
and a name that is a decimal numeral counts as an index. Sequences use the first view, objects the
second.
-/

namespace RemoteAgent

/-- What a property is found under. -/
inductive PropertyKey where
  /-- A position. -/
  | index (position : Nat)
  /-- A name. -/
  | name (text : String)
  deriving DecidableEq

namespace PropertyKey

/-- The first number that is no index any more. -/
def indexBound : Nat := 18446744073709551616

/-- The number that some decimal digits write. -/
def natOfDigits (digits : List Char) : Nat :=
  digits.foldl (fun n c => n * 10 + (c.toNat - 48)) 0

/-- The index that digits write: there is one digit at least, and the number fits into 64 bits. -/
def indexOfDigits? (digits : List Char) : Option Nat :=
  if digits ≠ [] ∧ digits.all Char.isDigit = true ∧ natOfDigits digits < indexBound then
    some (natOfDigits digits)
  else none

/-- The index that a text writes, with a plus in front or without. -/
def indexOfText? (text : String) : Option Nat :=
  match text.toList with
  | '+' :: digits => indexOfDigits? digits
  | digits => indexOfDigits? digits

/-- The key as a position. -/
def asIndex? : PropertyKey → Option Nat
  | index position => some position
  | name text => indexOfText? text

/-- The key as a name. -/
def asName : PropertyKey → String
  | index position => toString position
  | name text => text

/-- The key asks for the length of a sequence. -/
def isLength : PropertyKey → Bool
  | index _ => false
  | name text => text = "length"

/-- The key as diagnostics write it. -/
def render : PropertyKey → String
  | index position => toString position
  | name text => Text.quoted text

end PropertyKey

end RemoteAgent
