import RemoteAgent.Heap

/-!
# Equality of values

Data are compared by what they hold: numbers by their value as doubles, arrays and objects item by
item, if they have equally many. Functions, host objects and deferred values are equal only to
themselves. One array or object is equal to itself without a look inside.

The comparison goes one level deeper than there are arrays and objects. That is deep enough for
every value that does not contain itself: no array or object is met at the last level.
-/

namespace RemoteAgent.Value

variable {φ η : Type}

/-- Equality of values that are at most `levels` deep. -/
def sameWithin (heap : Heap φ η) : Nat → Value → Value → Bool
  | _, .null, .null => true
  | _, .bool a, .bool b => a = b
  | _, .number a, .number b => a.sameValue b
  | _, .text a, .text b => a = b
  | _, .bytes a, .bytes b => a = b
  | _, .function a, .function b => a = b
  | _, .host a, .host b => a = b
  | _, .deferred a, .deferred b => a = b
  | 0, .array a, .array b => a = b
  | 0, .object a, .object b => a = b
  | levels + 1, .array a, .array b =>
    a = b || (heap.items a).isEqv (heap.items b) (sameWithin heap levels)
  | levels + 1, .object a, .object b =>
    a = b || (heap.fields a).isEqv (heap.fields b) fun x y =>
      x.1 = y.1 && sameWithin heap levels x.2 y.2
  | _, _, _ => false

/-- Equality of values. -/
def same (heap : Heap φ η) (a b : Value) : Bool := sameWithin heap (heap.compositeCount + 1) a b

end RemoteAgent.Value
