import RemoteAgent.Number

/-!
# Values of an agent

A value is a scalar, or a handle into the heap. Arrays, objects, functions, host objects and
deferred values are shared: two handles with one index are one object, and a change made through
either is seen through both.
-/

namespace RemoteAgent

/-- What a heap cell holds. -/
inductive CellKind where
  | array
  | object
  | function
  | host
  | deferred
  deriving DecidableEq

/-- The place of a heap cell among the cells of its kind. -/
structure Handle (kind : CellKind) where
  /-- The position. -/
  index : Nat
  deriving DecidableEq

/-- A value that commands work on. -/
inductive Value where
  | null
  | bool (flag : Bool)
  | number (value : Number)
  | text (content : String)
  | bytes (content : List UInt8)
  | array (handle : Handle .array)
  | object (handle : Handle .object)
  | function (handle : Handle .function)
  | host (handle : Handle .host)
  | deferred (handle : Handle .deferred)
  deriving DecidableEq

namespace Value

instance : Inhabited Value := ⟨.null⟩

/-- The name of a value's kind. -/
def typeName : Value → String
  | null => "null"
  | bool _ => "boolean"
  | number _ => "number"
  | text _ => "string"
  | bytes _ => "bytes"
  | array _ => "array"
  | object _ => "object"
  | function _ => "function"
  | host _ => "host object"
  | deferred _ => "deferred value"

/-- Neither null, nor false, nor a zero, nor the empty text. -/
def isTruthy : Value → Bool
  | null => false
  | bool flag => flag
  | number value =>
    match value.toBinary64? with
    | some x => !x.isZero
    | none => true
  | text content => content ≠ ""
  | _ => true

/-- An integer as a value. -/
def ofInt (n : Int) : Value := number (.int n)

/-- A count as a value. -/
def ofNat (n : Nat) : Value := ofInt n

/-- A double as a value; what is no finite double is null. -/
def ofBinary64? : Option Binary64 → Value
  | some x => number (.float x)
  | none => null

/-- The value as a double, if it is a number. -/
def asBinary64? : Value → Option Binary64
  | number value => value.toBinary64?
  | _ => none

/-- The value as a signed 64-bit integer, if it is one. -/
def asInt64? : Value → Option Int
  | number value => value.toInt64?
  | _ => none

/-- The value as a text, if it is one. -/
def asText? : Value → Option String
  | text content => some content
  | _ => none

/-- The deferred value behind the value, if it is one. -/
def asDeferred? : Value → Option (Handle .deferred)
  | deferred handle => some handle
  | _ => none

end Value

end RemoteAgent
