import RemoteAgent.Json.Printer
import RemoteAgent.ObjectModel
import RemoteAgent.Text.Excerpt

/-!
# Values as JSON and as text

`Value.toJson` renders a value down to a depth: scalars always pass, bytes become hexadecimal text,
and an array, object or host object below the depth becomes null. The depth bounds the recursion, so
cyclic values have a rendering too. `Value.ofJson` goes the other way and shares nothing.

`Value.describe` is the short form that error texts use, and `Value.inspect` the long one.
-/

namespace RemoteAgent.Value

variable {φ η : Type}

/-! ## From JSON -/

mutual

/-- A JSON value as a new value of the agent. -/
def ofJson : Json → Heap φ η → Value × Heap φ η
  | .null, heap => (.null, heap)
  | .bool flag, heap => (.bool flag, heap)
  | .number value, heap => (.number value, heap)
  | .string content, heap => (.text content, heap)
  | .array items, heap =>
    let (values, heap) := ofJsonItems items heap
    heap.newArray values
  | .object fields, heap =>
    let (entries, heap) := ofJsonFields fields heap
    heap.newObject entries

/-- Some JSON values as new values. -/
def ofJsonItems : List Json → Heap φ η → List Value × Heap φ η
  | [], heap => ([], heap)
  | item :: rest, heap =>
    let (value, heap) := ofJson item heap
    let (values, heap) := ofJsonItems rest heap
    (value :: values, heap)

/-- Some JSON entries with new values. -/
def ofJsonFields : List (String × Json) → Heap φ η → List (String × Value) × Heap φ η
  | [], heap => ([], heap)
  | (key, item) :: rest, heap =>
    let (value, heap) := ofJson item heap
    let (entries, heap) := ofJsonFields rest heap
    ((key, value) :: entries, heap)

end

/-! ## Presence -/

/-- Truthy, and neither an empty array nor an empty object. -/
def isPresent (heap : Heap φ η) : Value → Bool
  | .array h => heap.items h ≠ []
  | .object h => (heap.fields h).length ≠ 0
  | value => value.isTruthy

variable [HostObjects φ η]

/-! ## To JSON -/

/-- The JSON form of a value, with `depth` levels of arrays and objects. -/
def toJsonWithin (heap : Heap φ η) : Nat → Value → Json
  | _, .null => .null
  | _, .bool flag => .bool flag
  | _, .number value => .number value
  | _, .text content => .string content
  | _, .bytes content => .string (Hex.encode content)
  | 0, _ => .null
  | depth + 1, .array h => .array ((heap.items h).map (toJsonWithin heap depth))
  | depth + 1, .object h =>
    Json.ofEntries ((heap.fields h).map fun entry => (entry.1, toJsonWithin heap depth entry.2))
  | depth + 1, .host h =>
    let entries := ((heap.host? h).map (HostObject.entries heap)).getD []
    Json.ofEntries (entries.map fun entry => (entry.1, toJsonWithin heap depth entry.2))
  | _ + 1, .function _ => .object []
  | _ + 1, .deferred _ => .object []

/-- The JSON form of a value. No level is left of a depth below one. -/
def toJson (heap : Heap φ η) (depth : Int) (value : Value) : Json :=
  toJsonWithin heap depth.toNat value

/-! ## Diagnostics -/

/-- How many levels a description shows. -/
def describedDepth : Int := 2

/-- How many bytes of a description are shown. -/
def describedBytes : Nat := 50

/-- A value as diagnostics call it, at full length. -/
def fullDescription (heap : Heap φ η) : Value → String
  | .function h => "function " ++ ((heap.function? h).map Function.name).getD ""
  | .host h => ((heap.host? h).map (HostObject.describe heap)).getD ""
  | .deferred _ => "deferred value"
  | value => (toJson heap describedDepth value).render

/-- A value as diagnostics call it. -/
def describe (heap : Heap φ η) (value : Value) : String :=
  Text.abbreviate describedBytes (fullDescription heap value)

/-- A value with everything in it, at most `levels` deep. -/
def inspectWithin (heap : Heap φ η) : Nat → Value → String
  | _, .null => "Null"
  | _, .bool flag => "Bool(" ++ toString flag ++ ")"
  | _, .number value => "Number(" ++ value.render ++ ")"
  | _, .text content => "String(" ++ Text.quoted content ++ ")"
  | _, .bytes content => "Bytes(" ++ Hex.encode content ++ ")"
  | _, .function h => "Function(" ++ ((heap.function? h).map Function.name).getD "" ++ ")"
  | _, .host h => "Host(" ++ ((heap.host? h).map (HostObject.describe heap)).getD "" ++ ")"
  | _, .deferred h => ((heap.deferred? h).map Deferred.render).getD ""
  | 0, _ => "..."
  | levels + 1, .array h =>
    "[" ++ ", ".intercalate ((heap.items h).map (inspectWithin heap levels)) ++ "]"
  | levels + 1, .object h =>
    "\x7b" ++ ", ".intercalate ((heap.fields h).map fun entry =>
      Text.quoted entry.1 ++ ": " ++ inspectWithin heap levels entry.2) ++ "\x7d"

/-- A value with everything in it. An array or object that contains itself is cut off somewhere. -/
def inspect (heap : Heap φ η) (value : Value) : String :=
  inspectWithin heap heap.compositeCount value

end RemoteAgent.Value

namespace RemoteAgent.HostObject

variable {η : Type}

/-- Stores a property of a bag. -/
def insertProperty (name : String) (value : Value) : HostObject η → HostObject η
  | bag label properties => bag label (Fields.insert name value properties)
  | custom code => custom code

/-- Drops a property of a bag, and tells what it was. -/
def removeProperty (name : String) : HostObject η → Option Value × HostObject η
  | bag label properties =>
    (Fields.find? name properties, bag label (Fields.erase name properties))
  | custom code => (none, custom code)

/-- A host object with everything in it. -/
def inspect {φ : Type} [HostObjects φ η] (heap : Heap φ η) : HostObject η → String
  | bag label properties =>
    let entries := properties.map fun entry => Text.quoted entry.1 ++ ": " ++ entry.2.inspect heap
    "PropertyBag \x7b label: " ++ Text.quoted label ++ ", properties: \x7b" ++
      ", ".intercalate entries ++ "\x7d \x7d"
  | custom code => HostObjects.describe heap code

end RemoteAgent.HostObject
