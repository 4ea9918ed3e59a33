import RemoteAgent.Fields
import RemoteAgent.Number

/-!
# JSON values

The data model shared by every message of the protocol. Objects are `Fields`: their keys ascend, so
equality of values does not depend on the order in which a text wrote them.
-/

namespace RemoteAgent

/-- A JSON value. -/
inductive Json where
  | null
  | bool (flag : Bool)
  | number (value : Number)
  | string (text : String)
  | array (items : List Json)
  | object (fields : List (String × Json))

namespace Json

mutual

/-- Whether two values are the same. -/
def same : Json → Json → Bool
  | .null, .null => true
  | .bool a, .bool b => a == b
  | .number a, .number b => a == b
  | .string a, .string b => a == b
  | .array a, .array b => sameItems a b
  | .object a, .object b => sameFields a b
  | _, _ => false

/-- Whether two lists hold the same values. -/
def sameItems : List Json → List Json → Bool
  | [], [] => true
  | a :: as, b :: bs => same a b && sameItems as bs
  | _, _ => false

/-- Whether two field lists hold the same keys with the same values. -/
def sameFields : List (String × Json) → List (String × Json) → Bool
  | [], [] => true
  | (k, a) :: as, (l, b) :: bs => k == l && same a b && sameFields as bs
  | _, _ => false

end

mutual

theorem same_iff : ∀ a b : Json, same a b = true ↔ a = b
  | .null, b => by cases b <;> simp [same]
  | .bool _, b => by cases b <;> simp [same]
  | .number _, b => by cases b <;> simp [same]
  | .string _, b => by cases b <;> simp [same]
  | .array as, b => by
    cases b <;> simp [same]
    exact sameItems_iff as _
  | .object as, b => by
    cases b <;> simp [same]
    exact sameFields_iff as _

theorem sameItems_iff : ∀ as bs : List Json, sameItems as bs = true ↔ as = bs
  | [], bs => by cases bs <;> simp [sameItems]
  | a :: as, bs => by
    cases bs with
    | nil => simp [sameItems]
    | cons b bs => simp [sameItems, same_iff a b, sameItems_iff as bs]

theorem sameFields_iff : ∀ as bs : List (String × Json), sameFields as bs = true ↔ as = bs
  | [], bs => by cases bs <;> simp [sameFields]
  | (k, a) :: as, bs => by
    cases bs with
    | nil => simp [sameFields]
    | cons b bs =>
      obtain ⟨l, b⟩ := b
      simp [sameFields, same_iff a b, sameFields_iff as bs]

end

instance : DecidableEq Json := fun a b =>
  if h : same a b = true then isTrue ((same_iff a b).1 h)
  else isFalse fun e => h ((same_iff a b).2 e)

instance : Inhabited Json := ⟨.null⟩

/-- The name of a value's kind. -/
def typeName : Json → String
  | null => "null"
  | bool _ => "boolean"
  | number _ => "number"
  | string _ => "string"
  | array _ => "array"
  | object _ => "object"

/-- An integer as JSON. -/
def ofInt (n : Int) : Json := .number (.int n)

/-- A count as JSON. -/
def ofNat (n : Nat) : Json := ofInt n

/-- A value, or `null` where there is none. -/
def ofOption : Option Json → Json
  | some value => value
  | none => null

/-- The entry of an object, if the value is one and has it. -/
def field? (key : String) : Json → Option Json
  | object fields => Fields.find? key fields
  | _ => none

/-- An object with the given entries, of which the last one of a key counts. -/
def ofEntries (entries : List (String × Json)) : Json := .object (Fields.ofList entries)

end Json

end RemoteAgent
