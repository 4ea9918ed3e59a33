import RemoteAgent.Value.Rendering

/-!
# Properties and calls

Reading a property, assigning one, and calling a function. The key is looked at before the target,
so a value that names no property is an error whatever it is used on.

Sequences are indexed from zero and know their `length`; what is not there reads as null. An
assignment behind the end of an array fills the gap with nulls, up to `greatestGap` of them.
-/

namespace RemoteAgent.Value

variable {φ η : Type}

/-- The greatest run of nulls that an assignment may put behind the end of an array. -/
def greatestGap : Nat := 65536

/-- The first whole number that a double may share with another integer. -/
def safeBound : Int := 9007199254740992

/-- The key that a number names. A double counts as an index while it can be no other integer. -/
def keyOfNumber (value : Number) : PropertyKey :=
  match value.toUInt64? with
  | some n => .index n
  | none =>
    match value.toBinary64? with
    | some x =>
      if 0 ≤ x.units ∧ x.floor < safeBound ∧ x.isWhole then .index x.floor.toNat
      else .name value.render
    | none => .name value.render

section Properties

variable [HostObjects φ η]

/-- The key that a value names. Only scalars name one. -/
def toKey (heap : Heap φ η) : Value → Except EvalError PropertyKey
  | .text content => .ok (.name content)
  | .number value => .ok (keyOfNumber value)
  | .bool flag => .ok (.name (toString flag))
  | .null => .ok (.name "null")
  | value => .error (.invalidKey (value.describe heap))

/-- A property of a sequence, given by its items as values. -/
def sequenceProperty (items : List Value) (key : PropertyKey) : Value :=
  if key.isLength then .ofNat items.length
  else (key.asIndex?.bind fun position => items[position]?).getD .null

/-- A property of a host object. -/
def hostProperty (h : Handle .host) (key : PropertyKey) : Eval φ η Value := do
  match (← Eval.heap).host? h with
  | some (.bag _ properties) => return (Fields.find? key.asName properties).getD .null
  | some (.custom code) => HostObjects.get code key
  | none => return .null

/-- Reads a property of a value. -/
def getIndex (target index : Value) : Eval φ η Value := do
  let heap ← Eval.heap
  let key ← Eval.ofExcept (index.toKey heap)
  match target with
  | .array h => return sequenceProperty (heap.items h) key
  | .object h => return (Fields.find? key.asName (heap.fields h)).getD .null
  | .text content =>
    return sequenceProperty (content.toList.map fun c => .text (String.singleton c)) key
  | .bytes content => return sequenceProperty (content.map fun byte => .ofNat byte.toNat) key
  | .host h => hostProperty h key
  | other => throw (.notIndexable (other.describe heap))

/-- The items of an array after an assignment. -/
def assignItem (items : List Value) (key : PropertyKey) (value : Value) :
    Except EvalError (List Value) :=
  match key.asIndex? with
  | none => .error (.notAssignable (.arrayKey key))
  | some position =>
    if position < items.length then .ok (items.set position value)
    else if greatestGap < position - items.length then
      .error (.notAssignable (.arrayGap items.length position))
    else .ok (items ++ List.replicate (position - items.length) .null ++ [value])

/-- Assigns a property of a host object. -/
def setHostProperty (h : Handle .host) (key : PropertyKey) (value : Value) : Eval φ η Unit := do
  match (← Eval.heap).host? h with
  | some (.bag label properties) =>
    Eval.modifyHeap (·.setHost h (.bag label (Fields.insert key.asName value properties)))
  | some (.custom code) => HostObjects.set code key value
  | none => return

/-- Assigns a property of a value. -/
def setIndex (target index value : Value) : Eval φ η Unit := do
  let heap ← Eval.heap
  let key ← Eval.ofExcept (index.toKey heap)
  match target with
  | .array h =>
    let items ← Eval.ofExcept (assignItem (heap.items h) key value)
    Eval.modifyHeap (·.setItems h items)
  | .object h =>
    Eval.modifyHeap (·.setFields h (Fields.insert key.asName value (heap.fields h)))
  | .host h => setHostProperty h key value
  | other => throw (.notAssignable (.value (other.describe heap)))

/-! ## Calls -/

/-- Sends a callback, and answers with the envelope that was sent. -/
def callBack (id : String) (depth : Int) (args : List Value) : Eval φ η Value := do
  let heap ← Eval.heap
  let envelope := Envelope.callback id (args.map (toJson heap depth))
  Eval.emit envelope
  Eval.allocate (ofJson envelope)

/-- Calls a value, with a meaning given to native code. -/
def callWith (native : φ → Value → List Value → Eval φ η Value) (callee receiver : Value)
    (args : List Value) : Eval φ η Value := do
  let heap ← Eval.heap
  match callee with
  | .function h =>
    match heap.function? h with
    | some ⟨_, .native code⟩ => native code receiver args
    | some ⟨_, .callback id depth⟩ => callBack id depth args
    | none => return .null
  | other => throw (.notCallable (other.describe heap))

end Properties

/-- Calls a value on a receiver. -/
def call [ObjectModel φ η] (callee receiver : Value) (args : List Value) : Eval φ η Value :=
  callWith ObjectModel.call callee receiver args

end RemoteAgent.Value
