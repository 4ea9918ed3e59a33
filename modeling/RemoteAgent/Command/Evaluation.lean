import RemoteAgent.Command
import RemoteAgent.Value.Property

/-!
# Evaluating commands

A command evaluates to a value together with the receiver that it would be called on: for a
property the object it was read from, for everything else the root. Children are evaluated from
left to right, and an error ends the evaluation where it arises; what was done before it stays
done.
-/

namespace RemoteAgent

/-- What a session evaluates against. -/
structure Context where
  /-- The receiver of what belongs to no object. -/
  root : Value
  /-- The depth of replies and callbacks that name none. -/
  defaultDepth : Int
  deriving DecidableEq

/-- A value and the receiver that it is called on. -/
structure Bound where
  /-- The receiver. -/
  receiver : Value
  /-- The value. -/
  value : Value
  deriving DecidableEq

/-- A value that belongs to no object. -/
def Context.unbound (context : Context) (value : Value) : Bound := ⟨context.root, value⟩

/-- A session as diagnostics write it. -/
def Context.inspect {φ η : Type} [HostObjects φ η] (context : Context) (world : World φ η) :
    String :=
  "Interpreter \x7b root: " ++ context.root.inspect world.heap ++ ", cached: " ++
    toString world.cache.length ++ ", default_depth: " ++ toString context.defaultDepth ++ " \x7d"

/-- Calls a value on its receiver. The result belongs to no object. -/
def Bound.call {φ η : Type} [ObjectModel φ η] (callee : Bound) (root : Value)
    (args : List Value) : Eval φ η Bound := do
  return ⟨root, ← callee.value.call callee.receiver args⟩

namespace Command

variable {φ η : Type}

/-- The value cached under an id. -/
def cached (id : String) : Eval φ η Value := do
  Eval.ofOption (.missingReference id) (Fields.find? id (← Eval.cache))

/-- The bytes of a hexadecimal text. -/
def decodeBytes (hex : String) : Except EvalError Value :=
  match Hex.decode hex with
  | .ok content => .ok (.bytes content)
  | .error error => .error (.hex error)

/-- The function that a callback command makes. -/
def callbackFunction (id : String) (depth : Int) : Function φ :=
  ⟨"callback " ++ id, .callback id depth⟩

/-- Insists that a result is present. -/
def require [HostObjects φ η] (position : Position) (result : Bound) : Eval φ η Bound := do
  let heap ← Eval.heap
  if result.value.isPresent heap then return result
  else throw (.absent position (result.value.describe heap))

mutual

/-- Evaluates a command. -/
def evaluate [ObjectModel φ η] (context : Context) : Command → Eval φ η Bound
  | .literal value => return context.unbound (← Eval.allocate (Value.ofJson value))
  | .bytes hex => return context.unbound (← Eval.ofExcept (decodeBytes hex))
  | .map entries => do
    let entries ← evaluateFields context entries
    return context.unbound (← Eval.allocate (·.newObject entries))
  | .sequence items => do
    let items ← evaluateItems context items
    return context.unbound (← Eval.allocate (·.newArray items))
  | .reference id => return context.unbound (← cached id)
  | .get target index => do
    let target ← require .target (← evaluate context target)
    let index ← evaluate context index
    return ⟨target.value, ← target.value.getIndex index.value⟩
  | .call callable args => do
    let callable ← require .callable (← evaluate context callable)
    let args ← evaluateItems context args
    callable.call context.root args
  | .callback id depth => do
    let function := callbackFunction id (depth.getD context.defaultDepth)
    return context.unbound (← Eval.allocate (·.newFunction function))
  | .set target index value => do
    let target ← require .target (← evaluate context target)
    let index ← evaluate context index
    let value ← evaluate context value
    target.value.setIndex index.value value.value
    return target

/-- Evaluates some commands, keeping the values only. -/
def evaluateItems [ObjectModel φ η] (context : Context) : List Command → Eval φ η (List Value)
  | [] => return []
  | item :: rest => do
    let item ← evaluate context item
    return item.value :: (← evaluateItems context rest)

/-- Evaluates some named commands, keeping the values only. -/
def evaluateFields [ObjectModel φ η] (context : Context) :
    List (String × Command) → Eval φ η (List (String × Value))
  | [] => return []
  | (name, node) :: rest => do
    let node ← evaluate context node
    return (name, node.value) :: (← evaluateFields context rest)

end

/-- Evaluates a command whose value must be present. -/
def evaluatePresent [ObjectModel φ η] (context : Context) (command : Command) :
    Eval φ η Bound := do
  require .target (← evaluate context command)

end Command

end RemoteAgent
