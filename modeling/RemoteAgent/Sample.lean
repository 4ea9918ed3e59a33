import RemoteAgent.Session
import RemoteAgent.Value.Equality

/-!
# A sample object model

A small application to serve: a root object with a few properties and with methods that answer at
once, later, with an error, or by changing their receiver. Deferred values that `later` gives out
are kept in an array, so that they can be settled from outside.
-/

namespace RemoteAgent.Sample

/-- The methods of the sample application. A missing argument is null. -/
inductive Method where
  /-- Answers with a name, the receiver and the arguments. -/
  | witness (name : String)
  /-- Raises an error. -/
  | refuse (text : String)
  /-- Gives out a new deferred value and keeps it. -/
  | later (pending : Handle .array)
  /-- The deferred value given out last. -/
  | last (pending : Handle .array)
  /-- A deferred value that is resolved already. -/
  | ready
  /-- A deferred value that is rejected already. -/
  | broken
  /-- The arguments. -/
  | echo
  /-- The first argument. -/
  | first
  /-- The receiver. -/
  | this
  /-- Raises the error that the argument words. -/
  | fail
  /-- Null. -/
  | nothing
  /-- The kind of the argument. -/
  | kind
  /-- The description of the argument. -/
  | describe
  /-- The receiver's `n` and all arguments, added up. -/
  | sum
  /-- Twice the argument, as a double. -/
  | double
  /-- Raises the receiver's `count`, by one or by the argument. -/
  | bump
  /-- Calls the first argument with the others. -/
  | apply
  deriving DecidableEq

/-- The host objects of the sample application that are no bags. -/
inductive Object where
  /-- Answers with the text of whatever key it is asked for. -/
  | keyReader
  deriving DecidableEq

/-- Evaluation in the sample application. -/
abbrev Run := Eval Method Object

/-- The world of the sample application. -/
abbrev SampleWorld := World Method Object

/-- How deferred values of the sample application are called in diagnostics. -/
def deferredName : String := "<id>"

instance : HostObjects Method Object where
  get
    | .keyReader, key => return .text key.render

/-! ## Methods -/

/-- An argument that words an error. -/
def words (value : Value) : Run String := do
  match value with
  | .text content => return content
  | other => return other.describe (← Eval.heap)

/-- An integer reduced to 64 bits with a sign. -/
def wrap (n : Int) : Int := n.bmod 18446744073709551616

/-- A value taken as an integer; what is none counts as `otherwise`. -/
def integer (otherwise : Int) (value : Value) : Int := value.asInt64?.getD otherwise

/-- Twice a double. -/
def twice (x : Binary64) : Option Binary64 := (Binary64.ofInt 2).bind x.mul

/-- A deferred value as a value, in a given state. -/
def newDeferred (state : Deferred.State Completion) : Run Value :=
  return .deferred (← Eval.allocate (·.newDeferred ⟨deferredName, state⟩))

/-- What a method does that calls no other one. `apply` is such a method if it has nothing to
call. -/
def answer (method : Method) (receiver : Value) (args : List Value) : Run Value :=
  let argument := args.head?.getD .null
  match method with
  | .witness name => do
    let args ← Eval.allocate (·.newArray args)
    Eval.allocate (·.newArray [.text name, receiver, args])
  | .refuse text => throw (.host text)
  | .later pending => do
    let deferred ← newDeferred .fresh
    Eval.modifyHeap (·.appendItem pending deferred)
    return deferred
  | .last pending => return ((← Eval.heap).items pending).getLast?.getD .null
  | .ready => newDeferred (.early (.resolved argument))
  | .broken => do newDeferred (.early (.rejected (← words argument)))
  | .echo => Eval.allocate (·.newArray args)
  | .first => return argument
  | .this => return receiver
  | .fail => do throw (.host (← words argument))
  | .nothing => return .null
  | .kind => return .text argument.typeName
  | .describe => return .text (argument.describe (← Eval.heap))
  | .sum => do
    let start ← receiver.getIndex (.text "n")
    return .ofInt (wrap (args.foldl (fun total arg => total + integer 0 arg) (integer 0 start)))
  | .double => return .ofBinary64? (twice (argument.asBinary64?.getD (.zero false)))
  | .bump => do
    let count ← receiver.getIndex (.text "count")
    let next := Value.ofInt (wrap (integer 0 count + integer 1 argument))
    receiver.setIndex (.text "count") next
    return next
  | .apply => do throw (.notCallable (argument.describe (← Eval.heap)))

/-- What a method does. A method that calls another one passes fewer arguments on. -/
def run (method : Method) (receiver : Value) : List Value → Run Value
  | [] => answer method receiver []
  | argument :: rest =>
    match method with
    | .apply =>
      argument.callWith (fun method receiver _ => run method receiver rest) receiver rest
    | method => answer method receiver (argument :: rest)

instance : ObjectModel Method Object where
  call := run

/-! ## Objects -/

/-- A method as a value. -/
def newMethod (name : String) (method : Method) : Run Value :=
  Eval.allocate (·.newFunction ⟨name, .native method⟩)

/-- The methods of the root object, by name. -/
def methods (pending : Handle .array) : List (String × Method) :=
  [("later", .later pending), ("last", .last pending), ("ready", .ready), ("broken", .broken),
    ("echo", .echo), ("first", .first), ("this", .this), ("fail", .fail), ("nothing", .nothing),
    ("kind", .kind), ("describe", .describe), ("sum", .sum), ("double", .double), ("bump", .bump),
    ("apply", .apply)]

/-- The root object. -/
def newRoot (pending : Handle .array) : Run Value := do
  let empty ← Eval.allocate (·.newArray [])
  let list ← Eval.allocate (·.newArray [.ofNat 10, .ofNat 20, .ofNat 30])
  let data : List (String × Value) :=
    [("name", .text "agent"), ("version", .text "0.1.0"), ("n", .ofNat 3), ("count", .ofNat 1),
      ("zero", .ofNat 0), ("empty", empty), ("list", list)]
  let methods ← (methods pending).mapM fun (name, method) => return (name, ← newMethod name method)
  Eval.allocate (·.newHost (.bag "root" (Fields.ofList (data ++ methods))))

/-- The array of deferred values that wait to be settled. -/
def newPending : Run (Handle .array) :=
  Eval.allocate fun heap => (⟨heap.arrays.size⟩, (heap.newArray []).2)

/-- The property `sum` of an object, or null if it has none. -/
def sumOf (root : Value) : Run Value :=
  tryCatch (root.getIndex (.text "sum")) fun _ => return .null

/-- Caches the root object, an object without properties of its own, and a bag without a label that
shares the method `sum` with the root. -/
def fillCache (root : Value) : Run Unit := do
  let keyReader ← Eval.allocate (·.newHost (.custom .keyReader))
  let sum ← sumOf root
  let bag ← Eval.allocate (·.newHost (.bag "" (Fields.ofList [("n", .ofNat 100), ("sum", sum)])))
  modify fun world =>
    ((world.remember "root" root).remember "fixed" keyReader).remember "bag" bag

/-- The sample application before any message: its root object, the array of pending deferred
values, and its world. -/
def start : Value × Handle .array × SampleWorld :=
  let setup : Run (Value × Handle .array) := do
    let pending ← newPending
    let root ← newRoot pending
    fillCache root
    return (root, pending)
  match setup.run World.empty with
  | (.ok (root, pending), world) => (root, pending, world)
  | (.error _, world) => (.null, ⟨0⟩, world)

end RemoteAgent.Sample
