import RemoteAgent.Envelope
import RemoteAgent.Heap

/-!
# The world of a session

Everything that evaluating commands can see and change: the heap, the reference cache and the
outbox. `Eval` is evaluation: a value or an error, and in both cases the world as it was left.
-/

namespace RemoteAgent

/-- The envelopes on their way to the controller. -/
structure Outbox where
  /-- Every envelope emitted so far, the oldest first. -/
  sent : Array Json
  /-- Whether the connection behind the outbox is halted. -/
  halted : Bool

namespace Outbox

/-- An outbox without envelopes. -/
def empty : Outbox := ⟨#[], false⟩

/-- Queues an envelope, also when the connection is halted. -/
def emit (outbox : Outbox) (envelope : Json) : Outbox :=
  { outbox with sent := outbox.sent.push envelope }

/-- Reports a fault. A halted connection is told of none. -/
def report (outbox : Outbox) (text : String) (id : Option String) : Outbox :=
  if outbox.halted then outbox else outbox.emit (Envelope.exception text id)

end Outbox

/-- The state of a session. -/
structure World (φ η : Type) where
  /-- The shared values. -/
  heap : Heap φ η
  /-- The values cached under ids of the controller's choice. -/
  cache : Fields Value
  /-- The way to the controller. -/
  outbox : Outbox

/-- A session that nothing has happened in. -/
def World.empty {φ η : Type} : World φ η := ⟨.empty, [], .empty⟩

/-- Evaluation in a world. -/
abbrev Eval (φ η : Type) := ExceptT EvalError (StateM (World φ η))

namespace Eval

variable {φ η α : Type}

/-- The heap as it is. -/
def heap : Eval φ η (Heap φ η) := do return (← get).heap

/-- The cache as it is. -/
def cache : Eval φ η (Fields Value) := do return (← get).cache

/-- Makes a cell. -/
def allocate (make : Heap φ η → α × Heap φ η) : Eval φ η α :=
  modifyGet fun world =>
    let (value, heap) := make world.heap
    (value, { world with heap })

/-- Changes the heap. -/
def modifyHeap (change : Heap φ η → Heap φ η) : Eval φ η Unit :=
  modify fun world => { world with heap := change world.heap }

/-- Queues an envelope. -/
def emit (envelope : Json) : Eval φ η Unit :=
  modify fun world => { world with outbox := world.outbox.emit envelope }

/-- A result or an error that leaves the world alone. -/
def ofExcept : Except EvalError α → Eval φ η α
  | .ok value => pure value
  | .error error => throw error

/-- A result that leaves the world alone, or an error where there is none. -/
def ofOption (error : EvalError) : Option α → Eval φ η α
  | some value => pure value
  | none => throw error

end Eval

end RemoteAgent
