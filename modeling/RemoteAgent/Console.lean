import RemoteAgent.Service

/-!
# The console application

What an agent serves that nobody has given objects of its own: a root object with its `version`, a
method `log` that writes its arguments, and a method `after` that answers later. Lines to write and
answers to come are kept in two arrays of the heap, from where the program around the agent takes
them.
-/

namespace RemoteAgent.Console

/-- The version that the root object shows. -/
def version : String := "0.1.0"

/-- The methods of the root object. -/
inductive Method where
  /-- Keeps a line to write. -/
  | log (lines : Handle .array)
  /-- Keeps an answer to come. -/
  | after (timers : Handle .array)
  deriving DecidableEq

/-- Evaluation in the console application. -/
abbrev Run := Eval Method Empty

/-- The world of the console application. -/
abbrev ConsoleWorld := World Method Empty

instance : HostObjects Method Empty where
  get object _ := nomatch object

/-- A delay in whole milliseconds, if a value gives one. -/
def delay? (value : Value) : Option Nat := do
  let x ← value.asBinary64?
  if 0 ≤ x.units then some (min x.floor.toNat 18446744073709551615) else none

/-- What a method does. -/
def call (method : Method) (_receiver : Value) (args : List Value) : Run Value := do
  match method with
  | .log lines =>
    let heap ← Eval.heap
    let line := " ".intercalate (args.map (Value.describe heap))
    Eval.modifyHeap (·.appendItem lines (.text line))
    return .null
  | .after timers =>
    match args.head?.bind delay? with
    | none => throw (.host "after expects a delay in milliseconds")
    | some delay =>
      let h ← Eval.allocate (·.newDeferred (.fresh "after"))
      let timer ← Eval.allocate (·.newArray [.deferred h, .ofNat delay, args[1]?.getD .null])
      Eval.modifyHeap (·.appendItem timers timer)
      return .deferred h

instance : ObjectModel Method Empty where
  call := call

/-- The console application before any message. -/
structure Start where
  /-- The root object. -/
  root : Value
  /-- The lines to write. -/
  lines : Handle .array
  /-- The answers to come. -/
  timers : Handle .array
  /-- The world. -/
  world : ConsoleWorld

/-- The root object. -/
def newRoot (lines timers : Handle .array) : Run Value := do
  let log ← Eval.allocate (·.newFunction ⟨"log", .native (.log lines)⟩)
  let after ← Eval.allocate (·.newFunction ⟨"after", .native (.after timers)⟩)
  let properties := Fields.ofList [("version", .text version), ("log", log), ("after", after)]
  Eval.allocate (·.newHost (.bag "agent root" properties))

/-- The console application before any message. -/
def start : Start :=
  let heap : Heap Method Empty := ((Heap.empty.newArray []).2.newArray []).2
  let lines : Handle .array := ⟨0⟩
  let timers : Handle .array := ⟨1⟩
  let world : ConsoleWorld := ⟨heap, [], .empty⟩
  match (newRoot lines timers).run world with
  | (.ok root, world) => ⟨root, lines, timers, world⟩
  | (.error _, world) => ⟨.null, lines, timers, world⟩

/-! ## What the program takes out -/

/-- The lines to write, and the world without them. -/
def takeLines (lines : Handle .array) (world : ConsoleWorld) : List String × ConsoleWorld :=
  ((world.heap.items lines).filterMap Value.asText?,
    { world with heap := world.heap.setItems lines [] })

/-- An answer to come. -/
structure Timer where
  /-- The deferred value that it settles. -/
  deferred : Handle .deferred
  /-- When it is due. -/
  due : Nat
  /-- The answer. -/
  value : Value
  deriving DecidableEq

/-- A timer that was set at a time, if an array is one. -/
def timerOf? (world : ConsoleWorld) (now : Nat) : Value → Option Timer
  | .array h =>
    match world.heap.items h with
    | [.deferred deferred, .number (.int delay), value] =>
      some ⟨deferred, now + delay.toNat, value⟩
    | _ => none
  | _ => none

/-- The timers that were set since the last time, and the world without them. -/
def takeTimers (timers : Handle .array) (now : Nat) (world : ConsoleWorld) :
    List Timer × ConsoleWorld :=
  ((world.heap.items timers).filterMap (timerOf? world now),
    { world with heap := world.heap.setItems timers [] })

/-- Gives the answer of a timer. -/
def fire (timer : Timer) (world : ConsoleWorld) : Unit × ConsoleWorld :=
  match world.settle timer.deferred (.resolved timer.value) with
  | .ok world => ((), world)
  | .error _ => ((), world)

end RemoteAgent.Console
