import RemoteAgent.Command.Evaluation
import RemoteAgent.Message

/-!
# Sessions

Executing messages, one after the other, in one world. A request is answered once, with its value or
with an exception; other messages are silent unless they fail. A message that comes to a deferred
value binds a `Completion` to it, which does the rest of the work when the value is settled.

Faults are reported where they arise and then returned: a message that cannot be read by
`readMessage`, one that fails by `execute`. A halted connection is told of no fault, but it is still
answered.
-/

namespace RemoteAgent

variable {φ η : Type}

/-- How far a message has come when it was executed. -/
inductive Outcome where
  /-- It is done, and this was its value. -/
  | completed (value : Value)
  /-- It waits for a deferred value. -/
  | deferred (handle : Handle .deferred)
  deriving DecidableEq

namespace World

/-- Reports a fault to the controller. -/
def report (world : World φ η) (text : String) (id : Option String) : World φ η :=
  { world with outbox := world.outbox.report text id }

/-- Answers a request. -/
def sendReply [HostObjects φ η] (world : World φ η) (id : String) (value : Value) (depth : Int) :
    World φ η :=
  { world with outbox := world.outbox.emit (Envelope.reply id (value.toJson world.heap depth)) }

/-- Caches a value. -/
def remember (world : World φ η) (id : String) (value : Value) : World φ η :=
  { world with cache := Fields.insert id value world.cache }

/-- Drops a cached value. -/
def forget (world : World φ η) (id : String) : World φ η :=
  { world with cache := Fields.erase id world.cache }

/-! ## Deferred results -/

/-- Does what a message left to do with its result. -/
def complete [HostObjects φ η] (world : World φ η) (run : DueRun Completion) : World φ η :=
  match run.continuation, run.settlement with
  | .discard, .resolved _ => world
  | .reply id depth, .resolved value => world.sendReply id value depth
  | .store id, .resolved value => world.remember id value
  | .reply id _, .rejected text => world.report text (some id)
  | .discard, .rejected text => world.report text none
  | .store _, .rejected text => world.report text none

/-- Puts a deferred value in its new state, and does the run that is due. -/
def proceed [HostObjects φ η] (world : World φ η) (h : Handle .deferred)
    (next : Deferred Completion × Option (DueRun Completion)) : World φ η :=
  let world := { world with heap := world.heap.setDeferred h next.1 }
  match next.2 with
  | some run => world.complete run
  | none => world

/-- Leaves the rest of a message to a deferred value. -/
def bindDeferred [HostObjects φ η] (world : World φ η) (h : Handle .deferred)
    (completion : Completion) : Except DeferredError (World φ η) :=
  match world.heap.deferred? h with
  | some deferred => (deferred.bind completion).map (world.proceed h)
  | none => .ok world

/-- Settles a deferred value. -/
def settle [HostObjects φ η] (world : World φ η) (h : Handle .deferred)
    (settlement : Settlement) : Except DeferredError (World φ η) :=
  match world.heap.deferred? h with
  | some deferred => (deferred.settle settlement).map (world.proceed h)
  | none => .ok world

end World

/-! ## Messages -/

namespace Message

/-- What is to be done with the result of a message, if it has a command: the command, and the rest
of the work. -/
def work? (context : Context) : Message → Option (Command × Completion)
  | exec command => some (command, .discard)
  | get replyId command depth => some (command, .reply replyId (depth.getD context.defaultDepth))
  | connect cacheId command => some (command, .store cacheId)
  | disconnect _ => none
  | keepAlive => none

/-- Finishes a message whose result is there, or leaves it to a deferred result. -/
def finish [HostObjects φ η] (world : World φ η) (completion : Completion) :
    Value → Except AgentError Outcome × World φ η
  | .deferred h =>
    match world.bindDeferred h completion with
    | .ok world => (.ok (.deferred h), world)
    | .error error => (.error (.deferred error), world)
  | value => (.ok (.completed value), world.complete ⟨completion, .resolved value⟩)

/-- Executes a message, without reporting a fault. -/
def run [ObjectModel φ η] (context : Context) (message : Message) (world : World φ η) :
    Except AgentError Outcome × World φ η :=
  match message.work? context with
  | some (command, completion) =>
    match (command.evaluate context).run world with
    | (.ok result, world) => finish world completion result.value
    | (.error error, world) => (.error (.eval error), world)
  | none =>
    match message with
    | disconnect cacheId => (.ok (.completed .null), world.forget cacheId)
    | _ => (.ok (.completed .null), world)

/-- Executes a message. A fault is reported under the id of the request. -/
def execute [ObjectModel φ η] (context : Context) (message : Message) (world : World φ η) :
    Except AgentError Outcome × World φ η :=
  match message.run context world with
  | (.ok outcome, world) => (.ok outcome, world)
  | (.error error, world) => (.error error, world.report error.message message.replyId?)

/-- Reads a message. A fault is reported without an id. -/
def read (json : Json) (world : World φ η) : Except ParseError Message × World φ η :=
  match parse json with
  | .ok message => (.ok message, world)
  | .error error => (.error error, world.report error.message none)

/-- Reads and executes a message. -/
def dispatch [ObjectModel φ η] (context : Context) (json : Json) (world : World φ η) :
    Except AgentError Outcome × World φ η :=
  match read json world with
  | (.ok message, world) => message.execute context world
  | (.error error, world) => (.error (.parse error), world)

end Message

end RemoteAgent
