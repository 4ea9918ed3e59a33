import RemoteAgent.Agent.Delivery

/-!
# The activities of an agent

Whoever drives a connection is its reader. The reader starts a writer, which delivers the
envelopes of the outbox in order, and a heartbeat if the settings ask for one; when it ends it
takes both with it. Next to these three any number of callers may open the transport, deliver
envelopes or handle frames.

A step does everything between two waits. Besides the agent it may change the set of activities:
`Effect` says how.
-/

namespace RemoteAgent

/-- Where a reader goes on. -/
inductive Reader where
  /-- It opens the transport for the first time. -/
  | connecting
  /-- It begins to wait for a frame. -/
  | listening
  /-- It waits for one. -/
  | receiving
  /-- It acknowledges a slice. -/
  | acknowledging
  /-- It sees to it that the transport is open. -/
  | reopening (place : Reopening)
  /-- It closes the transport, and then ends. -/
  | closing (result : Except AgentError Unit)

/-- Where a writer goes on. -/
inductive Writer where
  /-- It has not had a turn. -/
  | starting
  /-- It waits for an envelope. -/
  | idle
  /-- It delivers one. -/
  | delivering (delivery : Delivery)
  deriving DecidableEq

/-- Where an activity goes on. -/
inductive Task where
  /-- Begins to drive the connection. -/
  | run
  /-- Drives the connection. -/
  | reader (place : Reader) (companions : List Nat)
  /-- Delivers the envelopes of the outbox. -/
  | writer (place : Writer)
  /-- Shows that the agent is alive, for the first time as soon as it can and then at intervals. -/
  | heartbeat (next : Option Nat) (interval : Nat)
  /-- Opens the transport. -/
  | connect
  /-- Sees to it that the transport is open. -/
  | reopen (reopening : Reopening)
  /-- Begins to deliver an envelope. -/
  | send (envelope : Json)
  /-- Delivers an envelope. -/
  | deliver (delivery : Delivery)
  /-- Handles a frame. -/
  | frame (text : String)
  /-- Acknowledges a slice, and ends with that. -/
  | acknowledge

/-- How an activity ends: a handled frame may have come to an outcome. -/
abbrev TaskResult := Except AgentError (Option Outcome)

/-- What a step does to the set of activities. -/
structure Effect where
  /-- Where the activity is now. -/
  progress : Progress Task TaskResult
  /-- The activities that it starts. -/
  started : List Task
  /-- The activities that it wants to end. -/
  aborted : List Nat

namespace Effect

/-- The activity goes on. -/
def going (task : Task) : Effect := ⟨.going task, [], []⟩

/-- The activity has ended. -/
def done (result : TaskResult) : Effect := ⟨.done result, [], []⟩

/-- The activity has ended with nothing to show. -/
def ended (result : Except TransportError Unit) : Effect :=
  match result with
  | .ok () => done (.ok none)
  | .error error => done (.error (.transport error))

end Effect

namespace Task

variable {τ φ η : Type}

/-- A step of an activity. -/
abbrev Step (τ φ η : Type) := Effect × Agent τ φ η

/-! ## The reader -/

/-- Ends the reader, and its companions with it. -/
def finishReading (agent : Agent τ φ η) (companions : List Nat)
    (result : Except AgentError Unit) : Step τ φ η :=
  (⟨.going (.reader (.closing result) companions), [], companions⟩, agent)

/-- Turns to the next frame, unless the connection is given up. -/
def readOn (agent : Agent τ φ η) (companions : List Nat) : Step τ φ η :=
  if agent.isHalted then finishReading agent companions agent.haltResult
  else (.going (.reader .listening companions), agent)

/-- Begins to wait for a frame. A transport that is not open is reopened. -/
def listen [Transport τ] (agent : Agent τ φ η) (companions : List Nat) : Step τ φ η :=
  match Transport.listen agent.link.transport with
  | .ok () => (.going (.reader .receiving companions), agent)
  | .error _ => (.going (.reader (.reopening .requesting) companions), agent)

/-- Handles a frame that the reader has received. Whatever is wrong with it, reading goes on. -/
def readFrame [Transport τ] [ObjectModel φ η] (agent : Agent τ φ η) (companions : List Nat)
    (text : String) : Step τ φ η :=
  let (received, link) := agent.link.receive text
  let agent := { agent with link }
  match received with
  | .ok .continued => (.going (.reader .acknowledging companions), agent)
  | .ok (.packet packet) => readOn (agent.handlePacket packet).2 companions
  | .ok .acknowledged | .ok .strayAcknowledgment | .error _ => readOn agent companions

/-- Takes what the transport has for the reader. If that is a break, the transport is reopened.

When something has come in and the connection is halted as well, a reader may turn to either first.
This one turns to what has come in. The other choice is made where the transport has nothing yet at
this step and has it at the next one: between two steps it may change in any way. -/
def readNext [Transport τ] [ObjectModel φ η] (agent : Agent τ φ η) (companions : List Nat) :
    Step τ φ η :=
  match Transport.poll agent.link.transport with
  | none => readOn agent companions
  | some (result, transport) =>
    let agent := { agent with link := { agent.link with transport } }
    match result with
    | .ok (some text) => readFrame agent companions text
    | .ok none | .error _ => (.going (.reader (.reopening .requesting) companions), agent)

/-- Goes on after the reader has reopened the transport. A halt is dealt with like any other. -/
def afterReopening (agent : Agent τ φ η) (companions : List Nat) :
    Except TransportError Unit → Step τ φ η
  | .ok () | .error .halted => readOn agent companions
  | .error error => finishReading agent companions (.error (.transport error))

/-- A step of the reader. -/
def stepReader [Transport τ] [ObjectModel φ η] (agent : Agent τ φ η) (n : Nat)
    (companions : List Nat) : Reader → Step τ φ η
  | .connecting =>
    match agent.openTransport with
    | (.ok (), agent) => readOn agent companions
    | (.error error, agent) => finishReading agent companions (.error (.transport error))
  | .listening => listen agent companions
  | .receiving => readNext agent companions
  | .acknowledging =>
    let (_, link) := agent.link.transmit .acknowledgment
    readOn { agent with link } companions
  | .reopening reopening =>
    match reopening.step agent n with
    | (.going reopening, agent) => (.going (.reader (.reopening reopening) companions), agent)
    | (.done result, agent) => afterReopening agent companions result
  | .closing result => (.done (result.map fun _ => none), agent.closeTransport)

/-- The activities that a reader needs beside it. -/
def companionsOf (config : Config) : List Task :=
  .writer .starting ::
    (config.keepaliveInterval.map fun interval => .heartbeat none interval.toNat).toList

/-- Begins to drive the connection, which can be done once. The numbers from `fresh` on are free. -/
def startReading [Transport τ] (agent : Agent τ φ η) (fresh : Nat) : Step τ φ η :=
  if agent.driven then (.done (.error (.config .alreadyRunning)), agent)
  else
    let agent := { agent with driven := true }
    let started := companionsOf agent.config
    let companions := List.range' fresh started.length
    let (effect, agent) :=
      if agent.isHalted then finishReading agent companions agent.haltResult
      else if agent.isOpen then readOn agent companions
      else (.going (.reader .connecting companions), agent)
    ({ effect with started }, agent)

/-! ## The writer -/

/-- Goes on after a delivery: with the next envelope, unless the connection is given up. -/
def afterDelivery (agent : Agent τ φ η) : Except TransportError Unit → Step τ φ η
  | .error .halted | .error (.reconnectLimit _) => (.done (.ok none), agent)
  | .ok () | .error _ => (.going (.writer .idle), agent)

/-- Puts the writer where its delivery is. -/
def writeOn (agent : Agent τ φ η) : Progress Delivery (Except TransportError Unit) → Step τ φ η
  | .going delivery => (.going (.writer (.delivering delivery)), agent)
  | .done result => afterDelivery agent result

/-- A step of the writer. -/
def stepWriter [Transport τ] (agent : Agent τ φ η) (n : Nat) : Writer → Step τ φ η
  | .starting | .idle =>
    match agent.nextEnvelope? with
    | none => (.going (.writer .idle), agent)
    | some envelope =>
      writeOn { agent with taken := agent.taken + 1 } (Delivery.start agent envelope)
  | .delivering delivery =>
    let (progress, agent) := delivery.step agent n
    writeOn agent progress

/-! ## The heartbeat -/

/-- A step of the heartbeat: it sets its first time, or emits an envelope. An interval of no length
keeps no time, and ends it. -/
def stepHeartbeat (agent : Agent τ φ η) (interval : Nat) : Option Nat → Step τ φ η
  | none =>
    if interval = 0 then (.done (.ok none), agent)
    else (.going (.heartbeat (some (agent.link.timer + interval)) interval), agent)
  | some time =>
    if agent.isHalted then (.done (.ok none), agent)
    else
      (.going (.heartbeat (some (time + interval)) interval), agent.emit Envelope.keepAlive)

/-! ## Callers -/

/-- Puts a caller where its delivery is. -/
def deliverOn (agent : Agent τ φ η) : Progress Delivery (Except TransportError Unit) → Step τ φ η
  | .going delivery => (.going (.deliver delivery), agent)
  | .done result => (.ended result, agent)

/-- Handles a frame for a caller. -/
def handleFrame [ObjectModel φ η] (agent : Agent τ φ η) (text : String) : Step τ φ η :=
  let (received, link) := agent.link.receive text
  let agent := { agent with link }
  match received with
  | .ok .continued => (.going .acknowledge, agent)
  | .ok (.packet packet) =>
    let (result, agent) := agent.handlePacket packet
    (.done (result.map some), agent)
  | .ok .acknowledged | .ok .strayAcknowledgment => (.done (.ok none), agent)
  | .error error => (.done (.error (.transport error)), agent)

/-! ## Any activity -/

/-- Takes a step. The numbers from `fresh` on are free for activities that it starts. -/
def step [Transport τ] [ObjectModel φ η] (agent : Agent τ φ η) (n fresh : Nat) :
    Task → Step τ φ η
  | .run => startReading agent fresh
  | .reader place companions => stepReader agent n companions place
  | .writer place => stepWriter agent n place
  | .heartbeat next interval => stepHeartbeat agent interval next
  | .connect =>
    let (result, agent) := agent.openTransport
    (.ended result, agent)
  | .reopen reopening =>
    match reopening.step agent n with
    | (.going reopening, agent) => (.going (.reopen reopening), agent)
    | (.done result, agent) => (.ended result, agent)
  | .send envelope => deliverOn agent (Delivery.start agent envelope)
  | .deliver delivery =>
    let (progress, agent) := delivery.step agent n
    deliverOn agent progress
  | .frame text => handleFrame agent text
  | .acknowledge =>
    let (result, link) := agent.link.transmit .acknowledgment
    (.ended result, { agent with link })

/-- Whether an activity can take a step now. -/
def isReady [Transport τ] (agent : Agent τ φ η) (n : Nat) : Task → Bool
  | .reader .receiving _ =>
    agent.haltSignal || (Transport.poll agent.link.transport).isSome
  | .reader (.reopening reopening) _ => reopening.isReady agent n
  | .writer .idle => agent.nextEnvelope?.isSome
  | .writer (.delivering delivery) => delivery.isReady agent n
  | .heartbeat (some time) _ => time ≤ agent.link.timer
  | .reopen reopening => reopening.isReady agent n
  | .deliver delivery => delivery.isReady agent n
  | _ => true

/-- When the passing of time will let an activity take a step. -/
def deadline? : Task → Option Nat
  | .reader (.reopening reopening) _ => reopening.deadline?
  | .writer (.delivering delivery) => delivery.deadline?
  | .heartbeat next _ => next
  | .reopen reopening => reopening.deadline?
  | .deliver delivery => delivery.deadline?
  | _ => none

/-- What the next step of an activity takes off the allowance of its turn: taking a lock counts,
taking something that was waited for, and waking up when a pause is over. A frame is taken from a
channel that the reader has locked for itself, so it counts twice. -/
def cost [Transport τ] (agent : Agent τ φ η) : Task → Nat
  | .reader .listening _ => if (Transport.listen agent.link.transport).isOk then 1 else 0
  | .reader .receiving _ => 1
  | .reader (.reopening reopening) _ => reopening.cost
  | .writer .starting | .writer .idle => 1
  | .writer (.delivering delivery) => delivery.cost
  | .heartbeat _ _ => 1
  | .reopen reopening => reopening.cost
  | .deliver delivery => delivery.cost
  | _ => 0

/-- Gives an activity up, wherever it is. -/
def abandon (agent : Agent τ φ η) (n : Nat) : Task → Agent τ φ η
  | .reader (.reopening _) _ => Reopening.abandon agent n
  | .writer (.delivering delivery) => delivery.abandon agent n
  | .reopen _ => Reopening.abandon agent n
  | .deliver delivery => delivery.abandon agent n
  | _ => agent

end Task

end RemoteAgent
