import RemoteAgent.Codec
import RemoteAgent.Config
import RemoteAgent.Connection
import RemoteAgent.FairLock
import RemoteAgent.Link
import RemoteAgent.Session

/-!
# The agent on its connection

An agent joins a session to a connection: envelopes of the session go out over the link, packets
that come in are decoded and dispatched. This module holds the state that all of its activities
share, and what they do to it between two waits.
-/

namespace RemoteAgent

/-- The state of an agent. -/
structure Agent (τ φ η : Type) where
  /-- The settings. -/
  config : Config
  /-- The connection. -/
  connection : Connection
  /-- The link that carries it. -/
  link : Link τ
  /-- What commands evaluate against. -/
  context : Context
  /-- The state of the session. -/
  world : World φ η
  /-- Who reopens the transport. -/
  reconnecting : FairLock
  /-- Whether waiting receivers are told that the connection is given up. -/
  haltSignal : Bool
  /-- How many envelopes of the outbox were taken out of it. -/
  taken : Nat
  /-- Whether someone drives the connection. -/
  driven : Bool

namespace Agent

variable {τ φ η : Type}

/-- The framer that a configuration asks for. -/
def framerOf (config : Config) : Framer :=
  Framer.new config.frameLimit.toNat ⟨config.lockTimeout.toNat⟩ ⟨config.lockPoll.toNat⟩
    ⟨config.ackTimeout.toNat⟩

/-- An agent that nothing has happened to. Its commands evaluate against a root object in a world.
-/
def new (config : Config) (transport : τ) (root : Value) (world : World φ η)
    (reconnectId : String) : Agent τ φ η where
  config := config
  connection := Connection.new config.url config.reconnectLimit reconnectId
  link := ⟨framerOf config, transport, 0, 0⟩
  context := ⟨root, config.defaultDepth.toInt⟩
  world := world
  reconnecting := .free
  haltSignal := false
  taken := 0
  driven := false

/-- Whether the connection is given up. -/
def isHalted (agent : Agent τ φ η) : Bool := agent.connection.halted

/-- Whether the transport can be used. -/
def isOpen [Transport τ] (agent : Agent τ φ η) : Bool := Transport.isOpen agent.link.transport

/-- Gives the connection up, and tells those who wait. -/
def halt (agent : Agent τ φ η) : Agent τ φ η :=
  { agent with connection := agent.connection.halt, haltSignal := true }

/-- Opens the transport, with the reconnect id in the URL. -/
def openTransport [Transport τ] (agent : Agent τ φ η) :
    Except TransportError Unit × Agent τ φ η :=
  let (result, transport) :=
    Transport.openAt agent.connection.connectUrl agent.link.transport
  (result, { agent with link := { agent.link with transport } })

/-- Closes the transport. -/
def closeTransport [Transport τ] (agent : Agent τ φ η) : Agent τ φ η :=
  { agent with link := { agent.link with transport := Transport.close agent.link.transport } }

/-! ## The session -/

/-- Lets the session do something. Its outbox knows whether the connection is given up. -/
def inSession {α : Type} (agent : Agent τ φ η) (act : World φ η → α × World φ η) :
    α × Agent τ φ η :=
  let outbox := { agent.world.outbox with halted := agent.isHalted }
  let (result, world) := act { agent.world with outbox }
  (result, { agent with world })

/-- Queues an envelope. -/
def emit (agent : Agent τ φ η) (envelope : Json) : Agent τ φ η :=
  { agent with world := { agent.world with outbox := agent.world.outbox.emit envelope } }

/-- Decodes and dispatches a packet. A text that cannot be decoded is reported. -/
def handlePacket [ObjectModel φ η] (agent : Agent τ φ η) (text : String) :
    Except AgentError Outcome × Agent τ φ η :=
  agent.inSession fun world =>
    let decoded := (Codec.mk true).decode text
    match decoded.result with
    | .ok envelope => Message.dispatch agent.context envelope world
    | .error error =>
      let world := decoded.reports.foldl (fun world error => world.report error.message none) world
      (.error (.codec error), world)

/-- The envelope that is next to leave the outbox. -/
def nextEnvelope? (agent : Agent τ φ η) : Option Json := agent.world.outbox.sent[agent.taken]?

/-- How driving a connection that was given up ends: with an error if it was given up for want of
attempts. -/
def haltResult (agent : Agent τ φ η) : Except AgentError Unit :=
  if agent.connection.isExhausted then
    .error (.transport (.reconnectLimit agent.connection.limit.toNat))
  else .ok ()

end Agent

end RemoteAgent
