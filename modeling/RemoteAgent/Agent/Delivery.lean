import RemoteAgent.Agent.Reopening

/-!
# Delivering envelopes

An envelope is encoded once, and sent over an open transport. If the transport broke on the way it
is opened again and the whole text is sent once more; any other fault ends the delivery.
-/

namespace RemoteAgent

/-- Where the delivery of a text goes on. -/
inductive Delivery where
  /-- It sees to it that the transport is open. -/
  | reopening (text : String) (place : Reopening)
  /-- It sends the text. -/
  | sending (text : String) (place : Sending)
  deriving DecidableEq

namespace Delivery

variable {τ φ η : Type}

/-- A step of a delivery. -/
abbrev Step (τ φ η : Type) :=
  Progress Delivery (Except TransportError Unit) × Agent τ φ η

/-- Begins to deliver an envelope, unless the connection is halted. -/
def start (agent : Agent τ φ η) (envelope : Json) :
    Progress Delivery (Except TransportError Unit) :=
  if agent.isHalted then .done (.error .halted)
  else .going (.reopening (Codec.encode envelope) .requesting)

/-- Whether the delivery of an activity can take a step now. -/
def isReady (agent : Agent τ φ η) (n : Nat) : Delivery → Bool
  | .reopening _ place => place.isReady agent n
  | .sending _ place => place.isReady agent.link

/-- When the passing of time will let the delivery take a step. -/
def deadline? : Delivery → Option Nat
  | .reopening _ place => place.deadline?
  | .sending _ place => place.deadline?

/-- What the next step takes off the allowance of a turn. -/
def cost : Delivery → Nat
  | .reopening _ place => place.cost
  | .sending _ place => place.cost

/-- Whether an error says that the transport broke. -/
def isBreak : TransportError → Bool
  | .closed | .io _ => true
  | _ => false

/-- Goes on after a send has ended. -/
def afterSend [Transport τ] (agent : Agent τ φ η) (text : String) :
    Except TransportError Unit → Step τ φ η
  | .ok () => (.done (.ok ()), { agent with connection := agent.connection.reset })
  | .error error =>
    if isBreak error ∧ agent.isOpen = false then (.going (.reopening text .requesting), agent)
    else (.done (.error error), agent)

/-- Takes a step. -/
def step [Transport τ] (agent : Agent τ φ η) (n : Nat) : Delivery → Step τ φ η
  | .reopening text place =>
    match place.step agent n with
    | (.going place, agent) => (.going (.reopening text place), agent)
    | (.done (.ok ()), agent) => (.going (.sending text (.start text agent.link)), agent)
    | (.done (.error error), agent) => (.done (.error error), agent)
  | .sending text place =>
    match place.step agent.link with
    | (.going place, link) => (.going (.sending text place), { agent with link })
    | (.done result, link) => afterSend { agent with link } text result

/-- Gives a delivery up, wherever it is. -/
def abandon (agent : Agent τ φ η) (n : Nat) : Delivery → Agent τ φ η
  | .reopening _ _ => Reopening.abandon agent n
  | .sending _ place => { agent with link := place.abandon agent.link }

end Delivery

end RemoteAgent
