import RemoteAgent.Agent

/-!
# Reopening the transport

Whoever needs an open transport asks for the lock, and then tries to open it until it is open, the
connection is halted, or the attempts are used up. Each attempt is counted before the pause that
comes ahead of it, and an attempt that fails is followed by the next one. The one who has the lock
keeps it through all attempts.
-/

namespace RemoteAgent

/-- Where a reopening goes on. -/
inductive Reopening where
  /-- It is about to ask for the lock. -/
  | requesting
  /-- It waits for the lock. -/
  | queued
  /-- It has the lock, and pauses before the next attempt. -/
  | pausing (time : Nat)
  /-- It has the lock, and opens the transport. -/
  | opening
  deriving DecidableEq

namespace Reopening

variable {τ φ η : Type}

/-- A step of a reopening. -/
abbrev Step (τ φ η : Type) :=
  Progress Reopening (Except TransportError Unit) × Agent τ φ η

/-- Whether the reopening of an activity can take a step now. -/
def isReady (agent : Agent τ φ η) (n : Nat) : Reopening → Bool
  | .requesting => true
  | .queued => agent.reconnecting.isHeldBy n
  | .pausing time => time ≤ agent.link.timer
  | .opening => true

/-- When the passing of time will let the reopening take a step. -/
def deadline? : Reopening → Option Nat
  | .pausing time => some time
  | .requesting | .queued | .opening => none

/-- What the next step takes off the allowance of a turn: getting the lock counts, and so does the
end of a pause. -/
def cost : Reopening → Nat
  | .requesting | .queued | .pausing _ => 1
  | .opening => 0

/-- Gives a reopening up, and its place at the lock. -/
def abandon (agent : Agent τ φ η) (n : Nat) : Agent τ φ η :=
  { agent with reconnecting := agent.reconnecting.leave n }

/-- Ends a reopening that has the lock. -/
def finish (agent : Agent τ φ η) (n : Nat) (result : Except TransportError Unit) : Step τ φ η :=
  (.done result, abandon agent n)

/-- Ends the reopening if there is nothing left to do, and else counts an attempt. -/
def check [Transport τ] (agent : Agent τ φ η) (n : Nat) : Step τ φ η :=
  if agent.isHalted then finish agent n (.error .halted)
  else if agent.isOpen then finish agent n (.ok ())
  else
    match agent.connection.recordAttempt with
    | (.error error, connection) =>
      finish { agent with connection := connection, haltSignal := true } n (.error error)
    | (.ok _, connection) =>
      (.going (.pausing (agent.link.timer + agent.config.reconnectDelay.toNat)),
        { agent with connection })

/-- Takes a step. -/
def step [Transport τ] (agent : Agent τ φ η) (n : Nat) : Reopening → Step τ φ η
  | .requesting =>
    let agent := { agent with reconnecting := agent.reconnecting.request n }
    if agent.reconnecting.isHeldBy n then check agent n else (.going .queued, agent)
  | .queued => check agent n
  | .pausing _ => (.going .opening, agent)
  | .opening => check agent.openTransport.2 n

end Reopening

end RemoteAgent
