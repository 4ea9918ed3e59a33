import RemoteAgent.Address
import RemoteAgent.Text.Quoted

/-!
# Connections

The state of one logical connection, which outlives the channels that it is carried by: where it
goes, under which id it comes back, and how many attempts to come back were made since the last
success. Once halted a connection stays halted.
-/

namespace RemoteAgent

/-- The state of a connection. -/
structure Connection where
  /-- Where the controller is. -/
  url : String
  /-- The id under which the agent comes back. -/
  reconnectId : String
  /-- The attempts since the last success. -/
  attempts : UInt32
  /-- How many attempts are allowed. -/
  limit : UInt32
  /-- Whether the connection is given up. -/
  halted : Bool
  deriving DecidableEq

namespace Connection

/-- A connection that nothing has happened to. -/
def new (url : String) (limit : UInt32) (reconnectId : String) : Connection :=
  ⟨url, reconnectId, 0, limit, false⟩

/-- The URL to connect with, carrying the reconnect id. -/
def connectUrl (c : Connection) : String := Address.withReconnectId c.url c.reconnectId

/-- Gives the connection up. -/
def halt (c : Connection) : Connection := { c with halted := true }

/-- Counts an attempt. The one beyond the limit halts the connection. -/
def recordAttempt (c : Connection) : Except TransportError UInt32 × Connection :=
  let c := { c with attempts := c.attempts + 1 }
  if c.limit < c.attempts then (.error (.reconnectLimit c.limit.toNat), c.halt)
  else (.ok c.attempts, c)

/-- Forgets the attempts, after a success. -/
def reset (c : Connection) : Connection := { c with attempts := 0 }

/-- More attempts were made than are allowed. -/
def isExhausted (c : Connection) : Bool := c.limit < c.attempts

/-- The connection as diagnostics write it. -/
def render (c : Connection) : String :=
  "ConnectionState \x7b url: " ++ Text.quoted c.url ++ ", reconnect_id: " ++ c.reconnectId ++
    ", attempts: " ++ toString c.attempts.toNat ++ ", limit: " ++ toString c.limit.toNat ++
    ", halted: " ++ toString c.halted ++ " \x7d"

end Connection

end RemoteAgent
