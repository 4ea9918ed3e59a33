import RemoteAgent.Frame

/-!
# The framer

A framer cuts payloads into frames and puts packets together from frames. It keeps the slices of
the packet that is coming in, and for the packet that is going out a lock, which one send at a time
holds, and the acknowledgment that this send waits for.
-/

namespace RemoteAgent

/-- The acknowledgment of the slice that was sent last. -/
inductive Acknowledgment where
  /-- None is waited for. -/
  | none
  /-- It is waited for. -/
  | awaited
  /-- It has come, and the send that waits has not gone on yet. -/
  | arrived
  deriving DecidableEq

/-- The state of framing on one connection. -/
structure Framer where
  /-- How many characters fit into a frame. -/
  frameLimit : Nat
  /-- How long a send waits for the lock. -/
  lockTimeout : Duration
  /-- The time between two looks at the lock. -/
  lockPoll : Duration
  /-- How long a send waits for an acknowledgment. -/
  ackTimeout : Duration
  /-- The slices of the packet that is coming in. -/
  buffer : String
  /-- Whether a send holds the lock. -/
  sending : Bool
  /-- The acknowledgment that the holder of the lock waits for. -/
  acknowledgment : Acknowledgment
  deriving DecidableEq

/-- What an incoming frame amounts to. -/
inductive Received where
  /-- A slice was kept; it must be acknowledged. -/
  | continued
  /-- The last slice completed this packet. -/
  | packet (text : String)
  /-- A send may go on. -/
  | acknowledged
  /-- Nobody was waiting for this acknowledgment. -/
  | strayAcknowledgment
  deriving DecidableEq

namespace Framer

/-- An idle framer. A frame holds one character at least. -/
def new (frameLimit : Nat) (lockTimeout lockPoll ackTimeout : Duration) : Framer where
  frameLimit := max 1 frameLimit
  lockTimeout := lockTimeout
  lockPoll := lockPoll
  ackTimeout := ackTimeout
  buffer := ""
  sending := false
  acknowledgment := .none

/-- How many bytes of the incoming packet are there. -/
def bufferedBytes (p : Framer) : Nat := p.buffer.utf8ByteSize

/-- The frames of a payload. -/
def chunks (p : Framer) (payload : String) : List Frame := Frame.chunks p.frameLimit payload

/-- Takes an incoming frame. A frame that cannot be read changes nothing. -/
def receive (p : Framer) (text : String) : Except TransportError Received × Framer :=
  match Frame.parse text with
  | .error error => (.error error, p)
  | .ok ⟨.more, slice⟩ => (.ok .continued, { p with buffer := p.buffer ++ slice })
  | .ok ⟨.final, slice⟩ => (.ok (.packet (p.buffer ++ slice)), { p with buffer := "" })
  | .ok ⟨.acknowledge, _⟩ =>
    match p.acknowledgment with
    | .awaited => (.ok .acknowledged, { p with acknowledgment := .arrived })
    | .none | .arrived => (.ok .strayAcknowledgment, p)

/-- Takes the lock. -/
def lock (p : Framer) : Framer := { p with sending := true }

/-- Gives up the lock, and the acknowledgment that its holder waited for. -/
def release (p : Framer) : Framer := { p with sending := false, acknowledgment := .none }

/-- The framer as diagnostics write it. -/
def render (p : Framer) : String :=
  "Packetizer \x7b frame_limit: " ++ toString p.frameLimit ++ ", buffered: " ++
    toString p.bufferedBytes ++ ", sending: " ++ toString p.sending ++ " \x7d"

end Framer

end RemoteAgent
