import RemoteAgent.Framer
import RemoteAgent.Progress
import RemoteAgent.Transport

/-!
# Sending over a link

A link is a framer on a transport, with two clocks: timers run on the one, and the time that a
send has waited for the lock is measured on the other.

`Sending` is one send. It looks at the lock until it is free or the time is up, hands its frames
to the transport one by one, and after each slice waits for the acknowledgment. However it ends,
the lock is free afterwards. Handing over a frame is a step of its own, because the transport may
take its time over it.
-/

namespace RemoteAgent

/-- A framer on a transport. -/
structure Link (τ : Type) where
  /-- The framer. -/
  framer : Framer
  /-- The transport. -/
  transport : τ
  /-- The time that timers run on, in milliseconds. -/
  timer : Nat
  /-- The time that waiting is measured on, in milliseconds. -/
  wall : Nat

namespace Link

variable {τ : Type}

/-- Gives up the send lock. -/
def release (link : Link τ) : Link τ := { link with framer := link.framer.release }

/-- Hands a frame to the transport. -/
def transmit [Transport τ] (link : Link τ) (frame : Frame) :
    Except TransportError Unit × Link τ :=
  let (result, transport) := Transport.send frame.encode link.transport
  (result, { link with transport })

/-- Takes an incoming frame. -/
def receive (link : Link τ) (text : String) : Except TransportError Received × Link τ :=
  let (result, framer) := link.framer.receive text
  (result, { link with framer })

/-- Takes an incoming frame and acknowledges a slice. The result is the packet that was completed,
if any. -/
def handle [Transport τ] (link : Link τ) (text : String) :
    Except TransportError (Option String) × Link τ :=
  match link.receive text with
  | (.error error, link) => (.error error, link)
  | (.ok .continued, link) =>
    match link.transmit .acknowledgment with
    | (.ok (), link) => (.ok none, link)
    | (.error error, link) => (.error error, link)
  | (.ok (.packet packet), link) => (.ok (some packet), link)
  | (.ok .acknowledged, link) | (.ok .strayAcknowledgment, link) => (.ok none, link)

end Link

/-- Where a send goes on. -/
inductive Sending where
  /-- It looks at the lock: for the first time now, or again at the given time. -/
  | acquiring (payload : String) (since : Nat) (again : Option Nat)
  /-- It holds the lock, and hands over a frame. -/
  | transmitting (frame : Frame) (rest : List Frame)
  /-- It holds the lock, and waits for the acknowledgment of a slice. -/
  | waiting (rest : List Frame) (deadline : Nat)
  deriving DecidableEq

namespace Sending

variable {τ : Type}

/-- A send that is about to look at the lock. -/
def start (payload : String) (link : Link τ) : Sending := .acquiring payload link.wall none

/-- Whether the send can take a step now. -/
def isReady (link : Link τ) : Sending → Bool
  | .acquiring _ _ again => again.all (· ≤ link.timer)
  | .transmitting _ _ => true
  | .waiting _ deadline =>
    link.framer.acknowledgment = .arrived ∨ deadline ≤ link.timer

/-- When the passing of time will let the send take a step. -/
def deadline? : Sending → Option Nat
  | .acquiring _ _ again => again
  | .transmitting _ _ => none
  | .waiting _ deadline => some deadline

/-- What the next step takes off the allowance of a turn: waking up after a pause counts, and so
does the end of waiting for an acknowledgment. -/
def cost : Sending → Nat
  | .acquiring _ _ none | .transmitting _ _ => 0
  | .acquiring _ _ (some _) | .waiting _ _ => 1

/-- Whether the send holds the lock. -/
def holdsLock : Sending → Bool
  | .acquiring _ _ _ => false
  | .transmitting _ _ | .waiting _ _ => true

/-- A step of a send. -/
abbrev Step (τ : Type) := Progress Sending (Except TransportError Unit) × Link τ

/-- Ends a send that holds the lock. -/
def finish (link : Link τ) (result : Except TransportError Unit) : Step τ :=
  (.done result, link.release)

/-- Turns to the next frame. For a slice the acknowledgment is awaited before it can come. -/
def next (link : Link τ) : List Frame → Step τ
  | [] => finish link (.ok ())
  | frame :: rest =>
    let framer :=
      if frame.kind = .more then { link.framer with acknowledgment := .awaited }
      else link.framer
    (.going (.transmitting frame rest), { link with framer })

/-- Looks at the lock. -/
def acquire (link : Link τ) (payload : String) (since : Nat) : Step τ :=
  let framer := link.framer
  if framer.sending = false then
    next { link with framer := framer.lock } (framer.chunks payload)
  else if framer.lockTimeout.milliseconds ≤ link.wall - since then
    (.done (.error (.lockTimeout framer.lockTimeout)), link)
  else (.going (.acquiring payload since (some (link.timer + framer.lockPoll.milliseconds))), link)

/-- Hands over a frame. -/
def transmit [Transport τ] (link : Link τ) (frame : Frame) (rest : List Frame) : Step τ :=
  match link.transmit frame with
  | (.error error, link) => finish link (.error error)
  | (.ok (), link) =>
    if frame.kind = .more then
      (.going (.waiting rest (link.timer + link.framer.ackTimeout.milliseconds)), link)
    else next link rest

/-- Looks for the acknowledgment. One that came in time counts even when the time is up now. -/
def await (link : Link τ) (rest : List Frame) (deadline : Nat) : Step τ :=
  if link.framer.acknowledgment = .arrived then
    next { link with framer := { link.framer with acknowledgment := .none } } rest
  else if deadline ≤ link.timer then
    finish link (.error (.ackTimeout link.framer.ackTimeout))
  else (.going (.waiting rest deadline), link)

/-- Takes a step. -/
def step [Transport τ] (link : Link τ) : Sending → Step τ
  | .acquiring payload since _ => acquire link payload since
  | .transmitting frame rest => transmit link frame rest
  | .waiting rest deadline => await link rest deadline

/-- Gives a send up, wherever it is. -/
def abandon (link : Link τ) (sending : Sending) : Link τ :=
  if sending.holdsLock then link.release else link

end Sending

end RemoteAgent
