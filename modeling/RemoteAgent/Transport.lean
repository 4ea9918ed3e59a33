import RemoteAgent.Error

/-!
# Transports

A transport is a duplex channel for frames, and a state that its own operations change. It is opened
at a URL, and may be opened again after it was closed. Receiving has two parts: `listen` is what a
receiver finds when it begins to wait, `poll` what it finds while it waits.

`FarEnd` is what the other side of a simulated transport can do and see.
-/

namespace RemoteAgent

/-- A duplex channel for frames. -/
class Transport (τ : Type) where
  /-- Whether the channel can be used. -/
  isOpen : τ → Bool
  /-- Opens the channel at a URL. -/
  openAt : String → τ → Except TransportError Unit × τ
  /-- Sends a frame. -/
  send : String → τ → Except TransportError Unit × τ
  /-- Begins to wait for a frame, or fails at once. -/
  listen : τ → Except TransportError Unit
  /-- What a waiting receiver gets, if there is anything: a frame, or none if the far end closed the
  channel. -/
  poll : τ → Option (Except TransportError (Option String) × τ)
  /-- Closes the channel. -/
  close : τ → τ

/-- Something that happens to a receiver. -/
inductive ChannelEvent where
  /-- A frame comes in. -/
  | frame (text : String)
  /-- Receiving fails. -/
  | failure (error : TransportError)
  /-- The far end closes the channel. -/
  | ended
  deriving DecidableEq

/-- The other side of a simulated transport. -/
class FarEnd (τ : Type) extends Transport τ where
  /-- Lets something happen to the receiver. -/
  deliver : ChannelEvent → τ → τ
  /-- Breaks the channel. -/
  disconnect : τ → τ
  /-- Refuses to be opened, or does so no longer. -/
  refuse : Bool → τ → τ
  /-- Every frame that was sent, the oldest first. -/
  sentFrames : τ → Array String
  /-- Every URL that the far end saw, the oldest first. -/
  openedUrls : τ → Array String

end RemoteAgent
