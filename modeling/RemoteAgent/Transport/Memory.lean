import RemoteAgent.Transport

/-!
# A channel in memory

The far end is a pair of queues. Frames that are on their way to the agent outlive a break of the
channel and are read after it was opened again.
-/

namespace RemoteAgent

/-- A channel in memory. -/
structure MemoryChannel where
  /-- Whether the channel can be used. -/
  isOpen : Bool
  /-- Whether the far end refuses to be opened. -/
  refusing : Bool
  /-- The URLs of all successful openings. -/
  opened : Array String
  /-- The frames on their way to the agent. -/
  inbound : List String
  /-- All frames that the agent has sent. -/
  sent : Array String
  deriving DecidableEq

namespace MemoryChannel

/-- A channel that has not been opened. -/
def new : MemoryChannel := ⟨false, false, #[], [], #[]⟩

/-- Opens the channel, unless the far end refuses. -/
def openAt (url : String) (channel : MemoryChannel) :
    Except TransportError Unit × MemoryChannel :=
  if channel.refusing then (.error (.io ("connection to " ++ url ++ " refused")), channel)
  else (.ok (), { channel with isOpen := true, opened := channel.opened.push url })

/-- Sends a frame, if the channel is open. -/
def send (frame : String) (channel : MemoryChannel) : Except TransportError Unit × MemoryChannel :=
  if channel.isOpen then (.ok (), { channel with sent := channel.sent.push frame })
  else (.error .closed, channel)

/-- The next frame, or the end of the channel if it was closed. -/
def poll (channel : MemoryChannel) :
    Option (Except TransportError (Option String) × MemoryChannel) :=
  match channel.inbound with
  | frame :: rest => some (.ok (some frame), { channel with inbound := rest })
  | [] => if channel.isOpen then none else some (.ok none, channel)

/-- Closes the channel. -/
def close (channel : MemoryChannel) : MemoryChannel := { channel with isOpen := false }

/-- Lets something happen to the receiver. -/
def deliver (event : ChannelEvent) (channel : MemoryChannel) : MemoryChannel :=
  match event with
  | .frame text => { channel with inbound := channel.inbound ++ [text] }
  | .failure _ | .ended => channel.close

instance : FarEnd MemoryChannel where
  isOpen := MemoryChannel.isOpen
  openAt := openAt
  send := send
  listen channel := if channel.isOpen then .ok () else .error .closed
  poll := poll
  close := close
  deliver := deliver
  disconnect := close
  refuse refusing channel := { channel with refusing }
  sentFrames := sent
  openedUrls := opened

end MemoryChannel

end RemoteAgent
