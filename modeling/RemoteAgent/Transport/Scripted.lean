import RemoteAgent.Transport

/-!
# A channel that follows a script

The outcome of every opening and of every send is laid down in advance; when the script is at its
end, everything succeeds. A receiver waits for the next event, whether the channel is open or not.
-/

namespace RemoteAgent

/-- The outcome of one send of a scripted channel. -/
inductive ScriptedSend where
  /-- The frame is sent. -/
  | accepted
  /-- The send fails, and the channel stays as it was. -/
  | failed (error : TransportError)
  /-- The send fails, and the channel breaks. -/
  | broke (error : TransportError)
  deriving DecidableEq

/-- A channel that follows a script. -/
structure ScriptedChannel where
  /-- Whether the channel can be used. -/
  isOpen : Bool
  /-- The outcomes of the next openings; a failed one leaves the channel as it was. -/
  opens : List (Option TransportError)
  /-- The outcomes of the next sends. -/
  sends : List ScriptedSend
  /-- What the receiver is going to see. -/
  events : List ChannelEvent
  /-- The URLs of all openings, failed ones included. -/
  opened : Array String
  /-- All frames that were sent. -/
  sent : Array String
  deriving DecidableEq

namespace ScriptedChannel

/-- A channel that has not been opened, with its script. -/
def new (opens : List (Option TransportError)) (sends : List ScriptedSend) :
    ScriptedChannel :=
  ⟨false, opens, sends, [], #[], #[]⟩

/-- Opens the channel as the script says. -/
def openAt (url : String) (channel : ScriptedChannel) :
    Except TransportError Unit × ScriptedChannel :=
  let channel := { channel with opened := channel.opened.push url }
  match channel.opens with
  | some error :: rest => (.error error, { channel with opens := rest })
  | none :: rest => (.ok (), { channel with opens := rest, isOpen := true })
  | [] => (.ok (), { channel with isOpen := true })

/-- Sends a frame as the script says. -/
def send (frame : String) (channel : ScriptedChannel) :
    Except TransportError Unit × ScriptedChannel :=
  match channel.sends with
  | [] => (.ok (), { channel with sent := channel.sent.push frame })
  | .accepted :: rest => (.ok (), { channel with sends := rest, sent := channel.sent.push frame })
  | .failed error :: rest => (.error error, { channel with sends := rest })
  | .broke error :: rest => (.error error, { channel with sends := rest, isOpen := false })

/-- The next event. -/
def poll (channel : ScriptedChannel) :
    Option (Except TransportError (Option String) × ScriptedChannel) :=
  match channel.events with
  | .frame text :: rest => some (.ok (some text), { channel with events := rest })
  | .failure error :: rest => some (.error error, { channel with events := rest })
  | .ended :: rest => some (.ok none, { channel with events := rest })
  | [] => none

/-- Closes the channel. -/
def close (channel : ScriptedChannel) : ScriptedChannel := { channel with isOpen := false }

instance : FarEnd ScriptedChannel where
  isOpen := ScriptedChannel.isOpen
  openAt := openAt
  send := send
  listen _ := .ok ()
  poll := poll
  close := close
  deliver event channel := { channel with events := channel.events ++ [event] }
  disconnect := close
  refuse _ channel := channel
  sentFrames := sent
  openedUrls := opened

end ScriptedChannel

end RemoteAgent
