import RemoteAgent.Address
import RemoteAgent.Transport

/-!
# A channel to a host that does not answer

The channel checks the URL that it is opened at and is refused. It never opens, so every other
operation finds it closed.
-/

namespace RemoteAgent

/-- A channel that never opens. -/
inductive UnconnectedChannel where
  | closed
  deriving DecidableEq

namespace UnconnectedChannel

/-- Checks the URL and is refused. -/
def openAt (url : String) (channel : UnconnectedChannel) :
    Except TransportError Unit × UnconnectedChannel :=
  match Address.ofUrl url with
  | .error error => (.error error, channel)
  | .ok _ => (.error (.io "Connection refused (os error 111)"), channel)

instance : FarEnd UnconnectedChannel where
  isOpen _ := false
  openAt := openAt
  send _ channel := (.error .closed, channel)
  listen _ := .error .closed
  poll channel := some (.error .closed, channel)
  close channel := channel
  deliver _ channel := channel
  disconnect channel := channel
  refuse _ channel := channel
  sentFrames _ := #[]
  openedUrls _ := #[]

end UnconnectedChannel

end RemoteAgent
