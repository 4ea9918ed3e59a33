import RemoteAgent.Error

/-!
# Addresses

The URL of a controller is `tcp://` and an address, and may go on with a path and a query. Whoever
connects again adds its reconnect id to the query, and the address is found in front of both.
-/

namespace RemoteAgent.Address

/-- What the URL of a controller starts with. -/
def scheme : String := "tcp://"

/-- The text behind the scheme. -/
def afterScheme? : List Char → List Char → Option (List Char)
  | [], text => some text
  | _ :: _, [] => none
  | c :: scheme, d :: text => if c = d then afterScheme? scheme text else none

/-- Whether a character ends the address. -/
def endsAddress (c : Char) : Bool := c == '/' || c == '?'

/-- The address in a URL: it is not empty and has a colon in it. -/
def ofUrl (url : String) : Except TransportError String :=
  match afterScheme? scheme.toList url.toList with
  | none => .error (.invalidUrl url)
  | some rest =>
    let address := rest.takeWhile (!endsAddress ·)
    if ':' ∈ address then .ok (String.ofList address) else .error (.invalidUrl url)

/-- The name of the reconnect id in a query. -/
def reconnectParameter : String := "reconnect_id"

/-- The URL with a reconnect id at the end of its query. -/
def withReconnectId (url id : String) : String :=
  let separator := if '?' ∈ url.toList then "&" else "?"
  url ++ separator ++ reconnectParameter ++ "=" ++ id

end RemoteAgent.Address
