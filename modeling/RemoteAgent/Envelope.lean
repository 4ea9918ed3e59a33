import RemoteAgent.Json.Basic

/-!
# Envelopes of the agent

What the agent sends to the controller: a JSON array whose first item is the tag.
-/

namespace RemoteAgent.Envelope

/-- Answers a request with a value. -/
def reply (id : String) (value : Json) : Json := .array [.string "G", .string id, value]

/-- Reports a fault, under the id of the request that failed if it has one. -/
def exception (text : String) (id : Option String) : Json :=
  .array [.string "X", .string text, Json.ofOption (id.map .string)]

/-- Calls back a function of the controller. -/
def callback (id : String) (args : List Json) : Json :=
  .array [.string "CB", .string id, .array args]

/-- Shows that the agent is alive. -/
def keepAlive : Json := .array [.string "K"]

end RemoteAgent.Envelope
