import RemoteAgent.Error
import RemoteAgent.Json.Printer

/-!
# Commands

A command is a node of an instruction tree: it says how to get a value from the objects of the
agent. On the wire it is a JSON array of a tag and operands.
-/

namespace RemoteAgent

/-- A node of an instruction tree. -/
inductive Command where
  /-- A JSON value as it stands. -/
  | literal (value : Json)
  /-- Bytes, written in hexadecimal. -/
  | bytes (hex : String)
  /-- A new object. -/
  | map (entries : List (String × Command))
  /-- A new array. -/
  | sequence (items : List Command)
  /-- A cached value. -/
  | reference (id : String)
  /-- A property of the target. -/
  | get (target index : Command)
  /-- A call. If the callable is a property, its owner is the receiver. -/
  | call (callable : Command) (args : List Command)
  /-- A function that sends its arguments to the controller. -/
  | callback (id : String) (depth : Option Int)
  /-- An assignment to a property of the target, which is the result. -/
  | set (target index value : Command)

namespace Command

instance : Inhabited Command := ⟨.literal .null⟩

/-! ## Tags -/

/-- The kinds of commands. -/
inductive Tag where
  | literal
  | bytes
  | map
  | sequence
  | reference
  | get
  | call
  | callback
  | set
  deriving DecidableEq

/-- The tag on the wire. -/
def Tag.text : Tag → String
  | literal => "L"
  | bytes => "B"
  | map => "M"
  | sequence => "SQ"
  | reference => "R"
  | get => "G"
  | call => "C"
  | callback => "CB"
  | set => "S"

/-- The kind that a tag names. -/
def Tag.ofText? (text : String) : Option Tag :=
  [literal, bytes, map, sequence, reference, get, call, callback, set].find? (·.text = text)

/-- The kind of a command. -/
def tag : Command → Tag
  | literal _ => .literal
  | bytes _ => .bytes
  | map _ => .map
  | sequence _ => .sequence
  | reference _ => .reference
  | get _ _ => .get
  | call _ _ => .call
  | callback _ _ => .callback
  | set _ _ _ => .set

/-! ## Writing -/

mutual

/-- The JSON form of a command. A call always lists its arguments, a callback always has a depth or
null. -/
def toJson : Command → Json
  | literal value => .array [.string Tag.literal.text, value]
  | bytes hex => .array [.string Tag.bytes.text, .string hex]
  | map entries => .array [.string Tag.map.text, .object (fieldsToJson entries)]
  | sequence items => .array [.string Tag.sequence.text, .array (itemsToJson items)]
  | reference id => .array [.string Tag.reference.text, .string id]
  | get target index => .array [.string Tag.get.text, toJson target, toJson index]
  | call callable args =>
    .array [.string Tag.call.text, toJson callable, .array (itemsToJson args)]
  | callback id depth =>
    .array [.string Tag.callback.text, .string id, Json.ofOption (depth.map Json.ofInt)]
  | set target index value =>
    .array [.string Tag.set.text, toJson target, toJson index, toJson value]

/-- The JSON forms of some commands. -/
def itemsToJson : List Command → List Json
  | [] => []
  | item :: rest => toJson item :: itemsToJson rest

/-- The JSON forms of some named commands. -/
def fieldsToJson : List (String × Command) → List (String × Json)
  | [] => []
  | (name, node) :: rest => (name, toJson node) :: fieldsToJson rest

end

end Command

end RemoteAgent
