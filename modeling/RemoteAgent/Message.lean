import RemoteAgent.Command.Parser

/-!
# Messages

What the controller sends to the agent: a JSON array of a tag and operands, like a command. A
message says what becomes of the value of its command.
-/

namespace RemoteAgent

/-- A message of the controller. -/
inductive Message where
  /-- Evaluate, and drop the result. -/
  | exec (command : Command)
  /-- Evaluate, and answer with the result down to a depth. -/
  | get (replyId : String) (command : Command) (depth : Option Int)
  /-- Evaluate, and cache the result. -/
  | connect (cacheId : String) (command : Command)
  /-- Drop a cached value. -/
  | disconnect (cacheId : String)
  /-- Nothing but a sign of life. -/
  | keepAlive

namespace Message

instance : Inhabited Message := ⟨.keepAlive⟩

/-- The kinds of messages. -/
inductive Tag where
  | exec
  | get
  | connect
  | disconnect
  | keepAlive
  deriving DecidableEq

/-- The tag on the wire. -/
def Tag.text : Tag → String
  | exec => "E"
  | get => "G"
  | connect => "C"
  | disconnect => "D"
  | keepAlive => "K"

/-- The kind that a tag names. -/
def Tag.ofText? (text : String) : Option Tag :=
  [exec, get, connect, disconnect, keepAlive].find? (·.text = text)

/-- The kind of a message. -/
def tag : Message → Tag
  | exec _ => .exec
  | get _ _ _ => .get
  | connect _ _ => .connect
  | disconnect _ => .disconnect
  | keepAlive => .keepAlive

/-- The id under which a message is answered, also when it fails. -/
def replyId? : Message → Option String
  | get replyId _ _ => some replyId
  | _ => none

/-- The command at a position. -/
def commandOperand (tag : String) (operands : List Json) (position : Nat) :
    Except ParseError Command := do
  Command.parse (← operand tag operands position)

/-- Reads the message that a tag and operands make. -/
def parseOperands (tag : Tag) (operands : List Json) : Except ParseError Message :=
  match tag with
  | .exec => return .exec (← commandOperand tag.text operands 0)
  | .get =>
    return .get (← textOperand tag.text operands 0) (← commandOperand tag.text operands 1)
      (← depthOperand tag.text operands 2)
  | .connect =>
    return .connect (← textOperand tag.text operands 0) (← commandOperand tag.text operands 1)
  | .disconnect => return .disconnect (← textOperand tag.text operands 0)
  | .keepAlive => return .keepAlive

/-- Reads a message. -/
def parse : Json → Except ParseError Message
  | .array [] => .error (.missingTag .message)
  | .array (.string text :: operands) =>
    match Tag.ofText? text with
    | some tag => parseOperands tag operands
    | none => .error (.unknownTag .message text)
  | .array (head :: _) => .error (.unknownTag .message head.render)
  | other => .error (.notAnArray .message other.typeName)

end Message

end RemoteAgent
