import RemoteAgent.Command.Operand

/-!
# Reading commands

`Command.parse` accepts a JSON array of a tag and its operands, and fails at the first fault,
however deep in the tree it lies.
-/

namespace RemoteAgent.Command

/-- The error of a tag with too few operands. An operand is read before the next one is missed. -/
def missing {α : Type} (tag : Tag) (position : Nat) : Except ParseError α :=
  malformed tag.text (.missing position)

mutual

/-- Reads a command. -/
def parse : Json → Except ParseError Command
  | .array [] => .error (.missingTag .command)
  | .array (.string text :: operands) =>
    match Tag.ofText? text with
    | some tag => parseOperands tag operands
    | none => .error (.unknownTag .command text)
  | .array (head :: _) => .error (.unknownTag .command head.render)
  | other => .error (.notAnArray .command other.typeName)

/-- Reads the command that a tag and operands make. -/
def parseOperands (tag : Tag) (operands : List Json) : Except ParseError Command :=
  match tag with
  | .literal => return .literal (← operand tag.text operands 0)
  | .bytes => return .bytes (← textOperand tag.text operands 0)
  | .reference => return .reference (← textOperand tag.text operands 0)
  | .callback =>
    return .callback (← textOperand tag.text operands 0) (← depthOperand tag.text operands 1)
  | .map =>
    match operands with
    | .object fields :: _ => return .map (← parseFields fields)
    | _ :: _ => malformed tag.text .notObject
    | [] => missing tag 0
  | .sequence =>
    match operands with
    | .array items :: _ => return .sequence (← parseItems items)
    | _ :: _ => malformed tag.text .notList
    | [] => missing tag 0
  | .get =>
    match operands with
    | [] => missing tag 0
    | target :: rest => do
      let target ← parse target
      match rest with
      | [] => missing tag 1
      | index :: _ => return .get target (← parse index)
  | .call =>
    match operands with
    | [] => missing tag 0
    | callable :: rest => do
      let callable ← parse callable
      match rest with
      | [] | .null :: _ => return .call callable []
      | .array args :: _ => return .call callable (← parseItems args)
      | _ :: _ => malformed tag.text .notList
  | .set =>
    match operands with
    | [] => missing tag 0
    | target :: rest => do
      let target ← parse target
      match rest with
      | [] => missing tag 1
      | index :: rest => do
        let index ← parse index
        match rest with
        | [] => missing tag 2
        | value :: _ => return .set target index (← parse value)

/-- Reads some commands. -/
def parseItems : List Json → Except ParseError (List Command)
  | [] => .ok []
  | item :: rest => return (← parse item) :: (← parseItems rest)

/-- Reads some named commands. -/
def parseFields : List (String × Json) → Except ParseError (List (String × Command))
  | [] => .ok []
  | (name, node) :: rest => return (name, ← parse node) :: (← parseFields rest)

end

end RemoteAgent.Command
