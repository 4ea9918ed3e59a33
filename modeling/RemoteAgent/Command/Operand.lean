import RemoteAgent.Command

/-!
# Operands

What a tag needs of the JSON values behind it. Operands are read in their order, so of several
faults the first one is reported; operands that a tag does not ask for are ignored.
-/

namespace RemoteAgent

/-- The error of a tag whose operands do not fit it. -/
def malformed {α : Type} (tag : String) (fault : OperandFault) : Except ParseError α :=
  .error (.malformed tag fault)

/-- The operand at a position. -/
def operand (tag : String) (operands : List Json) (position : Nat) : Except ParseError Json :=
  match operands[position]? with
  | some value => .ok value
  | none => malformed tag (.missing position)

/-- The operand at a position, which must be a string. -/
def textOperand (tag : String) (operands : List Json) (position : Nat) :
    Except ParseError String := do
  match ← operand tag operands position with
  | .string text => return text
  | _ => malformed tag (.notText position)

/-- The least depth that can be told apart. -/
def leastDepth : Int := -9223372036854775808

/-- The greatest depth that can be told apart. -/
def greatestDepth : Int := 9223372036854775807

/-- The depth that a number gives: a number with a fraction is rounded down, and one out of range is
taken to the nearest depth within. -/
def depthOfNumber (value : Number) : Option Int :=
  match value.toInt64? with
  | some n => some n
  | none => value.toBinary64?.map fun x => max leastDepth (min greatestDepth x.floor)

/-- The depth at a position, if one is given. -/
def depthOperand (tag : String) (operands : List Json) (position : Nat) :
    Except ParseError (Option Int) :=
  match operands[position]? with
  | none | some .null => .ok none
  | some (.number value) => .ok (depthOfNumber value)
  | some _ => malformed tag .notDepth

end RemoteAgent
