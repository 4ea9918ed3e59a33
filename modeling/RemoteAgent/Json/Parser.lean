import RemoteAgent.Json.Source
import RemoteAgent.Json.Basic

/-!
# Reading JSON

`Json.parse` reads one value from a text. The text must be well formed, each string and each key
must have a content, each numeral a number, and arrays and objects may be nested up to
`nestingLimit` deep. Of several entries with one key the last one counts.
-/

namespace RemoteAgent.Json

mutual

/-- The value of a source tree, of which at most `limit` arrays and objects lie in each other. -/
def resolve (limit : Nat) : Source → Option Json
  | .null => some .null
  | .bool flag => some (.bool flag)
  | .number numeral => numeral.toNumber?.map .number
  | .string content => content.map .string
  | .array items =>
    match limit with
    | 0 => none
    | limit + 1 => (resolveItems limit items).map .array
  | .object fields =>
    match limit with
    | 0 => none
    | limit + 1 => (resolveFields limit fields).map fun fields => .object (Fields.ofList fields)

/-- The values of some trees. -/
def resolveItems (limit : Nat) : List Source → Option (List Json)
  | [] => some []
  | item :: rest =>
    match resolve limit item, resolveItems limit rest with
    | some item, some rest => some (item :: rest)
    | _, _ => none

/-- The values of some entries. -/
def resolveFields (limit : Nat) : List (Option String × Source) → Option (List (String × Json))
  | [] => some []
  | (key, value) :: rest =>
    match key, resolve limit value, resolveFields limit rest with
    | some key, some value, some rest => some ((key, value) :: rest)
    | _, _, _ => none

end

/-- How many arrays and objects of a message may lie in each other. -/
def nestingLimit : Nat := 127

/-- Reads a value with a bound of its own on the nesting. -/
def parseWithin (limit : Nat) (text : String) : Option Json :=
  (Source.ofText? text).bind (resolve limit)

/-- Reads a value. -/
def parse (text : String) : Option Json := parseWithin nestingLimit text

end RemoteAgent.Json
