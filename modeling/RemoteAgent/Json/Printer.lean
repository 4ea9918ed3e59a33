import RemoteAgent.Json.Basic
import RemoteAgent.Text.Hex

/-!
# JSON text

`Json.render` writes a value without any blank, `Json.renderIndented` with one entry a line. Strings
are quoted by `Json.quote`: the quote, the backslash and the controls below U+0020 are escaped, and
every other character stands for itself.
-/

namespace RemoteAgent.Json

/-- The escape of a character inside a quoted string, if it needs one. -/
def escape? (c : Char) : Option String :=
  match c with
  | '"' => some "\\\""
  | '\\' => some "\\\\"
  | '\x08' => some "\\b"
  | '\t' => some "\\t"
  | '\n' => some "\\n"
  | '\x0c' => some "\\f"
  | '\r' => some "\\r"
  | c => if c.toNat < 32 then some ("\\u00" ++ Hex.ofByte c.toNat.toUInt8) else none

/-- A character as it stands inside a quoted string. -/
def quoteChar (c : Char) : String := (escape? c).getD (String.singleton c)

/-- A text as a JSON string. -/
def quote (text : String) : String :=
  "\"" ++ String.join (text.toList.map quoteChar) ++ "\""

mutual

/-- The text of a value, without blanks. -/
def render : Json → String
  | .null => "null"
  | .bool true => "true"
  | .bool false => "false"
  | .number n => n.render
  | .string text => quote text
  | .array items => "[" ++ renderItems items ++ "]"
  | .object fields => "\x7b" ++ renderFields fields ++ "\x7d"

/-- The texts of some values, separated by commas. -/
def renderItems : List Json → String
  | [] => ""
  | [item] => render item
  | item :: rest => render item ++ "," ++ renderItems rest

/-- The texts of some entries, separated by commas. -/
def renderFields : List (String × Json) → String
  | [] => ""
  | [(key, value)] => quote key ++ ":" ++ render value
  | (key, value) :: rest => quote key ++ ":" ++ render value ++ "," ++ renderFields rest

end

/-- The start of a new line at a depth of nesting: two blanks for each level. -/
def newLine (depth : Nat) : String := "\n" ++ String.ofList (List.replicate (2 * depth) ' ')

mutual

/-- The text of a value with one entry a line, as part of a text nested `depth` levels deep. -/
def renderNested (depth : Nat) : Json → String
  | .array [] => "[]"
  | .object [] => "\x7b\x7d"
  | .array items => "[" ++ nestedItems (depth + 1) items ++ newLine depth ++ "]"
  | .object fields => "\x7b" ++ nestedFields (depth + 1) fields ++ newLine depth ++ "\x7d"
  | .null => "null"
  | .bool true => "true"
  | .bool false => "false"
  | .number n => n.render
  | .string text => quote text

/-- Some values on a line each. -/
def nestedItems (depth : Nat) : List Json → String
  | [] => ""
  | [item] => newLine depth ++ renderNested depth item
  | item :: rest => newLine depth ++ renderNested depth item ++ "," ++ nestedItems depth rest

/-- Some entries on a line each. -/
def nestedFields (depth : Nat) : List (String × Json) → String
  | [] => ""
  | [(key, value)] => newLine depth ++ quote key ++ ": " ++ renderNested depth value
  | (key, value) :: rest =>
    newLine depth ++ quote key ++ ": " ++ renderNested depth value ++ "," ++ nestedFields depth rest

end

/-- The text of a value with one entry a line. -/
def renderIndented (value : Json) : String := renderNested 0 value

end RemoteAgent.Json
