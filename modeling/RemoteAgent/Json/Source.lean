import RemoteAgent.Json.Token

/-!
# JSON source trees

The tree of a JSON text before its numerals and strings are interpreted. A numeral may be out of
range, a string or a key may have no content, an object may repeat a key, and the nesting has no
bound: a reader that skips an entry accepts all of these below it.

`Source.shift` takes one token, so reading a text is a fold over its tokens.
-/

namespace RemoteAgent.Json

/-- The tree of a JSON text. -/
inductive Source where
  | null
  | bool (flag : Bool)
  | number (numeral : Numeral)
  | string (content : Option String)
  | array (items : List Source)
  | object (fields : List (Option String × Source))

namespace Source

instance : Inhabited Source := ⟨.null⟩

/-- An array or object whose end has not been read. What it holds so far stands in reverse order. -/
inductive Unclosed where
  | array (items : List Source)
  | object (fields : List (Option String × Source)) (key : Option String)

/-- What may come next inside the innermost array or object. -/
inductive Expecting where
  /-- A value. -/
  | value
  /-- A value, or the end of an array without items. -/
  | firstItem
  /-- A key, or the end of an object without entries. -/
  | firstKey
  /-- A key. -/
  | key (fields : List (Option String × Source))
  /-- The colon after a key. -/
  | colon (fields : List (Option String × Source)) (key : Option String)
  /-- A comma or the end. -/
  | separator

/-- A text that has been read up to some token. -/
inductive Partial where
  /-- Inside a value; the innermost array or object comes first. -/
  | inside (unclosed : List Unclosed) (expecting : Expecting)
  /-- The value is complete. -/
  | complete (value : Source)

/-- Puts a complete value into the innermost array or object. -/
def place (value : Source) : List Unclosed → Partial
  | [] => .complete value
  | .array items :: rest => .inside (.array (value :: items) :: rest) .separator
  | .object fields key :: rest => .inside (.object ((key, value) :: fields) key :: rest) .separator

/-- Takes the first token of a value. -/
def shiftValue (unclosed : List Unclosed) : Token → Option Partial
  | .null => some (place .null unclosed)
  | .bool flag => some (place (.bool flag) unclosed)
  | .number numeral => some (place (.number numeral) unclosed)
  | .string content => some (place (.string content) unclosed)
  | .openArray => some (.inside (.array [] :: unclosed) .firstItem)
  | .openObject => some (.inside unclosed .firstKey)
  | _ => none

/-- Takes a token after a value: a comma, or the end of the innermost array or object. -/
def shiftSeparator : List Unclosed → Token → Option Partial
  | .array items :: rest, .comma => some (.inside (.array items :: rest) .value)
  | .array items :: rest, .closeArray => some (place (.array items.reverse) rest)
  | .object fields _ :: rest, .comma => some (.inside rest (.key fields))
  | .object fields _ :: rest, .closeObject => some (place (.object fields.reverse) rest)
  | _, _ => none

/-- Takes one token. -/
def shift (state : Partial) (token : Token) : Option Partial :=
  match state with
  | .complete _ => none
  | .inside unclosed .value => shiftValue unclosed token
  | .inside unclosed .firstItem =>
    match unclosed, token with
    | .array items :: rest, .closeArray => some (place (.array items.reverse) rest)
    | _, _ => shiftValue unclosed token
  | .inside unclosed .firstKey =>
    match token with
    | .closeObject => some (place (.object []) unclosed)
    | .string key => some (.inside unclosed (.colon [] key))
    | _ => none
  | .inside unclosed (.key fields) =>
    match token with
    | .string key => some (.inside unclosed (.colon fields key))
    | _ => none
  | .inside unclosed (.colon fields key) =>
    match token with
    | .colon => some (.inside (.object fields key :: unclosed) .value)
    | _ => none
  | .inside unclosed .separator => shiftSeparator unclosed token

/-- The tree that some tokens write. -/
def ofTokens? (tokens : List Token) : Option Source :=
  match tokens.foldlM shift (.inside [] .value) with
  | some (.complete value) => some value
  | _ => none

/-- The tree of a text. -/
def ofText? (text : String) : Option Source := (Token.scan text).bind ofTokens?

end Source

end RemoteAgent.Json
