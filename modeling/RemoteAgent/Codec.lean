import RemoteAgent.Error
import RemoteAgent.Json.Parser
import RemoteAgent.Json.Printer
import RemoteAgent.Text.Excerpt

/-!
# The codec between envelopes and wire text

An envelope travels as one JSON value without blanks. A text that is no JSON is an error that shows
its start. A codec may have someone to report its errors to; the error is reported, and returned all
the same.
-/

namespace RemoteAgent

/-- The wording of envelopes. -/
structure Codec where
  /-- Whether errors are reported to someone. -/
  reporting : Bool
  deriving DecidableEq

/-- A result of the codec, and the errors that were reported on the way to it. -/
structure Reported (α : Type) where
  /-- The result. -/
  result : Except CodecError α
  /-- The errors that someone was told of. -/
  reports : List CodecError

namespace Codec

/-- How many characters of a bad text an error shows. -/
def excerptLength : Nat := 50

/-- A good result, of which there is nothing to report. -/
def succeed {α : Type} (_codec : Codec) (value : α) : Reported α := ⟨.ok value, []⟩

/-- A failure, reported if there is someone to report it to. -/
def fail {α : Type} (codec : Codec) (error : CodecError) : Reported α :=
  ⟨.error error, if codec.reporting then [error] else []⟩

/-- The envelope that a text writes. -/
def decode (codec : Codec) (text : String) : Reported Json :=
  match Json.parse text with
  | some envelope => codec.succeed envelope
  | none => codec.fail (.decode (Text.firstChars excerptLength text))

/-- The text of an envelope. -/
def encode (envelope : Json) : String := envelope.render

/-- The text that a value becomes as a key: strings are keys already, flags and numbers are written
out. -/
def keyText? : Json → Option String
  | .string text => some text
  | .bool flag => some (toString flag)
  | .number value => some value.render
  | .null | .array _ | .object _ => none

/-- The entries with their keys as texts. -/
def textEntries? : List (Json × Json) → Option (List (String × Json))
  | [] => some []
  | (key, value) :: rest => do
    let key ← keyText? key
    let rest ← textEntries? rest
    some ((key, value) :: rest)

/-- The text of an object given entry by entry. The entries keep their order, and a key may come
again; nothing is written unless every key can be. -/
def encodeEntries (codec : Codec) (entries : List (Json × Json)) : Reported String :=
  match textEntries? entries with
  | some entries => codec.succeed (encode (.object entries))
  | none => codec.fail .keyNotText

/-- The codec as diagnostics write it. -/
def render (codec : Codec) : String :=
  "JsonCodec \x7b reporting: " ++ toString codec.reporting ++ " \x7d"

end Codec

end RemoteAgent
