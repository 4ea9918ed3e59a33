/-!
# Excerpts

The start of a text, for diagnostics that must stay short: counted in characters, or in bytes of the
UTF-8 form without ever splitting a character.
-/

namespace RemoteAgent.Text

/-- The first characters of a text. -/
def firstChars (count : Nat) (text : String) : String := String.ofList (text.toList.take count)

/-- The longest start of some characters that fits into a count of bytes. -/
def fitting : Nat → List Char → List Char
  | _, [] => []
  | bytes, c :: rest =>
    if c.utf8Size ≤ bytes then c :: fitting (bytes - c.utf8Size) rest else []

/-- The longest start of a text that fits into a count of bytes. -/
def firstBytes (bytes : Nat) (text : String) : String := String.ofList (fitting bytes text.toList)

/-- A text of at most so many bytes as it is; of a longer one the start that fits, and dots. -/
def abbreviate (bytes : Nat) (text : String) : String :=
  if text.utf8ByteSize ≤ bytes then text else firstBytes bytes text ++ "..."

end RemoteAgent.Text
