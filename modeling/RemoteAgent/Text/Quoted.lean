import RemoteAgent.Text.Printable

/-!
# Quoted text in diagnostics

Diagnostics quote a text so that every character of it can be seen: the quote in use, the
backslash, line ends, tabs and NUL have a short escape, and any other character that is not
printable is written by its number, `\u{301}`.

A text stands between double quotes, where a single quote needs no escape; a character stands
between single quotes, where a double quote needs none.
-/

namespace RemoteAgent.Text

/-- The escape of a character by its number. -/
def numericEscape (c : Char) : String :=
  "\\u\x7b" ++ String.ofList (Nat.toDigits 16 c.toNat) ++ "\x7d"

/-- A character as it stands between two of the given quotes. -/
def quotedChar (quote c : Char) : String :=
  if c = quote ∨ c = '\\' then String.ofList ['\\', c]
  else
    match c with
    | '\x00' => "\\0"
    | '\t' => "\\t"
    | '\n' => "\\n"
    | '\r' => "\\r"
    | c => if isPrintable c then String.singleton c else numericEscape c

/-- A text between double quotes. -/
def quoted (text : String) : String :=
  "\"" ++ String.join (text.toList.map (quotedChar '"')) ++ "\""

/-- A character between single quotes. -/
def quotedSingle (c : Char) : String := "'" ++ quotedChar '\'' c ++ "'"

end RemoteAgent.Text
