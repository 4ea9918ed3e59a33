/-!
# Texts on lines

A stream of bytes carries texts, one a line. A text is written with a line feed behind it. A reader
takes the bytes of a line up to the line feed, and leaves out a carriage return in front of that;
what stands behind the last line feed is a line, too, when the stream ends there.
-/

namespace RemoteAgent.Lines

/-- The byte that ends a line. -/
def lineFeed : UInt8 := 10

/-- The byte that may stand in front of the end. -/
def carriageReturn : UInt8 := 13

/-- The bytes of a text on a line of its own. -/
def write (text : String) : ByteArray := (text ++ "\n").toUTF8

/-- The lines that end in some bytes, and the start of the line that does not, in reverse order.
`held` is the start of the first line, also in reverse order. -/
def cut (held : List UInt8) : List UInt8 → List (List UInt8) × List UInt8
  | [] => ([], held)
  | byte :: rest =>
    if byte = lineFeed then
      let (lines, held') := cut [] rest
      (held.reverse :: lines, held')
    else cut (byte :: held) rest

/-- A line that has ended, without the carriage return at its end. -/
def withoutReturn (line : List UInt8) : List UInt8 :=
  match line.reverse with
  | [] => []
  | byte :: rest => if byte = carriageReturn then rest.reverse else line

/-- The text of some bytes, if they are one. -/
def text? (bytes : List UInt8) : Option String := String.fromUTF8? bytes.toByteArray

/-- The texts on the lines that have ended in a stream; none where a line is no text. -/
def ended (stream : List UInt8) : List (Option String) :=
  (cut [] stream).1.map fun line => text? (withoutReturn line)

/-- The texts on the lines of a stream that ends. -/
def read (stream : List UInt8) : List (Option String) :=
  match (cut [] stream).2 with
  | [] => ended stream
  | held => ended stream ++ [text? held.reverse]

end RemoteAgent.Lines
