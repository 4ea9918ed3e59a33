import RemoteAgent.Error
import RemoteAgent.Text.Excerpt

/-!
# Frames

A frame is one unit of the transport: an indicator and a slice of a payload. A payload that is
longer than the frame limit is cut into continue frames and one final frame; every continue frame
is full, and the final frame holds what is left.
-/

namespace RemoteAgent

/-- What a frame is for. -/
inductive FrameKind where
  /-- More slices follow; this one is to be acknowledged. -/
  | more
  /-- The last slice. -/
  | final
  /-- The acknowledgment of a slice. -/
  | acknowledge
  deriving DecidableEq

namespace FrameKind

/-- The first character on the wire. -/
def indicator : FrameKind → Char
  | more => 'C'
  | final => 'F'
  | acknowledge => 'A'

/-- The kind that a character indicates. -/
def ofIndicator? (c : Char) : Option FrameKind :=
  [more, final, acknowledge].find? (·.indicator = c)

/-- The word for a kind. -/
def word : FrameKind → String
  | more => "continue"
  | final => "final"
  | acknowledge => "acknowledge"

end FrameKind

/-- One unit of the transport. -/
structure Frame where
  /-- What it is for. -/
  kind : FrameKind
  /-- The slice that it carries. -/
  payload : String
  deriving DecidableEq

namespace Frame

/-- The acknowledgment of a slice. -/
def acknowledgment : Frame := ⟨.acknowledge, ""⟩

/-- How many characters of a bad frame an error shows. -/
def excerptLength : Nat := 10

/-- Reads a frame. -/
def parse (text : String) : Except TransportError Frame :=
  let unknown := Except.error (.unknownIndicator (Text.firstChars excerptLength text))
  match text.toList with
  | [] => unknown
  | first :: rest =>
    match FrameKind.ofIndicator? first with
    | some kind => .ok ⟨kind, String.ofList rest⟩
    | none => unknown

/-- The wire text of a frame. -/
def encode (frame : Frame) : String := String.singleton frame.kind.indicator ++ frame.payload

/-- Cuts the rest of a payload, when `room` more characters fit behind the ones `held` in reverse
order. A full frame is closed only when another character follows. -/
def cut (limit : Nat) (room : Nat) (held : List Char) : List Char → List Frame
  | [] => [⟨.final, String.ofList held.reverse⟩]
  | c :: rest =>
    match room with
    | 0 => ⟨.more, String.ofList held.reverse⟩ :: cut limit (limit - 1) [c] rest
    | room + 1 => cut limit room (c :: held) rest

/-- The frames of a payload, with at most `limit` characters each. -/
def chunks (limit : Nat) (payload : String) : List Frame := cut limit limit [] payload.toList

end Frame

end RemoteAgent
