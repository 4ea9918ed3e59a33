/-!
# Hexadecimal text

Two digits a byte. Writing uses lowercase digits; reading takes both cases and works on the UTF-8
bytes of the text, so an error names the position of a byte.
-/

namespace RemoteAgent

/-- Why a text is not the hexadecimal form of bytes. -/
inductive HexError where
  /-- The count of bytes is odd. -/
  | oddLength
  /-- A byte is no digit. -/
  | invalidDigit (byte : UInt8) (position : Nat)
  deriving DecidableEq

namespace Hex

/-- The lowercase digit of a number below sixteen. -/
def digit (n : UInt8) : Char :=
  if n < 10 then Char.ofNat (48 + n.toNat) else Char.ofNat (87 + n.toNat)

/-- The two digits of a byte. -/
def ofByte (byte : UInt8) : String := String.ofList [digit (byte / 16), digit (byte % 16)]

/-- The digits of some bytes. -/
def encode (bytes : List UInt8) : String := String.join (bytes.map ofByte)

/-- The value of a digit, given as an ASCII byte. -/
def digitValue? (byte : UInt8) : Option UInt8 :=
  if 48 ≤ byte ∧ byte ≤ 57 then some (byte - 48)
  else if 97 ≤ byte ∧ byte ≤ 102 then some (byte - 87)
  else if 65 ≤ byte ∧ byte ≤ 70 then some (byte - 55)
  else none

/-- Reads pairs of digits, the first one standing at `position`. -/
def decodePairs (position : Nat) : List UInt8 → Except HexError (List UInt8)
  | high :: low :: rest =>
    match digitValue? high, digitValue? low with
    | none, _ => .error (.invalidDigit high position)
    | some _, none => .error (.invalidDigit low (position + 1))
    | some h, some l => (decodePairs (position + 2) rest).map ((h * 16 + l) :: ·)
  | _ => .ok []

/-- Reads the hexadecimal form of bytes. The count of bytes is checked before any digit. -/
def decode (text : String) : Except HexError (List UInt8) :=
  let bytes := text.toUTF8.toList
  if bytes.length % 2 = 1 then .error .oddLength else decodePairs 0 bytes

end Hex

end RemoteAgent
