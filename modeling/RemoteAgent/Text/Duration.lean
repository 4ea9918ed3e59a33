/-!
# Durations in diagnostics

A duration is a whole count of milliseconds. It is written in the greatest unit that it fills,
with as many decimals as it needs: `0ns`, `20ms`, `1.5s`, `2500s`.
-/

namespace RemoteAgent

/-- A span of time in milliseconds. -/
structure Duration where
  /-- The count of milliseconds. -/
  milliseconds : Nat
  deriving DecidableEq

namespace Duration

/-- The decimals of a second, without zeros at the end. -/
def decimals (milliseconds : Nat) : String :=
  let padded := (Nat.toDigits 10 (1000 + milliseconds % 1000)).drop 1
  String.ofList ((padded.reverse.dropWhile (· == '0')).reverse)

/-- The text of a duration. -/
def render (d : Duration) : String :=
  if d.milliseconds = 0 then "0ns"
  else if d.milliseconds < 1000 then toString d.milliseconds ++ "ms"
  else if d.milliseconds % 1000 = 0 then toString (d.milliseconds / 1000) ++ "s"
  else toString (d.milliseconds / 1000) ++ "." ++ decimals d.milliseconds ++ "s"

end Duration

end RemoteAgent
