import RemoteAgent.Transport

/-!
# Several receivers on one transport

Receivers wait in line: a frame goes to the one that has waited longest.
-/

namespace RemoteAgent

/-- A transport with receivers waiting on it. -/
structure Receivers (τ : Type) where
  /-- The transport. -/
  transport : τ
  /-- The receivers that wait, the first one first. -/
  line : List Nat
  /-- What receivers got, the last one first. -/
  finished : List (Nat × Except TransportError (Option String))

namespace Receivers

variable {τ : Type} [Transport τ]

/-- Lets receivers go that have something to get. -/
def serve (transport : τ) (finished : List (Nat × Except TransportError (Option String))) :
    List Nat → Receivers τ
  | [] => ⟨transport, [], finished⟩
  | n :: rest =>
    match Transport.poll transport with
    | some (result, transport) => serve transport ((n, result) :: finished) rest
    | none => ⟨transport, n :: rest, finished⟩

/-- Lets receivers go that have something to get. -/
def settle (r : Receivers τ) : Receivers τ := serve r.transport r.finished r.line

/-- Begins to receive. -/
def receive (r : Receivers τ) (n : Nat) : Receivers τ :=
  match Transport.listen r.transport with
  | .ok () => { r with line := r.line ++ [n] }
  | .error error => { r with finished := (n, .error error) :: r.finished }

end Receivers

end RemoteAgent
