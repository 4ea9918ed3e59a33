import RemoteAgent.Link
import RemoteAgent.Schedule

/-!
# Several sends on one link

A shared link is a link with the sends that are under way on it. `SharedLink.step` lets one of
them take a step; taking the steps in any order gives every way in which the sends may get into
each other's way.
-/

namespace RemoteAgent

/-- A link with sends under way. -/
structure SharedLink (τ : Type) where
  /-- The link. -/
  link : Link τ
  /-- The sends that have not ended, each with its number; the one whose last step is longest ago
  comes first. -/
  sends : List (Nat × Sending)
  /-- The results of the sends that have ended, the last one first. -/
  finished : List (Nat × Except TransportError Unit)

namespace SharedLink

variable {τ : Type}

/-- A link without sends. -/
def ofLink (link : Link τ) : SharedLink τ := ⟨link, [], []⟩

/-- The send of a number. -/
def send? (shared : SharedLink τ) (n : Nat) : Option Sending :=
  (shared.sends.find? (·.1 = n)).map Prod.snd

/-- Begins a send. -/
def begin (shared : SharedLink τ) (n : Nat) (payload : String) : SharedLink τ :=
  { shared with sends := shared.sends ++ [(n, Sending.start payload shared.link)] }

/-- Puts a send where its step has taken it. -/
def move (shared : SharedLink τ) (n : Nat) (link : Link τ)
    (progress : Progress Sending (Except TransportError Unit)) : SharedLink τ :=
  let others := shared.sends.filter (·.1 ≠ n)
  match progress with
  | .going sending => { shared with link := link, sends := others ++ [(n, sending)] }
  | .done result =>
    { shared with link := link, sends := others, finished := (n, result) :: shared.finished }

/-- Lets a send take a step. -/
def step [Transport τ] (shared : SharedLink τ) (n : Nat) : SharedLink τ :=
  match shared.send? n with
  | some sending =>
    let (progress, link) := sending.step shared.link
    shared.move n link progress
  | none => shared

/-- Gives a send up. -/
def abandon (shared : SharedLink τ) (n : Nat) : SharedLink τ :=
  match shared.send? n with
  | some sending =>
    { shared with
      link := sending.abandon shared.link
      sends := shared.sends.filter (·.1 ≠ n) }
  | none => shared

instance [Transport τ] : Activities (SharedLink τ) where
  running shared := shared.sends.map Prod.fst
  isReady shared n := ((shared.send? n).map (Sending.isReady shared.link)).getD false
  cost shared n := ((shared.send? n).map Sending.cost).getD 0
  step := step
  deadline? shared n := (shared.send? n).bind Sending.deadline?
  now shared := shared.link.timer
  setTime shared time := { shared with link := { shared.link with timer := time } }

end SharedLink

end RemoteAgent
