/-!
# Taking turns

Activities that share a state take turns in the order in which they become ready. One that has its
turn goes on until it has to wait, or has used up the allowance of a turn; those that become ready
meanwhile queue up behind the others. The allowance is what keeps one that never has to wait from
holding up the rest: whoever has used it up is put off until nobody is left in the queue, and then
gets a turn with a full one.

Time stands still while anyone is ready, and then moves on to the next time that someone waits
for.
-/

namespace RemoteAgent

/-- A shared state with activities in it, each of which has a number. -/
class Activities (σ : Type) where
  /-- The activities that have not ended; the one that has waited longest comes first. -/
  running : σ → List Nat
  /-- Whether an activity can take a step. -/
  isReady : σ → Nat → Bool
  /-- What the next step of an activity takes off the allowance of its turn. -/
  cost : σ → Nat → Nat
  /-- The state after a step of an activity. -/
  step : σ → Nat → σ
  /-- When the passing of time will make an activity ready. -/
  deadline? : σ → Nat → Option Nat
  /-- The time. -/
  now : σ → Nat
  /-- Sets the time. -/
  setTime : σ → Nat → σ

namespace Schedule

variable {σ : Type} [Activities σ]

/-- The activities that are ready and not among those who will have a turn anyway. -/
def newlyReady (s : σ) (expecting : List Nat) : List Nat :=
  (Activities.running s).filter fun n => Activities.isReady s n && !expecting.contains n

/-- The allowance of a turn. -/
def turnAllowance : Nat := 128

/-- Lets the activities in the queue take their turns, and after them those that are put off, at
most `budget` steps and changes of turn. The head of the queue has its turn, and `allowance` is
what is left of it. The last one that was put off is the first to have another turn. -/
def runQueue (budget allowance : Nat) (queue putOff : List Nat) (s : σ) : σ :=
  match budget with
  | 0 => s
  | budget + 1 =>
    match queue, putOff with
    | [], [] => s
    | [], n :: others => runQueue budget turnAllowance (n :: others) [] s
    | n :: rest, putOff =>
      if !(Activities.running s).contains n then runQueue budget turnAllowance rest putOff s
      else if allowance < Activities.cost s n then
        runQueue budget turnAllowance rest (n :: putOff) s
      else if Activities.isReady s n then
        let left := allowance - Activities.cost s n
        let s := Activities.step s n
        runQueue budget left (n :: rest ++ newlyReady s (n :: rest ++ putOff)) putOff s
      else runQueue budget turnAllowance rest putOff s

/-- The greatest number of steps and changes of turn at one moment. -/
def stepBudget : Nat := 100000

/-- Lets everyone who is ready go on, until all wait. -/
def settle (s : σ) : σ := runQueue stepBudget turnAllowance (newlyReady s []) [] s

/-- The next time that someone waits for, if it is not after `target`. -/
def nextTime? (s : σ) (target : Nat) : Option Nat :=
  let times := (Activities.running s).filterMap (Activities.deadline? s)
  (times.filter fun time => Activities.now s < time ∧ time ≤ target).min?

/-- Moves the time on to `target`, at most `moments` stops on the way. -/
def advanceTo (target : Nat) (moments : Nat) (s : σ) : σ :=
  match moments with
  | 0 => Activities.setTime s target
  | moments + 1 =>
    match nextTime? s target with
    | some time => advanceTo target moments (settle (Activities.setTime s time))
    | none => Activities.setTime s target

/-- Lets a span of time pass. There is a stop at each time that someone waits for. -/
def advance (milliseconds : Nat) (s : σ) : σ :=
  settle (advanceTo (Activities.now s + milliseconds) milliseconds s)

end Schedule

end RemoteAgent
