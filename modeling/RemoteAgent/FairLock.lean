/-!
# A fair lock

Who asks first is served first: a lock that is given up goes to the head of the queue at once, so
nobody can get in between.
-/

namespace RemoteAgent

/-- A lock that activities wait for in line. -/
structure FairLock where
  /-- Who has it. -/
  holder : Option Nat
  /-- Who waits for it, the first one first. -/
  queue : List Nat
  deriving DecidableEq

namespace FairLock

/-- A lock that nobody has or wants. -/
def free : FairLock := ⟨none, []⟩

/-- Asks for the lock. -/
def request (lock : FairLock) (n : Nat) : FairLock :=
  match lock.holder with
  | none => { lock with holder := some n }
  | some _ => { lock with queue := lock.queue ++ [n] }

/-- Whether an activity has the lock. -/
def isHeldBy (lock : FairLock) (n : Nat) : Bool := lock.holder = some n

/-- Hands the lock to the one that has waited longest. -/
def pass (lock : FairLock) : FairLock := ⟨lock.queue.head?, lock.queue.tail⟩

/-- Gives up the lock, or the place in the queue. -/
def leave (lock : FairLock) (n : Nat) : FairLock :=
  if lock.isHeldBy n then lock.pass else { lock with queue := lock.queue.filter (· ≠ n) }

end FairLock

end RemoteAgent
