import RemoteAgent.Error
import RemoteAgent.Value

/-!
# Deferred values

A deferred value stands for a result that comes later. It is bound once, to a continuation, and
settled once, with a value or a message. The continuation runs inside whichever of the two comes
second; so binding and settling return the new state together with the run that is due, if any, and
leave the running to the caller. By the time the continuation runs the deferred value is `finished`,
and nothing that the continuation does to it can make it run again.

What a continuation is belongs to the user: `κ`.
-/

namespace RemoteAgent

/-- How a deferred value ended. -/
inductive Settlement where
  | resolved (value : Value)
  | rejected (message : String)
  deriving DecidableEq

/-- The life of a deferred value. -/
inductive Deferred.State (κ : Type) where
  /-- Neither bound nor settled. -/
  | fresh
  /-- Bound, and waiting to be settled. -/
  | waiting (continuation : κ)
  /-- Settled, and waiting to be bound. -/
  | early (settlement : Settlement)
  /-- Bound and settled. -/
  | finished
  deriving DecidableEq

/-- A deferred value. -/
structure Deferred (κ : Type) where
  /-- The name that diagnostics show. -/
  id : String
  /-- How far it has come. -/
  state : Deferred.State κ
  deriving DecidableEq

/-- A continuation that is due, with what it is to be run on. -/
structure DueRun (κ : Type) where
  /-- What runs. -/
  continuation : κ
  /-- What it runs on. -/
  settlement : Settlement
  deriving DecidableEq

namespace Deferred

variable {κ : Type}

/-- A deferred value that is neither bound nor settled. -/
def fresh (id : String) : Deferred κ := ⟨id, .fresh⟩

/-- Whether a continuation has been bound. -/
def isBound (d : Deferred κ) : Bool :=
  match d.state with
  | .fresh | .early _ => false
  | .waiting _ | .finished => true

/-- Whether the result is there. -/
def isSettled (d : Deferred κ) : Bool :=
  match d.state with
  | .fresh | .waiting _ => false
  | .early _ | .finished => true

/-- Binds the continuation. If the result is there already, the run is due. -/
def bind (d : Deferred κ) (continuation : κ) :
    Except DeferredError (Deferred κ × Option (DueRun κ)) :=
  match d.state with
  | .fresh => .ok ({ d with state := .waiting continuation }, none)
  | .early settlement => .ok ({ d with state := .finished }, some ⟨continuation, settlement⟩)
  | .waiting _ | .finished => .error .alreadyBound

/-- Settles the deferred value. If a continuation is bound, the run is due. -/
def settle (d : Deferred κ) (settlement : Settlement) :
    Except DeferredError (Deferred κ × Option (DueRun κ)) :=
  match d.state with
  | .fresh => .ok ({ d with state := .early settlement }, none)
  | .waiting continuation => .ok ({ d with state := .finished }, some ⟨continuation, settlement⟩)
  | .early _ | .finished => .error .alreadySettled

/-- The deferred value as diagnostics write it. -/
def render (d : Deferred κ) : String :=
  "Deferred \x7b id: " ++ d.id ++ ", bound: " ++ toString d.isBound ++ ", settled: " ++
    toString d.isSettled ++ " \x7d"

end Deferred

end RemoteAgent
