/-!
# Activities

What waits for time, for the far end or for other activities is written as data: the place where
it goes on. A step takes an activity from one place to the next, over a state that it shares with
others. Between two steps any other activity may take its own.
-/

namespace RemoteAgent

/-- Where an activity is after a step. -/
inductive Progress (α ρ : Type) where
  /-- It goes on from here. -/
  | going (next : α)
  /-- It ended with this result. -/
  | done (result : ρ)
  deriving DecidableEq

namespace Progress

variable {α β ρ : Type}

/-- The progress of an activity that this one is a part of. -/
def map (f : α → β) : Progress α ρ → Progress β ρ
  | going next => going (f next)
  | done result => done result

end Progress

end RemoteAgent
