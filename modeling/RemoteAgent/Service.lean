import RemoteAgent.Agent.Task
import RemoteAgent.Schedule

/-!
# The service

An agent with its activities under way. `Service.step` lets one activity take a step; any order of
steps is a run of the agent, and `Schedule.settle` picks the one in which activities take turns.

An activity that is to be ended ends at its next turn, and gives back the locks that it holds. The
activities stand in the order of their last steps, so that of several that wait for one moment the
one that began to wait first goes first.
-/

namespace RemoteAgent

/-- An activity under way. -/
structure Activity where
  /-- Its number. -/
  number : Nat
  /-- Where it goes on. -/
  task : Task
  /-- Whether it is to end at its next turn. -/
  aborted : Bool

/-- An agent with its activities. -/
structure Service (τ φ η : Type) where
  /-- What the activities share. -/
  agent : Agent τ φ η
  /-- The activities that have not ended; the one whose last step is longest ago comes first. -/
  activities : List Activity
  /-- The results of the activities that have ended, the last one first. -/
  finished : List (Nat × TaskResult)
  /-- The first number that no activity has had. -/
  fresh : Nat

namespace Service

variable {τ φ η : Type}

/-- An agent without activities. -/
def ofAgent (agent : Agent τ φ η) : Service τ φ η := ⟨agent, [], [], 0⟩

/-- The activity of a number. -/
def activity? (p : Service τ φ η) (n : Nat) : Option Activity :=
  p.activities.find? (·.number = n)

/-- Adds activities. -/
def startAll (p : Service τ φ η) (tasks : List Task) : Service τ φ η :=
  { p with
    activities := p.activities ++
      (tasks.zipIdx p.fresh).map fun (task, number) => ⟨number, task, false⟩
    fresh := p.fresh + tasks.length }

/-- Starts an activity, and tells its number. -/
def start (p : Service τ φ η) (task : Task) : Nat × Service τ φ η :=
  (p.fresh, p.startAll [task])

/-- Asks activities to end. -/
def abortAll (p : Service τ φ η) (numbers : List Nat) : Service τ φ η :=
  { p with
    activities := p.activities.map fun activity =>
      if activity.number ∈ numbers then { activity with aborted := true } else activity }

/-- Takes an activity out. -/
def remove (p : Service τ φ η) (n : Nat) : Service τ φ η :=
  { p with activities := p.activities.filter (·.number ≠ n) }

/-- Puts an activity where its step has taken it. -/
def move (p : Service τ φ η) (n : Nat) (progress : Progress Task TaskResult) : Service τ φ η :=
  let p := p.remove n
  match progress with
  | .going task => { p with activities := p.activities ++ [⟨n, task, false⟩] }
  | .done result => { p with finished := (n, result) :: p.finished }

/-- Lets an activity take a step. -/
def step [Transport τ] [ObjectModel φ η] (p : Service τ φ η) (n : Nat) : Service τ φ η :=
  match p.activity? n with
  | none => p
  | some ⟨_, task, true⟩ => { p.remove n with agent := task.abandon p.agent n }
  | some ⟨_, task, false⟩ =>
    let (effect, agent) := task.step p.agent n p.fresh
    (({ p with agent }.move n effect.progress).startAll effect.started).abortAll effect.aborted

/-- Whether an activity can take a step now. -/
def isReady [Transport τ] (p : Service τ φ η) (n : Nat) : Bool :=
  match p.activity? n with
  | some ⟨_, task, aborted⟩ => aborted || task.isReady p.agent n
  | none => false

/-- What the next step of an activity takes off the allowance of its turn. To end takes nothing. -/
def cost [Transport τ] (p : Service τ φ η) (n : Nat) : Nat :=
  match p.activity? n with
  | some ⟨_, task, false⟩ => task.cost p.agent
  | some ⟨_, _, true⟩ | none => 0

instance [Transport τ] [ObjectModel φ η] : Activities (Service τ φ η) where
  running p := p.activities.map Activity.number
  isReady := isReady
  cost := cost
  step := step
  deadline? p n := (p.activity? n).bind fun activity => activity.task.deadline?
  now p := p.agent.link.timer
  setTime p time := { p with agent := { p.agent with link := { p.agent.link with timer := time } } }

end Service

end RemoteAgent
