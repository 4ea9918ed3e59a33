import RemoteAgent.Proofs.Exhaustion
import RemoteAgent.Transport.Scripted
import RemoteAgent.Transport.Unconnected

/-!
# Runs in which nobody acts out of turn

In a run any list of events may happen, an activity that takes a step before it can included.  What
is true of the lock is true only if nobody does that (`Service.InTurn`); then the line is what it
should be, and the log of attempts is right, after any events (`Service.InOrder.run`).  Unlike
`Service.Regular` this asks nothing of the transport, and nothing of what has happened to the
connection before.

An activity that is under way after an event was there before, has taken a step, or is new.
`Service.Came` says which of these it is, and keeps in mind that it is not to end, so that what is
said of an activity can be carried through a run.

## Main definitions

* `Transport.StaysClosed`: transports that are opened by being asked to open, and in no other way.
* `Service.Able`, `Service.InTurn`: activities take steps only when they can.
* `Service.InOrder`: what is true in such a run.
* `Service.Came`: where an activity comes from.
-/

namespace RemoteAgent

variable {τ φ η : Type}

/-! ## Transports that do not open by themselves -/

/-- A transport that is closed stays so until somebody opens it. -/
class Transport.StaysClosed (τ : Type) [Transport τ] : Prop where
  closed_of_handling : ∀ {channel after : τ} {frame : Option Frame},
    Transport.Handling channel frame after → Transport.isOpen channel = false →
      Transport.isOpen after = false

instance : Transport.StaysClosed MemoryChannel where
  closed_of_handling := MemoryChannel.closed_of_handling

instance : Transport.StaysClosed ScriptedChannel where
  closed_of_handling := by
    intro channel after frame handling isClosed
    have isClosed : channel.isOpen = false := isClosed
    have sends : ∀ text, (channel.send text).2.isOpen = false := by
      intro text
      unfold ScriptedChannel.send
      split
      · exact isClosed
      · exact isClosed
      · exact isClosed
      · rfl
    cases handling with
    | nothing => exact isClosed
    | data frame => exact sends _
    | acknowledgment => exact sends _
    | receiving polled =>
        have polled : channel.poll = some (_, after) := polled
        unfold ScriptedChannel.poll at polled
        split at polled <;> cases polled <;> exact isClosed
    | closing => rfl

instance : Transport.StaysClosed UnconnectedChannel where
  closed_of_handling _ _ := rfl

namespace Service

variable {p : Service τ φ η} {event : Event τ φ η} {n m : Nat} {task : Task}

/-! ## Where activities come from -/

theorem mem_of_mem_abortAll {numbers : List Nat}
    (mem : ⟨n, task, false⟩ ∈ (p.abortAll numbers).activities) : ⟨n, task, false⟩ ∈ p.activities := by
  obtain ⟨old, memOld, same⟩ := List.mem_map.mp mem
  split at same
  · cases same
  · exact same ▸ memOld

/-- Where an activity comes from that is under way after an event, and not to end. -/
inductive Came [Transport τ] [ObjectModel φ η] (p : Service τ φ η) (event : Event τ φ η) (n : Nat)
    (task : Task) : Prop
  /-- It was there before. -/
  | stayed (mem : ⟨n, task, false⟩ ∈ p.activities) (other : event ≠ .step n)
  /-- It has taken a step. -/
  | moved {before : Task} (own : event = .step n) (mem : ⟨n, before, false⟩ ∈ p.activities)
      (going : (before.step p.agent n p.fresh).1.progress = .going task)
  /-- The host has begun it. -/
  | called {call : Call} (calls : event = .call call) (fresh : p.fresh ≤ n) (begun : task = call.task)
  /-- Another one has started it. -/
  | started {m : Nat} {other : Task} (steps : event = .step m)
      (mem : ⟨m, other, false⟩ ∈ p.activities) (fresh : p.fresh ≤ n)
      (starts : task ∈ (other.step p.agent m p.fresh).1.started)

section Came

variable [Transport τ] [ObjectModel φ η]

theorem came_step (mem : ⟨n, task, false⟩ ∈ (p.step m).activities) : p.Came (.step m) n task := by
  cases found : p.activity? m with
  | none =>
      rw [step_of_none found] at mem
      refine .stayed mem fun same => ?_
      have other := List.find?_eq_none.mp found _ mem
      exact other (decide_eq_true (Event.step.inj same).symm)
  | some stepping =>
      obtain ⟨number, other, aborted⟩ := stepping
      obtain ⟨memStepping, rfl⟩ := mem_of_activity? found
      cases aborted with
      | true =>
          rw [step_of_aborted found] at mem
          obtain ⟨old, apart⟩ := List.mem_filter.mp mem
          exact .stayed old fun same => of_decide_eq_true apart (Event.step.inj same).symm
      | false =>
          rw [step_of_running found] at mem
          have moved := mem_of_mem_abortAll mem
          rw [activities_startAll] at moved
          have fresh : ({ p with agent := (other.step p.agent number p.fresh).2 }.move number
              (other.step p.agent number p.fresh).1.progress).fresh = p.fresh := by
            unfold move
            cases (other.step p.agent number p.fresh).1.progress <;> rfl
          rcases List.mem_append.mp moved with here | new
          · have stays : ⟨n, task, false⟩ ∈ (p.remove number).activities →
                p.Came (.step number) n task := by
              intro mem
              obtain ⟨old, apart⟩ := List.mem_filter.mp mem
              exact .stayed old fun same => of_decide_eq_true apart (Event.step.inj same).symm
            unfold move at here
            cases progress : (other.step p.agent number p.fresh).1.progress with
            | done result =>
                rw [progress] at here
                exact stays here
            | going next =>
                rw [progress] at here
                rcases List.mem_append.mp here with old | own
                · exact stays old
                · cases List.mem_singleton.mp own
                  exact .moved rfl memStepping progress
          · obtain ⟨⟨started, number'⟩, memZip, same⟩ := List.mem_map.mp new
            cases same
            rw [fresh] at memZip
            exact .started rfl memStepping (List.le_snd_of_mem_zipIdx memZip)
              (List.fst_mem_of_mem_zipIdx memZip)

/-- **Where an activity comes from.** -/
theorem came (mem : ⟨n, task, false⟩ ∈ (p.act event).activities) : p.Came event n task := by
  cases event with
  | step m => exact came_step mem
  | call call =>
      rcases List.mem_append.mp mem with old | new
      · exact .stayed old nofun
      · cases List.mem_singleton.mp new
        exact .called rfl (Nat.le_refl _) rfl
  | abort m => exact .stayed (mem_of_mem_abortAll mem) nofun
  | halt => exact .stayed mem nofun
  | channel => exact .stayed mem nofun
  | time => exact .stayed mem nofun
  | session => exact .stayed mem nofun

end Came

/-- There is one activity of a number, so it is at one place. -/
theorem Counts.task_eq (counts : p.Counts) {other : Task} {aborted aborted' : Bool}
    (mem : ⟨n, task, aborted⟩ ∈ p.activities) (memOther : ⟨n, other, aborted'⟩ ∈ p.activities) :
    other = task := by
  have same : Activity.mk n task aborted = ⟨n, other, aborted'⟩ :=
    List.inj_on_of_nodup_map counts.distinct mem memOther rfl
  cases same
  rfl

/-- Where an activity sees to the transport, told by the activities. -/
theorem Counts.reopening?_eq (counts : p.Counts) (mem : ⟨n, task, false⟩ ∈ p.activities) :
    p.reopening? n = task.reopening? := by
  unfold reopening?
  rw [activity?_of_mem counts mem]

theorem exists_of_reopening? {place : Reopening} (here : p.reopening? n = some place) :
    ∃ task, ⟨n, task, false⟩ ∈ p.activities ∧ task.reopening? = some place := by
  unfold reopening? at here
  split at here
  · next number task found =>
      obtain ⟨mem, rfl⟩ := mem_of_activity? found
      exact ⟨task, mem, here⟩
  · cases here
  · cases here

/-- Only one activity has an attempt. -/
theorem LinesUp.attempt_unique (linesUp : p.LinesUp) {other : Task} {aborted : Bool}
    (mem : ⟨n, task, false⟩ ∈ p.activities) (has : task.reopening?.any Reopening.hasAttempt = true)
    (memOther : ⟨m, other, aborted⟩ ∈ p.activities)
    (hasOther : other.reopening?.any Reopening.hasAttempt = true) : m = n := by
  have held : p.agent.reconnecting.holder = some n := of_decide_eq_true (linesUp.holds _ mem has)
  have heldOther : p.agent.reconnecting.holder = some m :=
    of_decide_eq_true (linesUp.holds _ memOther hasOther)
  exact Option.some.inj (heldOther.symm.trans held)

/-! ## Runs -/

section Transport

variable [Transport τ]

/-- An activity takes a step only when it can. -/
def Able (p : Service τ φ η) : Event τ φ η → Prop
  | .step n => p.isReady n = true
  | _ => True

instance : DecidablePred p.Able
  | .step n => inferInstanceAs (Decidable (p.isReady n = true))
  | .call _ | .abort _ | .halt | .channel _ | .time _ _ | .session _ => .isTrue trivial

theorem Able.ready (able : p.Able event) : ∀ n, event = .step n → p.isReady n = true := by
  rintro n rfl
  exact able

variable [ObjectModel φ η]

/-- Nobody acts out of turn. -/
def InTurn (p : Service τ φ η) : List (Event τ φ η) → Prop
  | [] => True
  | event :: rest => p.Able event ∧ InTurn (p.act event) rest

instance decidableInTurn (p : Service τ φ η) :
    (events : List (Event τ φ η)) → Decidable (p.InTurn events)
  | [] => .isTrue trivial
  | event :: rest =>
    have := decidableInTurn (p.act event) rest
    inferInstanceAs (Decidable (p.Able event ∧ InTurn (p.act event) rest))

theorem run_append (p : Service τ φ η) (events more : List (Event τ φ η)) :
    p.run (events ++ more) = (p.run events).run more := List.foldl_append

theorem inTurn_append {events more : List (Event τ φ η)} :
    p.InTurn (events ++ more) ↔ p.InTurn events ∧ (p.run events).InTurn more := by
  induction events generalizing p with
  | nil => exact ⟨fun rest => ⟨trivial, rest⟩, fun both => both.2⟩
  | cons event rest ih =>
      show p.Able event ∧ InTurn (p.act event) (rest ++ more) ↔
        (p.Able event ∧ InTurn (p.act event) rest) ∧ ((p.act event).run rest).InTurn more
      rw [ih, and_assoc]

/-- The log accounts for everything, and the line at the lock is what it should be. -/
structure InOrder (start : Connection) (log : List Reconnect) (p : Service τ φ η) : Prop where
  tallies : p.Tallies start log
  linesUp : p.LinesUp

namespace InOrder

variable {start : Connection} {log : List Reconnect}

omit [Transport τ] [ObjectModel φ η] in
theorem ofAgent {agent : Agent τ φ η} (free : agent.reconnecting = .free) :
    (Service.ofAgent agent).InOrder agent.connection [] :=
  ⟨tallies_ofAgent agent, linesUp_ofAgent free⟩

theorem act (inOrder : p.InOrder start log) (able : p.Able event) :
    (p.act event).InOrder start (log ++ p.reconnects event) :=
  ⟨inOrder.tallies.act event, inOrder.linesUp.act inOrder.tallies.counts able.ready⟩

/-- **Everything is in order after a run in which nobody acts out of turn.** -/
theorem run (inOrder : p.InOrder start log) {events : List (Event τ φ η)}
    (inTurn : p.InTurn events) : (p.run events).InOrder start (log ++ p.reconnectLog events) := by
  induction events generalizing p log with
  | nil =>
      rw [reconnectLog, List.append_nil]
      exact inOrder
  | cons event rest ih =>
      rw [reconnectLog, ← List.append_assoc]
      exact ih (inOrder.act inTurn.1) inTurn.2

/-- The connection after an event is what the entries of the event make of it. -/
theorem connection_act (inOrder : p.InOrder start log) (event : Event τ φ η) :
    (p.act event).agent.connection =
      Reconnect.replay p.agent.connection (p.reconnects event) := by
  have after := (inOrder.tallies.act event).connection
  rw [Reconnect.replay_append, inOrder.tallies.connection] at after
  exact after.symm

end InOrder

end Transport

end Service

end RemoteAgent
