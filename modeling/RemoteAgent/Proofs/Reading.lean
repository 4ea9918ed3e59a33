import RemoteAgent.Proofs.ReconnectLock

/-!
# What the reader does, and what others do not

Only the reader ends the reader.  It looks whether the connection is given up each time that it
turns to the next frame, and it is told of it while it waits for one; how it ends it decides in the
step in which it sees it.  `Reader.Turn` says what a step of the reader can be, and by
`Reader.stage` it comes nearer to its end with every step once the connection is given up, unless it
is in line for the lock.

Other activities start nothing, ask nobody to end and do not become the reader
(`Task.bystands_step`).  Beginning to drive the connection is neither, since it makes the reader.

## Main definitions

* `Reader.stage`, `Reader.Turn`: how far a reader is from its end, and what a step of it can be.
* `Task.BeginsReading`: the step that makes the reader.
* `Task.isBystander`, `Effect.Bystands`: activities that have no part in reading.
-/

namespace RemoteAgent

variable {τ φ η : Type}

/-! ## Bystanders -/

/-- Whether an activity is neither the reader nor about to be, and does not open the transport for a
host. -/
def Task.isBystander : Task → Bool
  | run | connect | reader _ _ => false
  | _ => true

/-- What the step of a bystander does to the set of activities. -/
structure Effect.Bystands (effect : Effect) : Prop where
  /-- It starts nothing. -/
  started : effect.started = []
  /-- It asks nobody to end. -/
  aborted : effect.aborted = []
  /-- It goes on as a bystander. -/
  next : ∀ next, effect.progress = .going next → next.isBystander = true

namespace Task

section Bystanders

theorem bystands_going {next : Task} (bystander : next.isBystander = true) :
    (Effect.going next).Bystands :=
  ⟨rfl, rfl, fun _ same => Progress.going.inj same ▸ bystander⟩

theorem bystands_done (result : TaskResult) : (Effect.done result).Bystands := ⟨rfl, rfl, nofun⟩

theorem bystands_ended (result : Except TransportError Unit) : (Effect.ended result).Bystands := by
  cases result with
  | ok => exact bystands_done _
  | error => exact bystands_done _

variable {agent : Agent τ φ η}

theorem bystands_writeOn (progress : Progress Delivery (Except TransportError Unit)) :
    (writeOn agent progress).1.Bystands := by
  match progress with
  | .going delivery => exact bystands_going rfl
  | .done (.ok ()) => exact bystands_going rfl
  | .done (.error error) =>
      unfold writeOn afterDelivery
      cases error with
      | halted => exact bystands_done _
      | reconnectLimit => exact bystands_done _
      | _ => exact bystands_going rfl

theorem bystands_deliverOn (progress : Progress Delivery (Except TransportError Unit)) :
    (deliverOn agent progress).1.Bystands := by
  cases progress with
  | going => exact bystands_going rfl
  | done => exact bystands_ended _

theorem bystands_stepHeartbeat (interval : Nat) (next : Option Nat) :
    (stepHeartbeat agent interval next).1.Bystands := by
  unfold stepHeartbeat
  cases next with
  | none =>
      dsimp only
      split
      · exact bystands_done _
      · exact bystands_going rfl
  | some time =>
      dsimp only
      split
      · exact bystands_done _
      · exact bystands_going rfl

variable [ObjectModel φ η]

theorem bystands_handleFrame (text : String) : (handleFrame agent text).1.Bystands := by
  unfold handleFrame
  rcases agent.link.receive text with ⟨report, link⟩
  match report with
  | .ok .continued => exact bystands_going rfl
  | .ok (.packet packet) => exact bystands_done _
  | .ok .acknowledged => exact bystands_done _
  | .ok .strayAcknowledgment => exact bystands_done _
  | .error error => exact bystands_done _

/-- **A bystander remains one, and does nothing to other activities.** -/
theorem bystands_step [Transport τ] (agent : Agent τ φ η) (n fresh : Nat) {task : Task}
    (bystander : task.isBystander = true) : (task.step agent n fresh).1.Bystands := by
  cases task with
  | run => cases bystander
  | reader => cases bystander
  | writer place =>
      cases place with
      | delivering delivery => exact bystands_writeOn _
      | _ =>
          unfold step stepWriter
          dsimp only
          split
          · exact bystands_going rfl
          · exact bystands_writeOn _
  | heartbeat next interval => exact bystands_stepHeartbeat interval next
  | connect => cases bystander
  | reopen reopening =>
      unfold step
      dsimp only
      rcases reopening.step agent n with ⟨progress, after⟩
      cases progress with
      | going => exact bystands_going rfl
      | done => exact bystands_ended _
  | send envelope => exact bystands_deliverOn _
  | deliver delivery => exact bystands_deliverOn _
  | frame text => exact bystands_handleFrame text
  | acknowledge => exact bystands_ended _

end Bystanders

end Task

/-! ## How a reopening ends -/

namespace Reopening

variable [Transport τ]

/-- A reopening that ends leaves the connection alone, or is refused an attempt. -/
inductive Ends (agent after : Agent τ φ η) (entries : List Reconnect) :
    Except TransportError Unit → Prop
  /-- The transport is open. -/
  | opened (connection : after.connection = agent.connection)
      (quiet : ∀ m, .refused m ∉ entries) : Ends agent after entries (.ok ())
  /-- The connection is given up. -/
  | halted (connection : after.connection = agent.connection)
      (quiet : ∀ m, .refused m ∉ entries) : Ends agent after entries (.error .halted)
  /-- There are no attempts left. -/
  | refused : Ends agent after entries (.error (.reconnectLimit agent.connection.limit.toNat))

variable {agent after : Agent τ φ η} {n : Nat} {result : Except TransportError Unit}

theorem ends_check (ended : check agent n = (.done result, after)) :
    Ends agent after (checked agent n) result := by
  unfold check at ended
  unfold checked
  by_cases halted : agent.isHalted = true
  · rw [if_pos halted] at ended
    rw [if_pos (.inl halted)]
    cases ended
    exact .halted rfl nofun
  · by_cases isOpen : agent.isOpen = true
    · rw [if_neg halted, if_pos isOpen] at ended
      rw [if_pos (.inr isOpen)]
      cases ended
      exact .opened rfl nofun
    · rw [if_neg halted, if_neg isOpen] at ended
      unfold Connection.recordAttempt at ended
      dsimp only at ended
      by_cases beyond : agent.connection.limit < agent.connection.attempts + 1
      · rw [if_pos beyond] at ended
        cases ended
        exact .refused
      · rw [if_neg beyond] at ended
        cases ended

theorem ends_step {place : Reopening} (ended : place.step agent n = (.done result, after)) :
    Ends agent after (place.reconnects agent n) result := by
  cases place with
  | requesting =>
      unfold step at ended
      unfold reconnects
      dsimp only at ended ⊢
      by_cases held : (agent.reconnecting.request n).isHeldBy n = true
      · rw [if_pos held] at ended ⊢
        cases ends_check ended with
        | opened connection quiet => exact .opened connection quiet
        | halted connection quiet => exact .halted connection quiet
        | refused => exact .refused
      · rw [if_neg held] at ended
        cases ended
  | queued => exact ends_check ended
  | pausing time => cases ended
  | opening =>
      have silent : ∀ {entries : List Reconnect}, (∀ m, .refused m ∉ entries) →
          ∀ m, .refused m ∉ Reconnect.opened n :: entries := fun quiet m mem =>
        quiet m ((List.mem_cons.mp mem).resolve_left nofun)
      cases ends_check ended with
      | opened connection quiet => exact .opened connection (silent quiet)
      | halted connection quiet => exact .halted connection (silent quiet)
      | refused => exact .refused

end Reopening

/-! ## The reader -/

namespace Reader

/-- How far a reader is from its end, if the connection is given up and it is not in line. -/
def stage : Reader → Nat
  | connecting => 4
  | listening => 3
  | receiving => 2
  | acknowledging => 1
  | reopening place => if place.isInLine then 0 else 1
  | closing _ => 0

/-- Whether a reader has decided how it ends. -/
def isClosing : Reader → Bool
  | closing _ => true
  | _ => false

/-- What a step of the reader can be. -/
inductive Turn [Transport τ] (agent : Agent τ φ η) (n : Nat) (companions : List Nat) :
    Reader → Task.Step τ φ η → Prop
  /-- The transport cannot be opened for the first time. -/
  | fails {error : TransportError} {after : Agent τ φ η}
      (failed : agent.openTransport.1 = .error error) :
      Turn agent n companions .connecting
        (Task.finishReading after companions (.error (.transport error)))
  /-- It sees that the connection is given up. -/
  | decides {place : Reader} {after : Agent τ φ η} (undecided : place.isClosing = false)
      (opens : place = .connecting → agent.openTransport.1 = .ok ())
      (quiet : ∀ m, .refused m ∉ (Task.reader place companions).reconnects agent n)
      (connection : after.connection = agent.connection) (halted : after.isHalted = true) :
      Turn agent n companions place (Task.finishReading after companions after.haltResult)
  /-- It goes on, out of line. -/
  | proceeds {place next : Reader} {after : Agent τ φ η} (undecided : place.isClosing = false)
      (undecidedStill : next.isClosing = false)
      (opens : place = .connecting → agent.openTransport.1 = .ok () ∧ agent.isHalted = false)
      (quiet : ∀ m, .refused m ∉ (Task.reader place companions).reconnects agent n)
      (nearer : agent.isHalted = true → next.stage < place.stage) :
      Turn agent n companions place (.going (.reader next companions), after)
  /-- It goes on seeing to the transport. -/
  | reopens {place next : Reopening} {after : Agent τ φ η}
      (stepped : place.step agent n = (.going next, after)) :
      Turn agent n companions (.reopening place)
        (.going (.reader (.reopening next) companions), after)
  /-- It is refused an attempt. -/
  | refused {place : Reopening} {after : Agent τ φ η}
      (stepped : place.step agent n =
        (.done (.error (.reconnectLimit agent.connection.limit.toNat)), after)) :
      Turn agent n companions (.reopening place)
        (Task.finishReading after companions
          (.error (.transport (.reconnectLimit agent.connection.limit.toNat))))
  /-- It closes the transport, and ends. -/
  | closes {result : Except AgentError Unit} :
      Turn agent n companions (.closing result)
        (.done (result.map fun _ => none), agent.closeTransport)

section Turn

variable [Transport τ] {agent after : Agent τ φ η} {n : Nat} {companions : List Nat}
  {place : Reader}

/-- A reader starts nothing, and asks nobody but its companions to end. -/
theorem Turn.effect {stepped : Task.Step τ φ η} (turn : Turn agent n companions place stepped) :
    stepped.1.started = [] ∧ ∀ m ∈ stepped.1.aborted, m ∈ companions := by
  cases turn with
  | fails => exact ⟨rfl, fun _ => id⟩
  | decides => exact ⟨rfl, fun _ => id⟩
  | proceeds => exact ⟨rfl, nofun⟩
  | reopens => exact ⟨rfl, nofun⟩
  | refused => exact ⟨rfl, fun _ => id⟩
  | closes => exact ⟨rfl, nofun⟩

/-- To turn to the next frame is to see whether the connection is given up. -/
theorem turn_readOn (undecided : place.isClosing = false)
    (opens : place = .connecting → agent.openTransport.1 = .ok ())
    (quiet : ∀ m, .refused m ∉ (Task.reader place companions).reconnects agent n)
    (connection : after.connection = agent.connection) :
    Turn agent n companions place (Task.readOn after companions) := by
  have same : after.isHalted = agent.isHalted := congrArg Connection.halted connection
  unfold Task.readOn
  split
  · next halted => exact .decides undecided opens quiet connection halted
  · next running =>
      rw [same] at running
      exact .proceeds undecided rfl (fun here => ⟨opens here, Bool.not_eq_true _ ▸ running⟩) quiet
        fun halted => absurd halted running

variable [ObjectModel φ η]

/-- The first opening is followed by a look whether the connection is given up. -/
theorem turn_connecting :
    Turn agent n companions .connecting (Task.stepReader agent n companions .connecting) := by
  have same : agent.openTransport.2.connection = agent.connection := rfl
  unfold Task.stepReader
  dsimp only
  rcases opened : agent.openTransport with ⟨error | ok, after⟩
  · exact .fails (by rw [opened])
  · rw [opened] at same
    exact turn_readOn rfl (fun _ => by rw [opened]) nofun same

omit [ObjectModel φ η] in
theorem turn_listen : Turn agent n companions .listening (Task.listen agent companions) := by
  unfold Task.listen
  split
  · exact .proceeds rfl rfl nofun nofun fun _ => by decide
  · exact .proceeds rfl rfl nofun nofun fun _ => by decide

theorem turn_readFrame (connection : after.connection = agent.connection)
    (text : String) :
    Turn agent n companions .receiving (Task.readFrame after companions text) := by
  unfold Task.readFrame
  rcases after.link.receive text with ⟨report, link⟩
  match report with
  | .ok .continued => exact .proceeds rfl rfl nofun nofun fun _ => by decide
  | .ok (.packet packet) => exact turn_readOn rfl nofun nofun connection
  | .ok .acknowledged => exact turn_readOn rfl nofun nofun connection
  | .ok .strayAcknowledgment => exact turn_readOn rfl nofun nofun connection
  | .error error => exact turn_readOn rfl nofun nofun connection

theorem turn_readNext :
    Turn agent n companions .receiving (Task.readNext agent companions) := by
  unfold Task.readNext
  match Transport.poll agent.link.transport with
  | none => exact turn_readOn rfl nofun nofun rfl
  | some (.ok (some text), transport) =>
      have same : Agent.connection { agent with link := { agent.link with transport } } =
          agent.connection := rfl
      exact turn_readFrame same text
  | some (.ok none, transport) => exact .proceeds rfl rfl nofun nofun fun _ => by decide
  | some (.error error, transport) => exact .proceeds rfl rfl nofun nofun fun _ => by decide

/-- A reader that has seen to the transport looks whether the connection is given up, unless it was
refused an attempt itself. -/
theorem turn_reopening (place : Reopening) :
    Turn agent n companions (.reopening place)
      (Task.stepReader agent n companions (.reopening place)) := by
  unfold Task.stepReader
  dsimp only
  rcases stepped : place.step agent n with ⟨progress, after⟩
  cases progress with
  | going next => exact .reopens stepped
  | done result =>
      cases Reopening.ends_step stepped with
      | opened connection quiet => exact turn_readOn rfl nofun quiet connection
      | halted connection quiet => exact turn_readOn rfl nofun quiet connection
      | refused => exact .refused stepped

/-- **What a step of the reader can be.** -/
theorem turn_step (place : Reader) :
    Turn agent n companions place (Task.stepReader agent n companions place) := by
  cases place with
  | connecting => exact turn_connecting
  | listening => exact turn_listen
  | receiving => exact turn_readNext
  | acknowledging => exact turn_readOn rfl nofun nofun rfl
  | reopening place => exact turn_reopening place
  | closing result => exact .closes

end Turn

end Reader

/-! ## Beginning to read -/

namespace Task

/-- A step that makes the reader. -/
structure BeginsReading (agent : Agent τ φ η) (fresh : Nat) (step : Step τ φ η) (place : Reader)
    (companions : List Nat) : Prop where
  /-- Where the reader begins. -/
  progress : step.1.progress = .going (.reader place companions)
  /-- The connection is driven from now on. -/
  driven : step.2 = { agent with driven := true }
  /-- The companions are new. -/
  companions : ∀ n ∈ companions, fresh ≤ n
  /-- Nobody else is asked to end. -/
  aborted : ∀ n ∈ step.1.aborted, fresh ≤ n
  /-- They have no part in reading. -/
  started : ∀ task ∈ step.1.started, task.isBystander = true
  /-- The reader ends at once if the connection is given up. -/
  decided : place = .closing agent.haltResult ∧ agent.isHalted = true ∨ place.isClosing = false

variable [Transport τ] {agent : Agent τ φ η}

/-- **Who begins to drive a connection that nobody drives is its reader.** -/
theorem exists_beginsReading (undriven : agent.driven = false) (fresh : Nat) :
    ∃ place companions, BeginsReading agent fresh (startReading agent fresh) place companions := by
  have started : ∀ task ∈ companionsOf agent.config, task.isBystander = true := by
    intro task mem
    rcases List.mem_cons.mp mem with rfl | mem
    · rfl
    · obtain ⟨interval, -, rfl⟩ := Option.map_eq_some_iff.mp (Option.mem_toList.mp mem)
      rfl
  have new : ∀ n ∈ List.range' fresh (companionsOf agent.config).length, fresh ≤ n :=
    fun n mem => (List.mem_range'_1.mp mem).1
  have running : agent.driven ≠ true := by simp [undriven]
  unfold startReading
  rw [if_neg running]
  dsimp only
  split
  · next halted => exact ⟨_, _, rfl, rfl, new, new, started, .inl ⟨rfl, halted⟩⟩
  · split
    · unfold readOn
      split
      · next halted => exact ⟨_, _, rfl, rfl, new, new, started, .inl ⟨rfl, halted⟩⟩
      · exact ⟨_, _, rfl, rfl, new, nofun, started, .inr rfl⟩
    · exact ⟨_, _, rfl, rfl, new, nofun, started, .inr rfl⟩

/-- It can be driven once. -/
theorem startReading_of_driven (driven : agent.driven = true) (fresh : Nat) :
    startReading agent fresh = (.done (.error (.config .alreadyRunning)), agent) := by
  unfold startReading
  rw [if_pos driven]

end Task

end RemoteAgent
