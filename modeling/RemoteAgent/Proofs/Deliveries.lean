import RemoteAgent.Proofs.SendLock
import RemoteAgent.Service

/-!
# What activities do with deliveries

A delivery of an envelope belongs to the writer or to a caller, and the two drive it alike.  The
same is true of a reopening, which the reader or a caller may be at, or a delivery.  This module
says what a step of an activity can be, so that little later looks into `Task.step`:

* an activity that delivers takes a step of its delivery, and nothing else
  (`Task.step_of_delivery`);
* one that sees to the transport takes a step of its reopening (`Task.reopens_step`);
* one that is about to deliver begins the delivery of one envelope, at the place where it sees to
  the transport, and leaves the link alone (`Task.step_of_envelope`);
* any other activity does nothing of the kind before or after, leaves the connection alone and may
  at most take a frame in (`Task.step_of_plain`).

An activity that may see to the transport but does not deliver is dealt with by `Task.step_of_idle`.

Beside that a step can give the connection up, but never take that back.
-/

namespace RemoteAgent

variable {τ φ η : Type}

/-- A framer after some of what comes in besides the sends: nothing, or one frame. -/
inductive Framer.Hears (p : Framer) : Framer → Prop
  /-- Nothing comes in. -/
  | nothing : Hears p p
  /-- A frame comes in. -/
  | frame (text : String) : Hears p (p.receive text).2

theorem Framer.Hears.of_eq {p after : Framer} (same : after = p) : p.Hears after :=
  same ▸ .nothing

/-- The text that a delivery is about. -/
def Delivery.text : Delivery → String
  | .reopening text _ => text
  | .sending text _ => text

/-- The send that a delivery has got to. -/
def Delivery.sending? : Delivery → Option Sending
  | .reopening _ _ => none
  | .sending _ place => some place

/-- The delivery that an activity is at. -/
def Task.delivery? : Task → Option Delivery
  | .writer (.delivering delivery) => some delivery
  | .deliver delivery => some delivery
  | _ => none

/-- Whether a reopening was granted an attempt that it has not used yet. -/
def Reopening.hasAttempt : Reopening → Bool
  | .pausing _ | .opening => true
  | .requesting | .queued => false

/-- Where a delivery sees to the transport, if it does. -/
def Delivery.reopening? : Delivery → Option Reopening
  | .reopening _ place => some place
  | .sending _ _ => none

/-- Where an activity sees to the transport, if it does. -/
def Task.reopening? : Task → Option Reopening
  | .reader (.reopening place) _ => some place
  | .reopen place => some place
  | .writer (.delivering delivery) => delivery.reopening?
  | .deliver delivery => delivery.reopening?
  | _ => none

/-- The envelope whose delivery the next step begins. -/
def Task.envelope? (agent : Agent τ φ η) : Task → Option Json
  | .writer .starting => agent.nextEnvelope?
  | .writer .idle => agent.nextEnvelope?
  | .send envelope => some envelope
  | _ => none

/-- The delivery that an activity is at after a step. -/
def Effect.delivery? (effect : Effect) : Option Delivery :=
  effect.progress.next?.bind Task.delivery?

/-- Where an activity sees to the transport after a step. -/
def Effect.reopening? (effect : Effect) : Option Reopening :=
  effect.progress.next?.bind Task.reopening?

/-! ## Reopening -/

/-- An attempt that is refused gives the connection up. -/
theorem Connection.halted_of_recordAttempt_error {c : Connection} {error : TransportError}
    (refused : c.recordAttempt.1 = .error error) : c.recordAttempt.2.halted = true := by
  unfold recordAttempt at refused ⊢
  dsimp only at refused ⊢
  split at refused
  · next above => rw [if_pos above]; rfl
  · cases refused

namespace Reopening

variable [Transport τ] {agent : Agent τ φ η} {n : Nat}

@[simp] theorem framer_check : (check agent n).2.link.framer = agent.link.framer := by
  unfold check
  split
  · rfl
  · split
    · rfl
    · split <;> rfl

/-- Reopening leaves the framer alone. -/
@[simp] theorem framer_step (place : Reopening) :
    (place.step agent n).2.link.framer = agent.link.framer := by
  cases place with
  | requesting =>
      unfold step
      dsimp only
      split <;> simp
  | queued => simp [step]
  | pausing => rfl
  | opening => simp [step, Agent.openTransport]

theorem halted_check (halted : agent.isHalted = true) :
    (check agent n).2.isHalted = true := by
  unfold check
  rw [if_pos halted]
  exact halted

theorem halted_step (place : Reopening) (halted : agent.isHalted = true) :
    (place.step agent n).2.isHalted = true := by
  cases place with
  | requesting =>
      unfold step
      dsimp only
      split
      · exact halted_check halted
      · exact halted
  | queued => exact halted_check halted
  | pausing => exact halted
  | opening => exact halted_check halted

/-- A check fails only over a connection that is given up. -/
theorem halted_of_check_error {error : TransportError}
    (failed : (check agent n).1 = .done (.error error)) :
    (check agent n).2.isHalted = true := by
  unfold check at failed ⊢
  by_cases halted : agent.isHalted = true
  · rw [if_pos halted]
    exact halted
  · rw [if_neg halted] at failed ⊢
    by_cases isOpen : agent.isOpen = true
    · rw [if_pos isOpen] at failed
      cases failed
    · rw [if_neg isOpen] at failed ⊢
      rcases counted : agent.connection.recordAttempt with ⟨result, connection⟩
      rw [counted] at failed
      cases result with
      | ok => cases failed
      | error other =>
          have refused : agent.connection.recordAttempt.1 = .error other := by rw [counted]
          have given := Connection.halted_of_recordAttempt_error refused
          rw [counted] at given
          exact given

/-- **A reopening fails only over a connection that is given up.** -/
theorem halted_of_step_error {place : Reopening} {error : TransportError}
    (failed : (place.step agent n).1 = .done (.error error)) :
    (place.step agent n).2.isHalted = true := by
  cases place with
  | requesting =>
      unfold step at failed ⊢
      dsimp only at failed ⊢
      split at failed
      · next held =>
          rw [if_pos held]
          exact halted_of_check_error failed
      · cases failed
  | queued => exact halted_of_check_error failed
  | pausing => cases failed
  | opening => exact halted_of_check_error failed

end Reopening

/-! ## Deliveries -/

namespace Delivery

variable [Transport τ] {agent : Agent τ φ η} {n : Nat}

/-- The ways in which a delivery can take a step. -/
inductive Outcome (agent : Agent τ φ η) (n : Nat) : Delivery → Step τ φ η → Prop
  /-- It goes on seeing to the transport. -/
  | reopens {text : String} {place next : Reopening} {after : Agent τ φ η}
      (framer : after.link.framer = agent.link.framer)
      (halted : agent.isHalted = true → after.isHalted = true) :
      Outcome agent n (.reopening text place) (.going (.reopening text next), after)
  /-- The transport is open, and the text is about to be sent. -/
  | opened {text : String} {place : Reopening} {since : Nat} {after : Agent τ φ η}
      (framer : after.link.framer = agent.link.framer)
      (halted : agent.isHalted = true → after.isHalted = true) :
      Outcome agent n (.reopening text place)
        (.going (.sending text (.acquiring text since none)), after)
  /-- The connection is given up. -/
  | givenUp {text : String} {place : Reopening} {error : TransportError} {after : Agent τ φ η}
      (framer : after.link.framer = agent.link.framer) (halted : after.isHalted = true) :
      Outcome agent n (.reopening text place) (.done (.error error), after)
  /-- The send goes on. -/
  | sends {text : String} {place next : Sending} {link : Link τ}
      (stepped : place.step agent.link = (.going next, link)) :
      Outcome agent n (.sending text place) (.going (.sending text next), { agent with link })
  /-- The text is sent. -/
  | sent {text : String} {place : Sending} {link : Link τ}
      (stepped : place.step agent.link = (.done (.ok ()), link)) :
      Outcome agent n (.sending text place)
        (.done (.ok ()), { agent with link, connection := agent.connection.reset })
  /-- The transport broke, and the text is to be sent once more. -/
  | retries {text : String} {place : Sending} {link : Link τ} {error : TransportError}
      (stepped : place.step agent.link = (.done (.error error), link))
      (broke : isBreak error = true) (isClosed : Transport.isOpen link.transport = false) :
      Outcome agent n (.sending text place)
        (.going (.reopening text .requesting), { agent with link })
  /-- Any other fault ends the delivery. -/
  | fails {text : String} {place : Sending} {link : Link τ} {error : TransportError}
      (stepped : place.step agent.link = (.done (.error error), link))
      (fault : ¬ (isBreak error = true ∧ Transport.isOpen link.transport = false)) :
      Outcome agent n (.sending text place) (.done (.error error), { agent with link })

/-- **What a step of a delivery can be.** -/
theorem outcome (delivery : Delivery) : Outcome agent n delivery (delivery.step agent n) := by
  cases delivery with
  | reopening text place =>
      have framer : (place.step agent n).2.link.framer = agent.link.framer :=
        Reopening.framer_step place
      have halted : agent.isHalted = true → (place.step agent n).2.isHalted = true :=
        Reopening.halted_step place
      have failed : ∀ error, (place.step agent n).1 = .done (.error error) →
          (place.step agent n).2.isHalted = true := fun _ => Reopening.halted_of_step_error
      unfold step
      dsimp only
      rcases stepped : place.step agent n with ⟨progress, after⟩
      rw [stepped] at framer halted failed
      match progress with
      | .going next => exact .reopens framer halted
      | .done (.ok ()) => exact .opened framer halted
      | .done (.error error) => exact .givenUp framer (failed error rfl)
  | sending text place =>
      unfold step
      dsimp only
      rcases stepped : place.step agent.link with ⟨progress, link⟩
      match progress with
      | .going next => exact .sends stepped
      | .done (.ok ()) => exact .sent stepped
      | .done (.error error) =>
          by_cases fault : isBreak error = true ∧ Transport.isOpen link.transport = false
          · have retried : afterSend { agent with link } text (.error error) =
                (.going (.reopening text .requesting), { agent with link }) := by
              simp [afterSend, fault.1, Agent.isOpen, fault.2]
            show Outcome agent n _ (afterSend { agent with link } text (.error error))
            rw [retried]
            exact .retries stepped fault.1 fault.2
          · have ended : afterSend { agent with link } text (.error error) =
                (.done (.error error), { agent with link }) := by
              unfold afterSend
              exact if_neg fault
            show Outcome agent n _ (afterSend { agent with link } text (.error error))
            rw [ended]
            exact .fails stepped fault

/-- A delivery that sees to the transport does what the reopening does, and goes on where that does.
-/
theorem step_reopening (agent : Agent τ φ η) (n : Nat) (text : String) (place : Reopening) :
    ((reopening text place).step agent n).2 = (place.step agent n).2 ∧
      ((reopening text place).step agent n).1.next?.bind reopening? =
        (place.step agent n).1.next? := by
  unfold step
  dsimp only
  rcases place.step agent n with ⟨progress, after⟩
  match progress with
  | .going next => exact ⟨rfl, rfl⟩
  | .done (.ok ()) => exact ⟨rfl, rfl⟩
  | .done (.error error) => exact ⟨rfl, rfl⟩

/-- A delivery does not take it back that the connection is given up. -/
theorem halted_step (delivery : Delivery) (halted : agent.isHalted = true) :
    (delivery.step agent n).2.isHalted = true := by
  have outcome : Outcome agent n delivery (delivery.step agent n) := Delivery.outcome delivery
  generalize delivery.step agent n = stepped at outcome ⊢
  cases outcome with
  | reopens _ keeps => exact keeps halted
  | opened _ keeps => exact keeps halted
  | givenUp _ given => exact given
  | sends => exact halted
  | sent => exact halted
  | retries => exact halted
  | fails => exact halted

end Delivery

/-! ## Activities -/

namespace Task

variable [Transport τ] [ObjectModel φ η] {agent : Agent τ φ η} {n fresh : Nat} {task : Task}

omit [Transport τ] [ObjectModel φ η] in
/-- Who delivers is the writer or a caller. -/
theorem eq_of_delivery {delivery : Delivery} (delivers : task.delivery? = some delivery) :
    task = .writer (.delivering delivery) ∨ task = .deliver delivery := by
  cases task with
  | writer place =>
      cases place with
      | delivering other =>
          cases delivers
          exact .inl rfl
      | _ => cases delivers
  | deliver other =>
      cases delivers
      exact .inr rfl
  | _ => cases delivers

/-- An activity that delivers takes a step of its delivery. -/
theorem step_of_delivery (agent : Agent τ φ η) (n fresh : Nat) {delivery : Delivery}
    (delivers : task.delivery? = some delivery) :
    (task.step agent n fresh).2 = (delivery.step agent n).2 ∧
      (task.step agent n fresh).1.delivery? = (delivery.step agent n).1.next? ∧
      (task.step agent n fresh).1.started = [] := by
  obtain rfl | rfl := eq_of_delivery delivers
  · unfold step stepWriter
    dsimp only
    rcases delivery.step agent n with ⟨progress, after⟩
    match progress with
    | .going next => exact ⟨rfl, rfl, rfl⟩
    | .done (.ok ()) => exact ⟨rfl, rfl, rfl⟩
    | .done (.error error) => cases error <;> exact ⟨rfl, rfl, rfl⟩
  · unfold step
    dsimp only
    rcases delivery.step agent n with ⟨progress, after⟩
    match progress with
    | .going next => exact ⟨rfl, rfl, rfl⟩
    | .done (.ok ()) => exact ⟨rfl, rfl, rfl⟩
    | .done (.error error) => exact ⟨rfl, rfl, rfl⟩

/-- Where an activity sees to the transport after a step of its delivery. -/
theorem reopening_of_delivery {delivery : Delivery} (delivers : task.delivery? = some delivery) :
    (task.step agent n fresh).1.reopening? =
      (delivery.step agent n).1.next?.bind Delivery.reopening? := by
  obtain rfl | rfl := eq_of_delivery delivers
  · unfold step stepWriter
    dsimp only
    rcases delivery.step agent n with ⟨progress, after⟩
    match progress with
    | .going next => rfl
    | .done (.ok ()) => rfl
    | .done (.error error) => cases error <;> rfl
  · unfold step
    dsimp only
    rcases delivery.step agent n with ⟨progress, after⟩
    match progress with
    | .going next => rfl
    | .done (.ok ()) => rfl
    | .done (.error error) => rfl

omit [Transport τ] [ObjectModel φ η] in
/-- An activity that delivers sees to the transport where its delivery does. -/
theorem reopening?_of_delivery {delivery : Delivery} (delivers : task.delivery? = some delivery) :
    task.reopening? = delivery.reopening? := by
  obtain rfl | rfl := eq_of_delivery delivers
  · rfl
  · rfl

omit [Transport τ] [ObjectModel φ η] in
/-- Giving up an activity that delivers gives up its delivery. -/
theorem abandon_of_delivery {delivery : Delivery} (delivers : task.delivery? = some delivery) :
    task.abandon agent n = delivery.abandon agent n := by
  obtain rfl | rfl := eq_of_delivery delivers
  · rfl
  · rfl

omit [Transport τ] [ObjectModel φ η] in
/-- Giving up any other activity leaves the framer alone. -/
theorem framer_abandon_of_idle (idle : task.delivery? = none) :
    (task.abandon agent n).link.framer = agent.link.framer := by
  cases task with
  | reader place companions => cases place <;> rfl
  | writer place =>
      cases place with
      | delivering => cases idle
      | _ => rfl
  | deliver => cases idle
  | _ => rfl

/-- An activity that is about to deliver begins the delivery, and leaves the link alone. -/
theorem step_of_envelope (n fresh : Nat) {envelope : Json}
    (begins : task.envelope? agent = some envelope) :
    (task.step agent n fresh).2.link = agent.link ∧
      (task.step agent n fresh).2.connection = agent.connection ∧
      (task.step agent n fresh).1.delivery? = (Delivery.start agent envelope).next? ∧
      (task.step agent n fresh).1.started = [] := by
  cases task with
  | writer place =>
      cases place with
      | delivering => cases begins
      | _ =>
          have next : agent.nextEnvelope? = some envelope := begins
          unfold step stepWriter
          dsimp only
          rw [next]
          dsimp only
          by_cases halted : agent.isHalted = true
          · simp [Delivery.start, halted, writeOn, afterDelivery, Effect.done, Effect.delivery?,
              Progress.next?]
          · simp [Delivery.start, halted, writeOn, Effect.going, Effect.delivery?, Progress.next?,
              delivery?]
  | send other =>
      cases begins
      unfold step
      by_cases halted : agent.isHalted = true
      · simp [Delivery.start, halted, deliverOn, Effect.ended, Effect.done, Effect.delivery?,
          Progress.next?]
      · simp [Delivery.start, halted, deliverOn, Effect.going, Effect.delivery?, Progress.next?,
          delivery?]
  | _ => cases begins

/-- It has no attempt to open the transport then, but is about to ask for the lock. -/
theorem attempt_of_envelope (n fresh : Nat) {envelope : Json}
    (begins : task.envelope? agent = some envelope) :
    (task.step agent n fresh).1.reopening?.any Reopening.hasAttempt = false := by
  cases task with
  | writer place =>
      cases place with
      | delivering => cases begins
      | _ =>
          have next : agent.nextEnvelope? = some envelope := begins
          unfold step stepWriter
          dsimp only
          rw [next]
          dsimp only [Delivery.start]
          split <;> rfl
  | send other =>
      unfold step Delivery.start
      dsimp only
      split <;> rfl
  | _ => cases begins

/-! ### Neither delivering nor seeing to the transport -/

/-- A step that neither delivers nor sees to the transport. -/
structure Plain (before : Agent τ φ η) (step : Step τ φ η) : Prop where
  /-- The activity does not deliver. -/
  delivery : step.1.delivery? = none
  /-- It has no attempt to open the transport; at most it is about to ask for the lock. -/
  attempt : step.1.reopening?.any Reopening.hasAttempt = false
  /-- Those that it starts do nothing of the kind yet. -/
  started : ∀ task ∈ step.1.started, task.delivery? = none ∧ task.reopening? = none
  /-- At most a frame comes in. -/
  hears : before.link.framer.Hears step.2.link.framer
  /-- The connection stays as it is. -/
  connection : step.2.connection = before.connection

section Plain

omit [Transport τ] [ObjectModel φ η]

variable {after : Agent τ φ η} {companions : List Nat}

theorem plain_going {next : Task} (idle : next.delivery? = none)
    (attempt : next.reopening?.any Reopening.hasAttempt = false)
    (hears : agent.link.framer.Hears after.link.framer)
    (same : after.connection = agent.connection) : Plain agent (Effect.going next, after) :=
  ⟨idle, attempt, by simp [Effect.going], hears, same⟩

theorem plain_done (result : TaskResult) (hears : agent.link.framer.Hears after.link.framer)
    (same : after.connection = agent.connection) : Plain agent (Effect.done result, after) :=
  ⟨rfl, rfl, by simp [Effect.done], hears, same⟩

theorem plain_ended (result : Except TransportError Unit)
    (hears : agent.link.framer.Hears after.link.framer)
    (same : after.connection = agent.connection) : Plain agent (Effect.ended result, after) := by
  cases result with
  | ok => exact plain_done _ hears same
  | error => exact plain_done _ hears same

theorem plain_finishReading (result : Except AgentError Unit)
    (hears : agent.link.framer.Hears after.link.framer)
    (same : after.connection = agent.connection) :
    Plain agent (finishReading after companions result) :=
  ⟨rfl, rfl, by simp [finishReading], hears, same⟩

theorem plain_readOn (hears : agent.link.framer.Hears after.link.framer)
    (same : after.connection = agent.connection) : Plain agent (readOn after companions) := by
  unfold readOn
  split
  · exact plain_finishReading _ hears same
  · exact plain_going rfl rfl hears same

theorem plain_stepHeartbeat (interval : Nat) (next : Option Nat) :
    Plain agent (stepHeartbeat agent interval next) := by
  cases next with
  | none =>
      unfold stepHeartbeat
      dsimp only
      split
      · exact plain_done _ .nothing rfl
      · exact plain_going rfl rfl .nothing rfl
  | some time =>
      unfold stepHeartbeat
      dsimp only
      split
      · exact plain_done _ .nothing rfl
      · exact plain_going rfl rfl .nothing rfl

end Plain

omit [ObjectModel φ η] in
theorem plain_listen (companions : List Nat) : Plain agent (listen agent companions) := by
  unfold listen
  cases Transport.listen agent.link.transport with
  | ok => exact plain_going rfl rfl .nothing rfl
  | error => exact plain_going rfl rfl .nothing rfl

theorem plain_readFrame (companions : List Nat) (text : String) :
    Plain agent (readFrame agent companions text) := by
  have hears : agent.link.framer.Hears (agent.link.receive text).2.framer := .frame text
  unfold readFrame
  rcases came : agent.link.receive text with ⟨report, link⟩
  rw [came] at hears
  match report with
  | .ok .continued => exact plain_going rfl rfl hears rfl
  | .ok (.packet packet) => exact plain_readOn hears rfl
  | .ok .acknowledged => exact plain_readOn hears rfl
  | .ok .strayAcknowledgment => exact plain_readOn hears rfl
  | .error error => exact plain_readOn hears rfl

theorem plain_readNext (companions : List Nat) : Plain agent (readNext agent companions) := by
  unfold readNext
  match Transport.poll agent.link.transport with
  | none => exact plain_readOn .nothing rfl
  | some (.ok (some text), transport) =>
      have read : Plain { agent with link := { agent.link with transport } }
          (readFrame { agent with link := { agent.link with transport } } companions text) :=
        plain_readFrame companions text
      exact ⟨read.delivery, read.attempt, read.started, read.hears, read.connection⟩
  | some (.ok none, transport) => exact plain_going rfl rfl .nothing rfl
  | some (.error error, transport) => exact plain_going rfl rfl .nothing rfl

theorem plain_stepReader (companions : List Nat) {place : Reader}
    (elsewhere : (reader place companions).reopening? = none) :
    Plain agent (stepReader agent n companions place) := by
  cases place with
  | connecting =>
      unfold stepReader
      dsimp only [Agent.openTransport]
      rcases Transport.openAt agent.connection.connectUrl agent.link.transport with
        ⟨result, transport⟩
      cases result with
      | ok => exact plain_readOn .nothing rfl
      | error => exact plain_finishReading _ .nothing rfl
  | listening => exact plain_listen companions
  | receiving => exact plain_readNext companions
  | acknowledging => exact plain_readOn .nothing rfl
  | reopening place => cases elsewhere
  | closing result => exact plain_done _ .nothing rfl

omit [ObjectModel φ η] in
theorem plain_startReading : Plain agent (startReading agent fresh) := by
  unfold startReading
  split
  · exact plain_done _ .nothing rfl
  · -- The companions are a writer that has not had a turn, and a heartbeat.
    have started : ∀ task ∈ companionsOf agent.config,
        task.delivery? = none ∧ task.reopening? = none := by
      intro task mem
      rcases List.mem_cons.mp mem with rfl | mem
      · exact ⟨rfl, rfl⟩
      · obtain ⟨interval, -, rfl⟩ := Option.map_eq_some_iff.mp (Option.mem_toList.mp mem)
        exact ⟨rfl, rfl⟩
    dsimp only
    split
    · exact ⟨rfl, rfl, started, .nothing, rfl⟩
    · split
      · unfold readOn
        split <;> exact ⟨rfl, rfl, started, .nothing, rfl⟩
      · exact ⟨rfl, rfl, started, .nothing, rfl⟩

omit [Transport τ] in
theorem plain_handleFrame (text : String) : Plain agent (handleFrame agent text) := by
  have hears : agent.link.framer.Hears (agent.link.receive text).2.framer := .frame text
  unfold handleFrame
  rcases came : agent.link.receive text with ⟨report, link⟩
  rw [came] at hears
  match report with
  | .ok .continued => exact plain_going rfl rfl hears rfl
  | .ok (.packet packet) => exact plain_done _ hears rfl
  | .ok .acknowledged => exact plain_done _ hears rfl
  | .ok .strayAcknowledgment => exact plain_done _ hears rfl
  | .error error => exact plain_done _ hears rfl

/-- **An activity that neither delivers nor is about to, and does not see to the transport, leaves
all of this alone.** -/
theorem step_of_plain (idle : task.delivery? = none) (nothing : task.envelope? agent = none)
    (elsewhere : task.reopening? = none) : Plain agent (task.step agent n fresh) := by
  cases task with
  | run => exact plain_startReading
  | reader place companions => exact plain_stepReader companions elsewhere
  | writer place =>
      cases place with
      | delivering => cases idle
      | _ =>
          have none : agent.nextEnvelope? = none := nothing
          unfold step stepWriter
          dsimp only
          rw [none]
          exact plain_going rfl rfl .nothing rfl
  | heartbeat next interval => exact plain_stepHeartbeat interval next
  | connect => exact plain_ended _ .nothing rfl
  | reopen place => cases elsewhere
  | send envelope => cases nothing
  | deliver delivery => cases idle
  | frame text => exact plain_handleFrame text
  | acknowledge => exact plain_ended _ .nothing rfl

/-! ### Seeing to the transport -/

/-- A step that is a step of a reopening. -/
structure Reopens (before : Agent τ φ η) (n : Nat) (place : Reopening) (step : Step τ φ η) :
    Prop where
  /-- It does what the reopening does. -/
  agent : step.2 = (place.step before n).2
  /-- It goes on where the reopening goes on. -/
  next : step.1.reopening? = (place.step before n).1.next?
  /-- It starts nothing. -/
  started : step.1.started = []

omit [Transport τ] [ObjectModel φ η] in
/-- A reader that has seen to the transport turns to the next frame, or ends. -/
theorem exists_afterReopening (agent : Agent τ φ η) (companions : List Nat)
    (result : Except TransportError Unit) :
    ∃ place aborted, (reader place companions).reopening? = none ∧
      afterReopening agent companions result =
        (⟨.going (.reader place companions), [], aborted⟩, agent) := by
  have on : ∃ place aborted, (reader place companions).reopening? = none ∧
      readOn agent companions = (⟨.going (.reader place companions), [], aborted⟩, agent) := by
    unfold readOn
    split
    · exact ⟨.closing agent.haltResult, companions, rfl, rfl⟩
    · exact ⟨.listening, [], rfl, rfl⟩
  unfold afterReopening
  split
  · exact on
  · exact on
  · next error _ => exact ⟨.closing (.error (.transport error)), companions, rfl, rfl⟩

theorem reopens_reader (companions : List Nat) (place : Reopening) :
    Reopens agent n place ((reader (.reopening place) companions).step agent n fresh) ∧
      ((reader (.reopening place) companions).step agent n fresh).1.delivery? = none := by
  unfold step stepReader
  dsimp only
  rcases stepped : place.step agent n with ⟨progress, after⟩
  cases progress with
  | going next => exact ⟨⟨by rw [stepped], by rw [stepped]; rfl, rfl⟩, rfl⟩
  | done result =>
      obtain ⟨next, aborted, elsewhere, ends⟩ := exists_afterReopening after companions result
      dsimp only
      rw [ends]
      exact ⟨⟨by rw [stepped], by rw [stepped]; exact elsewhere, rfl⟩, rfl⟩

theorem reopens_reopen (place : Reopening) :
    Reopens agent n place ((reopen place).step agent n fresh) ∧
      ((reopen place).step agent n fresh).1.delivery? = none := by
  unfold step
  dsimp only
  rcases stepped : place.step agent n with ⟨progress, after⟩
  match progress with
  | .going next => exact ⟨⟨by rw [stepped], by rw [stepped]; rfl, rfl⟩, rfl⟩
  | .done (.ok ()) => exact ⟨⟨by rw [stepped], by rw [stepped]; rfl, rfl⟩, rfl⟩
  | .done (.error error) => exact ⟨⟨by rw [stepped], by rw [stepped]; rfl, rfl⟩, rfl⟩

omit [Transport τ] [ObjectModel φ η] in
/-- Who sees to the transport and delivers nothing is the reader or a caller. -/
theorem eq_of_reopening {place : Reopening} (idle : task.delivery? = none)
    (here : task.reopening? = some place) :
    (∃ companions, task = .reader (.reopening place) companions) ∨ task = .reopen place := by
  cases task with
  | reader reading companions =>
      cases reading with
      | reopening other =>
          cases here
          exact .inl ⟨companions, rfl⟩
      | _ => cases here
  | writer writing =>
      cases writing with
      | delivering => cases idle
      | _ => cases here
  | reopen other =>
      cases here
      exact .inr rfl
  | deliver => cases idle
  | _ => cases here

/-- An activity that delivers nothing and sees to the transport takes a step of its reopening. -/
theorem step_of_reopening {place : Reopening} (idle : task.delivery? = none)
    (here : task.reopening? = some place) :
    Reopens agent n place (task.step agent n fresh) ∧
      (task.step agent n fresh).1.delivery? = none := by
  obtain ⟨companions, rfl⟩ | rfl := eq_of_reopening idle here
  · exact reopens_reader companions place
  · exact reopens_reopen place

/-- **An activity that sees to the transport takes a step of its reopening**, be it for a delivery.
-/
theorem reopens_step {place : Reopening} (here : task.reopening? = some place) :
    Reopens agent n place (task.step agent n fresh) := by
  cases delivers : task.delivery? with
  | none => exact (step_of_reopening delivers here).1
  | some delivery =>
      rw [reopening?_of_delivery delivers] at here
      cases delivery with
      | sending => cases here
      | reopening text other =>
          cases here
          obtain ⟨same, -, started⟩ := step_of_delivery agent n fresh delivers
          obtain ⟨after, next⟩ := Delivery.step_reopening agent n text place
          exact ⟨same.trans after, (reopening_of_delivery delivers).trans next, started⟩

/-! ### Anything but delivering -/

/-- A step that has nothing to do with deliveries. -/
structure Idles (before : Agent τ φ η) (step : Step τ φ η) : Prop where
  /-- The activity does not deliver. -/
  delivery : step.1.delivery? = none
  /-- Those that it starts do not deliver yet. -/
  started : ∀ task ∈ step.1.started, task.delivery? = none
  /-- At most a frame comes in. -/
  hears : before.link.framer.Hears step.2.link.framer
  /-- A connection that is given up stays so. -/
  halted : before.isHalted = true → step.2.isHalted = true

/-- **An activity that does not deliver, and is not about to, has no part in deliveries.** -/
theorem step_of_idle (idle : task.delivery? = none) (nothing : task.envelope? agent = none) :
    Idles agent (task.step agent n fresh) := by
  cases elsewhere : task.reopening? with
  | none =>
      have plain : Plain agent (task.step agent n fresh) := step_of_plain idle nothing elsewhere
      refine ⟨plain.delivery, fun other mem => (plain.started other mem).1, plain.hears, ?_⟩
      rw [Agent.isHalted, Agent.isHalted, plain.connection]
      exact id
  | some place =>
      obtain ⟨reopens, ends⟩ :
          Reopens agent n place (task.step agent n fresh) ∧
            (task.step agent n fresh).1.delivery? = none := step_of_reopening idle elsewhere
      refine ⟨ends, by simp [reopens.started], ?_, ?_⟩
      · rw [reopens.agent]
        exact .of_eq (Reopening.framer_step place)
      · rw [reopens.agent]
        exact Reopening.halted_step place

/-- **A connection that is given up stays so.** -/
theorem halted_step (n fresh : Nat) (task : Task) (halted : agent.isHalted = true) :
    (task.step agent n fresh).2.isHalted = true := by
  cases delivers : task.delivery? with
  | some delivery =>
      rw [(step_of_delivery agent n fresh delivers).1]
      exact delivery.halted_step halted
  | none =>
      cases begins : task.envelope? agent with
      | some envelope =>
          have same := (step_of_envelope n fresh begins).2.1
          rw [Agent.isHalted, same]
          exact halted
      | none =>
          have idles : Idles agent (task.step agent n fresh) := step_of_idle delivers begins
          exact idles.halted halted

omit [Transport τ] [ObjectModel φ η] in
/-- To give an activity up leaves the connection alone. -/
theorem connection_abandon (n : Nat) (task : Task) :
    (task.abandon agent n).connection = agent.connection := by
  cases task with
  | reader place companions => cases place <;> rfl
  | writer place =>
      cases place with
      | delivering delivery => cases delivery <;> rfl
      | _ => rfl
  | deliver delivery => cases delivery <;> rfl
  | _ => rfl

omit [Transport τ] [ObjectModel φ η] in
theorem isHalted_abandon (n : Nat) (task : Task) :
    (task.abandon agent n).isHalted = agent.isHalted :=
  congrArg Connection.halted (task.connection_abandon n)

end Task

end RemoteAgent
