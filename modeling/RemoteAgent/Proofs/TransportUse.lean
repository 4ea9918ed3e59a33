import RemoteAgent.Proofs.ServiceRun

/-!
# What the transport gets

A step of an activity makes at most one call to the transport: it sends a frame, opens the transport
or closes it, or takes in what has come.  This module says which steps hand over which data frames,
so that statements about the wire can be statements about places of activities.

The data frames of an envelope are handed over by one kind of step alone, that of a send that stands
before a frame (`Sending.frame?`).  That a step hands over this frame, and that other steps hand
over none, is `Service.uses_step`, for any transport: whatever the transport has become after the
step, it has become by the one call that the step has made.

## Main definitions

* `Transport.Use`: a call to the transport, with the data frame that it hands over;
  `Transport.Handling`: a call other than one that opens it.
* `Service.frame?`: the data frame that the next step of an activity hands over.
* `Service.handedBy`: the data frames that an activity hands over in a run.
-/

namespace RemoteAgent

variable {τ φ η : Type}

/-- What a step may do with the transport, and the data frame that it hands over by this. -/
inductive Transport.Use [Transport τ] (channel : τ) : Option Frame → τ → Prop where
  | nothing : Use channel none channel
  | data (frame : Frame) : Use channel (some frame) (Transport.send frame.encode channel).2
  | acknowledgment : Use channel none (Transport.send Frame.acknowledgment.encode channel).2
  | opening (url : String) : Use channel none (Transport.openAt url channel).2
  | receiving {result : Except TransportError (Option String)} {after : τ} :
      Transport.poll channel = some (result, after) → Use channel none after
  | closing : Use channel none (Transport.close channel)

theorem Transport.Use.of_eq [Transport τ] {channel after : τ} (same : after = channel) :
    Use channel none after :=
  same ▸ .nothing

/-- What a step may do with the transport short of opening it. -/
inductive Transport.Handling [Transport τ] (channel : τ) : Option Frame → τ → Prop where
  | nothing : Handling channel none channel
  | data (frame : Frame) : Handling channel (some frame) (Transport.send frame.encode channel).2
  | acknowledgment : Handling channel none (Transport.send Frame.acknowledgment.encode channel).2
  | receiving {result : Except TransportError (Option String)} {after : τ} :
      Transport.poll channel = some (result, after) → Handling channel none after
  | closing : Handling channel none (Transport.close channel)

theorem Transport.Handling.of_eq [Transport τ] {channel after : τ} (same : after = channel) :
    Handling channel none after :=
  same ▸ .nothing

theorem Transport.Handling.use [Transport τ] {channel after : τ} {frame : Option Frame}
    (handling : Handling channel frame after) : Use channel frame after := by
  cases handling with
  | nothing => exact .nothing
  | data frame => exact .data frame
  | acknowledgment => exact .acknowledgment
  | receiving polled => exact .receiving polled
  | closing => exact .closing

/-! ## Sends -/

namespace Sending

/-- The data frame that the next step of a send hands over. -/
def frame? : Sending → Option Frame
  | .transmitting frame _ => some frame
  | .acquiring _ _ _ | .waiting _ _ => none

theorem transport_next (link : Link τ) (frames : List Frame) :
    (next link frames).2.transport = link.transport := by
  cases frames <;> rfl

variable [Transport τ]

theorem transport_transmit (link : Link τ) (frame : Frame) (rest : List Frame) :
    (transmit link frame rest).2.transport = (Transport.send frame.encode link.transport).2 := by
  have sent : (link.transmit frame).2.transport =
      (Transport.send frame.encode link.transport).2 := rfl
  unfold transmit
  split
  · next handed =>
      rw [handed] at sent
      exact sent
  · next handed =>
      rw [handed] at sent
      split
      · exact sent
      · exact (transport_next _ _).trans sent

theorem handling_step (link : Link τ) (place : Sending) :
    Transport.Handling link.transport place.frame? (place.step link).2.transport := by
  cases place with
  | acquiring payload since again =>
      refine .of_eq ?_
      unfold step acquire
      dsimp only
      split
      · exact transport_next _ _
      · split <;> rfl
  | transmitting frame rest =>
      have sent := transport_transmit link frame rest
      exact sent ▸ .data frame
  | waiting rest deadline =>
      refine .of_eq ?_
      show (await link rest deadline).2.transport = _
      unfold await
      split
      · exact transport_next _ _
      · split <;> rfl

end Sending

/-! ## Deliveries -/

theorem Reopening.transport_check [Transport τ] (agent : Agent τ φ η) (n : Nat) :
    (check agent n).2.link.transport = agent.link.transport := by
  unfold check
  split
  · rfl
  · split
    · rfl
    · split <;> rfl

theorem Reopening.uses_step [Transport τ] (agent : Agent τ φ η) (n : Nat) (place : Reopening) :
    Transport.Use agent.link.transport none (place.step agent n).2.link.transport := by
  cases place with
  | requesting =>
      refine .of_eq ?_
      unfold step
      dsimp only
      split
      · exact transport_check _ n
      · rfl
  | queued => exact .of_eq (transport_check agent n)
  | pausing time => exact .nothing
  | opening =>
      show Transport.Use _ none (check agent.openTransport.2 n).2.link.transport
      rw [transport_check]
      exact .opening agent.connection.connectUrl

namespace Delivery

/-- The data frame that the next step of a delivery hands over. -/
def frame? (delivery : Delivery) : Option Frame := delivery.sending?.bind Sending.frame?

variable [Transport τ]

/-- A delivery that has got to a send takes its steps. -/
theorem step_sending (agent : Agent τ φ η) (n : Nat) (text : String) (place : Sending) :
    ((sending text place).step agent n).2.link = (place.step agent.link).2 ∧
      ((sending text place).step agent n).1.next?.bind sending? =
        (place.step agent.link).1.next? := by
  have outcome : Outcome agent n (.sending text place) ((sending text place).step agent n) :=
    Delivery.outcome _
  generalize (sending text place).step agent n = stepped at outcome ⊢
  cases outcome with
  | sends stepped =>
      rw [stepped]
      exact ⟨rfl, rfl⟩
  | sent stepped =>
      rw [stepped]
      exact ⟨rfl, rfl⟩
  | retries stepped =>
      rw [stepped]
      exact ⟨rfl, rfl⟩
  | fails stepped =>
      rw [stepped]
      exact ⟨rfl, rfl⟩

theorem uses_step (agent : Agent τ φ η) (n : Nat) (delivery : Delivery) :
    Transport.Use agent.link.transport delivery.frame?
      (delivery.step agent n).2.link.transport := by
  cases delivery with
  | reopening text place =>
      rw [(step_reopening agent n text place).1]
      exact place.uses_step agent n
  | sending text place =>
      rw [(step_sending agent n text place).1]
      exact (place.handling_step agent.link).use

end Delivery

/-! ## Activities -/

namespace Task

theorem agent_readOn (agent : Agent τ φ η) (companions : List Nat) :
    (readOn agent companions).2 = agent := by
  unfold readOn
  split <;> rfl

theorem link_stepHeartbeat (agent : Agent τ φ η) (interval : Nat) (next : Option Nat) :
    (stepHeartbeat agent interval next).2.link = agent.link := by
  cases next with
  | none =>
      unfold stepHeartbeat
      dsimp only
      split <;> rfl
  | some time =>
      unfold stepHeartbeat
      dsimp only
      split <;> rfl

theorem transport_handleFrame [ObjectModel φ η] (agent : Agent τ φ η) (text : String) :
    (handleFrame agent text).2.link.transport = agent.link.transport := by
  have same : (agent.link.receive text).2.transport = agent.link.transport := rfl
  unfold handleFrame
  rcases came : agent.link.receive text with ⟨report, link⟩
  rw [came] at same
  match report with
  | .ok .continued => exact same
  | .ok (.packet packet) => exact same
  | .ok .acknowledged => exact same
  | .ok .strayAcknowledgment => exact same
  | .error error => exact same

variable [Transport τ]

theorem link_startReading (agent : Agent τ φ η) (fresh : Nat) :
    (startReading agent fresh).2.link = agent.link := by
  unfold startReading
  split
  · rfl
  · dsimp only
    split
    · rfl
    · split
      · rw [agent_readOn]
      · rfl

variable [ObjectModel φ η]

theorem transport_readFrame (agent : Agent τ φ η) (companions : List Nat) (text : String) :
    (readFrame agent companions text).2.link.transport = agent.link.transport := by
  have same : (agent.link.receive text).2.transport = agent.link.transport := rfl
  have on : ∀ agent : Agent τ φ η,
      (readOn agent companions).2.link.transport = agent.link.transport :=
    fun agent => congrArg (·.link.transport) (agent_readOn agent companions)
  unfold readFrame
  rcases came : agent.link.receive text with ⟨report, link⟩
  rw [came] at same
  match report with
  | .ok .continued => exact same
  | .ok (.packet packet) => exact (on _).trans same
  | .ok .acknowledged => exact (on _).trans same
  | .ok .strayAcknowledgment => exact (on _).trans same
  | .error error => exact (on _).trans same

theorem handling_readNext (agent : Agent τ φ η) (companions : List Nat) :
    Transport.Handling agent.link.transport none
      (readNext agent companions).2.link.transport := by
  unfold readNext
  match polled : Transport.poll agent.link.transport with
  | none =>
      dsimp only
      rw [agent_readOn]
      exact .nothing
  | some (.ok (some text), transport) =>
      dsimp only
      rw [transport_readFrame]
      exact .receiving polled
  | some (.ok none, transport) => exact .receiving polled
  | some (.error error, transport) => exact .receiving polled

/-- Whether the next step opens the transport, without an attempt having been granted. -/
def isConnecting : Task → Bool
  | reader .connecting _ | connect => true
  | _ => false

/-- A reader that neither connects nor sees to the transport. -/
theorem handling_stepReader (agent : Agent τ φ η) (n : Nat) (companions : List Nat)
    {place : Reader} (elsewhere : (reader place companions).reopening? = none)
    (connected : (reader place companions).isConnecting = false) :
    Transport.Handling agent.link.transport none
      (stepReader agent n companions place).2.link.transport := by
  cases place with
  | connecting => cases connected
  | listening =>
      refine .of_eq ?_
      show (listen agent companions).2.link.transport = _
      unfold listen
      split <;> rfl
  | receiving => exact handling_readNext agent companions
  | acknowledging =>
      show Transport.Handling _ none (readOn _ companions).2.link.transport
      rw [agent_readOn]
      exact .acknowledgment
  | reopening reopening => cases elsewhere
  | closing result => exact .closing

/-- **An activity that neither connects nor sees to the transport does not open it**, and hands over
the data frame that its delivery stands before, if any. -/
theorem handling_step (agent : Agent τ φ η) (n fresh : Nat) {task : Task}
    (elsewhere : task.reopening? = none) (connected : task.isConnecting = false) :
    Transport.Handling agent.link.transport (task.delivery?.bind Delivery.frame?)
      (task.step agent n fresh).2.link.transport := by
  cases delivers : task.delivery? with
  | some delivery =>
      rw [(step_of_delivery agent n fresh delivers).1]
      rw [reopening?_of_delivery delivers] at elsewhere
      cases delivery with
      | reopening text place => cases elsewhere
      | sending text place =>
          rw [(Delivery.step_sending agent n text place).1]
          exact place.handling_step agent.link
  | none =>
      cases begins : task.envelope? agent with
      | some envelope => exact .of_eq (congrArg Link.transport (step_of_envelope n fresh begins).1)
      | none =>
          cases task with
          | run => exact .of_eq (congrArg Link.transport (link_startReading agent fresh))
          | reader place companions =>
              exact handling_stepReader agent n companions elsewhere connected
          | writer place =>
              cases place with
              | delivering => cases delivers
              | _ =>
                  have none : agent.nextEnvelope? = none := begins
                  unfold step stepWriter
                  dsimp only
                  rw [none]
                  exact .nothing
          | heartbeat next interval =>
              exact .of_eq (congrArg Link.transport (link_stepHeartbeat agent interval next))
          | connect => cases connected
          | reopen reopening => cases elsewhere
          | send envelope => cases begins
          | deliver delivery => cases delivers
          | frame text => exact .of_eq (transport_handleFrame agent text)
          | acknowledge => exact .acknowledgment

theorem link_connecting (agent : Agent τ φ η) (n fresh : Nat) {task : Task}
    (connects : task.isConnecting = true) :
    (task.step agent n fresh).2.link = agent.openTransport.2.link := by
  cases task with
  | reader place companions =>
      cases place with
      | connecting =>
          unfold step stepReader
          dsimp only
          rcases agent.openTransport with ⟨error | ok, after⟩
          · rfl
          · exact congrArg Agent.link (agent_readOn after companions)
      | _ => cases connects
  | connect => rfl
  | _ => cases connects

/-- **What an activity does with the transport**: it hands over the data frame that its delivery
stands before, if any. -/
theorem uses_step (agent : Agent τ φ η) (n fresh : Nat) (task : Task) :
    Transport.Use agent.link.transport (task.delivery?.bind Delivery.frame?)
      (task.step agent n fresh).2.link.transport := by
  cases delivers : task.delivery? with
  | some delivery =>
      rw [(step_of_delivery agent n fresh delivers).1]
      exact delivery.uses_step agent n
  | none =>
      by_cases connects : task.isConnecting = true
      · rw [link_connecting agent n fresh connects]
        exact .opening agent.connection.connectUrl
      · cases elsewhere : task.reopening? with
        | some place =>
            have reopens : Reopens agent n place (task.step agent n fresh) := reopens_step elsewhere
            rw [reopens.agent]
            exact place.uses_step agent n
        | none =>
            have handling := handling_step agent n fresh elsewhere (Bool.not_eq_true _ ▸ connects)
            rw [delivers] at handling
            exact handling.use

omit [Transport τ] [ObjectModel φ η] in
theorem transport_abandon (agent : Agent τ φ η) (n : Nat) (task : Task) :
    (task.abandon agent n).link.transport = agent.link.transport := by
  have delivery : ∀ delivery : Delivery,
      (delivery.abandon agent n).link.transport = agent.link.transport := by
    intro delivery
    cases delivery with
    | reopening text place => rfl
    | sending text place =>
        unfold Delivery.abandon Sending.abandon
        dsimp only
        split <;> rfl
  cases task with
  | reader place companions => cases place <;> rfl
  | writer place =>
      cases place with
      | delivering here => exact delivery here
      | _ => rfl
  | deliver here => exact delivery here
  | _ => rfl

end Task

/-! ## Runs -/

namespace Service

/-- The data frame that activity `n` hands over when it takes a step. -/
def frame? (p : Service τ φ η) (n : Nat) : Option Frame :=
  match p.activity? n with
  | some ⟨_, task, false⟩ => task.delivery?.bind Delivery.frame?
  | some ⟨_, _, true⟩ | none => none

/-- The data frame that activity `n` hands over when something happens. -/
def handed (p : Service τ φ η) (n : Nat) : Event τ φ η → List Frame
  | .step m => if m = n then (p.frame? n).toList else []
  | _ => []

variable [Transport τ] [ObjectModel φ η]

/-- The data frames that activity `n` hands over while things happen. -/
def handedBy (n : Nat) (p : Service τ φ η) : List (Event τ φ η) → List Frame
  | [] => []
  | event :: rest => p.handed n event ++ handedBy n (p.act event) rest

/-- **A step hands over the data frame of its activity, and no other one.** -/
theorem uses_step (p : Service τ φ η) (n : Nat) :
    Transport.Use p.agent.link.transport (p.frame? n) (p.step n).agent.link.transport := by
  unfold frame?
  cases found : p.activity? n with
  | none =>
      rw [step_of_none found]
      exact .nothing
  | some activity =>
      obtain ⟨number, task, aborted⟩ := activity
      cases aborted with
      | true =>
          rw [step_of_aborted found]
          exact .of_eq (task.transport_abandon p.agent n)
      | false =>
          rw [step_of_running found, agent_after]
          exact task.uses_step p.agent n p.fresh

end Service

end RemoteAgent
