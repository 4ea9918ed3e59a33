import RemoteAgent.Proofs.Drops
import RemoteAgent.Proofs.Outbox

/-!
# The order of the writer

The writer takes the envelopes of the outbox one after the other and delivers each of them.  A
delivery may break off and begin again from the first frame, and it may end without success; others
send beside it, the channel breaks, and the reader or somebody else opens it again.  What is
delivered is in the order of the outbox all the same, with nothing in it twice.

There are two halves to this.  One is about sends: a send that did not return without an error has
handed over slices and no final frame, so a text that is sent again is closed by its last try alone.
This is what the history tells (`History.Describes.handedOver_eq`).  The other is about the outbox.
An agent is driven once, so there is one writer, and it begins to deliver exactly what is taken out
of the outbox (`Recorded.WrittenBy`).  For this the steps of all activities are sorted into three
kinds (`Recorded.Turn`): those that are no business of the writer, the one that starts it, and those
in which it takes an envelope.

The packets that the frames of the writer make up are another matter.  Frames do not tell which try
they belong to, so the slices of a try that broke off are in front of the next packet.  Each packet
ends with the envelope that it was closed by, one packet for each envelope that was delivered; but
the packets are these envelopes only as long as nothing torn comes before something complete
(`Attempt.Clean`), and `Recorded.writer_packet_not_emitted` has a run in which they are not.

## Main definitions

* `History.framesBy`, `History.packetsBy`: the frames of one sender, and the packets that they make
  up.
* `Task.Turn`, `Recorded.Turn`: what a step, or an event, is to the writer.
* `Recorded.WrittenBy`: the invariant.

## Main results

* `Recorded.writer_in_order`: what the writer delivers, in which order, and when its packets are
  that.
-/

namespace RemoteAgent

variable {τ φ η : Type}

/-! ## What is no business of the writer -/

/-- A later agent, out of whose outbox nobody has taken anything. -/
structure Agent.Queues (agent after : Agent τ φ η) : Prop where
  /-- Envelopes may have come in. -/
  outbox : agent.world.Queues after.world
  /-- None was taken out. -/
  taken : after.taken = agent.taken
  /-- Who drives the connection has not changed. -/
  driven : after.driven = agent.driven

theorem Agent.Queues.refl (agent : Agent τ φ η) : agent.Queues agent := ⟨.refl _, rfl, rfl⟩

theorem Agent.Queues.trans {agent middle after : Agent τ φ η} (one : agent.Queues middle)
    (two : middle.Queues after) : agent.Queues after :=
  ⟨one.outbox.trans two.outbox, two.taken.trans one.taken, two.driven.trans one.driven⟩

theorem Reopening.queues_check [Transport τ] (agent : Agent τ φ η) (n : Nat) :
    agent.Queues (check agent n).2 := by
  unfold check
  split
  · exact ⟨.refl _, rfl, rfl⟩
  · split
    · exact ⟨.refl _, rfl, rfl⟩
    · split <;> exact ⟨.refl _, rfl, rfl⟩

theorem Reopening.queues_step [Transport τ] (agent : Agent τ φ η) (n : Nat) (place : Reopening) :
    agent.Queues (place.step agent n).2 := by
  cases place with
  | requesting =>
      have asked : agent.Queues { agent with reconnecting := agent.reconnecting.request n } :=
        ⟨.refl _, rfl, rfl⟩
      unfold step
      dsimp only
      split
      · exact asked.trans (queues_check _ n)
      · exact asked
  | queued => exact queues_check agent n
  | pausing => exact .refl agent
  | opening =>
      have opened : agent.Queues agent.openTransport.2 := ⟨.refl _, rfl, rfl⟩
      exact opened.trans (queues_check _ n)

theorem Delivery.queues_step [Transport τ] (agent : Agent τ φ η) (n : Nat) (delivery : Delivery) :
    agent.Queues (delivery.step agent n).2 := by
  cases delivery with
  | reopening text place =>
      rw [(step_reopening agent n text place).1]
      exact Reopening.queues_step agent n place
  | sending text place =>
      have outcome : Outcome agent n (.sending text place) ((sending text place).step agent n) :=
        Delivery.outcome _
      generalize (sending text place).step agent n = stepped at outcome ⊢
      cases outcome <;> exact ⟨.refl _, rfl, rfl⟩

theorem Task.queues_abandon (agent : Agent τ φ η) (n : Nat) (task : Task) :
    agent.Queues (task.abandon agent n) := by
  unfold abandon Delivery.abandon
  split
  · exact ⟨.refl _, rfl, rfl⟩
  · split <;> exact ⟨.refl _, rfl, rfl⟩
  · exact ⟨.refl _, rfl, rfl⟩
  · split <;> exact ⟨.refl _, rfl, rfl⟩
  · exact .refl agent

/-- A packet may make the session put envelopes in. -/
theorem Agent.queues_handlePacket [ObjectModel φ η] (queueing : QueueingModel φ η)
    (agent : Agent τ φ η) (text : String) : agent.Queues (agent.handlePacket text).2 := by
  refine ⟨?_, rfl, rfl⟩
  unfold handlePacket inSession
  dsimp only
  have flagged : agent.world.Queues
      { agent.world with outbox := { agent.world.outbox with halted := agent.isHalted } } :=
    .of_eq rfl
  generalize World.mk _ _ _ = world at flagged ⊢
  cases ((Codec.mk true).decode text).result with
  | ok envelope => exact flagged.trans (Message.queues_dispatch queueing _ envelope world)
  | error error =>
      dsimp only
      generalize ((Codec.mk true).decode text).reports = reports
      induction reports generalizing world with
      | nil => exact flagged
      | cons report rest ih => exact ih _ (flagged.trans (.report world _ _))

/-! ## Activities -/

/-- Whether an activity is a writer. -/
def Task.isWriter : Task → Bool
  | .writer _ => true
  | _ => false

/-- If the activity goes on after a step, it does so as a writer, or not as one. -/
def Effect.GoesOnAs (isWriter : Bool) (effect : Effect) : Prop :=
  ∀ task, effect.progress.next? = some task → task.isWriter = isWriter

theorem Effect.GoesOnAs.of_going {effect : Effect} {task : Task} {isWriter : Bool}
    (going : effect.progress = .going task) (same : task.isWriter = isWriter) :
    effect.GoesOnAs isWriter := by
  intro other next
  rw [going] at next
  exact Option.some.inj next ▸ same

theorem Effect.GoesOnAs.of_done {effect : Effect} {result : TaskResult} {isWriter : Bool}
    (done : effect.progress = .done result) : effect.GoesOnAs isWriter := by
  intro other next
  rw [done] at next
  cases next

namespace Task

/-- A step of an activity that is no writer and starts none. -/
structure Aside (agent : Agent τ φ η) (step : Step τ φ η) : Prop where
  /-- It takes nothing out of the outbox. -/
  queues : agent.Queues step.2
  /-- It starts nobody. -/
  started : step.1.started = []
  /-- The activity becomes no writer. -/
  next : step.1.GoesOnAs false

section Aside

variable {agent after : Agent τ φ η} {n : Nat} {companions : List Nat}

theorem aside_going {task : Task} (other : task.isWriter = false) (queues : agent.Queues after) :
    Aside agent (Effect.going task, after) :=
  ⟨queues, rfl, .of_going rfl other⟩

theorem aside_done (result : TaskResult) (queues : agent.Queues after) :
    Aside agent (Effect.done result, after) :=
  ⟨queues, rfl, .of_done rfl⟩

theorem aside_ended (result : Except TransportError Unit) (queues : agent.Queues after) :
    Aside agent (Effect.ended result, after) := by
  cases result <;> exact aside_done _ queues

theorem aside_finishReading (result : Except AgentError Unit) (queues : agent.Queues after) :
    Aside agent (finishReading after companions result) :=
  ⟨queues, rfl, .of_going rfl rfl⟩

theorem aside_readOn (queues : agent.Queues after) : Aside agent (readOn after companions) := by
  unfold readOn
  split
  · exact aside_finishReading _ queues
  · exact aside_going rfl queues

theorem aside_afterReopening (result : Except TransportError Unit) (queues : agent.Queues after) :
    Aside agent (afterReopening after companions result) := by
  unfold afterReopening
  split
  · exact aside_readOn queues
  · exact aside_readOn queues
  · exact aside_finishReading _ queues

theorem aside_stepHeartbeat (interval : Nat) (next : Option Nat) :
    Aside agent (stepHeartbeat agent interval next) := by
  cases next with
  | none =>
      unfold stepHeartbeat
      dsimp only
      split
      · exact aside_done _ (.refl agent)
      · exact aside_going rfl (.refl agent)
  | some time =>
      unfold stepHeartbeat
      dsimp only
      split
      · exact aside_done _ (.refl agent)
      · exact aside_going rfl ⟨.emit agent.world _, rfl, rfl⟩

theorem aside_deliverOn (progress : Progress Delivery (Except TransportError Unit))
    (queues : agent.Queues after) : Aside agent (deliverOn after progress) := by
  cases progress with
  | going delivery => exact aside_going rfl queues
  | done result => exact aside_ended result queues

variable [Transport τ] [ObjectModel φ η] (queueing : QueueingModel φ η)

include queueing

theorem aside_readFrame (companions : List Nat) (text : String) :
    Aside agent (readFrame agent companions text) := by
  unfold readFrame
  rcases agent.link.receive text with ⟨report, link⟩
  have heard : agent.Queues { agent with link } := ⟨.refl _, rfl, rfl⟩
  match report with
  | .ok .continued => exact aside_going rfl heard
  | .ok (.packet packet) =>
      exact aside_readOn (heard.trans (Agent.queues_handlePacket queueing _ packet))
  | .ok .acknowledged => exact aside_readOn heard
  | .ok .strayAcknowledgment => exact aside_readOn heard
  | .error error => exact aside_readOn heard

theorem aside_readNext (companions : List Nat) : Aside agent (readNext agent companions) := by
  unfold readNext
  match Transport.poll agent.link.transport with
  | none => exact aside_readOn (.refl agent)
  | some (.ok (some text), transport) =>
      have read : Aside { agent with link := { agent.link with transport } }
          (readFrame { agent with link := { agent.link with transport } } companions text) :=
        aside_readFrame queueing companions text
      exact ⟨⟨read.queues.outbox, read.queues.taken, read.queues.driven⟩, read.started, read.next⟩
  | some (.ok none, transport) => exact aside_going rfl ⟨.refl _, rfl, rfl⟩
  | some (.error error, transport) => exact aside_going rfl ⟨.refl _, rfl, rfl⟩

theorem aside_stepReader (companions : List Nat) (place : Reader) :
    Aside agent (stepReader agent n companions place) := by
  cases place with
  | connecting =>
      unfold stepReader
      dsimp only [Agent.openTransport]
      rcases Transport.openAt agent.connection.connectUrl agent.link.transport with
        ⟨result, transport⟩
      cases result with
      | ok => exact aside_readOn ⟨.refl _, rfl, rfl⟩
      | error => exact aside_finishReading _ ⟨.refl _, rfl, rfl⟩
  | listening =>
      show Aside agent (listen agent companions)
      unfold listen
      split <;> exact aside_going rfl (.refl agent)
  | receiving => exact aside_readNext queueing companions
  | acknowledging => exact aside_readOn ⟨.refl _, rfl, rfl⟩
  | reopening place =>
      have queues : agent.Queues (place.step agent n).2 := Reopening.queues_step agent n place
      unfold stepReader
      dsimp only
      rcases stepped : place.step agent n with ⟨progress, after⟩
      rw [stepped] at queues
      cases progress with
      | going next => exact aside_going rfl queues
      | done result => exact aside_afterReopening result queues
  | closing result => exact aside_done _ ⟨.refl _, rfl, rfl⟩

omit [Transport τ] in
theorem aside_handleFrame (text : String) : Aside agent (handleFrame agent text) := by
  unfold handleFrame
  rcases agent.link.receive text with ⟨report, link⟩
  have heard : agent.Queues { agent with link } := ⟨.refl _, rfl, rfl⟩
  match report with
  | .ok .continued => exact aside_going rfl heard
  | .ok (.packet packet) =>
      exact aside_done _ (heard.trans (Agent.queues_handlePacket queueing _ packet))
  | .ok .acknowledged => exact aside_done _ heard
  | .ok .strayAcknowledgment => exact aside_done _ heard
  | .error error => exact aside_done _ heard

/-- Whoever neither writes nor begins to drive the connection stands aside. -/
theorem aside_step {task : Task} (noWriter : task.isWriter = false) (noRun : task ≠ .run)
    (fresh : Nat) : Aside agent (task.step agent n fresh) := by
  cases task with
  | run => exact absurd rfl noRun
  | reader place companions => exact aside_stepReader queueing companions place
  | writer place => cases noWriter
  | heartbeat next interval => exact aside_stepHeartbeat interval next
  | connect => exact aside_ended _ ⟨.refl _, rfl, rfl⟩
  | reopen place =>
      have queues : agent.Queues (place.step agent n).2 := Reopening.queues_step agent n place
      unfold step
      dsimp only
      rcases stepped : place.step agent n with ⟨progress, after⟩
      rw [stepped] at queues
      cases progress with
      | going next => exact aside_going rfl queues
      | done result => exact aside_ended result queues
  | send envelope => exact aside_deliverOn _ (.refl agent)
  | deliver delivery => exact aside_deliverOn _ (Delivery.queues_step agent n delivery)
  | frame text => exact aside_handleFrame queueing text
  | acknowledge => exact aside_ended _ ⟨.refl _, rfl, rfl⟩

end Aside

/-- **What a step of an activity is to the writer.** -/
inductive Turn (agent : Agent τ φ η) (task : Task) (step : Step τ φ η) : Prop
  /-- It is no business of the writer, or the writer takes no envelope in it. -/
  | passes (queues : agent.Queues step.2) (started : step.1.started = [])
      (next : step.1.GoesOnAs task.isWriter)
      (takesNone : task.isWriter = true → task.envelope? agent = none)
  /-- Someone begins to drive the connection, and a writer is started. -/
  | starts (undriven : agent.driven = false) (isRun : task = .run)
      (after : step.2 = { agent with driven := true })
      (started : step.1.started = companionsOf agent.config)
      (next : step.1.GoesOnAs false)
  /-- A writer takes the next envelope, and begins to deliver it. -/
  | takes {envelope : Json} (isWriter : task.isWriter = true)
      (begins : task.envelope? agent = some envelope)
      (found : agent.nextEnvelope? = some envelope)
      (after : step.2 = { agent with taken := agent.taken + 1 })
      (started : step.1.started = [])
      (next : step.1.GoesOnAs true)

section Turn

variable {agent : Agent τ φ η}

/-- A writer stays one, and starts nobody. -/
theorem next_writeOn (after : Agent τ φ η)
    (progress : Progress Delivery (Except TransportError Unit)) :
    (writeOn after progress).2 = after ∧ (writeOn after progress).1.started = [] ∧
      (writeOn after progress).1.GoesOnAs true := by
  match progress with
  | .going delivery => exact ⟨rfl, rfl, .of_going rfl rfl⟩
  | .done (.ok ()) => exact ⟨rfl, rfl, .of_going rfl rfl⟩
  | .done (.error error) =>
      cases error
      case halted => exact ⟨rfl, rfl, .of_done rfl⟩
      case reconnectLimit => exact ⟨rfl, rfl, .of_done rfl⟩
      all_goals exact ⟨rfl, rfl, .of_going rfl rfl⟩

variable [Transport τ]

theorem turn_startReading (fresh : Nat) : Turn agent .run (startReading agent fresh) := by
  unfold startReading
  by_cases driven : agent.driven = true
  · rw [if_pos driven]
    exact .passes (.refl agent) rfl (.of_done rfl) fun isWriter => by cases isWriter
  · rw [if_neg driven]
    have undriven : agent.driven = false := Bool.eq_false_iff.mpr driven
    dsimp only
    split
    · exact .starts undriven rfl rfl rfl (.of_going rfl rfl)
    · split
      · unfold readOn
        split <;> exact .starts undriven rfl rfl rfl (.of_going rfl rfl)
      · exact .starts undriven rfl rfl rfl (.of_going rfl rfl)

theorem turn_stepWriter (n : Nat) (place : Writer) :
    Turn agent (.writer place) (stepWriter agent n place) := by
  -- Before its first turn a writer does what it does when it waits.
  have waits : ∀ place : Writer, (.writer place : Task).envelope? agent = agent.nextEnvelope? →
      stepWriter agent n place = stepWriter agent n .idle →
        Turn agent (.writer place) (stepWriter agent n place) := by
    intro place begins same
    rw [same]
    unfold stepWriter
    dsimp only
    cases found : agent.nextEnvelope? with
    | none =>
        exact .passes (.refl agent) rfl (.of_going rfl rfl) fun _ => begins.trans found
    | some envelope =>
        obtain ⟨after, started, next⟩ := next_writeOn { agent with taken := agent.taken + 1 }
          (Delivery.start agent envelope)
        exact .takes rfl (begins.trans found) found after started next
  cases place with
  | starting => exact waits .starting rfl rfl
  | idle => exact waits .idle rfl rfl
  | delivering delivery =>
      have queues : agent.Queues (delivery.step agent n).2 := Delivery.queues_step agent n delivery
      unfold stepWriter
      dsimp only
      obtain ⟨after, started, next⟩ :=
        next_writeOn (delivery.step agent n).2 (delivery.step agent n).1
      exact .passes (by rw [after]; exact queues) started next fun _ => rfl

/-- **The inversion of a step**, as far as the writer is concerned. -/
theorem turn [ObjectModel φ η] (queueing : QueueingModel φ η) (n fresh : Nat) (task : Task) :
    Turn agent task (task.step agent n fresh) := by
  cases isWriter : task.isWriter with
  | true =>
      cases task with
      | writer place => exact turn_stepWriter n place
      | _ => cases isWriter
  | false =>
      by_cases isRun : task = .run
      · rw [isRun]
        exact turn_startReading fresh
      · have aside : Aside agent (task.step agent n fresh) :=
          aside_step queueing isWriter isRun fresh
        refine .passes aside.queues aside.started ?_ ?_
        · rw [isWriter]
          exact aside.next
        · rw [isWriter]
          exact fun writes => by cases writes

end Turn

end Task

/-- Of the activities that are started beside a reader, the first one is a writer. -/
theorem Task.isWriter_companion {config : Config} {task : Task} {n fresh : Nat}
    (mem : (task, n) ∈ (companionsOf config).zipIdx fresh) :
    task.isWriter = true ↔ n = fresh := by
  unfold companionsOf at mem
  rw [List.zipIdx_cons] at mem
  rcases List.mem_cons.mp mem with first | other
  · obtain ⟨rfl, rfl⟩ := Prod.mk.inj first
    exact iff_of_true rfl rfl
  · have large := List.le_snd_of_mem_zipIdx other
    have beats := List.fst_mem_of_mem_zipIdx other
    obtain ⟨interval, -, rfl⟩ := Option.map_eq_some_iff.mp (Option.mem_toList.mp beats)
    have later : n ≠ fresh := by
      have : fresh + 1 ≤ n := large
      omega
    exact iff_of_false Bool.false_ne_true later

/-! ## What is begun -/

/-- The texts of all envelopes that were emitted, the oldest first. -/
def Agent.emitted (agent : Agent τ φ η) : List String :=
  agent.world.outbox.sent.toList.map Codec.encode

theorem Agent.Queues.emitted {agent after : Agent τ φ η} (queues : agent.Queues after) :
    agent.emitted <+: after.emitted :=
  queues.outbox.map Codec.encode

/-- The next envelope is the one behind those that were taken. -/
theorem Agent.take_emitted {agent : Agent τ φ η} {envelope : Json}
    (found : agent.nextEnvelope? = some envelope) :
    agent.taken < agent.emitted.length ∧
      agent.emitted.take (agent.taken + 1) =
        agent.emitted.take agent.taken ++ [Codec.encode envelope] := by
  obtain ⟨small, here⟩ := Array.getElem?_eq_some_iff.mp found
  have length : agent.taken < agent.emitted.length := by
    rw [emitted, List.length_map, Array.length_toList]
    exact small
  refine ⟨length, ?_⟩
  rw [List.take_succ_eq_append_getElem length]
  simp [emitted, ← here]

/-- An activity begins to deliver the envelope that is next for it. -/
theorem Chronicle.begunBy_step [Transport τ] (chronicle : Chronicle) (agent : Agent τ φ η)
    (n : Nat) (task : Task) (m : Nat) :
    (chronicle.step agent n task).begunBy m =
      chronicle.begunBy m ++
        if n = m then ((task.envelope? agent).map Codec.encode).toList else [] := by
  unfold step
  cases delivers : task.delivery? with
  | some delivery =>
      have nothing : task.envelope? agent = none := by
        obtain rfl | rfl := Task.eq_of_delivery delivers <;> rfl
      rw [nothing]
      show chronicle.begunBy m = _
      simp
  | none =>
      cases task.envelope? agent with
      | none => simp
      | some envelope => by_cases same : n = m <;> simp [begin, leave, begunBy, same]

theorem Chronicle.begunBy_abandon (chronicle : Chronicle) (n : Nat) (task : Task) (m : Nat) :
    (chronicle.abandon n task).begunBy m = chronicle.begunBy m := by
  unfold abandon
  split <;> rfl

/-! ## Events -/

namespace Service

/-- What the host does in the session takes nothing out of the outbox, at any of the events. -/
def Queues [Transport τ] [ObjectModel φ η] (p : Service τ φ η) : List (Event τ φ η) → Prop
  | [] => True
  | event :: rest =>
    (∀ world, event = .session world → p.agent.world.Queues world) ∧ (p.act event).Queues rest

/-- An activity has the number of one that was there before, and writes if that one did. -/
def Knows (p : Service τ φ η) (activity : Activity) : Prop :=
  ∃ old ∈ p.activities, old.number = activity.number ∧ old.task.isWriter = activity.task.isWriter

theorem knows_of_mem {p : Service τ φ η} {activity : Activity} (mem : activity ∈ p.activities) :
    p.Knows activity := ⟨activity, mem, rfl, rfl⟩

section After

variable {p : Service τ φ η} {n : Nat} {step : Task.Step τ φ η}

/-- After a step of an activity that goes on as what it was, all activities are known but for those
that it has started. -/
theorem knows_of_mem_after {task : Task} {activity : Activity}
    (own : ⟨n, task, false⟩ ∈ p.activities)
    (next : ∀ other, step.1.progress.next? = some other → other.isWriter = task.isWriter)
    (mem : activity ∈ (p.after n step).activities) :
    p.Knows activity ∨ (activity.task, activity.number) ∈ step.1.started.zipIdx p.fresh := by
  rcases exists_of_mem_after mem with ⟨old, memOld, -, number, same⟩ | ⟨number, here⟩ | new
  · exact .inl ⟨old, memOld, number, congrArg Task.isWriter same⟩
  · exact .inl ⟨_, own, number.symm, (next _ here).symm⟩
  · exact .inr new

end After

end Service

namespace Recorded

/-- **What an event is to the writer.** -/
inductive Turn (r after : Recorded τ φ η) : Prop
  /-- It is no business of the writer, or the writer takes no envelope in it. -/
  | passes (queues : r.service.agent.Queues after.service.agent)
      (fresh : r.service.fresh ≤ after.service.fresh)
      (activities : ∀ activity ∈ after.service.activities, r.service.Knows activity ∨
        (r.service.fresh ≤ activity.number ∧ activity.task.isWriter = false))
      (begun : ∀ n, (∀ activity ∈ r.service.activities, activity.number = n →
        activity.task.isWriter = true) → after.chronicle.begunBy n = r.chronicle.begunBy n)
  /-- Someone begins to drive the connection, and a writer is started with the first free number. -/
  | starts (undriven : r.service.agent.driven = false)
      (agent : after.service.agent = { r.service.agent with driven := true })
      (fresh : r.service.fresh < after.service.fresh)
      (activities : ∀ activity ∈ after.service.activities, r.service.Knows activity ∨
        (activity.task.isWriter = true ↔ activity.number = r.service.fresh))
      (begun : ∀ n, after.chronicle.begunBy n = r.chronicle.begunBy n)
  /-- A writer takes the next envelope, and begins to deliver it. -/
  | takes {n : Nat} {envelope : Json}
      (isWriter : ∃ activity ∈ r.service.activities, activity.number = n ∧
        activity.task.isWriter = true)
      (found : r.service.agent.nextEnvelope? = some envelope)
      (agent : after.service.agent =
        { r.service.agent with taken := r.service.agent.taken + 1 })
      (fresh : after.service.fresh = r.service.fresh)
      (activities : ∀ activity ∈ after.service.activities, r.service.Knows activity)
      (begun : ∀ m, after.chronicle.begunBy m =
        r.chronicle.begunBy m ++ if n = m then [Codec.encode envelope] else [])

variable {r : Recorded τ φ η} {n : Nat}

/-- Something that concerns neither the activities nor the deliveries. -/
theorem turn_of_same {after : Recorded τ φ η}
    (queues : r.service.agent.Queues after.service.agent)
    (fresh : after.service.fresh = r.service.fresh)
    (activities : after.service.activities = r.service.activities)
    (chronicle : after.chronicle = r.chronicle) : r.Turn after := by
  refine .passes queues (Nat.le_of_eq fresh.symm) ?_ ?_
  · intro activity mem
    exact .inl (Service.knows_of_mem (activities ▸ mem))
  · intro n _
    rw [chronicle]

section Events

variable [Transport τ] [ObjectModel φ η]

/-- A step of an activity that is not to end. -/
theorem turn_running (queueing : QueueingModel φ η) {task : Task}
    (mem : ⟨n, task, false⟩ ∈ r.service.activities) :
    r.Turn ⟨r.service.after n (task.step r.service.agent n r.service.fresh),
      r.chronicle.step r.service.agent n task⟩ := by
  have turn : Task.Turn r.service.agent task (task.step r.service.agent n r.service.fresh) :=
    Task.turn queueing n r.service.fresh task
  have begun := r.chronicle.begunBy_step r.service.agent n task
  generalize task.step r.service.agent n r.service.fresh = stepped at turn ⊢
  have fresh : (r.service.after n stepped).fresh =
      r.service.fresh + stepped.1.started.length := Service.fresh_after ..
  cases turn with
  | passes queues started next takesNone =>
      rw [started] at fresh
      refine .passes ?_ (Nat.le_of_eq fresh.symm) ?_ ?_
      · rw [Service.agent_after]
        exact queues
      · intro activity memAfter
        rcases Service.knows_of_mem_after mem next memAfter with known | new
        · exact .inl known
        · rw [started] at new
          cases new
      · intro m writers
        show (r.chronicle.step r.service.agent n task).begunBy m = _
        rw [begun m]
        by_cases same : n = m
        · rw [takesNone (writers _ mem same)]
          simp
        · simp [same]
  | starts undriven isRun after started next =>
      rw [started] at fresh
      refine .starts undriven ?_ ?_ ?_ ?_
      · rw [Service.agent_after, after]
      · rw [fresh]
        exact Nat.lt_add_of_pos_right (by simp [Task.companionsOf])
      · intro activity memAfter
        have reads : false = task.isWriter := by rw [isRun]; rfl
        have stays := fun other here => (next other here).trans reads
        rcases Service.knows_of_mem_after mem stays memAfter with known | new
        · exact .inl known
        · rw [started] at new
          exact .inr (Task.isWriter_companion new)
      · intro m
        show (r.chronicle.step r.service.agent n task).begunBy m = _
        rw [begun m, isRun]
        simp [Task.envelope?]
  | takes isWriter begins found after started next =>
      rw [started] at fresh
      refine .takes ⟨_, mem, rfl, isWriter⟩ found ?_ fresh ?_ ?_
      · rw [Service.agent_after, after]
      · intro activity memAfter
        have stays := fun other here => (next other here).trans isWriter.symm
        rcases Service.knows_of_mem_after mem stays memAfter with known | new
        · exact known
        · rw [started] at new
          cases new
      · intro m
        show (r.chronicle.step r.service.agent n task).begunBy m = _
        rw [begun m, begins]
        rfl

/-- A step of any activity. -/
theorem turn_step (queueing : QueueingModel φ η) (n : Nat) :
    r.Turn ⟨r.service.step n, r.service.recordStep r.chronicle n⟩ := by
  unfold Service.recordStep
  cases found : r.service.activity? n with
  | none =>
      rw [Service.step_of_none found]
      exact turn_of_same (.refl _) rfl rfl rfl
  | some activity =>
      obtain ⟨number, task, aborted⟩ := activity
      obtain ⟨mem, rfl⟩ := Service.mem_of_activity? found
      cases aborted with
      | false =>
          rw [Service.step_of_running found]
          exact turn_running queueing mem
      | true =>
          rw [Service.step_of_aborted found]
          refine .passes (Task.queues_abandon _ _ task) (Nat.le_refl _) ?_ ?_
          · intro activity mem
            exact .inl (Service.knows_of_mem (List.mem_of_mem_filter mem))
          · intro m _
            exact r.chronicle.begunBy_abandon number task m

/-- **The inversion of an event**, as far as the writer is concerned. -/
theorem turn (queueing : QueueingModel φ η) {event : Service.Event τ φ η}
    (queues : ∀ world, event = .session world → r.service.agent.world.Queues world) :
    r.Turn (r.act event) := by
  cases event with
  | step n => exact turn_step queueing n
  | call call =>
      refine .passes (.refl _) (Nat.le_add_right _ _) ?_ fun _ _ => rfl
      intro activity mem
      rcases List.mem_append.mp mem with old | new
      · exact .inl (Service.knows_of_mem old)
      · rw [List.mem_singleton.mp new]
        refine .inr ⟨Nat.le_refl _, ?_⟩
        cases call <;> rfl
  | abort n =>
      refine .passes (.refl _) (Nat.le_refl _) ?_ fun _ _ => rfl
      intro activity mem
      obtain ⟨old, memOld, number, same⟩ := Service.exists_of_mem_abortAll mem
      exact .inl ⟨old, memOld, number, congrArg Task.isWriter same⟩
  | halt => exact turn_of_same ⟨.refl _, rfl, rfl⟩ rfl rfl rfl
  | channel transport => exact turn_of_same ⟨.refl _, rfl, rfl⟩ rfl rfl rfl
  | time timer wall => exact turn_of_same ⟨.refl _, rfl, rfl⟩ rfl rfl rfl
  | session world => exact turn_of_same ⟨queues world rfl, rfl, rfl⟩ rfl rfl rfl

end Events

/-! ## Runs -/

/-- Nobody has driven the connection, and there is no writer. -/
structure Unwritten (r : Recorded τ φ η) : Prop where
  /-- The numbers of the activities are in order. -/
  counts : r.service.Counts
  /-- Nobody drives the connection. -/
  undriven : r.service.agent.driven = false
  /-- Nothing was taken out of the outbox. -/
  taken : r.service.agent.taken = 0
  /-- No activity is a writer. -/
  noWriter : ∀ activity ∈ r.service.activities, activity.task.isWriter = false
  /-- Numbers that are to be given out have begun nothing. -/
  unused : ∀ n, r.service.fresh ≤ n → r.chronicle.begunBy n = []

/-- **Activity `n` is the only writer there will be, and has begun to deliver what was taken out of
the outbox, in this order.** -/
structure WrittenBy (r : Recorded τ φ η) (n : Nat) : Prop where
  /-- The numbers of the activities are in order. -/
  counts : r.service.Counts
  /-- The connection is driven, so that nobody else begins to. -/
  driven : r.service.agent.driven = true
  /-- The number was given out. -/
  known : n < r.service.fresh
  /-- The activity of this number writes, if it has not ended, and no other one does. -/
  only : ∀ activity ∈ r.service.activities,
    activity.task.isWriter = true ↔ activity.number = n
  /-- No more was taken out than was put in. -/
  taken_le : r.service.agent.taken ≤ r.service.agent.emitted.length
  /-- What was taken out is what the writer has begun to deliver. -/
  begun : r.chronicle.begunBy n = r.service.agent.emitted.take r.service.agent.taken

theorem WrittenBy.turn (written : r.WrittenBy n) {after : Recorded τ φ η}
    (counts : after.service.Counts) (turn : r.Turn after) : after.WrittenBy n := by
  have knows : ∀ activity : Activity, r.service.Knows activity →
      (activity.task.isWriter = true ↔ activity.number = n) := by
    rintro activity ⟨old, mem, number, same⟩
    rw [← number, ← same]
    exact written.only old mem
  cases turn with
  | passes queues fresh activities begun =>
      have more := queues.emitted
      refine ⟨counts, queues.driven.trans written.driven, Nat.lt_of_lt_of_le written.known fresh,
        ?_, ?_, ?_⟩
      · intro activity mem
        rcases activities activity mem with old | ⟨large, noWriter⟩
        · exact knows activity old
        · have other : activity.number ≠ n := by
            have := written.known
            omega
          simp [noWriter, other]
      · rw [queues.taken]
        exact Nat.le_trans written.taken_le more.length_le
      · rw [queues.taken, begun n fun activity mem number => (written.only activity mem).mpr number,
          written.begun]
        obtain ⟨rest, same⟩ := more
        rw [← same, List.take_append_of_le_length written.taken_le]
  | starts undriven =>
      rw [written.driven] at undriven
      cases undriven
  | @takes m envelope isWriter found agent fresh activities begun =>
      obtain ⟨activity, mem, number, writes⟩ := isWriter
      obtain rfl : m = n := number.symm.trans ((written.only activity mem).mp writes)
      obtain ⟨small, next⟩ := Agent.take_emitted found
      refine ⟨counts, ?_, fresh ▸ written.known, ?_, ?_, ?_⟩
      · rw [agent]
        exact written.driven
      · intro other memAfter
        exact knows other (activities other memAfter)
      · rw [agent]
        exact small
      · rw [agent, begun m, if_pos rfl, written.begun]
        exact next.symm

theorem Unwritten.turn (unwritten : r.Unwritten) {after : Recorded τ φ η}
    (counts : after.service.Counts) (turn : r.Turn after) :
    after.Unwritten ∨ after.WrittenBy r.service.fresh := by
  have knows : ∀ activity : Activity, r.service.Knows activity →
      activity.task.isWriter = false ∧ activity.number < r.service.fresh := by
    rintro activity ⟨old, mem, number, same⟩
    rw [← number, ← same]
    exact ⟨unwritten.noWriter old mem, unwritten.counts.fresh old mem⟩
  cases turn with
  | passes queues fresh activities begun =>
      refine .inl ⟨counts, queues.driven.trans unwritten.undriven,
        queues.taken.trans unwritten.taken, ?_, ?_⟩
      · intro activity mem
        rcases activities activity mem with old | new
        · exact (knows activity old).1
        · exact new.2
      · intro n large
        have unused := Nat.le_trans fresh large
        rw [begun n ?_, unwritten.unused n unused]
        intro activity mem number
        have := unwritten.counts.fresh activity mem
        omega
  | starts undriven agent fresh activities begun =>
      refine .inr ⟨counts, ?_, fresh, ?_, ?_, ?_⟩
      · rw [agent]
      · intro activity mem
        rcases activities activity mem with old | new
        · obtain ⟨noWriter, small⟩ := knows activity old
          have other : activity.number ≠ r.service.fresh := by omega
          simp [noWriter, other]
        · exact new
      · rw [agent]
        exact Nat.le_trans (Nat.le_of_eq unwritten.taken) (Nat.zero_le _)
      · rw [begun, unwritten.unused _ (Nat.le_refl _), agent]
        show [] = List.take r.service.agent.taken _
        rw [unwritten.taken, List.take_zero]
  | takes isWriter =>
      obtain ⟨activity, mem, -, writes⟩ := isWriter
      rw [unwritten.noWriter activity mem] at writes
      cases writes

theorem unwritten_start (config : Config) (transport : τ) (root : Value) (world : World φ η)
    (reconnectId : String) : (start config transport root world reconnectId).Unwritten where
  counts := Service.counts_ofAgent _
  undriven := rfl
  taken := rfl
  noWriter _ mem := by cases mem
  unused _ _ := rfl

section Run

variable [Transport τ] [ObjectModel φ η]

theorem WrittenBy.run (queueing : QueueingModel φ η) (written : r.WrittenBy n)
    {events : List (Service.Event τ φ η)} (queues : r.service.Queues events) :
    (r.run events).WrittenBy n := by
  induction events generalizing r with
  | nil => exact written
  | cons event rest ih =>
      have turn : r.Turn (r.act event) := Recorded.turn queueing queues.1
      exact ih (written.turn (written.counts.act event) turn) queues.2

/-- After a run there is no writer yet, or there is the one. -/
theorem Unwritten.run (queueing : QueueingModel φ η) (unwritten : r.Unwritten)
    {events : List (Service.Event τ φ η)} (queues : r.service.Queues events) :
    (r.run events).Unwritten ∨ ∃ n, (r.run events).WrittenBy n := by
  induction events generalizing r with
  | nil => exact .inl unwritten
  | cons event rest ih =>
      have turn : r.Turn (r.act event) := Recorded.turn queueing queues.1
      rcases unwritten.turn (unwritten.counts.act event) turn with still | written
      · exact ih still queues.2
      · exact .inr ⟨_, written.run queueing queues.2⟩

end Run

end Recorded

/-! ## Packets -/

/-- The holds of the lock by one sender, in their order. -/
def History.attemptsBy (history : History) (n : Nat) : List Attempt :=
  history.attempts.filter (·.number = n)

/-- The frames that the transport has accepted from an activity, in their order. -/
def History.framesBy (history : History) (n : Nat) : List Frame :=
  (history.attemptsBy n).flatMap Attempt.handed

/-- The packets that these frames make up, whichever tries they belong to: a final frame closes a
packet, and all slices since the final frame before are in it. -/
def History.packetsBy (history : History) (n : Nat) : List String :=
  (Assembly.ofFrames (history.framesBy n)).packets

/-- Every complete attempt closes one packet, and its payload is the end of it. -/
theorem Assembly.forall₂_completed (limit : Nat) (attempts : List Attempt) (buffer : String) :
    List.Forall₂ (fun payload packet => ∃ left, packet = left ++ payload)
      (Attempt.completed limit attempts)
      (attempts.foldl (attempt limit) ⟨[], buffer⟩).packets := by
  induction attempts generalizing buffer with
  | nil => exact .nil
  | cons attempt rest ih =>
      rw [List.foldl_cons]
      by_cases complete : attempt.IsComplete limit
      · rw [Assembly.attempt, if_pos complete, packets_foldl_attempt,
          Attempt.completed_cons_of_isComplete complete]
        exact .cons ⟨buffer, rfl⟩ (ih "")
      · rw [Assembly.attempt, if_neg complete, Attempt.completed_cons_of_not complete]
        exact ih _

/-- **The packets of one sender, and what it has handed over completely.** -/
theorem History.Describes.packetsBy_iff {history : History} {framer : Framer}
    {sends : List (Nat × Sending)} (describes : history.Describes framer sends) (n : Nat) :
    List.Forall₂ (fun payload packet => ∃ left, packet = left ++ payload)
        (history.completedBy n) (history.packetsBy n) ∧
      (history.packetsBy n = history.completedBy n ↔
        Attempt.Clean framer.frameLimit (history.attemptsBy n)) := by
  have handed : ∀ attempt ∈ history.attemptsBy n,
      attempt.handed <+: Frame.chunks framer.frameLimit attempt.payload :=
    fun _ mem => describes.handed_prefix (List.mem_of_mem_filter mem)
  have packets : history.packetsBy n =
      ((history.attemptsBy n).foldl (Assembly.attempt framer.frameLimit) ⟨[], ""⟩).packets :=
    congrArg Assembly.packets (Assembly.takeAll_flatMap_handed _ handed)
  have completed : Attempt.completed framer.frameLimit (history.attemptsBy n) =
      history.completedBy n := describes.handedOver_eq n
  rw [packets, ← completed]
  refine ⟨Assembly.forall₂_completed _ _ "", ?_⟩
  have exact := Assembly.packets_eq_iff describes.positive (history.attemptsBy n) handed ""
  simpa using exact

/-! ## In order, and once -/

namespace Recorded

variable [Transport τ] [ObjectModel φ η]

theorem queues_append {r : Recorded τ φ η} {former latter : List (Service.Event τ φ η)}
    (queues : r.service.Queues (former ++ latter)) :
    r.service.Queues former ∧ (r.run former).service.Queues latter := by
  induction former generalizing r with
  | nil => exact ⟨trivial, queues⟩
  | cons event rest ih =>
      obtain ⟨first, others⟩ := ih (r := r.act event) queues.2
      exact ⟨⟨queues.1, first⟩, others⟩

/-- **What the writer delivers is in the order of the outbox, and nothing is there twice.**  The run
is any run: over any transport, with drops and refusals, with waits that take too long and with
other senders in between.  The deliveries that the writer has left behind, and the one that it is
at, are those of the envelopes that it took out of the outbox, one for each and in their order.  Its
frames make up one packet for each delivery that ended well, however often that began again, and
each packet ends with the envelope of its delivery.  The packets are these envelopes, with nothing
in front, exactly if no try that broke off with slices handed over comes before a complete one. -/
theorem writer_in_order (queueing : QueueingModel φ η) (config : Config) (transport : τ)
    (root : Value) (world : World φ η) (reconnectId : String)
    (former latter : List (Service.Event τ φ η))
    (queues : (start config transport root world reconnectId).service.Queues (former ++ latter))
    {n : Nat} {place : Writer} {aborted : Bool}
    (isWriter : ⟨n, .writer place, aborted⟩ ∈
      ((start config transport root world reconnectId).run former).service.activities) :
    let r := (start config transport root world reconnectId).run (former ++ latter)
    let limit := r.service.agent.link.framer.frameLimit
    let delivered := ((r.chronicle.leftBy n).filter (·.ending.isOk)).map Departure.text
    (r.chronicle.leftBy n).map Departure.text ++ Chronicle.underway r.service.deliveries n =
        r.service.agent.emitted.take r.service.agent.taken ∧
      delivered.Sublist r.service.agent.emitted ∧
      List.Forall₂ (fun text packet => ∃ left, packet = left ++ text) delivered
        (r.chronicle.history.packetsBy n) ∧
      (r.chronicle.history.packetsBy n = delivered ↔
        Attempt.Clean limit (r.chronicle.history.attemptsBy n)) := by
  intro r limit delivered
  have sound : r.Sound := (sound_start config transport root world reconnectId).run _
  have written : r.WrittenBy n := by
    obtain ⟨first, second⟩ := queues_append queues
    have still := (unwritten_start config transport root world reconnectId).run queueing first
    rcases still with none | ⟨m, written⟩
    · cases none.noWriter _ isWriter
    · obtain rfl : n = m := (written.only _ isWriter).mp rfl
      show Recorded.WrittenBy ((former ++ latter).foldl act _) n
      rw [List.foldl_append]
      exact written.run queueing second
  have begun : (r.chronicle.leftBy n).map Departure.text ++
      Chronicle.underway r.service.deliveries n =
        r.service.agent.emitted.take r.service.agent.taken :=
    (sound.told.begun n).symm.trans written.begun
  have sent : r.chronicle.history.completedBy n = delivered := sound.told.sent n
  refine ⟨begun, ?_, sent ▸ sound.told.describes.packetsBy_iff n⟩
  calc delivered
    List.Sublist _ ((r.chronicle.leftBy n).map Departure.text) := List.filter_sublist.map _
    List.Sublist _ (r.service.agent.emitted.take r.service.agent.taken) :=
        begun ▸ List.sublist_append_left _ _
    List.Sublist _ r.service.agent.emitted := List.take_sublist _ _

/-- The reader, activity 0, starts the writer, activity 1. -/
def beginning : List (Service.Event MemoryChannel Console.Method Empty) := [.call .run, .step 0]

/-- The channel is dropped while the writer hands over the first frame of the first envelope.  The
writer opens it, and sends both frames. -/
def droppedBefore : List (Service.Event MemoryChannel Console.Method Empty) :=
  [.step 1, .step 1, .step 1, .channel (openChannel #[]).close, .step 1, .step 1, .time 500 0,
    .step 1, .step 1, .step 1, .step 1, .step 0,
    .channel { openChannel #["Ctru"] with inbound := ["A"] }, .step 0, .step 1, .step 1, .step 1]

/-- The channel is dropped between the two frames of the first envelope.  The writer opens it, sends
both frames again and goes on to the second envelope. -/
def droppedBetween : List (Service.Event MemoryChannel Console.Method Empty) :=
  [.step 1, .step 1, .step 1, .step 1,
    .channel { openChannel #["Ctru"] with inbound := ["A"] }, .step 0, .step 0, .step 1,
    .channel (openChannel #["Ctru"]).close, .step 1, .step 1, .time 500 0, .step 1, .step 1,
    .step 1, .step 1, .channel { openChannel #["Ctru", "Ctru"] with inbound := ["A"] }, .step 0,
    .step 0, .step 1, .step 1, .step 1, .step 1, .step 1, .step 1]

/-- What becomes of that. -/
def afterBetween : Recorded MemoryChannel Console.Method Empty :=
  smallFrames.run (beginning ++ droppedBetween)

/-- A drop before the first frame leaves no trace, and one after it is in the next packet. -/
theorem writer_in_order_dropped :
    QueueingModel Console.Method Empty ∧
      (∀ latter ∈ [droppedBefore, droppedBetween],
        smallFrames.service.Queues (beginning ++ latter)) ∧
      ⟨1, .writer .starting, false⟩ ∈ (smallFrames.run beginning).service.activities ∧
      (smallFrames.run (beginning ++ droppedBefore)).chronicle.history.packetsBy 1 = ["true"] ∧
      afterBetween.chronicle.history.packetsBy 1 = ["trutrue", "[]"] ∧
      ¬ Attempt.Clean 3 (afterBetween.chronicle.history.attemptsBy 1) := by
  have queues : ∀ latter ∈ [droppedBefore, droppedBetween],
      smallFrames.service.Queues (beginning ++ latter) := by
    simp [beginning, droppedBefore, droppedBetween, Service.Queues]
  have isWriter :
      ⟨1, .writer .starting, false⟩ ∈ (smallFrames.run beginning).service.activities :=
    .tail _ (.head _)
  have before := writer_in_order Console.queueing { Config.default with frameLimit := 3 }
    (openChannel #[]) .null twoEnvelopes "id" beginning droppedBefore
    (queues _ (by simp)) isWriter
  have between := writer_in_order Console.queueing { Config.default with frameLimit := 3 }
    (openChannel #[]) .null twoEnvelopes "id" beginning droppedBetween
    (queues _ (by simp)) isWriter
  have packets : afterBetween.chronicle.history.packetsBy 1 = ["trutrue", "[]"] := by
    decide +kernel
  refine ⟨Console.queueing, queues, isWriter, ?_, packets, fun clean => ?_⟩
  · -- The try that broke off had handed over nothing.
    have clean : Attempt.Clean 3
        ((smallFrames.run (beginning ++ droppedBefore)).chronicle.history.attemptsBy 1) := by
      unfold Attempt.Clean Attempt.IsTorn
      decide +kernel
    refine (before.2.2.2.mpr clean).trans ?_
    decide +kernel
  · have same := packets.symm.trans (between.2.2.2.mpr clean)
    revert same
    decide +kernel

/-- The frames of two envelopes make up a packet that is none of them. -/
theorem writer_packet_not_emitted :
    (afterBetween.chronicle.history.framesBy 1).map Frame.encode = ["Ctru", "Ctru", "Fe", "F[]"] ∧
      afterBetween.service.agent.emitted = ["true", "[]"] ∧
      ¬ (afterBetween.chronicle.history.packetsBy 1).Sublist
        afterBetween.service.agent.emitted := by
  decide +kernel

end Recorded

end RemoteAgent
