import RemoteAgent.Proofs.Stream

/-!
# Envelopes and drops of the channel

An activity that delivers envelopes, such as the writer, takes them one after the other.  Here it is
asked when it goes on to the next one before the last one is out.  The channel may be dropped and
opened again at any moment, but it fails a send only by being down (`Transport.BreaksOnly`), and the
connection is not given up.

Of the ways in which a delivery can end, three are then left: the whole text was accepted, the
activity was given up, or a wait took too long.  A drop that meets a frame being handed over is
dealt with: the text is sent again once the channel is open.  A drop that meets the send waiting is
not, because what the send finds out is only that no acknowledgment came in time, and that ends the
delivery like any other fault.  So `handedOver_eq_passed_iff` has the waits for its exact condition,
and `lost_envelope` shows a drop that costs an envelope.
-/

namespace RemoteAgent

variable {τ φ η : Type}

/-- A channel that fails a send only by being down, and then says so. -/
structure Transport.BreaksOnly (τ : Type) [Transport τ] : Prop where
  /-- After an error the channel is down. -/
  down : ∀ (text : String) (channel after : τ) (error : TransportError),
    Transport.send text channel = (.error error, after) →
      Delivery.isBreak error = true ∧ Transport.isOpen after = false

theorem MemoryChannel.breaksOnly : Transport.BreaksOnly MemoryChannel where
  down text channel after error failed := by
    have sent : MemoryChannel.send text channel = (.error error, after) := failed
    unfold MemoryChannel.send at sent
    split at sent
    · cases sent
    · next closed =>
        cases sent
        exact ⟨rfl, Bool.eq_false_iff.mpr closed⟩

/-! ## How deliveries end -/

namespace Ending

/-- A wait took too long. -/
def timedOut : Ending → Bool
  | .returned (.error (.lockTimeout _)) => true
  | .returned (.error (.ackTimeout _)) => true
  | _ => false

/-- The activity was given up. -/
def isAbandoned : Ending → Bool
  | .abandoned => true
  | _ => false

theorem isAbandoned_of_isOk {ending : Ending} (ok : ending.isOk = true) :
    ending.isAbandoned = false := by
  rw [isOk_iff] at ok
  rw [ok]
  rfl

theorem of_timedOut {ending : Ending} (late : ending.timedOut = true) :
    ending.isOk = false ∧ ending.isAbandoned = false := by
  unfold timedOut at late
  split at late
  · exact ⟨rfl, rfl⟩
  · exact ⟨rfl, rfl⟩
  · cases late

/-- One of the endings that are left when the channel only breaks. -/
def Usual (ending : Ending) : Prop :=
  ending.isOk = true ∨ ending.timedOut = true ∨ ending.isAbandoned = true

end Ending

namespace Chronicle

variable {chronicle : Chronicle}

/-- Every delivery that is over ended in a usual way. -/
def AllUsual (chronicle : Chronicle) : Prop :=
  ∀ departure ∈ chronicle.left, departure.ending.Usual

theorem AllUsual.leave (usual : chronicle.AllUsual) (history : History) (n : Nat) (text : String)
    {ending : Option Ending} (next : ∀ reason, ending = some reason → reason.Usual) :
    (chronicle.leave history n text ending).AllUsual := by
  intro departure mem
  rcases List.mem_append.mp mem with old | new
  · exact usual departure old
  · obtain ⟨reason, here, rfl⟩ := Option.map_eq_some_iff.mp (Option.mem_toList.mp new)
    exact next reason here

variable [Transport τ] {agent : Agent τ φ η} {deliveries : List (Nat × Delivery)} {n : Nat}

/-- A delivery ends in a usual way, unless the connection is given up. -/
theorem usual_of_done (breaks : Transport.BreaksOnly τ)
    (tells : chronicle.Tells agent.link.framer deliveries) {delivery : Delivery}
    (mem : (n, delivery) ∈ deliveries)
    (running : (delivery.step agent n).2.isHalted = false)
    {result : Except TransportError Unit} (done : (delivery.step agent n).1 = .done result) :
    (Ending.returned result).Usual := by
  have outcome : Delivery.Outcome agent n delivery (delivery.step agent n) :=
    Delivery.outcome delivery
  generalize delivery.step agent n = stepped at outcome running done
  cases outcome with
  | reopens => cases done
  | opened => cases done
  | givenUp _ halted =>
      rw [halted] at running
      cases running
  | sends => cases done
  | sent =>
      cases done
      exact .inl rfl
  | retries => cases done
  | @fails text place link error stepped fault =>
      cases done
      have sending := tells.describes.outcome (mem_sends.mpr ⟨text, mem⟩)
      rw [stepped] at sending
      obtain rfl | rfl | ⟨frame, refused⟩ := sending.error_cases rfl
      · exact .inr (.inl rfl)
      · exact .inr (.inl rfl)
      · -- The channel is down after an error, so the text would have been sent again.
        have failed : Transport.send frame.encode agent.link.transport =
            (.error error, link.transport) := by
          have first := congrArg Prod.fst refused
          have second := congrArg (fun step => step.2.transport) refused
          exact Prod.ext first second
        exact absurd (breaks.down _ _ _ _ failed) fault

omit [Transport τ] in
/-- So does one that is begun. -/
theorem AllUsual.begin {agent : Agent τ φ η} (usual : chronicle.AllUsual)
    (running : agent.isHalted = false) (n : Nat) (envelope : Json) :
    (chronicle.begin agent n envelope).AllUsual := by
  have started : Delivery.start agent envelope =
      .going (.reopening (Codec.encode envelope) .requesting) := by
    simp [Delivery.start, running]
  unfold Chronicle.begin
  rw [started]
  have old : AllUsual { chronicle with
      begun := chronicle.begun ++ [(n, Codec.encode envelope)] } := usual
  exact old.leave chronicle.history n _ (by rintro _ ⟨⟩)

omit [Transport τ] in
theorem AllUsual.abandon (usual : chronicle.AllUsual) (n : Nat) (task : Task) :
    (chronicle.abandon n task).AllUsual := by
  unfold Chronicle.abandon
  split
  · refine usual.leave _ n _ ?_
    rintro _ ⟨⟩
    exact .inr (.inr rfl)
  · exact usual

end Chronicle

namespace Recorded

variable [Transport τ] [ObjectModel φ η] {r : Recorded τ φ η}

theorem allUsual_step (sound : r.Sound) (breaks : Transport.BreaksOnly τ)
    (usual : r.chronicle.AllUsual) {n : Nat} {task : Task}
    (mem : ⟨n, task, false⟩ ∈ r.service.activities)
    (running : (task.step r.service.agent n r.service.fresh).2.isHalted = false) :
    (r.chronicle.step r.service.agent n task).AllUsual := by
  unfold Chronicle.step
  cases delivers : task.delivery? with
  | some delivery =>
      rw [(Task.step_of_delivery r.service.agent n r.service.fresh delivers).1] at running
      refine usual.leave _ n _ fun reason ended => ?_
      obtain ⟨result, done, rfl⟩ := Option.map_eq_some_iff.mp ended
      refine Chronicle.usual_of_done breaks sound.told
        (Service.mem_deliveries.mpr ⟨_, mem, rfl, delivers⟩) running ?_
      cases progress : (delivery.step r.service.agent n).1 with
      | going next =>
          rw [progress] at done
          cases done
      | done other =>
          rw [progress] at done
          cases done
          rfl
  | none =>
      cases begins : task.envelope? r.service.agent with
      | some envelope =>
          have same := (Task.step_of_envelope n r.service.fresh begins).2.1
          rw [Agent.isHalted, same] at running
          exact usual.begin running n envelope
      | none => exact usual

/-- **As long as the connection is not given up, every event leaves deliveries with usual endings
only.** -/
theorem allUsual_act (sound : r.Sound) (breaks : Transport.BreaksOnly τ)
    (usual : r.chronicle.AllUsual) (event : Service.Event τ φ η)
    (running : (r.act event).service.agent.isHalted = false) :
    (r.act event).chronicle.AllUsual := by
  cases event with
  | step n =>
      show (r.service.recordStep r.chronicle n).AllUsual
      unfold Service.recordStep
      cases found : r.service.activity? n with
      | none => exact usual
      | some activity =>
          obtain ⟨number, task, aborted⟩ := activity
          obtain ⟨mem, rfl⟩ := Service.mem_of_activity? found
          cases aborted with
          | true => exact usual.abandon number task
          | false =>
              have after : (r.service.step number).agent.isHalted = false := running
              rw [Service.step_of_running found, Service.agent_after] at after
              exact allUsual_step sound breaks usual mem after
  | call call => exact usual
  | abort n => exact usual
  | halt => exact usual
  | channel => exact usual
  | time => exact usual
  | session => exact usual

theorem allUsual_run (sound : r.Sound) (breaks : Transport.BreaksOnly τ)
    (usual : r.chronicle.AllUsual) (events : List (Service.Event τ φ η))
    (running : (r.run events).service.agent.isHalted = false) :
    (r.run events).chronicle.AllUsual := by
  induction events generalizing r with
  | nil => exact usual
  | cons event rest ih =>
      have next : (r.act event).service.agent.isHalted = false := running_of_run running
      exact ih (sound.act event) (allUsual_act sound breaks usual event next) running

end Recorded

/-! ## What is out when an activity goes on -/

/-- Among deliveries with usual endings, those that ended well are those that the activity went on
from, exactly if none of them waited too long. -/
theorem Departure.filter_isOk_iff {departures : List Departure}
    (usual : ∀ departure ∈ departures, departure.ending.Usual) :
    (departures.filter (·.ending.isOk)).map text =
        (departures.filter (!·.ending.isAbandoned)).map text ↔
      ∀ departure ∈ departures, departure.ending.timedOut = false := by
  have inside : (departures.filter (!·.ending.isAbandoned)).filter (·.ending.isOk) =
      departures.filter (·.ending.isOk) := by
    rw [List.filter_filter]
    refine List.filter_congr fun departure mem => ?_
    cases ok : departure.ending.isOk with
    | false => simp
    | true => simp [Ending.isAbandoned_of_isOk ok]
  constructor
  · intro same departure mem
    -- One list is part of the other, so they are the same if they are equally long.
    have length := congrArg List.length same
    rw [List.length_map, List.length_map, ← inside, List.length_filter_eq_length_iff] at length
    by_contra late
    rw [Bool.not_eq_false] at late
    obtain ⟨bad, went⟩ := Ending.of_timedOut late
    have ok := length departure (List.mem_filter.mpr ⟨mem, by simp [went]⟩)
    rw [bad] at ok
    cases ok
  · intro inTime
    congr 1
    refine List.filter_congr fun departure mem => ?_
    rcases usual departure mem with ok | late | gone
    · simp [ok, Ending.isAbandoned_of_isOk ok]
    · rw [inTime departure mem] at late
      cases late
    · cases ok : departure.ending.isOk with
      | false => simp [gone]
      | true =>
          rw [Ending.isAbandoned_of_isOk ok] at gone
          cases gone

/-- The payloads that sends of a number have handed over to the last frame, in their order. -/
def History.handedOver (history : History) (limit n : Nat) : List String :=
  Attempt.completed limit (history.attempts.filter (·.number = n))

/-- The texts after which activity `n` went on: those of the deliveries that are over, unless it was
given up itself. -/
def Chronicle.passedBy (chronicle : Chronicle) (n : Nat) : List String :=
  ((chronicle.leftBy n).filter (!·.ending.isAbandoned)).map Departure.text

/-- What is handed over to the last frame is what returned without an error. -/
theorem History.Describes.handedOver_eq {history : History} {framer : Framer}
    {sends : List (Nat × Sending)} (describes : history.Describes framer sends) (n : Nat) :
    history.handedOver framer.frameLimit n = history.completedBy n := by
  have current : history.current.toList.filter
      (fun attempt => decide (attempt.IsComplete framer.frameLimit)) = [] := by
    rw [List.filter_eq_nil_iff]
    intro attempt mem
    obtain ⟨-, -, place, -, continues⟩ := describes.held attempt (Option.mem_toList.mp mem)
    simpa using continues.not_complete
  unfold History.handedOver Attempt.completed History.completedBy History.attempts
  rw [List.filter_append, List.filter_append, List.filter_comm _ _ history.current.toList, current,
    List.filter_nil, List.append_nil, List.filter_map, List.filter_map, List.map_map,
    List.filter_filter]
  congr 1
  refine List.filter_congr fun entry mem => ?_
  have complete := (describes.past entry mem).2
  rw [← Ending.isOk_iff] at complete
  by_cases number : entry.1.number = n <;> simp [complete, number]

namespace Recorded

variable [Transport τ] [ObjectModel φ η]

/-- **An activity goes on only from texts that are out, exactly if no wait was too long.**  In every
run in which the channel only breaks, however often and wherever, and the connection is not given
up: what an activity has begun to deliver is what it has left behind and what it is at; and the
texts that it went on from are the ones whose frames the channel has accepted, all of them and in
this order, if and only if none of its deliveries ended because the lock or an acknowledgment did
not come in time. -/
theorem handedOver_eq_passed_iff (breaks : Transport.BreaksOnly τ) (config : Config)
    (transport : τ) (root : Value) (world : World φ η) (reconnectId : String)
    (events : List (Service.Event τ φ η))
    (running : ((start config transport root world reconnectId).run
      events).service.agent.isHalted = false) (n : Nat) :
    let r := (start config transport root world reconnectId).run events
    let limit := r.service.agent.link.framer.frameLimit
    r.chronicle.begunBy n = (r.chronicle.leftBy n).map Departure.text ++
        Chronicle.underway r.service.deliveries n ∧
      (r.chronicle.history.handedOver limit n = r.chronicle.passedBy n ↔
        ∀ departure ∈ r.chronicle.leftBy n, departure.ending.timedOut = false) := by
  have sound := (sound_start config transport root world reconnectId).run events
  have usual := allUsual_run (sound_start config transport root world reconnectId) breaks
    (by simp [start, Chronicle.empty, Chronicle.AllUsual]) events running
  generalize (start config transport root world reconnectId).run events = r at sound usual
  refine ⟨sound.told.begun n, ?_⟩
  rw [sound.told.describes.handedOver_eq, sound.told.sent]
  exact Departure.filter_isOk_iff fun departure mem => usual departure (List.mem_of_mem_filter mem)

/-- A session with two envelopes to send. -/
def twoEnvelopes : World Console.Method Empty :=
  { World.empty with outbox := ⟨#[.bool true, .array []], false⟩ }

/-- An agent with small frames on an open channel. -/
def smallFrames : Recorded MemoryChannel Console.Method Empty :=
  start { Config.default with frameLimit := 3 } (openChannel #[]) .null twoEnvelopes "id"

/-- The channel is dropped while the writer, activity 1, hands over the first frame, and the writer
opens it again.  Then the acknowledgment comes, and the reader, activity 0, takes it in. -/
def droppedSending : List (Service.Event MemoryChannel Console.Method Empty) :=
  [.call .run, .step 0, .step 1, .step 1, .step 1, .channel (openChannel #[]).close, .step 1,
    .step 1, .time 500 0, .step 1, .step 1, .step 1, .step 1, .step 0,
    .channel { openChannel #["Ctru"] with inbound := ["A"] }, .step 0, .step 1, .step 1, .step 1]

/-- What becomes of that. -/
def afterSending : Recorded MemoryChannel Console.Method Empty := smallFrames.run droppedSending

theorem handedOver_eq_passed_afterSending :
    Transport.BreaksOnly MemoryChannel ∧ afterSending.service.agent.isHalted = false ∧
      afterSending.chronicle.history.handedOver afterSending.service.agent.link.framer.frameLimit 1 =
        afterSending.chronicle.passedBy 1 ∧
      afterSending.chronicle.passedBy 1 = ["true"] := by
  have running : afterSending.service.agent.isHalted = false := by decide +kernel
  have inTime : ∀ departure ∈ afterSending.chronicle.leftBy 1,
      departure.ending.timedOut = false := by
    have all : (afterSending.chronicle.leftBy 1).all (!·.ending.timedOut) = true := by
      decide +kernel
    intro departure mem
    simpa using List.all_eq_true.mp all departure mem
  have passed : afterSending.chronicle.passedBy 1 = ["true"] := by decide +kernel
  exact ⟨MemoryChannel.breaksOnly, running,
    (handedOver_eq_passed_iff MemoryChannel.breaksOnly { Config.default with frameLimit := 3 }
      (openChannel #[]) .null twoEnvelopes "id" droppedSending running 1).2.mpr inTime, passed⟩

/-- The channel is dropped while the writer waits for an acknowledgment, and the reader opens it
again. -/
def droppedWaiting : List (Service.Event MemoryChannel Console.Method Empty) :=
  [.call .run, .step 0, .step 1, .step 1, .step 1, .step 1,
    .channel (openChannel #["Ctru"]).close, .step 0, .step 0, .time 500 0, .step 0, .step 0,
    .time 30000 0, .step 1, .step 1]

/-- What becomes of that. -/
def afterWaiting : Recorded MemoryChannel Console.Method Empty := smallFrames.run droppedWaiting

/-- The writer has gone on from an envelope of which only the first frame is out. -/
theorem lost_envelope :
    afterWaiting.service.agent.isHalted = false ∧ afterWaiting.service.agent.isOpen = true ∧
      afterWaiting.chronicle.begunBy 1 = ["true", "[]"] ∧
      afterWaiting.chronicle.passedBy 1 = ["true"] ∧
      afterWaiting.chronicle.history.handedOver 3 1 = [] := by
  decide +kernel

end Recorded

end RemoteAgent
