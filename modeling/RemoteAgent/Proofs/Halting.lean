import RemoteAgent.Proofs.Stream
import RemoteAgent.Proofs.TransportUse

/-!
# What goes out after a halt

A connection that is given up is to send nothing more.  Two places of a delivery see to that: its
beginning, and every look at the transport before it is opened or used.  Behind them a send is on
its own.  It waits for the send lock and for the acknowledgments of its slices, and when the waiting
is over it hands over its next frame, whatever has become of the connection meanwhile.

So what goes out after a halt is what is left of the sends that had got so far before it.  Each
activity has at most one of them, and owes the transport the frames that it has not handed over
(`Service.owed`); a send that still waits for the lock owes all of them.  `handedBy_prefix_owed`
says that nothing else is handed over, in any run, and `not_silent_after_halt` shows two callers who
hand over frames after the halt, one of them a whole envelope.

## Main definitions

* `Framer.setup`: how a framer is set up, which nothing changes.
* `Sending.owed`: the frames that a send has not handed over.
* `Service.owed`: those of the send that an activity has got to.
-/

namespace RemoteAgent

variable {τ φ η : Type}

/-! ## What is left of a send -/

/-- How a framer is set up. -/
def Framer.setup (p : Framer) : Setup := ⟨p.frameLimit, p.lockTimeout, p.lockPoll, p.ackTimeout⟩

theorem Framer.setup_expect (p : Framer) (frame : Frame) : (p.expect frame).setup = p.setup := by
  unfold expect
  split <;> rfl

namespace Sending

/-- The data frames that a send has not handed over, with at most `limit` characters each. -/
def owed (limit : Nat) : Sending → List Frame
  | .acquiring payload _ _ => Frame.chunks limit payload
  | .transmitting frame rest => frame :: rest
  | .waiting rest _ => rest

/-- What is owed at a place that there may be.  A send that is over owes nothing. -/
def owedAt (limit : Nat) (place : Option Sending) : List Frame :=
  (place.map (owed limit)).getD []

theorem owedAt_next (link : Link τ) (limit : Nat) (frames : List Frame) :
    owedAt limit (next link frames).1.next? = frames := by
  cases frames with
  | nil => rfl
  | cons frame rest => rfl

theorem setup_next (link : Link τ) (frames : List Frame) :
    (next link frames).2.framer.setup = link.framer.setup := by
  cases frames with
  | nil => rfl
  | cons frame rest => exact Framer.setup_expect link.framer frame

theorem owedAt_acquire (link : Link τ) (payload : String) (since : Nat) :
    owedAt link.framer.frameLimit (acquire link payload since).1.next? <+:
      Frame.chunks link.framer.frameLimit payload := by
  unfold acquire
  dsimp only
  split
  · rewrite [owedAt_next]
    exact List.prefix_rfl
  · split
    · exact List.nil_prefix
    · exact List.prefix_rfl

theorem setup_acquire (link : Link τ) (payload : String) (since : Nat) :
    (acquire link payload since).2.framer.setup = link.framer.setup := by
  unfold acquire
  dsimp only
  split
  · exact setup_next _ _
  · split <;> rfl

theorem owedAt_await (link : Link τ) (limit : Nat) (rest : List Frame) (deadline : Nat) :
    owedAt limit (await link rest deadline).1.next? <+: rest := by
  unfold await
  split
  · rewrite [owedAt_next]
    exact List.prefix_rfl
  · split
    · exact List.nil_prefix
    · exact List.prefix_rfl

theorem setup_await (link : Link τ) (rest : List Frame) (deadline : Nat) :
    (await link rest deadline).2.framer.setup = link.framer.setup := by
  unfold await
  split
  · exact setup_next _ _
  · split <;> rfl

variable [Transport τ]

theorem owedAt_transmit (link : Link τ) (limit : Nat) (frame : Frame) (rest : List Frame) :
    owedAt limit (transmit link frame rest).1.next? <+: rest := by
  unfold transmit
  split
  · exact List.nil_prefix
  · split
    · exact List.prefix_rfl
    · rewrite [owedAt_next]
      exact List.prefix_rfl

theorem setup_transmit (link : Link τ) (frame : Frame) (rest : List Frame) :
    (transmit link frame rest).2.framer.setup = link.framer.setup := by
  have same : (link.transmit frame).2.framer.setup = link.framer.setup := rfl
  unfold transmit
  split
  · next handed =>
      rw [handed] at same
      exact same
  · next handed =>
      rw [handed] at same
      split
      · exact same
      · exact (setup_next _ _).trans same

/-- **A step of a send hands over what it owes first**, or ends the send. -/
theorem owed_step (link : Link τ) (place : Sending) :
    place.frame?.toList ++ owedAt link.framer.frameLimit (place.step link).1.next? <+:
      place.owed link.framer.frameLimit := by
  cases place with
  | acquiring payload since again => exact owedAt_acquire link payload since
  | transmitting frame rest =>
      exact List.cons_prefix_cons.mpr ⟨rfl, owedAt_transmit link _ frame rest⟩
  | waiting rest deadline => exact owedAt_await link _ rest deadline

/-- No step changes how the framer is set up. -/
theorem setup_step (link : Link τ) (place : Sending) :
    (place.step link).2.framer.setup = link.framer.setup := by
  cases place with
  | acquiring payload since again => exact setup_acquire link payload since
  | transmitting frame rest => exact setup_transmit link frame rest
  | waiting rest deadline => exact setup_await link rest deadline

end Sending

/-! ## What deliveries and activities owe -/

/-- No frame that comes in changes how the framer is set up. -/
theorem Framer.Hears.setup_eq {p after : Framer} (hears : p.Hears after) :
    after.setup = p.setup := by
  cases hears with
  | nothing => rfl
  | frame text =>
      unfold Framer.receive
      split
      · rfl
      · rfl
      · rfl
      · split <;> rfl

namespace Delivery

/-- What a delivery has not handed over, if it has got to a send.  While it sees to the transport it
owes nothing. -/
def owed (limit : Nat) (delivery : Delivery) : List Frame :=
  Sending.owedAt limit delivery.sending?

/-- What is owed at a place that there may be. -/
def owedAt (limit : Nat) (place : Option Delivery) : List Frame :=
  Sending.owedAt limit (place.bind sending?)

end Delivery

namespace Reopening

variable [Transport τ] {agent : Agent τ φ η} {n : Nat}

theorem check_ne_ok (halted : agent.isHalted = true) : (check agent n).1 ≠ .done (.ok ()) := by
  unfold check
  rw [if_pos halted]
  rintro ⟨⟩

/-- Over a connection that is given up no reopening succeeds. -/
theorem step_ne_ok (halted : agent.isHalted = true) (place : Reopening) :
    (place.step agent n).1 ≠ .done (.ok ()) := by
  cases place with
  | requesting =>
      unfold step
      dsimp only
      split
      · exact check_ne_ok halted
      · rintro ⟨⟩
  | queued => exact check_ne_ok halted
  | pausing time => rintro ⟨⟩
  | opening => exact check_ne_ok halted

end Reopening

namespace Delivery

variable [Transport τ] {agent : Agent τ φ η}

/-- Over a connection that is given up no delivery gets to a send. -/
theorem owedAt_reopening (halted : agent.isHalted = true) (limit n : Nat) (text : String)
    (place : Reopening) : owedAt limit ((reopening text place).step agent n).1.next? = [] := by
  have fails : (place.step agent n).1 ≠ .done (.ok ()) := Reopening.step_ne_ok halted place
  unfold step
  dsimp only
  rcases stepped : place.step agent n with ⟨progress, after⟩
  rw [stepped] at fails
  match progress with
  | .going next => rfl
  | .done (.ok ()) => exact absurd rfl fails
  | .done (.error error) => rfl

/-- **A step of a delivery hands over what it owes first**, if the connection is given up. -/
theorem owed_step (halted : agent.isHalted = true) (n : Nat) (delivery : Delivery) :
    delivery.frame?.toList ++
        owedAt agent.link.framer.frameLimit (delivery.step agent n).1.next? <+:
      delivery.owed agent.link.framer.frameLimit := by
  cases delivery with
  | reopening text place =>
      rw [owedAt_reopening halted]
      exact List.prefix_rfl
  | sending text place =>
      rw [owedAt, (step_sending agent n text place).2]
      exact Sending.owed_step agent.link place

theorem setup_step (n : Nat) (delivery : Delivery) :
    (delivery.step agent n).2.link.framer.setup = agent.link.framer.setup := by
  cases delivery with
  | reopening text place => rw [(step_reopening agent n text place).1, Reopening.framer_step]
  | sending text place =>
      rw [(step_sending agent n text place).1]
      exact Sending.setup_step agent.link place

omit [Transport τ] in
theorem setup_abandon (n : Nat) (delivery : Delivery) :
    (delivery.abandon agent n).link.framer.setup = agent.link.framer.setup := by
  cases delivery with
  | reopening text place => rfl
  | sending text place =>
      unfold abandon Sending.abandon
      dsimp only
      split <;> rfl

end Delivery

namespace Task

variable {agent : Agent τ φ η}

theorem setup_abandon (n : Nat) (task : Task) :
    (task.abandon agent n).link.framer.setup = agent.link.framer.setup := by
  cases delivers : task.delivery? with
  | some delivery =>
      rw [abandon_of_delivery delivers]
      exact delivery.setup_abandon n
  | none => rw [framer_abandon_of_idle delivers]

/-- No step of an activity changes how the framer is set up. -/
theorem setup_step [Transport τ] [ObjectModel φ η] (n fresh : Nat) (task : Task) :
    (task.step agent n fresh).2.link.framer.setup = agent.link.framer.setup := by
  cases delivers : task.delivery? with
  | some delivery =>
      rw [(step_of_delivery agent n fresh delivers).1]
      exact delivery.setup_step n
  | none =>
      cases begins : task.envelope? agent with
      | some envelope => rw [(step_of_envelope n fresh begins).1]
      | none =>
          have idles : Idles agent (task.step agent n fresh) := step_of_idle delivers begins
          exact idles.hears.setup_eq

end Task

namespace Service

/-- What activity `n` has not handed over of the send that it has got to. -/
def owed (p : Service τ φ η) (n : Nat) : List Frame :=
  (p.deliveries.filter (·.1 = n)).flatMap fun item =>
    item.2.owed p.agent.link.framer.frameLimit

/-! ## A run over a connection that is given up -/

section Run

variable {p after : Service τ φ η} {n m : Nat}

theorem nodup_deliveries (counts : p.Counts) : (p.deliveries.map Prod.fst).Nodup := by
  have part : (p.deliveries.map Prod.fst).Sublist (p.activities.map Activity.number) := by
    unfold deliveries
    induction p.activities with
    | nil => exact List.Sublist.slnil
    | cons activity rest ih =>
        cases delivers : activity.task.delivery? with
        | none => simpa [delivers] using ih.cons activity.number
        | some delivery => simpa [delivers] using ih.cons_cons activity.number
  exact counts.distinct.sublist part

/-- Who delivers owes what its delivery owes. -/
theorem owed_of_mem (counts : p.Counts) {delivery : Delivery} (mem : (n, delivery) ∈ p.deliveries) :
    p.owed n = delivery.owed p.agent.link.framer.frameLimit := by
  rw [owed, Numbered.filter_of_mem (nodup_deliveries counts) mem, List.flatMap_singleton]

/-- Where one activity has moved, the others owe what they did. -/
theorem owed_of_moved {next : Option Delivery}
    (deliveries : after.deliveries = Numbered.moved p.deliveries m next)
    (limit : after.agent.link.framer.frameLimit = p.agent.link.framer.frameLimit) (n : Nat) :
    after.owed n =
      if m = n then Delivery.owedAt p.agent.link.framer.frameLimit next else p.owed n := by
  unfold owed
  rw [deliveries, limit, Numbered.filter_moved]
  split
  · cases next with
    | none => rfl
    | some delivery => exact List.flatMap_singleton _ _
  · rfl

variable [Transport τ] [ObjectModel φ η]

/-- **What a step of an activity does to the deliveries**, over a connection that is given up: it
moves its own one, if it has one, and hands over what this owes first. -/
theorem exists_moved (counts : p.Counts) (halted : p.agent.isHalted = true) (n : Nat) :
    ∃ next, (p.step n).deliveries = Numbered.moved p.deliveries n next ∧
      (p.step n).agent.link.framer.frameLimit = p.agent.link.framer.frameLimit ∧
      (p.frame? n).toList ++ Delivery.owedAt p.agent.link.framer.frameLimit next <+: p.owed n := by
  cases found : p.activity? n with
  | none =>
      have fresh : n ∉ p.deliveries.map Prod.fst := by
        intro mem
        obtain ⟨⟨other, delivery⟩, memDeliveries, rfl⟩ := List.mem_map.mp mem
        obtain ⟨activity, memActivities, number, -⟩ := mem_deliveries.mp memDeliveries
        exact List.find?_eq_none.mp found activity memActivities (by simp [number])
      refine ⟨none, ?_, ?_, ?_⟩
      · rw [step_of_none found, Numbered.moved_of_fresh fresh, Option.map_none,
          Option.toList_none, List.append_nil]
      · rw [step_of_none found]
      · rw [frame?, found]
        exact List.nil_prefix
  | some activity =>
      obtain ⟨number, task, aborted⟩ := activity
      obtain ⟨mem, rfl⟩ := mem_of_activity? found
      cases aborted with
      | true =>
          refine ⟨none, ?_, ?_, ?_⟩
          · rw [step_of_aborted found]
            exact deliveries_remove p number
          · rw [step_of_aborted found]
            exact congrArg Setup.frameLimit (task.setup_abandon number)
          · rw [frame?, found]
            exact List.nil_prefix
      | false =>
          have limit : (p.step number).agent.link.framer.frameLimit =
              p.agent.link.framer.frameLimit := by
            rw [step_of_running found, agent_after]
            exact congrArg Setup.frameLimit (task.setup_step number p.fresh)
          cases delivers : task.delivery? with
          | some delivery =>
              obtain ⟨-, next, started⟩ := Task.step_of_delivery p.agent number p.fresh delivers
              refine ⟨(delivery.step p.agent number).1.next?, ?_, limit, ?_⟩
              · rw [step_of_running found, deliveries_after p number (by simp [started]), next]
              · have memDeliveries := mem_deliveries.mpr ⟨_, mem, rfl, delivers⟩
                rw [frame?, found, owed_of_mem counts memDeliveries]
                dsimp only
                rw [delivers]
                exact delivery.owed_step halted number
          | none =>
              have silent : p.frame? number = none := by
                rw [frame?, found]
                dsimp only
                rw [delivers]
                rfl
              cases begins : task.envelope? p.agent with
              | some envelope =>
                  obtain ⟨-, -, next, started⟩ := Task.step_of_envelope number p.fresh begins
                  refine ⟨none, ?_, limit, ?_⟩
                  · rw [step_of_running found, deliveries_after p number (by simp [started]), next,
                      Delivery.start, if_pos halted]
                    rfl
                  · rw [silent]
                    exact List.nil_prefix
              | none =>
                  have idles : Task.Idles p.agent (task.step p.agent number p.fresh) :=
                    Task.step_of_idle delivers begins
                  refine ⟨none, ?_, limit, ?_⟩
                  · rw [step_of_running found, deliveries_after p number idles.started,
                      idles.delivery]
                  · rw [silent]
                    exact List.nil_prefix

/-- **The step lemma**: whatever happens to a connection that is given up, an activity hands over
what it owes first, and owes no more than the rest afterwards. -/
theorem owed_act (counts : p.Counts) (halted : p.agent.isHalted = true) (event : Event τ φ η)
    (n : Nat) : p.handed n event ++ (p.act event).owed n <+: p.owed n := by
  cases event with
  | step m =>
      obtain ⟨next, deliveries, limit, owes⟩ := exists_moved counts halted m
      show (if m = n then (p.frame? n).toList else []) ++ (p.step m).owed n <+: p.owed n
      rw [owed_of_moved deliveries limit]
      by_cases same : m = n
      · subst same
        rw [if_pos rfl, if_pos rfl]
        exact owes
      · rw [if_neg same, if_neg same]
        exact List.prefix_rfl
  | call call =>
      have same : (p.act (.call call)).owed n = p.owed n := by
        unfold owed
        exact congrArg _ (congrArg _ (deliveries_call p call))
      rw [same]
      exact List.prefix_rfl
  | abort m =>
      have same : (p.act (.abort m)).owed n = p.owed n := by
        unfold owed
        exact congrArg _ (congrArg _ (deliveries_abortAll p [m]))
      rw [same]
      exact List.prefix_rfl
  | halt => exact List.prefix_rfl
  | channel transport => exact List.prefix_rfl
  | time timer wall => exact List.prefix_rfl
  | session world => exact List.prefix_rfl

/-- **The run lemma.** -/
theorem owed_run (counts : p.Counts) (halted : p.agent.isHalted = true)
    (events : List (Event τ φ η)) (n : Nat) :
    p.handedBy n events ++ (p.run events).owed n <+: p.owed n := by
  induction events generalizing p with
  | nil => exact List.prefix_rfl
  | cons event rest ih =>
      have here := owed_act counts halted event n
      have onwards := ih (counts.act event) (halted_act halted event)
      rw [handedBy, run_cons, List.append_assoc]
      exact ((List.prefix_append_right_inj _).mpr onwards).trans here

end Run

/-- **After a halt nothing goes out but what is left of the sends.**  In every run of an agent,
whatever happens after its connection was given up, and whatever the transport does: the data frames
that an activity hands over from then on, and those that it owes in the end, are the first ones of
those that it owed when the connection was given up.  So an activity that had not got to a send by
then hands over nothing, and one that begins afterwards neither. -/
theorem handedBy_prefix_owed [Transport τ] [ObjectModel φ η] (config : Config) (transport : τ)
    (root : Value) (world : World φ η) (reconnectId : String) (before after : List (Event τ φ η))
    (halted : (run (.ofAgent (.new config transport root world reconnectId))
      before).agent.isHalted = true) (n : Nat) :
    let p := run (.ofAgent (.new config transport root world reconnectId)) before
    p.handedBy n after ++ (p.run after).owed n <+: p.owed n :=
  owed_run ((counts_ofAgent _).run before) halted after n

/-- An agent with small frames on an open channel. -/
def smallFrames : Service MemoryChannel Console.Method Empty :=
  .ofAgent (.new { Config.default with frameLimit := 3 } (Recorded.openChannel #[]) .null .empty
    "id")

/-- A caller, activity 0, sends `true` and waits for the acknowledgment of the first frame.  Another
one, activity 1, waits for the send lock with an empty array.  Then the connection is halted. -/
def halting : List (Event MemoryChannel Console.Method Empty) :=
  [.call (.send (.bool true)), .step 0, .step 0, .step 0, .step 0,
    .call (.send (.array [])), .step 1, .step 1, .step 1, .halt]

/-- What becomes of that. -/
def haltedSending : Service MemoryChannel Console.Method Empty := smallFrames.run halting

/-- The acknowledgment comes, and both callers go on. -/
def goingOn : List (Event MemoryChannel Console.Method Empty) :=
  [.call (.frame "A"), .step 2, .step 0, .step 0, .time 1000 1000, .step 1, .step 1]

/-- A third caller comes. -/
def lateCaller : List (Event MemoryChannel Console.Method Empty) :=
  [.call (.send .null), .step 2, .step 2]

/-- The first caller owes the rest of its envelope, hands it over and owes nothing any more.  The
third one has never owed anything, and hands over nothing. -/
theorem handedBy_prefix_owed_haltedSending :
    haltedSending.agent.isHalted = true ∧ haltedSending.owed 0 = [⟨.final, "e"⟩] ∧
      haltedSending.handedBy 0 goingOn = [⟨.final, "e"⟩] ∧ (haltedSending.run goingOn).owed 0 = [] ∧
      haltedSending.owed 2 = [] ∧ haltedSending.handedBy 2 lateCaller = [] := by
  have halted : haltedSending.agent.isHalted = true := by decide +kernel
  have owes : haltedSending.owed 0 = [⟨.final, "e"⟩] := by decide +kernel
  have hands : haltedSending.handedBy 0 goingOn = [⟨.final, "e"⟩] := by decide +kernel
  have nothing : haltedSending.owed 2 = [] := by decide +kernel
  have first : haltedSending.handedBy 0 goingOn ++ (haltedSending.run goingOn).owed 0 <+:
      haltedSending.owed 0 :=
    handedBy_prefix_owed { Config.default with frameLimit := 3 } (Recorded.openChannel #[]) .null
      .empty "id" halting goingOn halted 0
  have third : haltedSending.handedBy 2 lateCaller ++ (haltedSending.run lateCaller).owed 2 <+:
      haltedSending.owed 2 :=
    handedBy_prefix_owed { Config.default with frameLimit := 3 } (Recorded.openChannel #[]) .null
      .empty "id" halting lateCaller halted 2
  refine ⟨halted, owes, hands, ?_, nothing, ?_⟩
  · rw [hands, owes] at first
    exact List.prefix_nil.mp ((List.prefix_append_right_inj [⟨.final, "e"⟩]).mp first)
  · rw [nothing] at third
    exact (List.append_eq_nil_iff.mp (List.prefix_nil.mp third)).1

/-- The frames that are handed over after the halt are the rest of the first envelope and all of the
second one, and both callers are told that they were sent. -/
theorem not_silent_after_halt :
    haltedSending.agent.isHalted = true ∧
      haltedSending.agent.link.transport.sent = #["Ctru"] ∧
      haltedSending.handedBy 0 goingOn = [⟨.final, "e"⟩] ∧
      haltedSending.handedBy 1 goingOn = [⟨.final, "[]"⟩] ∧
      (haltedSending.run goingOn).agent.link.transport.sent = #["Ctru", "Fe", "F[]"] ∧
      (haltedSending.run goingOn).finished.map (fun ended => (ended.1, ended.2.isOk)) =
        [(1, true), (0, true), (2, true)] := by
  decide +kernel

end Service

end RemoteAgent
