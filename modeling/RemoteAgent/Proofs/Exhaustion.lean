import RemoteAgent.Proofs.Reading

/-!
# When the attempts are used up

The counter of attempts tells whether the connection was given up for want of attempts, but any send
that succeeds sets it back.  What a reader finds when it looks is right all the same, over a channel
that nobody else opens: the attempt beyond the limit is recorded while the channel is closed, and by
the one who has the lock, so nobody has an attempt then and nobody will open the channel again
(`Service.Spent`).  A send needs an open channel for its last frame, so none succeeds, and the
counter stays where it is.

The one exception is the first opening, which takes no attempt.  The reader does it, and looks at
the counter in the same step.

## Main definitions

* `Service.Possible`: what can happen to an agent on a channel in memory.
* `Service.Regular`: what is true in any run of such events.
* `Service.Spent`: the attempts are used up, and nobody can change it.
-/

namespace RemoteAgent

variable {τ φ η : Type}

/-! ## Channels that are closed -/

/-- Whoever does not open a channel that is closed leaves it closed. -/
theorem MemoryChannel.closed_of_handling {channel after : MemoryChannel} {frame : Option Frame}
    (handling : Transport.Handling channel frame after) (isClosed : channel.isOpen = false) :
    after.isOpen = false := by
  have refuses : ∀ text, (Transport.send text channel).2 = channel := by
    intro text
    show (channel.send text).2 = channel
    simp [send, isClosed]
  cases handling with
  | nothing => exact isClosed
  | data frame =>
      rw [refuses]
      exact isClosed
  | acknowledgment =>
      rw [refuses]
      exact isClosed
  | receiving polled =>
      have polled : channel.poll = some (_, after) := polled
      unfold poll at polled
      split at polled
      · cases polled
        exact isClosed
      · rw [if_neg (by simp [isClosed])] at polled
        cases polled
        exact isClosed
  | closing => rfl

namespace Sending

/-- A send that has the lock still has to hand over the tail of a packet. -/
def HasTail (place : Sending) : Prop := place.holdsLock = true → Frame.IsTail place.remaining

/-- What a step of a send with such a tail comes to. -/
inductive Result [Transport τ] (link : Link τ) : Step τ → Prop
  /-- It goes on, and has a tail to hand over still. -/
  | goesOn {next : Sending} {after : Link τ} (tail : next.HasTail) :
      Result link (.going next, after)
  /-- It fails. -/
  | fails {error : TransportError} {after : Link τ} : Result link (.done (.error error), after)
  /-- The transport has accepted the last frame. -/
  | sent {frame : Frame} {after : Link τ} (accepted : (link.transmit frame).1 = .ok ()) :
      Result link (.done (.ok ()), after)

theorem result_step [Transport τ] (link : Link τ) {place : Sending} (tail : place.HasTail) :
    Result link (place.step link) := by
  cases place with
  | acquiring payload since again =>
      cases taken : link.framer.sending with
      | false =>
          obtain ⟨frame, rest, frames, turned⟩ := step_acquiring_free taken payload since again
          have whole : Frame.IsTail (frame :: rest) := frames ▸ Frame.isTail_chunks ..
          rw [turned]
          exact .goesOn fun _ => whole
      | true =>
          rcases step_acquiring_taken taken payload since again with ⟨later, waits⟩ | ended
          · rw [waits]
            exact .goesOn nofun
          · rw [ended]
            exact .fails
  | transmitting frame rest =>
      have tail : Frame.IsTail (frame :: rest) := tail rfl
      cases answer : (link.transmit frame).1 with
      | error error =>
          rw [step_transmitting_error answer]
          exact .fails
      | ok =>
          by_cases more : frame.kind = .more
          · rw [step_transmitting_slice more answer]
            exact .goesOn fun _ => tail.rest_of_more more
          · obtain rfl := tail.rest_eq_nil more
            rw [step_transmitting_last more answer]
            exact .sent answer
  | waiting rest deadline =>
      have tail : Frame.IsTail rest := tail rfl
      by_cases arrived : link.framer.acknowledgment = .arrived
      · obtain ⟨frame, others, rfl, turned⟩ := step_waiting_arrived arrived tail deadline
        rw [turned]
        exact .goesOn fun _ => tail
      · rcases step_waiting_missing arrived rest deadline with waits | ended
        · rw [waits]
          exact .goesOn fun _ => tail
        · rw [ended]
          exact .fails

/-- **No send succeeds over a channel that is closed.** -/
theorem step_ne_ok_of_closed {link after : Link MemoryChannel} {place : Sending}
    (tail : place.HasTail) (isClosed : link.transport.isOpen = false) :
    place.step link ≠ (.done (.ok ()), after) := by
  intro stepped
  have result : Result link (place.step link) := result_step link tail
  rw [stepped] at result
  cases result with
  | @sent frame _ accepted =>
      have refused : (link.transport.send frame.encode).1 = .ok () := accepted
      simp [MemoryChannel.send, isClosed] at refused

end Sending

/-! ## Activities -/

/-- The send of an activity, if it has got to one, has a tail to hand over. -/
def Task.HasTail (task : Task) : Prop :=
  ∀ place, task.delivery?.bind Delivery.sending? = some place → place.HasTail

namespace Task

section Tail

variable [Transport τ] {agent : Agent τ φ η} {n fresh : Nat} {task next : Task}

theorem hasTail_delivery {delivery : Delivery}
    (tail : ∀ place, delivery.sending? = some place → place.HasTail) {place : Sending}
    (goesOn : (delivery.step agent n).1.next?.bind Delivery.sending? = some place) :
    place.HasTail := by
  have outcome : Delivery.Outcome agent n delivery (delivery.step agent n) := Delivery.outcome _
  generalize delivery.step agent n = stepped at outcome goesOn
  cases outcome with
  | reopens => cases goesOn
  | opened =>
      cases goesOn
      exact nofun
  | givenUp => cases goesOn
  | @sends text place _ link stepped =>
      have result : Sending.Result agent.link (place.step agent.link) :=
        Sending.result_step agent.link (tail _ rfl)
      rw [stepped] at result
      cases goesOn
      cases result with
      | goesOn tail => exact tail
  | sent => cases goesOn
  | retries => cases goesOn
  | fails => cases goesOn

/-- A step keeps the tails. -/
theorem hasTail_step [ObjectModel φ η] (tail : task.HasTail)
    (going : (task.step agent n fresh).1.progress = .going next) : next.HasTail := by
  have same : (task.step agent n fresh).1.delivery? = next.delivery? := by
    unfold Effect.delivery?
    rw [going]
    rfl
  intro place goesOn
  rw [← same] at goesOn
  cases delivers : task.delivery? with
  | some delivery =>
      rw [(step_of_delivery agent n fresh delivers).2.1] at goesOn
      refine hasTail_delivery (fun place here => tail place ?_) goesOn
      rw [delivers]
      exact here
  | none =>
      cases begins : task.envelope? agent with
      | some envelope =>
          -- A delivery begins with seeing to the transport.
          rw [(step_of_envelope n fresh begins).2.2.1] at goesOn
          unfold Delivery.start at goesOn
          split at goesOn
          · cases goesOn
          · cases goesOn
      | none =>
          have idles : Idles agent (task.step agent n fresh) := step_of_idle delivers begins
          rw [idles.delivery] at goesOn
          cases goesOn

end Tail

/-- A step that does not see to the transport brings nobody an attempt. -/
theorem idle_step [Transport τ] [ObjectModel φ η] (agent : Agent τ φ η) (n fresh : Nat)
    {task : Task} (elsewhere : task.reopening? = none) :
    (task.step agent n fresh).1.reopening?.any Reopening.hasAttempt = false := by
  have outside : (task.step agent n fresh).1.reopening?.any Reopening.isInLine = false := by
    by_cases driving : task = .run
    · subst driving
      exact (apart_startReading agent fresh).2.2
    · have apart : Apart agent (task.step agent n fresh) := apart_step n fresh elsewhere driving
      exact apart.line
  by_contra has
  rw [Bool.not_eq_false] at has
  rw [Reopening.isInLine_of_hasAttempt has] at outside
  cases outside

/-- Nobody takes it back that those who wait are told. -/
theorem signal_step [Transport τ] [ObjectModel φ η] {agent : Agent τ φ η} (n fresh : Nat)
    (task : Task) (signal : agent.haltSignal = true) :
    (task.step agent n fresh).2.haltSignal = true := by
  cases elsewhere : task.reopening? with
  | some place =>
      have reopens : Reopens agent n place (task.step agent n fresh) := reopens_step elsewhere
      rw [reopens.agent]
      exact (place.spares_step agent n).2 signal
  | none =>
      by_cases driving : task = .run
      · subst driving
        exact (apart_startReading agent fresh).2.1.trans signal
      · have apart : Apart agent (task.step agent n fresh) := apart_step n fresh elsewhere driving
        exact apart.steady.signal.trans signal

end Task

/-! ## Reopening -/

namespace Reopening

variable [Transport τ] {agent : Agent τ φ η} {n : Nat} {place : Reopening}

/-- Who has no attempt when the connection is given up gets none, and leaves everything alone. -/
theorem idle_of_halted (halted : agent.isHalted = true) (idle : place.hasAttempt = false) :
    (place.step agent n).2.connection = agent.connection ∧
      (place.step agent n).2.link.transport = agent.link.transport ∧
      (place.step agent n).1.next?.any hasAttempt = false := by
  have transport : (place.step agent n).2.link.transport = agent.link.transport := by
    have shut : place ≠ opening := fun here => by
      rw [here] at idle
      cases idle
    rw [transport_step, if_neg (opened_mem_iff.not.mpr shut)]
  have turn : Turn agent n place (place.reconnects agent n) (place.step agent n) := place.turn
  generalize place.reconnects agent n = entries, place.step agent n = stepped at turn transport ⊢
  cases turn with
  | @waits _ next _ connection attempt =>
      refine ⟨connection, transport, ?_⟩
      show next.hasAttempt = false
      by_contra has
      rw [Bool.not_eq_false] at has
      rw [attempt has] at idle
      cases idle
  | checks connection checks =>
      have given := congrArg Connection.halted connection
      cases checks with
      | ended same other => exact ⟨same.trans connection, transport, rfl⟩
      | granted running =>
          have contrary := given.symm.trans running
          rw [Agent.isHalted, contrary] at halted
          cases halted
      | refused running =>
          have contrary := given.symm.trans running
          rw [Agent.isHalted, contrary] at halted
          cases halted
  | opens => cases idle

/-- What is true when an attempt is refused: the transport is closed, the counter is beyond the
limit, and the reopening has ended. -/
theorem spent_of_refused (refused : .refused n ∈ place.reconnects agent n) :
    (place.step agent n).2.isOpen = false ∧
      (place.step agent n).2.connection.isExhausted = true ∧
      (place.step agent n).1.next? = none := by
  have closed : ∀ agent : Agent τ φ η, .refused n ∈ checked agent n →
      (check agent n).2.isOpen = false := by
    intro agent refused
    unfold checked at refused
    split at refused
    · cases refused
    · next working =>
        show Transport.isOpen (check agent n).2.link.transport = false
        rw [transport_check]
        exact Bool.not_eq_true _ ▸ (not_or.mp working).2
  have ended : ∀ {agent : Agent τ φ η} {entries : List Reconnect} {stepped : Step τ φ η},
      Checks agent n entries stepped → .refused n ∈ entries →
        stepped.2.connection.isExhausted = true ∧ stepped.1.next? = none := by
    intro agent entries stepped checks refused
    cases checks with
    | ended => cases refused
    | granted => simp at refused
    | refused running beyond connection signal =>
        rw [connection]
        exact ⟨decide_eq_true beyond, rfl⟩
  refine ⟨?_, ?_⟩
  · cases place with
    | requesting =>
        unfold reconnects at refused
        unfold step
        dsimp only at refused ⊢
        split at refused
        · next held =>
            rw [if_pos held]
            exact closed _ refused
        · cases refused
    | queued => exact closed agent refused
    | pausing time => cases refused
    | opening => exact closed _ ((List.mem_cons.mp refused).resolve_left nofun)
  · have turn : Turn agent n place (place.reconnects agent n) (place.step agent n) := place.turn
    generalize place.reconnects agent n = entries, place.step agent n = stepped at turn refused ⊢
    cases turn with
    | waits => cases refused
    | checks connection checks => exact ended checks refused
    | opens checks => exact ended checks ((List.mem_cons.mp refused).resolve_left nofun)

/-- Who is refused an attempt has the lock, so nobody else has it. -/
theorem alone_of_refused (ready : place.isReady agent n = true)
    (holds : place.hasAttempt = true → agent.reconnecting.isHeldBy n = true)
    (refused : .refused n ∈ place.reconnects agent n) {m : Nat}
    (held : agent.reconnecting.isHeldBy m = true) : m = n := by
  have unique : ∀ {lock : FairLock}, lock.isHeldBy m = true → lock.isHeldBy n = true → m = n := by
    intro lock one two
    exact Option.some.inj ((of_decide_eq_true one).symm.trans (of_decide_eq_true two))
  cases place with
  | requesting =>
      unfold reconnects at refused
      dsimp only at refused
      split at refused
      · next own =>
          have keeps : (agent.reconnecting.request n).isHeldBy m = true := by
            have holder : agent.reconnecting.holder = some m := of_decide_eq_true held
            unfold FairLock.request
            rw [holder]
            exact decide_eq_true rfl
          exact unique keeps own
      · cases refused
  | queued => exact unique held ready
  | pausing time => cases refused
  | opening => exact unique held (holds rfl)

end Reopening

namespace Task

/-- Nobody begins to open the transport for a host but the host. -/
theorem unconnecting_step [Transport τ] [ObjectModel φ η] (agent : Agent τ φ η) (n fresh : Nat)
    {task : Task} (connected : task ≠ .connect) :
    (∀ next, (task.step agent n fresh).1.progress = .going next → next ≠ .connect) ∧
      ∀ other ∈ (task.step agent n fresh).1.started, other ≠ .connect := by
  have apart : ∀ {other : Task}, other.isBystander = true → other ≠ .connect := by
    rintro other bystander rfl
    cases bystander
  by_cases bystander : task.isBystander = true
  · have bystands : (task.step agent n fresh).1.Bystands := bystands_step agent n fresh bystander
    exact ⟨fun next going => apart (bystands.next next going), by simp [bystands.started]⟩
  · cases task with
    | run =>
        show (∀ next, (startReading agent fresh).1.progress = .going next → _) ∧
          ∀ other ∈ (startReading agent fresh).1.started, _
        cases driven : agent.driven with
        | true =>
            rw [startReading_of_driven driven]
            exact ⟨fun next going => (nomatch going), List.forall_mem_nil _⟩
        | false =>
            obtain ⟨place, companions, begins⟩ := exists_beginsReading driven fresh
            rw [begins.progress]
            refine ⟨fun next going => ?_, fun other mem => apart (begins.started other mem)⟩
            cases going
            exact nofun
    | reader place companions =>
        have turn : Reader.Turn agent n companions place (stepReader agent n companions place) :=
          Reader.turn_step place
        show (∀ next, (stepReader agent n companions place).1.progress = .going next → _) ∧
          ∀ other ∈ (stepReader agent n companions place).1.started, _
        rw [turn.effect.1]
        refine ⟨fun next going => ?_, List.forall_mem_nil _⟩
        generalize stepReader agent n companions place = stepped at turn going
        cases turn with
        | closes => cases going
        | _ =>
            cases going
            exact nofun
    | connect => exact absurd rfl connected
    | _ => exact absurd rfl bystander

/-- Over a channel that is closed, an activity without an attempt changes nothing about it when the
connection is given up. -/
theorem spent_step [ObjectModel φ η] {agent : Agent MemoryChannel φ η} (n fresh : Nat) {task : Task}
    (halted : agent.isHalted = true) (isClosed : agent.isOpen = false)
    (idle : task.reopening?.any Reopening.hasAttempt = false) (tail : task.HasTail)
    (connected : task.isConnecting = false) :
    (task.step agent n fresh).2.connection = agent.connection ∧
      (task.step agent n fresh).2.isOpen = false ∧
      (task.step agent n fresh).1.reopening?.any Reopening.hasAttempt = false := by
  cases here : task.reopening? with
  | some place =>
      have reopens : Reopens agent n place (task.step agent n fresh) := reopens_step here
      rw [here] at idle
      obtain ⟨connection, transport, none⟩ := Reopening.idle_of_halted halted idle
      rw [reopens.agent, reopens.next]
      refine ⟨connection, ?_, none⟩
      show Transport.isOpen (place.step agent n).2.link.transport = false
      rw [transport]
      exact isClosed
  | none =>
      have handling := handling_step agent n fresh here connected
      refine ⟨?_, MemoryChannel.closed_of_handling handling isClosed, idle_step agent n fresh here⟩
      cases delivers : task.delivery? with
      | some delivery =>
          rw [(step_of_delivery agent n fresh delivers).1]
          rw [reopening?_of_delivery delivers] at here
          cases delivery with
          | reopening => cases here
          | sending text place =>
              have tail : place.HasTail := tail place (by rw [delivers]; rfl)
              have outcome : Delivery.Outcome agent n (.sending text place)
                  ((Delivery.sending text place).step agent n) := Delivery.outcome _
              generalize (Delivery.sending text place).step agent n = stepped at outcome ⊢
              cases outcome with
              | sent stepped => exact absurd stepped (Sending.step_ne_ok_of_closed tail isClosed)
              | sends => rfl
              | retries => rfl
              | fails => rfl
      | none =>
          cases begins : task.envelope? agent with
          | some envelope => exact (step_of_envelope n fresh begins).2.1
          | none =>
              have plain : Plain agent (task.step agent n fresh) :=
                step_of_plain delivers begins here
              exact plain.connection

end Task

/-! ## Runs -/

namespace Service

variable {p : Service MemoryChannel φ η} {n : Nat} {start : Connection} {log : List Reconnect}

/-- What can happen to an agent on a channel in memory: activities take steps when they can, the
host calls and halts and gives activities up, the far end lets frames come in or get lost, breaks
the channel and refuses to be opened, and time passes.  Nobody but the activities opens the channel,
and the host does not do so past the lock. -/
def Possible (p : Service MemoryChannel φ η) : Event MemoryChannel φ η → Prop
  | .step n => p.isReady n = true
  | .call .connect => False
  | .channel channel => channel.isOpen = true → p.agent.isOpen = true
  | .call _ | .abort _ | .halt | .time _ _ | .session _ => True

instance : DecidablePred p.Possible
  | .step n => inferInstanceAs (Decidable (p.isReady n = true))
  | .call .connect => .isFalse id
  | .channel channel =>
      inferInstanceAs (Decidable (channel.isOpen = true → p.agent.isOpen = true))
  | .call .run | .call .reopen | .call (.send _) | .call (.frame _) => .isTrue trivial
  | .abort _ | .halt | .time _ _ | .session _ => .isTrue trivial

variable [ObjectModel φ η] {event : Event MemoryChannel φ η}

omit [ObjectModel φ η] in
theorem Possible.ready (possible : p.Possible event) :
    ∀ n, event = .step n → p.isReady n = true := by
  rintro n rfl
  exact possible

/-- What is true in any run, with the log of the run. -/
structure Regular (start : Connection) (log : List Reconnect) (p : Service MemoryChannel φ η) :
    Prop where
  /-- Nothing had happened to the connection at first, and its limit can be exceeded. -/
  fresh : Reconnect.Fresh start
  /-- It was not given up. -/
  running : start.halted = false
  /-- The log accounts for the connection and for the activities. -/
  tallies : p.Tallies start log
  /-- Those who wait for the lock or have it are in line. -/
  linesUp : p.LinesUp
  /-- When the connection is given up, those who wait are told. -/
  signal : ∀ entry ∈ log, entry.givesUp = true → p.agent.haltSignal = true
  /-- Sends have the tails of packets to hand over. -/
  tails : ∀ activity ∈ p.activities, activity.task.HasTail
  /-- Nobody opens the transport for a host. -/
  unconnecting : ∀ activity ∈ p.activities, activity.task ≠ .connect

/-- The attempts are used up, the channel is closed, and nobody is about to open it again. -/
structure Spent (p : Service MemoryChannel φ η) : Prop where
  /-- The connection is given up. -/
  halted : p.agent.isHalted = true
  /-- The counter is beyond the limit. -/
  exhausted : p.agent.connection.isExhausted = true
  /-- The channel is closed. -/
  closed : p.agent.isOpen = false
  /-- Nobody has an attempt. -/
  idle : ∀ activity ∈ p.activities, activity.task.reopening?.any Reopening.hasAttempt = false

/-- The event opens the channel for the first time. -/
def Connects (p : Service MemoryChannel φ η) (event : Event MemoryChannel φ η) : Prop :=
  ∃ n companions, event = .step n ∧ p.activity? n = some ⟨n, .reader .connecting companions, false⟩

omit [ObjectModel φ η] in
theorem regular_ofAgent {agent : Agent MemoryChannel φ η}
    (fresh : Reconnect.Fresh agent.connection) (running : agent.isHalted = false)
    (free : agent.reconnecting = .free) : (ofAgent agent).Regular agent.connection [] where
  fresh := fresh
  running := running
  tallies := tallies_ofAgent agent
  linesUp := linesUp_ofAgent free
  signal := nofun
  tails := nofun
  unconnecting := nofun

omit [ObjectModel φ η] in
/-- A step that gives the connection up is refused an attempt. -/
theorem exists_of_givesUp {τ : Type} [Transport τ] {p : Service τ φ η} {entry : Reconnect}
    (mem : entry ∈ p.stepReconnects n) (given : entry.givesUp = true) :
    entry = .refused n ∧ ∃ task place, p.activity? n = some ⟨n, task, false⟩ ∧
      task.reopening? = some place ∧ .refused n ∈ place.reconnects p.agent n := by
  unfold stepReconnects at mem
  cases found : p.activity? n with
  | none =>
      rw [found] at mem
      cases mem
  | some activity =>
      obtain ⟨number, task, aborted⟩ := activity
      obtain ⟨-, rfl⟩ := mem_of_activity? found
      rw [found] at mem
      cases aborted with
      | true => cases mem
      | false =>
          have mem : entry ∈ task.reconnects p.agent number := mem
          have own : entry.number? = some number := task.number_reconnects p.agent number entry mem
          have refused : entry = .refused number := by
            cases entry with
            | refused m => exact congrArg _ (Option.some.inj own)
            | halted => cases own
            | _ => cases given
          rw [refused] at mem
          obtain ⟨place, here⟩ := Task.exists_of_refused mem
          rw [Task.reconnects_of_reopening here] at mem
          exact ⟨refused, task, place, rfl, here, mem⟩

namespace Regular

/-- Nobody takes it back that those who wait are told. -/
theorem signal_act (signal : p.agent.haltSignal = true) (event : Event MemoryChannel φ η) :
    (p.act event).agent.haltSignal = true := by
  cases event with
  | step n =>
      exact agent_step (P := fun agent => agent.haltSignal = true) signal
        (fun task => (task.spares_abandon p.agent n).2.trans signal)
        fun task _ => task.signal_step n p.fresh signal
  | halt => rfl
  | _ => exact signal

/-- Whatever gives the connection up tells those who wait. -/
theorem signal_of_reconnects {entry : Reconnect} (mem : entry ∈ p.reconnects event)
    (given : entry.givesUp = true) : (p.act event).agent.haltSignal = true := by
  cases event with
  | step n =>
      obtain ⟨-, task, place, found, here, refused⟩ := exists_of_givesUp mem given
      have reopens : Task.Reopens p.agent n place (task.step p.agent n p.fresh) :=
        Task.reopens_step here
      show (p.step n).agent.haltSignal = true
      rw [step_of_running found, agent_after, reopens.agent]
      exact (Reopening.gives_up_step refused).2
  | halt => rfl
  | _ => cases mem

/-- **The step lemma.** -/
theorem act (regular : p.Regular start log) (possible : p.Possible event) :
    (p.act event).Regular start (log ++ p.reconnects event) where
  fresh := regular.fresh
  running := regular.running
  tallies := regular.tallies.act event
  linesUp := regular.linesUp.act regular.tallies.counts possible.ready
  signal entry mem given := by
    rcases List.mem_append.mp mem with old | new
    · exact signal_act (regular.signal entry old given) event
    · exact signal_of_reconnects new given
  tails := by
    refine forall_act (P := fun _ task => task.HasTail) (fun activity mem _ =>
      regular.tails activity mem) (fun call _ => ?_) fun n task _ mem => ⟨fun next going => ?_,
      fun other started _ _ => ?_⟩
    · cases call <;> exact nofun
    · exact Task.hasTail_step (regular.tails _ mem) going
    · have idle := (task.plain_started p.agent n p.fresh other started).1
      intro place here
      rw [idle] at here
      cases here
  unconnecting := by
    refine forall_act (P := fun _ task => task ≠ .connect) (fun activity mem _ =>
      regular.unconnecting activity mem) (fun call called => ?_) fun n task _ mem => ?_
    · subst called
      cases call with
      | connect => cases possible
      | _ => exact nofun
    · obtain ⟨goesOn, started⟩ :=
        task.unconnecting_step p.agent n p.fresh (regular.unconnecting _ mem)
      exact ⟨goesOn, fun other mem _ _ => started other mem⟩

/-- Attempts that are used up remain so, unless the channel is opened for the first time. -/
theorem keeps_spent (regular : p.Regular start log) (possible : p.Possible event)
    (calm : ¬ p.Connects event) (spent : p.Spent) : (p.act event).Spent := by
  have stays : ∀ n task, event = .step n → ⟨n, task, false⟩ ∈ p.activities →
      (task.step p.agent n p.fresh).2.connection = p.agent.connection ∧
        (task.step p.agent n p.fresh).2.isOpen = false ∧
        (task.step p.agent n p.fresh).1.reopening?.any Reopening.hasAttempt = false := by
    intro n task stepped mem
    have connected : task.isConnecting = false := by
      cases task with
      | reader place companions =>
          cases place with
          | connecting =>
              have found := activity?_of_mem regular.tallies.counts mem
              exact absurd ⟨n, companions, stepped, found⟩ calm
          | _ => rfl
      | connect => exact absurd rfl (regular.unconnecting _ mem)
      | _ => rfl
    exact task.spent_step n p.fresh spent.halted spent.closed (spent.idle _ mem)
      (regular.tails _ mem) connected
  have idle : ∀ activity ∈ (p.act event).activities,
      activity.task.reopening?.any Reopening.hasAttempt = false := by
    refine forall_act (P := fun _ task => task.reopening?.any Reopening.hasAttempt = false)
      (fun activity mem _ => spent.idle activity mem) (fun call _ => ?_)
      fun n task stepped mem => ⟨fun next going => ?_, fun other started _ _ => ?_⟩
    · cases call <;> rfl
    · have none := (stays n task stepped mem).2.2
      unfold Effect.reopening? at none
      rw [going] at none
      exact none
    · rw [(task.plain_started p.agent n p.fresh other started).2]
      rfl
  cases event with
  | step n =>
      have kept : (p.step n).agent.connection = p.agent.connection ∧
          (p.step n).agent.isOpen = false :=
        agent_step (P := fun agent => agent.connection = p.agent.connection ∧ agent.isOpen = false)
          ⟨rfl, spent.closed⟩
          (fun task => ⟨task.connection_abandon n,
            (congrArg Transport.isOpen (task.transport_abandon p.agent n)).trans spent.closed⟩)
          fun task found => by
            obtain ⟨connection, isClosed, -⟩ := stays n task rfl (mem_of_activity? found).1
            exact ⟨connection, isClosed⟩
      obtain ⟨connection, isClosed⟩ := kept
      exact ⟨(congrArg Connection.halted connection).trans spent.halted,
        (congrArg Connection.isExhausted connection).trans spent.exhausted, isClosed, idle⟩
  | halt => exact ⟨rfl, spent.exhausted, spent.closed, idle⟩
  | channel channel =>
      have opens : channel.isOpen = true → p.agent.isOpen = true := possible
      have isClosed : channel.isOpen = false := by
        by_contra isOpen
        rw [Bool.not_eq_false] at isOpen
        exact absurd (opens isOpen) (by simp [spent.closed])
      exact ⟨spent.halted, spent.exhausted, isClosed, idle⟩
  | call => exact ⟨spent.halted, spent.exhausted, spent.closed, idle⟩
  | abort => exact ⟨spent.halted, spent.exhausted, spent.closed, idle⟩
  | time => exact ⟨spent.halted, spent.exhausted, spent.closed, idle⟩
  | session => exact ⟨spent.halted, spent.exhausted, spent.closed, idle⟩

/-- An attempt that is refused is the last one: who is refused it has the lock. -/
theorem spent_of_refused (regular : p.Regular start log) (possible : p.Possible event)
    (refused : .refused n ∈ p.reconnects event) : (p.act event).Spent := by
  cases event with
  | step m =>
      obtain ⟨-, task, place, found, here, refused⟩ := exists_of_givesUp refused rfl
      obtain ⟨mem, -⟩ := mem_of_activity? found
      have reopens : Task.Reopens p.agent m place (task.step p.agent m p.fresh) :=
        Task.reopens_step here
      have ready : place.isReady p.agent m = true := by
        have ready : p.isReady m = true := possible
        unfold isReady at ready
        rw [found] at ready
        rw [← Task.isReady_of_reopening here]
        exact ready
      have holds : place.hasAttempt = true → p.agent.reconnecting.isHeldBy m = true := fun has =>
        regular.linesUp.holds _ mem (by rw [here]; exact has)
      obtain ⟨isClosed, exhausted, ended⟩ := Reopening.spent_of_refused refused
      show (p.step m).Spent
      rw [step_of_running found]
      refine ⟨?_, ?_, ?_, fun activity memAfter => ?_⟩
      · rw [agent_after, reopens.agent]
        exact (Reopening.gives_up_step refused).1
      · rw [agent_after, reopens.agent]
        exact exhausted
      · rw [agent_after, reopens.agent]
        exact isClosed
      · rcases exists_of_mem_after memAfter with ⟨old, memOld, other, -, same⟩ | ⟨-, next⟩ | new
        · by_contra has
          rw [Bool.not_eq_false, ← same] at has
          have held := regular.linesUp.holds old memOld has
          exact other (Reopening.alone_of_refused ready holds refused held)
        · have elsewhere : (task.step p.agent m p.fresh).1.reopening? = none :=
            reopens.next.trans ended
          unfold Effect.reopening? at elsewhere
          rw [next] at elsewhere
          have elsewhere : activity.task.reopening? = none := elsewhere
          rw [elsewhere]
          rfl
        · rw [(task.plain_started p.agent m p.fresh _ (List.fst_mem_of_mem_zipIdx new)).2]
          rfl
  | halt => exact absurd refused (by simp [reconnects])
  | _ => cases refused

omit [ObjectModel φ η] in
/-- Nobody changes the limit. -/
theorem limit_eq (regular : p.Regular start log) : p.agent.connection.limit = start.limit := by
  rw [← regular.tallies.connection]
  exact (regular.tallies.lawful.keeps regular.fresh).limit

omit [ObjectModel φ η] in
/-- A connection is given up when the log says so. -/
theorem halted_iff (regular : p.Regular start log) :
    p.agent.isHalted = true ↔ ∃ entry ∈ log, entry.givesUp = true := by
  unfold Agent.isHalted
  rw [← regular.tallies.connection, Reconnect.halted_replay_iff, or_iff_right]
  simp [regular.running]

/-- **While nobody connects, the attempts are used up as soon as one was refused.** -/
theorem spent_act (regular : p.Regular start log) (possible : p.Possible event)
    (calm : ¬ p.Connects event) (spent : (∃ m, .refused m ∈ log) → p.Spent)
    (refused : ∃ m, .refused m ∈ log ++ p.reconnects event) : (p.act event).Spent := by
  obtain ⟨m, mem⟩ := refused
  rcases List.mem_append.mp mem with old | new
  · exact regular.keeps_spent possible calm (spent ⟨m, old⟩)
  · exact regular.spent_of_refused possible new

end Regular

end Service

end RemoteAgent
