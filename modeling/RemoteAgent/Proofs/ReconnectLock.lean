import RemoteAgent.Proofs.ReconnectBudget

/-!
# The line at the lock

Whoever sees to the transport does so under one lock: it asks for the lock, waits in line, and keeps
the lock through all of its attempts.  This module says how the line moves.  The line is made of
those activities that wait for the lock or have it, each once (`Service.LinesUp`), so there is
always somebody whose step moves the line on; and who has an attempt is at its head, so at most one
activity can be about to open the transport.

For this the activities must take steps only when they can.  A reopening that waits would not look
whether it has the lock: that it has is the reason why it can go on.

What a step does to the line is said by `FairLock.Turn`, seen by the activity that takes it and by
those who are in line with it: to them the step makes the way to the head shorter, or leaves it as
it is.

## Main definitions

* `FairLock.line`, `FairLock.Turn`: the line, and what a step may do to it.
* `Task.Apart`: a step that has nothing to do with the lock.
* `Service.LinesUp`: the invariant.
-/

namespace RemoteAgent

variable {τ φ η : Type}

/-- Whether a reopening is in line for the lock: it waits for it or has it. -/
def Reopening.isInLine : Reopening → Bool
  | requesting => false
  | queued | pausing _ | opening => true

/-- Who has an attempt is in line. -/
theorem Reopening.isInLine_of_hasAttempt {place : Option Reopening}
    (has : place.any hasAttempt = true) : place.any isInLine = true := by
  cases place with
  | none => cases has
  | some place =>
      cases place with
      | requesting => cases has
      | _ => rfl

/-! ## The lock -/

namespace FairLock

variable {lock middle after : FairLock} {n m : Nat}

/-- Who has the lock or waits for it, in the order in which they are served. -/
def line (lock : FairLock) : List Nat := lock.holder.toList ++ lock.queue

/-- Nobody is in line twice, and nobody waits for a lock that is free. -/
structure Orderly (lock : FairLock) : Prop where
  /-- All in line are different. -/
  distinct : lock.line.Nodup
  /-- If nobody has the lock, nobody waits for it. -/
  free : lock.holder = none → lock.queue = []

theorem orderly_free : free.Orderly := ⟨List.nodup_nil, fun _ => rfl⟩

theorem isHeldBy_iff (orderly : lock.Orderly) :
    lock.isHeldBy n = true ↔ lock.line.head? = some n := by
  unfold isHeldBy line
  cases held : lock.holder with
  | none => simp [orderly.free held]
  | some m => simp

theorem line_request (orderly : lock.Orderly) : (lock.request n).line = lock.line ++ [n] := by
  unfold request line
  cases held : lock.holder with
  | none => simp [orderly.free held]
  | some m => simp

theorem line_leave (orderly : lock.Orderly) : (lock.leave n).line = lock.line.filter (· ≠ n) := by
  have distinct : lock.line.Nodup := orderly.distinct
  unfold leave isHeldBy pass
  unfold line at distinct ⊢
  cases held : lock.holder with
  | none => simp [orderly.free held]
  | some m =>
      rw [held] at distinct
      by_cases own : m = n
      · -- The one behind it gets the lock, and the rest moves up.
        have others : n ∉ lock.queue := own ▸ (List.nodup_cons.mp distinct).1
        have kept : lock.queue.filter (· ≠ n) = lock.queue :=
          List.filter_eq_self.mpr fun other mem =>
            decide_eq_true fun same => others (same ▸ mem)
        have whole : lock.queue.head?.toList ++ lock.queue.tail = lock.queue := by
          cases lock.queue <;> rfl
        simpa [own, whole] using kept.symm
      · simp [own]

theorem Orderly.request (orderly : lock.Orderly) (fresh : n ∉ lock.line) :
    (lock.request n).Orderly where
  distinct := by
    rw [line_request orderly]
    exact orderly.distinct.append (List.nodup_singleton n) (by simpa using fresh)
  free := by
    unfold FairLock.request
    cases held : lock.holder with
    | none => exact nofun
    | some m => simp

theorem Orderly.leave (orderly : lock.Orderly) : (lock.leave n).Orderly where
  distinct := by
    rw [line_leave orderly]
    exact orderly.distinct.filter _
  free := by
    unfold FairLock.leave pass
    split
    · intro none
      rw [List.head?_eq_none_iff.mp none]
      rfl
    · intro none
      simp [orderly.free none]

/-- What a step of activity `n` may do to the line, seen by the others. -/
structure Shift (n : Nat) (lock after : FairLock) : Prop where
  /-- The line is in order. -/
  orderly : after.Orderly
  /-- The others stay in line. -/
  others : ∀ m, m ≠ n → (m ∈ after.line ↔ m ∈ lock.line)
  /-- Whoever has the lock keeps it. -/
  head : ∀ m, m ≠ n → lock.line.head? = some m → after.line.head? = some m
  /-- Nobody is farther from the head than before. -/
  nearer : ∀ m, m ≠ n → m ∈ lock.line → after.line.idxOf m ≤ lock.line.idxOf m
  /-- If the one at the head is gone, everybody is nearer to it. -/
  served : lock.line.head? = some n → n ∉ after.line →
    ∀ m, m ≠ n → m ∈ lock.line → after.line.idxOf m < lock.line.idxOf m

namespace Shift

theorem refl (orderly : lock.Orderly) (n : Nat) : Shift n lock lock where
  orderly := orderly
  others _ _ := .rfl
  head _ _ := id
  nearer _ _ _ := Nat.le_refl _
  served first gone := absurd (List.mem_of_mem_head? first) gone

theorem request (orderly : lock.Orderly) (fresh : n ∉ lock.line) :
    Shift n lock (lock.request n) where
  orderly := orderly.request fresh
  others m other := by simp [line_request orderly, other]
  head m _ first := by
    rw [line_request orderly, List.head?_append, first]
    rfl
  nearer m _ mem := Nat.le_of_eq (by rw [line_request orderly, List.idxOf_append_of_mem mem])
  served first := absurd (List.mem_of_mem_head? first) fresh

/-- To take others out of a list brings nobody farther from its head. -/
theorem idxOf_filter_le (other : m ≠ n) (line : List Nat) :
    (line.filter (· ≠ n)).idxOf m ≤ line.idxOf m := by
  induction line with
  | nil => exact Nat.le_refl _
  | cons first rest ih =>
      by_cases here : first = m
      · subst here
        simp [other]
      · by_cases own : first = n
        · rw [List.filter_cons_of_neg (by simp [own]), List.idxOf_cons_ne _ here]
          exact Nat.le_succ_of_le ih
        · rw [List.filter_cons_of_pos (by simp [own]), List.idxOf_cons_ne _ here,
            List.idxOf_cons_ne _ here]
          exact Nat.succ_le_succ ih

theorem leave (orderly : lock.Orderly) (n : Nat) : Shift n lock (lock.leave n) where
  orderly := orderly.leave
  others m other := by simp [line_leave orderly, other]
  head m other first := by
    rw [line_leave orderly]
    cases split : lock.line with
    | nil => simp [split] at first
    | cons head rest =>
        rw [split] at first
        obtain rfl := Option.some.inj first
        simp [other]
  nearer m other _ := by
    rw [line_leave orderly]
    exact idxOf_filter_le other lock.line
  served first _ m other _ := by
    rw [line_leave orderly]
    cases split : lock.line with
    | nil => simp [split] at first
    | cons head rest =>
        rw [split] at first
        obtain rfl := Option.some.inj first
        rw [List.filter_cons_of_neg (by simp), List.idxOf_cons_ne _ (Ne.symm other)]
        exact Nat.lt_succ_of_le (idxOf_filter_le other rest)

/-- Who was not in line is not at its head, so nobody gets nearer by what it does first. -/
theorem trans (one : Shift n lock middle) (fresh : n ∉ lock.line) (two : Shift n middle after) :
    Shift n lock after where
  orderly := two.orderly
  others m other := (two.others m other).trans (one.others m other)
  head m other first := two.head m other (one.head m other first)
  nearer m other mem :=
    Nat.le_trans (two.nearer m other ((one.others m other).mpr mem)) (one.nearer m other mem)
  served first := absurd (List.mem_of_mem_head? first) fresh

end Shift

/-- What a step of activity `n` may do to the line, and where it sees to the transport after it. -/
structure Turn (n : Nat) (lock after : FairLock) (place : Option Reopening) : Prop where
  /-- What the others see. -/
  shift : Shift n lock after
  /-- The activity is in line if its place is. -/
  own : n ∈ after.line ↔ place.any Reopening.isInLine = true
  /-- If it has an attempt it has the lock. -/
  holds : place.any Reopening.hasAttempt = true → after.isHeldBy n = true

/-- An activity that is out of line leaves it alone. -/
theorem Turn.apart {place : Option Reopening} (orderly : lock.Orderly) (fresh : n ∉ lock.line)
    (apart : place.any Reopening.isInLine = false) : Turn n lock lock place where
  shift := .refl orderly n
  own := by simp [fresh, apart]
  holds has := by
    rw [Reopening.isInLine_of_hasAttempt has] at apart
    cases apart

end FairLock

/-! ## Reopening -/

namespace Reopening

variable [Transport τ] {agent : Agent τ φ η} {n : Nat}

/-- A check keeps the lock if it goes on, and otherwise gives it back. -/
theorem lock_check (agent : Agent τ φ η) (n : Nat) :
    (∃ time, (check agent n).1 = .going (.pausing time) ∧
        (check agent n).2.reconnecting = agent.reconnecting) ∨
      ∃ result, (check agent n).1 = .done result ∧
        (check agent n).2.reconnecting = agent.reconnecting.leave n := by
  unfold check
  split
  · exact .inr ⟨_, rfl, rfl⟩
  · split
    · exact .inr ⟨_, rfl, rfl⟩
    · split
      · exact .inr ⟨_, rfl, rfl⟩
      · exact .inl ⟨_, rfl, rfl⟩

theorem turn_check (agent : Agent τ φ η) (orderly : agent.reconnecting.Orderly)
    (held : agent.reconnecting.isHeldBy n = true) :
    FairLock.Turn n agent.reconnecting (check agent n).2.reconnecting
      (check agent n).1.next? := by
  rcases lock_check agent n with ⟨time, going, same⟩ | ⟨result, done, left⟩
  · rw [going, same]
    have mem : n ∈ agent.reconnecting.line :=
      List.mem_of_mem_head? ((FairLock.isHeldBy_iff orderly).mp held)
    exact ⟨.refl orderly n, ⟨fun _ => rfl, fun _ => mem⟩, fun _ => held⟩
  · rw [done, left]
    refine ⟨.leave orderly n, ⟨fun mem => ?_, nofun⟩, nofun⟩
    simp [FairLock.line_leave orderly] at mem

/-- **What a step of a reopening does to the line**: it joins the line, stays where it is, or has
the lock and leaves. -/
theorem turn_step (orderly : agent.reconnecting.Orderly) {place : Reopening}
    (ready : place.isReady agent n = true)
    (own : n ∈ agent.reconnecting.line ↔ place.isInLine = true)
    (holds : place.hasAttempt = true → agent.reconnecting.isHeldBy n = true) :
    FairLock.Turn n agent.reconnecting (place.step agent n).2.reconnecting
      (place.step agent n).1.next? := by
  cases place with
  | requesting =>
      have fresh : n ∉ agent.reconnecting.line := fun mem => nomatch own.mp mem
      have joined : FairLock.Shift n agent.reconnecting (agent.reconnecting.request n) :=
        .request orderly fresh
      unfold step
      dsimp only
      split
      · next held =>
          have turn := turn_check { agent with reconnecting := agent.reconnecting.request n }
            joined.orderly held
          exact ⟨joined.trans fresh turn.shift, turn.own, turn.holds⟩
      · refine ⟨joined, ⟨fun _ => rfl, fun _ => ?_⟩, nofun⟩
        simp [FairLock.line_request orderly]
  | queued => exact turn_check agent orderly ready
  | pausing time => exact ⟨.refl orderly n, own, holds⟩
  | opening => exact turn_check agent.openTransport.2 orderly (holds rfl)

theorem spares_check (agent : Agent τ φ η) (n : Nat) :
    (check agent n).2.driven = agent.driven ∧
      (agent.haltSignal = true → (check agent n).2.haltSignal = true) := by
  unfold check
  split
  · exact ⟨rfl, id⟩
  · split
    · exact ⟨rfl, id⟩
    · split
      · exact ⟨rfl, fun _ => rfl⟩
      · exact ⟨rfl, id⟩

/-- Who sees to the transport leaves alone whether someone drives the connection, and takes it not
back if those who wait are told. -/
theorem spares_step (agent : Agent τ φ η) (n : Nat) (place : Reopening) :
    (place.step agent n).2.driven = agent.driven ∧
      (agent.haltSignal = true → (place.step agent n).2.haltSignal = true) := by
  cases place with
  | requesting =>
      unfold step
      dsimp only
      split
      · exact spares_check { agent with reconnecting := agent.reconnecting.request n } n
      · exact ⟨rfl, id⟩
  | queued => exact spares_check agent n
  | pausing time => exact ⟨rfl, id⟩
  | opening => exact spares_check agent.openTransport.2 n

end Reopening

/-! ## Activities -/

/-- An agent after a step that leaves alone who reopens the transport, what those who wait are told,
and whether someone drives the connection. -/
structure Agent.Steady (agent after : Agent τ φ η) : Prop where
  lock : after.reconnecting = agent.reconnecting
  signal : after.haltSignal = agent.haltSignal
  driven : after.driven = agent.driven

theorem Agent.Steady.refl (agent : Agent τ φ η) : agent.Steady agent := ⟨rfl, rfl, rfl⟩

namespace Task

/-- A step that has nothing to do with the lock. -/
structure Apart (agent : Agent τ φ η) (step : Step τ φ η) : Prop where
  /-- It leaves this of the agent alone. -/
  steady : agent.Steady step.2
  /-- It starts nothing. -/
  started : step.1.started = []
  /-- It does not bring the activity into the line. -/
  line : step.1.reopening?.any Reopening.isInLine = false

section Apart

variable {agent after : Agent τ φ η} {companions : List Nat}

theorem apart_going {next : Task} (line : next.reopening?.any Reopening.isInLine = false)
    (steady : agent.Steady after) : Apart agent (Effect.going next, after) :=
  ⟨steady, rfl, line⟩

theorem apart_done (result : TaskResult) (steady : agent.Steady after) :
    Apart agent (Effect.done result, after) :=
  ⟨steady, rfl, rfl⟩

theorem apart_ended (result : Except TransportError Unit) (steady : agent.Steady after) :
    Apart agent (Effect.ended result, after) := by
  cases result with
  | ok => exact apart_done _ steady
  | error => exact apart_done _ steady

theorem apart_finishReading (result : Except AgentError Unit) (steady : agent.Steady after) :
    Apart agent (finishReading after companions result) :=
  ⟨steady, rfl, rfl⟩

theorem apart_readOn (steady : agent.Steady after) : Apart agent (readOn after companions) := by
  unfold readOn
  split
  · exact apart_finishReading _ steady
  · exact apart_going rfl steady

theorem apart_stepHeartbeat (interval : Nat) (next : Option Nat) :
    Apart agent (stepHeartbeat agent interval next) := by
  cases next with
  | none =>
      unfold stepHeartbeat
      dsimp only
      split
      · exact apart_done _ (.refl agent)
      · exact apart_going rfl (.refl agent)
  | some time =>
      unfold stepHeartbeat
      dsimp only
      split
      · exact apart_done _ (.refl agent)
      · exact apart_going rfl ⟨rfl, rfl, rfl⟩

variable [ObjectModel φ η]

theorem apart_readFrame [Transport τ] (steady : agent.Steady after) (text : String) :
    Apart agent (readFrame after companions text) := by
  unfold readFrame
  rcases after.link.receive text with ⟨report, link⟩
  have read : agent.Steady { after with link } := ⟨steady.lock, steady.signal, steady.driven⟩
  match report with
  | .ok .continued => exact apart_going rfl read
  | .ok (.packet packet) => exact apart_readOn ⟨read.lock, read.signal, read.driven⟩
  | .ok .acknowledged => exact apart_readOn read
  | .ok .strayAcknowledgment => exact apart_readOn read
  | .error error => exact apart_readOn read

theorem apart_handleFrame (text : String) : Apart agent (handleFrame agent text) := by
  unfold handleFrame
  rcases agent.link.receive text with ⟨report, link⟩
  match report with
  | .ok .continued => exact apart_going rfl ⟨rfl, rfl, rfl⟩
  | .ok (.packet packet) => exact apart_done _ ⟨rfl, rfl, rfl⟩
  | .ok .acknowledged => exact apart_done _ ⟨rfl, rfl, rfl⟩
  | .ok .strayAcknowledgment => exact apart_done _ ⟨rfl, rfl, rfl⟩
  | .error error => exact apart_done _ ⟨rfl, rfl, rfl⟩

variable [Transport τ]

theorem apart_stepReader (n : Nat) {place : Reader}
    (elsewhere : (reader place companions).reopening? = none) :
    Apart agent (stepReader agent n companions place) := by
  cases place with
  | connecting =>
      unfold stepReader
      dsimp only [Agent.openTransport]
      rcases Transport.openAt agent.connection.connectUrl agent.link.transport with
        ⟨error | ok, transport⟩
      · exact apart_finishReading _ ⟨rfl, rfl, rfl⟩
      · exact apart_readOn ⟨rfl, rfl, rfl⟩
  | listening =>
      unfold stepReader listen
      dsimp only
      split
      · exact apart_going rfl (.refl agent)
      · exact apart_going rfl (.refl agent)
  | receiving =>
      unfold stepReader readNext
      dsimp only
      match Transport.poll agent.link.transport with
      | none => exact apart_readOn (.refl agent)
      | some (.ok (some text), transport) =>
          have steady : agent.Steady { agent with link := { agent.link with transport } } :=
            ⟨rfl, rfl, rfl⟩
          exact apart_readFrame steady text
      | some (.ok none, transport) => exact apart_going rfl ⟨rfl, rfl, rfl⟩
      | some (.error error, transport) => exact apart_going rfl ⟨rfl, rfl, rfl⟩
  | acknowledging => exact apart_readOn ⟨rfl, rfl, rfl⟩
  | reopening place => cases elsewhere
  | closing result => exact apart_done _ ⟨rfl, rfl, rfl⟩

/-- A delivery that is about to begin is not in line yet. -/
theorem apart_start {task : Task} (n fresh : Nat) {envelope : Json}
    (begins : task.envelope? agent = some envelope) : Apart agent (task.step agent n fresh) := by
  cases task with
  | writer place =>
      cases place with
      | delivering => cases begins
      | _ =>
          have next : agent.nextEnvelope? = some envelope := begins
          unfold step stepWriter
          dsimp only
          rw [next]
          dsimp only
          unfold Delivery.start
          split
          · exact apart_done _ ⟨rfl, rfl, rfl⟩
          · exact apart_going rfl ⟨rfl, rfl, rfl⟩
  | send other =>
      unfold step Delivery.start
      dsimp only
      split
      · exact apart_ended _ (.refl agent)
      · exact apart_going rfl (.refl agent)
  | _ => cases begins

omit [ObjectModel φ η] in
theorem steady_sending (agent : Agent τ φ η) (n : Nat) (text : String) (place : Sending) :
    agent.Steady ((Delivery.sending text place).step agent n).2 ∧
      (((Delivery.sending text place).step agent n).1.next?.bind Delivery.reopening?).any
        Reopening.isInLine = false := by
  have outcome : Delivery.Outcome agent n (.sending text place)
      ((Delivery.sending text place).step agent n) := Delivery.outcome _
  generalize (Delivery.sending text place).step agent n = stepped at outcome ⊢
  cases outcome with
  | sends => exact ⟨⟨rfl, rfl, rfl⟩, rfl⟩
  | sent => exact ⟨⟨rfl, rfl, rfl⟩, rfl⟩
  | retries => exact ⟨⟨rfl, rfl, rfl⟩, rfl⟩
  | fails => exact ⟨⟨rfl, rfl, rfl⟩, rfl⟩

/-- **A step that does not see to the transport has nothing to do with the lock.** -/
theorem apart_step (n fresh : Nat) {task : Task} (elsewhere : task.reopening? = none)
    (driving : task ≠ .run) : Apart agent (task.step agent n fresh) := by
  cases delivers : task.delivery? with
  | some delivery =>
      obtain ⟨same, -, started⟩ := step_of_delivery agent n fresh delivers
      rw [reopening?_of_delivery delivers] at elsewhere
      cases delivery with
      | reopening => cases elsewhere
      | sending text place =>
          obtain ⟨steady, line⟩ := steady_sending agent n text place
          refine ⟨same ▸ steady, started, ?_⟩
          rw [reopening_of_delivery delivers]
          exact line
  | none =>
      cases begins : task.envelope? agent with
      | some envelope => exact apart_start n fresh begins
      | none =>
          cases task with
          | run => exact absurd rfl driving
          | reader place companions => exact apart_stepReader n elsewhere
          | writer place =>
              cases place with
              | delivering => cases delivers
              | _ =>
                  have none : agent.nextEnvelope? = none := begins
                  unfold step stepWriter
                  dsimp only
                  rw [none]
                  exact apart_going rfl (.refl agent)
          | heartbeat next interval => exact apart_stepHeartbeat interval next
          | connect => exact apart_ended _ ⟨rfl, rfl, rfl⟩
          | reopen reopening => cases elsewhere
          | send envelope => cases begins
          | deliver delivery => cases delivers
          | frame text => exact apart_handleFrame text
          | acknowledge => exact apart_ended _ ⟨rfl, rfl, rfl⟩

omit [ObjectModel φ η] in
/-- To begin to drive the connection has nothing to do with the lock either. -/
theorem apart_startReading (agent : Agent τ φ η) (fresh : Nat) :
    (startReading agent fresh).2.reconnecting = agent.reconnecting ∧
      (startReading agent fresh).2.haltSignal = agent.haltSignal ∧
      (startReading agent fresh).1.reopening?.any Reopening.isInLine = false := by
  unfold startReading
  split
  · exact ⟨rfl, rfl, rfl⟩
  · dsimp only
    split
    · exact ⟨rfl, rfl, rfl⟩
    · split
      · unfold readOn
        split
        · exact ⟨rfl, rfl, rfl⟩
        · exact ⟨rfl, rfl, rfl⟩
      · exact ⟨rfl, rfl, rfl⟩

/-- What is started neither delivers nor sees to the transport yet. -/
theorem plain_started (agent : Agent τ φ η) (n fresh : Nat) (task : Task) :
    ∀ other ∈ (task.step agent n fresh).1.started,
      other.delivery? = none ∧ other.reopening? = none := by
  cases elsewhere : task.reopening? with
  | some place =>
      have reopens : Reopens agent n place (task.step agent n fresh) := reopens_step elsewhere
      rw [reopens.started]
      exact nofun
  | none =>
      by_cases driving : task = .run
      · subst driving
        have plain : Plain agent (startReading agent fresh) := plain_startReading
        exact plain.started
      · have apart : Apart agent (task.step agent n fresh) := apart_step n fresh elsewhere driving
        rw [apart.started]
        exact nofun

omit [ObjectModel φ η] in
theorem isReady_of_reopening {task : Task} {place : Reopening}
    (here : task.reopening? = some place) (n : Nat) :
    task.isReady agent n = place.isReady agent n := by
  cases delivers : task.delivery? with
  | some delivery =>
      rw [reopening?_of_delivery delivers] at here
      cases delivery with
      | sending => cases here
      | reopening text other =>
          cases here
          obtain rfl | rfl := eq_of_delivery delivers
          · rfl
          · rfl
  | none =>
      obtain ⟨companions, rfl⟩ | rfl := eq_of_reopening delivers here
      · rfl
      · rfl

/-- **What a step of an activity does to the line.** -/
theorem turn_step {n : Nat} (fresh : Nat) {task : Task} (orderly : agent.reconnecting.Orderly)
    (ready : task.isReady agent n = true)
    (own : n ∈ agent.reconnecting.line ↔ task.reopening?.any Reopening.isInLine = true)
    (holds : task.reopening?.any Reopening.hasAttempt = true →
      agent.reconnecting.isHeldBy n = true) :
    FairLock.Turn n agent.reconnecting (task.step agent n fresh).2.reconnecting
      (task.step agent n fresh).1.reopening? := by
  cases here : task.reopening? with
  | some place =>
      have reopens : Reopens agent n place (task.step agent n fresh) := reopens_step here
      rw [isReady_of_reopening here] at ready
      rw [here] at own holds
      rw [reopens.agent, reopens.next]
      exact Reopening.turn_step orderly ready own holds
  | none =>
      rw [here] at own
      have outside : n ∉ agent.reconnecting.line := fun mem => nomatch own.mp mem
      by_cases driving : task = .run
      · subst driving
        obtain ⟨same, -, line⟩ := apart_startReading agent fresh
        show FairLock.Turn n _ (startReading agent fresh).2.reconnecting
          (startReading agent fresh).1.reopening?
        rw [same]
        exact .apart orderly outside line
      · have apart : Apart agent (task.step agent n fresh) := apart_step n fresh here driving
        rw [apart.steady.lock]
        exact .apart orderly outside apart.line

omit [Transport τ] [ObjectModel φ η] in
/-- Who is given up leaves the line. -/
theorem lock_abandon (orderly : agent.reconnecting.Orderly) {n : Nat} {task : Task}
    (own : n ∈ agent.reconnecting.line ↔ task.reopening?.any Reopening.isInLine = true) :
    FairLock.Turn n agent.reconnecting (task.abandon agent n).reconnecting none := by
  have leaves : FairLock.Turn n agent.reconnecting (agent.reconnecting.leave n) none := by
    refine ⟨.leave orderly n, ⟨fun mem => ?_, nofun⟩, nofun⟩
    simp [FairLock.line_leave orderly] at mem
  have stays : task.reopening? = none →
      FairLock.Turn n agent.reconnecting agent.reconnecting none := by
    intro elsewhere
    rw [elsewhere] at own
    exact .apart orderly (fun mem => nomatch own.mp mem) rfl
  cases task with
  | reader place companions =>
      cases place with
      | reopening => exact leaves
      | _ => exact stays rfl
  | writer place =>
      cases place with
      | delivering delivery =>
          cases delivery with
          | reopening => exact leaves
          | sending => exact stays rfl
      | _ => exact stays rfl
  | reopen => exact leaves
  | deliver delivery =>
      cases delivery with
      | reopening => exact leaves
      | sending => exact stays rfl
  | _ => exact stays rfl

omit [Transport τ] [ObjectModel φ η] in
/-- Who is given up leaves alone whether someone drives the connection and what those who wait are
told. -/
theorem spares_abandon (agent : Agent τ φ η) (n : Nat) (task : Task) :
    (task.abandon agent n).driven = agent.driven ∧
      (task.abandon agent n).haltSignal = agent.haltSignal := by
  cases task with
  | reader place companions => cases place <;> exact ⟨rfl, rfl⟩
  | writer place =>
      cases place with
      | delivering delivery => cases delivery <;> exact ⟨rfl, rfl⟩
      | _ => exact ⟨rfl, rfl⟩
  | deliver delivery => cases delivery <;> exact ⟨rfl, rfl⟩
  | _ => exact ⟨rfl, rfl⟩

end Apart

end Task

/-! ## Runs -/

namespace Service

variable {p : Service τ φ η} {n : Nat}

/-- The line is made of the activities that wait for the lock or have it, each once. -/
structure LinesUp (p : Service τ φ η) : Prop where
  /-- It is in order. -/
  orderly : p.agent.reconnecting.Orderly
  /-- Those and no others are in it. -/
  line : ∀ m, m ∈ p.agent.reconnecting.line ↔
    ∃ activity ∈ p.activities, activity.number = m ∧
      activity.task.reopening?.any Reopening.isInLine = true
  /-- Who has an attempt has the lock. -/
  holds : ∀ activity ∈ p.activities, activity.task.reopening?.any Reopening.hasAttempt = true →
    p.agent.reconnecting.isHeldBy activity.number = true

theorem linesUp_ofAgent {agent : Agent τ φ η} (free : agent.reconnecting = .free) :
    (ofAgent agent).LinesUp where
  orderly := by
    rw [ofAgent, free]
    exact FairLock.orderly_free
  line m := by simp [ofAgent, free, FairLock.line, FairLock.free]
  holds := nofun

namespace LinesUp

/-- Where an activity is says whether it is in line. -/
theorem own (linesUp : p.LinesUp) (counts : p.Counts) {activity : Activity}
    (mem : activity ∈ p.activities) :
    activity.number ∈ p.agent.reconnecting.line ↔
      activity.task.reopening?.any Reopening.isInLine = true := by
  rw [linesUp.line]
  constructor
  · rintro ⟨other, memOther, number, inLine⟩
    obtain rfl := List.inj_on_of_nodup_map counts.distinct memOther mem number
    exact inLine
  · exact fun inLine => ⟨activity, mem, rfl, inLine⟩

/-- The line goes on to be what it is if the activities are at the same places. -/
theorem keep (linesUp : p.LinesUp) {after : Service τ φ η}
    (same : after.agent.reconnecting = p.agent.reconnecting)
    (forth : ∀ activity ∈ p.activities, ∃ aborted,
      ⟨activity.number, activity.task, aborted⟩ ∈ after.activities)
    (back : ∀ activity ∈ after.activities,
      activity.task.reopening?.any Reopening.isInLine = true →
        ∃ old ∈ p.activities, old.number = activity.number ∧ old.task = activity.task) :
    after.LinesUp where
  orderly := same ▸ linesUp.orderly
  line m := by
    rw [same, linesUp.line]
    constructor
    · rintro ⟨activity, mem, number, inLine⟩
      obtain ⟨aborted, here⟩ := forth activity mem
      exact ⟨_, here, number, inLine⟩
    · rintro ⟨activity, mem, number, inLine⟩
      obtain ⟨old, memOld, numberOld, task⟩ := back activity mem inLine
      exact ⟨old, memOld, numberOld.trans number, task ▸ inLine⟩
  holds activity mem has := by
    obtain ⟨old, memOld, number, task⟩ :=
      back activity mem (Reopening.isInLine_of_hasAttempt has)
    rw [same, ← number]
    exact linesUp.holds old memOld (task ▸ has)

/-- A turn of activity `n` at the lock keeps the line what it is: the others are where they were,
and the activity itself is where the turn has taken it, if anywhere. -/
theorem turn (linesUp : p.LinesUp) {after : Service τ φ η} {place : Option Reopening}
    (turn : FairLock.Turn n p.agent.reconnecting after.agent.reconnecting place)
    (forth : ∀ activity ∈ p.activities, activity.number ≠ n → ∃ aborted,
      ⟨activity.number, activity.task, aborted⟩ ∈ after.activities)
    (here : ∀ next, place = some next →
      ∃ activity ∈ after.activities, activity.number = n ∧ activity.task.reopening? = some next)
    (back : ∀ activity ∈ after.activities,
      (∃ old ∈ p.activities, old.number ≠ n ∧ old.number = activity.number ∧
          old.task = activity.task) ∨
        (activity.number = n ∧ place = activity.task.reopening?) ∨
          activity.task.reopening? = none) : after.LinesUp where
  orderly := turn.shift.orderly
  line m := by
    by_cases own : m = n
    · subst own
      rw [turn.own]
      constructor
      · intro inLine
        cases at_ : place with
        | none => simp [at_] at inLine
        | some next =>
            obtain ⟨activity, mem, number, task⟩ := here next at_
            exact ⟨activity, mem, number, by rw [task, ← at_]; exact inLine⟩
      · rintro ⟨activity, mem, number, inLine⟩
        rcases back activity mem with ⟨old, -, other, same, -⟩ | ⟨-, at_⟩ | elsewhere
        · exact absurd (same.trans number) other
        · rw [at_]
          exact inLine
        · rw [elsewhere] at inLine
          cases inLine
    · rw [turn.shift.others m own, linesUp.line]
      constructor
      · rintro ⟨activity, mem, number, inLine⟩
        obtain ⟨aborted, stays⟩ := forth activity mem (number ▸ own)
        exact ⟨_, stays, number, inLine⟩
      · rintro ⟨activity, mem, number, inLine⟩
        rcases back activity mem with ⟨old, memOld, -, same, task⟩ | ⟨here, -⟩ | elsewhere
        · exact ⟨old, memOld, same.trans number, task ▸ inLine⟩
        · exact absurd (number.symm.trans here) own
        · rw [elsewhere] at inLine
          cases inLine
  holds activity mem has := by
    rcases back activity mem with ⟨old, memOld, other, same, task⟩ | ⟨own, at_⟩ | elsewhere
    · have held := linesUp.holds old memOld (task ▸ has)
      rw [FairLock.isHeldBy_iff linesUp.orderly] at held
      rw [FairLock.isHeldBy_iff turn.shift.orderly, ← same]
      exact turn.shift.head old.number other held
    · rw [own]
      exact turn.holds (at_ ▸ has)
    · rw [elsewhere] at has
      cases has

/-- A step that is such a turn, and that starts nothing that sees to the transport. -/
theorem after (linesUp : p.LinesUp) {step : Task.Step τ φ η}
    (turn : FairLock.Turn n p.agent.reconnecting step.2.reconnecting step.1.reopening?)
    (started : ∀ other ∈ step.1.started, other.reopening? = none) : (p.after n step).LinesUp := by
  have turn : FairLock.Turn n p.agent.reconnecting (p.after n step).agent.reconnecting
      step.1.reopening? := by
    rw [agent_after]
    exact turn
  refine linesUp.turn turn (fun activity mem other => ?_) (fun next goesOn => ?_)
    fun activity mem => ?_
  · obtain ⟨aborted, here, -⟩ := exists_mem_after_of_ne step mem other
    exact ⟨aborted, here⟩
  · obtain ⟨task, going, here⟩ := Option.bind_eq_some_iff.mp goesOn
    obtain ⟨aborted, mem, -⟩ := exists_mem_after_going (Progress.next?_eq_some_iff.mp going)
    exact ⟨_, mem, rfl, here⟩
  · rcases exists_of_mem_after mem with old | ⟨own, next⟩ | new
    · exact .inl old
    · refine .inr (.inl ⟨own, ?_⟩)
      rw [Effect.reopening?, next]
      rfl
    · exact .inr (.inr (started _ (List.fst_mem_of_mem_zipIdx new)))

variable [Transport τ] [ObjectModel φ η]

omit [ObjectModel φ η] in
/-- Who is in line and can take a step has the lock. -/
theorem isHeldBy_of_ready (linesUp : p.LinesUp) (counts : p.Counts) {task : Task}
    {place : Reopening} (mem : ⟨n, task, false⟩ ∈ p.activities)
    (here : task.reopening? = some place) (inLine : place.isInLine = true)
    (ready : p.isReady n = true) : p.agent.reconnecting.isHeldBy n = true := by
  have found : p.activity? n = some ⟨n, task, false⟩ := activity?_of_mem counts mem
  have ready : place.isReady p.agent n = true := by
    unfold isReady at ready
    rw [found] at ready
    rw [← Task.isReady_of_reopening here]
    exact ready
  have holds : place.hasAttempt = true → p.agent.reconnecting.isHeldBy n = true := fun has =>
    linesUp.holds _ mem (by rw [here]; exact has)
  cases place with
  | requesting => cases inLine
  | queued => exact ready
  | pausing time => exact holds rfl
  | opening => exact holds rfl

/-- **A step keeps the line what it is**, and to the others it is a shift. -/
theorem step (linesUp : p.LinesUp) (counts : p.Counts) (ready : p.isReady n = true) :
    (p.step n).LinesUp ∧
      FairLock.Shift n p.agent.reconnecting (p.step n).agent.reconnecting := by
  unfold isReady at ready
  cases found : p.activity? n with
  | none =>
      rw [found] at ready
      cases ready
  | some activity =>
      obtain ⟨number, task, aborted⟩ := activity
      obtain ⟨mem, rfl⟩ := mem_of_activity? found
      rw [found] at ready
      have own := linesUp.own counts mem
      cases aborted with
      | true =>
          have left := Task.lock_abandon linesUp.orderly own
          rw [step_of_aborted found]
          refine ⟨linesUp.turn left (fun activity memOld other => ?_) nofun
            fun activity memNew => ?_, left.shift⟩
          · exact ⟨activity.aborted, List.mem_filter.mpr ⟨memOld, decide_eq_true other⟩⟩
          · have stays := List.mem_filter.mp memNew
            exact .inl ⟨activity, stays.1, by simpa using stays.2, rfl, rfl⟩
      | false =>
          have ready : task.isReady p.agent number = true := ready
          have turn := Task.turn_step p.fresh linesUp.orderly ready own (linesUp.holds _ mem)
          rw [step_of_running found]
          refine ⟨linesUp.after turn fun other mem =>
            (task.plain_started p.agent number p.fresh other mem).2, ?_⟩
          rw [agent_after]
          exact turn.shift

/-- **The step lemma**: whatever happens, the line is made of those who wait for the lock or have
it. -/
theorem act (linesUp : p.LinesUp) (counts : p.Counts) {event : Event τ φ η}
    (ready : ∀ n, event = .step n → p.isReady n = true) : (p.act event).LinesUp := by
  have stays : ∀ activity ∈ p.activities, ∃ aborted,
      ⟨activity.number, activity.task, aborted⟩ ∈ p.activities :=
    fun activity mem => ⟨activity.aborted, mem⟩
  have old : ∀ activity ∈ p.activities, activity.task.reopening?.any Reopening.isInLine = true →
      ∃ old ∈ p.activities, old.number = activity.number ∧ old.task = activity.task :=
    fun activity mem _ => ⟨activity, mem, rfl, rfl⟩
  cases event with
  | step n => exact (linesUp.step counts (ready n rfl)).1
  | call call =>
      refine linesUp.keep rfl (fun activity mem => ⟨activity.aborted, List.mem_append_left _ mem⟩)
        fun activity mem inLine => ?_
      rcases List.mem_append.mp mem with here | new
      · exact old activity here inLine
      · -- What the host begins asks for the lock first.
        rw [List.mem_singleton.mp new] at inLine
        cases call <;> cases inLine
  | abort n =>
      refine linesUp.keep rfl (fun activity mem => ?_)
        fun activity mem _ => exists_of_mem_abortAll mem
      obtain ⟨aborted, here, -⟩ := exists_mem_abortAll mem [n]
      exact ⟨aborted, here⟩
  | halt => exact linesUp.keep rfl stays old
  | channel => exact linesUp.keep rfl stays old
  | time => exact linesUp.keep rfl stays old
  | session => exact linesUp.keep rfl stays old

end LinesUp

end Service

end RemoteAgent
