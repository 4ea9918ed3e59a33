import Mathlib.Order.Monotone.Basic
import RemoteAgent.Proofs.Halting
import RemoteAgent.Proofs.Retries
import RemoteAgent.Proofs.Serving

/-!
# That a delivery returns

`Service.Delivers` bounds how often a delivery tries before it returns.  That it does return is
shown here, in a fair run in which the wall clock goes on as well and nobody gives the delivery up.

Suppose that it does not.  A send that it has got to cannot wait for ever: for the send lock it
waits as long as the wall clock lets it, and with the lock it comes nearer to its end with every
step.  It ends with a fault that is tried again, for any other end is one of the delivery, so the
delivery sees to the transport once more (`Service.Endless.exists_retry`).  There it waits for those
before it in the line, each of which moves on unless it is granted an attempt, and attempts are
limited; so it gets to another send (`Service.Endless.exists_send`).  Hence it begins sends without
end, although it begins at most one more than attempts are left (`Service.Delivers.sendCount_le`).

## Main definitions

* `Sending.left`: what a send that has the lock has before it.
* `Service.Endless`: a run in which a delivery does not return.
* `Service.Tries`: what may be said of a delivery.
-/

namespace RemoteAgent

variable {τ φ η : Type}

/-! ## How a send comes to its end -/

namespace Sending

variable {link : Link τ} {place after : Sending}

/-- How many steps a send that has the lock has before it at most. -/
def left : Sending → Nat
  | .acquiring _ _ _ => 0
  | .transmitting _ rest => 2 * rest.length + 1
  | .waiting rest _ => 2 * rest.length

theorem left_of_next {frames : List Frame} (going : (next link frames).1 = .going after) :
    after.holdsLock = true ∧ after.left < 2 * frames.length := by
  cases frames with
  | nil => cases going
  | cons frame rest =>
      cases going
      exact ⟨rfl, Nat.lt_succ_self _⟩

/-- A send that has the lock, and goes on when it can, has less before it. -/
theorem left_of_going [Transport τ] (holds : place.holdsLock = true)
    (ready : place.isReady link = true) (going : (place.step link).1 = .going after) :
    after.holdsLock = true ∧ after.left < place.left := by
  cases place with
  | acquiring payload since again => cases holds
  | transmitting frame rest =>
      unfold step transmit at going
      dsimp only at going
      split at going
      · cases going
      · split at going
        · cases going
          exact ⟨rfl, Nat.lt_succ_self _⟩
        · obtain ⟨holds, less⟩ := left_of_next going
          exact ⟨holds, Nat.lt_succ_of_lt less⟩
  | waiting rest deadline =>
      unfold step await at going
      dsimp only at going
      split at going
      · exact left_of_next going
      · next missing =>
          split at going
          · cases going
          · next early => exact absurd (of_decide_eq_true ready) (not_or.mpr ⟨missing, early⟩)

/-- A send that goes on without the lock has waited less than it may. -/
theorem acquire_going {payload : String} {since : Nat}
    (going : (acquire link payload since).1 = .going after) :
    after.holdsLock = true ∨
      link.wall < since + link.framer.lockTimeout.milliseconds ∧
        ∃ again, after = .acquiring payload since again := by
  unfold acquire at going
  dsimp only at going
  split at going
  · exact .inl (left_of_next going).1
  · split at going
    · cases going
    · next early =>
        cases going
        exact .inr ⟨by omega, _, rfl⟩

end Sending

/-- A delivery that has sent goes on with its send, or tries again. -/
theorem Delivery.step_of_sending [Transport τ] {agent : Agent τ φ η} {n : Nat} {text : String}
    {place : Sending} {next : Delivery}
    (going : ((sending text place).step agent n).1 = .going next) :
    (∃ after, (place.step agent.link).1 = .going after ∧ next = .sending text after) ∨
      next = .reopening text .requesting := by
  have outcome : Outcome agent n (sending text place) ((sending text place).step agent n) :=
    Delivery.outcome _
  generalize (sending text place).step agent n = stepped at outcome going
  cases outcome with
  | sends stepped =>
      cases going
      exact .inl ⟨_, congrArg Prod.fst stepped, rfl⟩
  | sent => cases going
  | retries =>
      cases going
      exact .inr rfl
  | fails => cases going

/-- A delivery that has seen to the transport goes on with that, or begins its send. -/
theorem Delivery.step_of_reopening [Transport τ] {agent : Agent τ φ η} {n : Nat} {text : String}
    {place : Reopening} {next : Delivery}
    (going : ((reopening text place).step agent n).1 = .going next) :
    (∃ after, (place.step agent n).1 = .going after ∧ next = .reopening text after) ∨
      (place.step agent n).1 = .done (.ok ()) := by
  unfold step at going
  dsimp only at going
  rcases stepped : place.step agent n with ⟨progress, after⟩
  rw [stepped] at going
  match progress with
  | .going after =>
      cases going
      exact .inl ⟨_, rfl, rfl⟩
  | .done (.ok ()) => exact .inr rfl
  | .done (.error error) => cases going

namespace Service

variable {p : Service τ φ η} {event : Event τ φ η} {n : Nat}

section Steps

variable [Transport τ] [ObjectModel φ η]

/-- Nothing that happens changes how the framer is set up. -/
theorem setup_act (p : Service τ φ η) (event : Event τ φ η) :
    (p.act event).agent.link.framer.setup = p.agent.link.framer.setup := by
  cases event with
  | step m =>
      show (p.step m).agent.link.framer.setup = _
      cases found : p.activity? m with
      | none => rw [step_of_none found]
      | some activity =>
          obtain ⟨number, task, aborted⟩ := activity
          cases aborted with
          | true =>
              rw [step_of_aborted found]
              exact task.setup_abandon m
          | false =>
              rw [step_of_running found, agent_after]
              exact task.setup_step m p.fresh
  | _ => rfl

theorem setup_course (p : Service τ φ η) (events : Nat → Event τ φ η) (k : Nat) :
    (p.course events k).agent.link.framer.setup = p.agent.link.framer.setup := by
  induction k with
  | zero => rfl
  | succ k ih => exact (setup_act _ (events k)).trans ih

theorem sendCount_mono (p : Service τ φ η) (events : Nat → Event τ φ η) (n : Nat) :
    Monotone (p.sendCount events n) :=
  monotone_nat_of_le_succ fun _ => Nat.le_add_right _ _

/-! ## Deliveries that do not return -/

/-- How many attempts can still be granted, if no send succeeds. -/
def unspent (p : Service τ φ η) (events : Nat → Event τ φ η) (k : Nat) : Nat :=
  p.agent.connection.limit.toNat - p.agent.connection.attempts.toNat -
    (p.courseLog events k).countP Reconnect.isGranted

/-- Every moment passes for good on the wall clock. -/
def WallPasses (p : Service τ φ η) (events : Nat → Event τ φ η) : Prop :=
  ∀ time, ∃ k, ∀ j, k ≤ j → time ≤ (p.course events j).agent.link.wall

/-- Nobody gives the delivery up that activity `n` has begun with the first event. -/
def Spared (p : Service τ φ η) (events : Nat → Event τ φ η) (n : Nat) : Prop :=
  ∀ k, p.UnderWay events n k → ∀ task, ⟨n, task, true⟩ ∉ (p.course events (k + 1)).activities

/-- A run in which a delivery does not return. -/
structure Endless (start : Connection) (log : List Reconnect) (p : Service τ φ η)
    (events : Nat → Event τ φ η) (n : Nat) : Prop extends p.Delivers start log events n where
  /-- The delivery is under way for ever. -/
  underWay : ∀ k, p.UnderWay events n k
  /-- Nobody is kept from its step for ever. -/
  fair : p.Fair events
  /-- The wall clock goes on. -/
  wall : p.WallPasses events

namespace Endless

variable {start : Connection} {log : List Reconnect} {events : Nat → Event τ φ η} {k : Nat}
  {delivery : Delivery} {text : String}

theorem exists_delivery (endless : p.Endless start log events n) (past : 0 < k) :
    ∃ delivery, (p.course events k).delivery? n = some delivery :=
  (endless.underWay k).exists_delivery past

/-- What others do leaves the delivery where it is. -/
theorem stays (endless : p.Endless start log events n)
    (here : (p.course events k).delivery? n = some delivery) (other : events k ≠ .step n) :
    (p.course events (k + 1)).delivery? n = some delivery := by
  obtain ⟨next, goesOn⟩ := endless.exists_delivery (Nat.succ_pos k)
  have same := delivery?_of_ne (endless.counts k) other goesOn
  rw [goesOn, ← same, here]

/-- The delivery goes on with its own steps. -/
theorem moves (endless : p.Endless start log events n)
    (here : (p.course events k).delivery? n = some delivery) (own : events k = .step n) :
    ∃ next, (p.course events (k + 1)).delivery? n = some next ∧
      (delivery.step (p.course events k).agent n).1 = .going next := by
  obtain ⟨next, goesOn⟩ := endless.exists_delivery (Nat.succ_pos k)
  refine ⟨next, goesOn, deliveryStep_of_going (endless.counts k) here ?_⟩
  exact course_succ_of own ▸ goesOn

theorem isReady_eq (endless : p.Endless start log events n)
    (here : (p.course events k).delivery? n = some delivery) :
    (p.course events k).isReady n = delivery.isReady (p.course events k).agent n := by
  obtain ⟨task, mem, delivers⟩ := (delivery?_eq_some_iff (endless.counts k)).mp here
  unfold isReady
  rw [activity?_of_mem (endless.counts k) mem]
  obtain rfl | rfl := Task.eq_of_delivery delivers <;> rfl

theorem ready_of_own (endless : p.Endless start log events n)
    (here : (p.course events k).delivery? n = some delivery) (own : events k = .step n) :
    delivery.isReady (p.course events k).agent n = true := by
  rw [← endless.isReady_eq here]
  exact endless.able_of_own own

/-- A delivery that can take a step from some time on takes one. -/
theorem exists_step (endless : p.Endless start log events n)
    (here : (p.course events k).delivery? n = some delivery) (time : Nat)
    (ready : ∀ j, time ≤ (p.course events j).agent.link.timer →
      delivery.isReady (p.course events j).agent n = true) :
    ∃ j, k ≤ j ∧ (p.course events j).delivery? n = some delivery ∧ events j = .step n := by
  refine endless.fair.exists_step (fun j _ here other => endless.stays here other)
    (fun j _ here (passed : time ≤ _) => ?_) here
  rw [endless.isReady_eq here]
  exact ready j passed

/-! ### Sends end -/

/-- **A send that has the lock is tried again.**  The induction is on what it has before it. -/
theorem exists_retry_of_holds (endless : p.Endless start log events n) {place : Sending}
    (here : (p.course events k).delivery? n = some (.sending text place))
    (holds : place.holdsLock = true) :
    ∃ j, k ≤ j ∧ (p.course events j).delivery? n = some (.reopening text .requesting) := by
  induction left : place.left using Nat.strongRecOn generalizing k place with
  | ind left ih =>
      have ready : ∀ j, place.deadline?.getD 0 ≤ (p.course events j).agent.link.timer →
          (Delivery.sending text place).isReady (p.course events j).agent n = true := by
        intro j passed
        cases place with
        | acquiring => cases holds
        | transmitting => rfl
        | waiting rest deadline => exact decide_eq_true (.inr passed)
      obtain ⟨j, later, here, own⟩ := endless.exists_step here _ ready
      obtain ⟨next, after, going⟩ := endless.moves here own
      rcases Delivery.step_of_sending going with ⟨place', goesOn, rfl⟩ | rfl
      · obtain ⟨holds', less⟩ := Sending.left_of_going holds (endless.ready_of_own here own) goesOn
        obtain ⟨i, laterStill, retries⟩ := ih _ (left ▸ less) after holds' rfl
        exact ⟨i, Nat.le_trans (Nat.le_succ_of_le later) laterStill, retries⟩
      · exact ⟨j + 1, Nat.le_succ_of_le later, after⟩

/-- Where a send comes to that waits for the lock: it may wait on only if the time is not up. -/
theorem acquiring_act (endless : p.Endless start log events n) {payload : String} {since : Nat}
    {again : Option Nat}
    (here : (p.course events k).delivery? n =
      some (.sending text (.acquiring payload since again))) :
    (∃ j, k ≤ j ∧ (p.course events j).delivery? n = some (.reopening text .requesting)) ∨
      (∃ again, (p.course events (k + 1)).delivery? n =
          some (.sending text (.acquiring payload since again))) ∧
        (events k = .step n → (p.course events k).agent.link.wall <
          since + p.agent.link.framer.lockTimeout.milliseconds) := by
  by_cases own : events k = .step n
  · obtain ⟨next, after, going⟩ := endless.moves here own
    rcases Delivery.step_of_sending going with ⟨place, goesOn, rfl⟩ | rfl
    · rcases Sending.acquire_going goesOn with holds | ⟨early, again, rfl⟩
      · obtain ⟨j, later, retries⟩ := endless.exists_retry_of_holds after holds
        exact .inl ⟨j, Nat.le_of_succ_le later, retries⟩
      · have same : (p.course events k).agent.link.framer.lockTimeout =
            p.agent.link.framer.lockTimeout :=
          congrArg Setup.lockTimeout (setup_course p events k)
        exact .inr ⟨⟨again, after⟩, fun _ => same ▸ early⟩
    · exact .inl ⟨k + 1, Nat.le_succ k, after⟩
  · exact .inr ⟨⟨again, endless.stays here own⟩, fun mine => absurd mine own⟩

/-- A send does not wait for the lock for ever. -/
theorem exists_retry_of_acquiring (endless : p.Endless start log events n) {payload : String}
    {since : Nat} {again : Option Nat}
    (here : (p.course events k).delivery? n =
      some (.sending text (.acquiring payload since again))) :
    ∃ j, k ≤ j ∧ (p.course events j).delivery? n = some (.reopening text .requesting) := by
  by_contra never
  have waits : ∀ j, k ≤ j → ∃ again, (p.course events j).delivery? n =
      some (.sending text (.acquiring payload since again)) := by
    intro j later
    induction later with
    | refl => exact ⟨again, here⟩
    | step later ih =>
        obtain ⟨again, here⟩ := ih
        rcases endless.acquiring_act here with ⟨i, laterStill, retries⟩ | ⟨after, -⟩
        · exact absurd ⟨i, Nat.le_trans later laterStill, retries⟩ never
        · exact after
  -- When the time is up it looks at the lock once more.
  obtain ⟨i, passed⟩ := endless.wall (since + p.agent.link.framer.lockTimeout.milliseconds)
  obtain ⟨again, here⟩ := waits (max k i) (Nat.le_max_left ..)
  obtain ⟨j, later, here, own⟩ := endless.exists_step here (again.getD 0) fun j passed => by
    cases again with
    | none => rfl
    | some time => exact decide_eq_true passed
  rcases endless.acquiring_act here with ⟨i, laterStill, retries⟩ | ⟨-, early⟩
  · exact never ⟨i, Nat.le_trans (Nat.le_trans (Nat.le_max_left ..) later) laterStill, retries⟩
  · exact Nat.not_le.mpr (early own) (passed j (Nat.le_trans (Nat.le_max_right ..) later))

/-- **A send comes to its end, and is tried again.** -/
theorem exists_retry (endless : p.Endless start log events n) {place : Sending}
    (here : (p.course events k).delivery? n = some (.sending text place)) :
    ∃ j, k ≤ j ∧ (p.course events j).delivery? n = some (.reopening text .requesting) := by
  cases place with
  | acquiring => exact endless.exists_retry_of_acquiring here
  | transmitting => exact endless.exists_retry_of_holds here rfl
  | waiting => exact endless.exists_retry_of_holds here rfl

/-! ### Sends begin -/

/-- A step of a delivery that sees to the transport begins a send, or waits in line. -/
theorem reopening_step (endless : p.Endless start log events n) {place : Reopening}
    (here : (p.course events k).delivery? n = some (.reopening text place))
    (own : events k = .step n) :
    (p.course events k).beginsSend n (events k) = true ∨
      ∃ next, next.isInLine = true ∧
        (p.course events (k + 1)).delivery? n = some (.reopening text next) := by
  obtain ⟨next, after, going⟩ := endless.moves here own
  rcases Delivery.step_of_reopening going with ⟨place', goesOn, rfl⟩ | opened
  · exact .inr ⟨place', Reopening.isInLine_of_going goesOn, after⟩
  · refine .inl ?_
    rw [own]
    simp [beginsSend, here, Delivery.reopening?, opened, Reopening.hasOpened]

/-- Who is in line, told by the delivery. -/
theorem mem_line_iff (endless : p.Endless start log events n)
    (here : (p.course events k).delivery? n = some delivery) :
    n ∈ (p.course events k).agent.reconnecting.line ↔
      ∃ text place, delivery = .reopening text place ∧ place.isInLine = true := by
  obtain ⟨task, mem, delivers⟩ := (delivery?_eq_some_iff (endless.counts k)).mp here
  rw [(endless.inOrder_course k).linesUp.own (endless.counts k) mem,
    Task.reopening?_of_delivery delivers]
  cases delivery with
  | reopening text place => simp [Delivery.reopening?]
  | sending text place => simp [Delivery.reopening?]

/-- A delivery that does not begin a send stays in line. -/
theorem mem_line_act (endless : p.Endless start log events n) (past : 0 < k)
    (mem : n ∈ (p.course events k).agent.reconnecting.line)
    (waits : (p.course events k).beginsSend n (events k) ≠ true) :
    n ∈ (p.course events (k + 1)).agent.reconnecting.line := by
  obtain ⟨delivery, here⟩ := endless.exists_delivery past
  obtain ⟨text, place, rfl, inLine⟩ := (endless.mem_line_iff here).mp mem
  by_cases own : events k = .step n
  · rcases endless.reopening_step here own with begins | ⟨next, inLine, after⟩
    · exact absurd begins waits
    · exact (endless.mem_line_iff after).mpr ⟨text, next, rfl, inLine⟩
  · exact (endless.mem_line_iff (endless.stays here own)).mpr ⟨text, place, rfl, inLine⟩

/-- While a delivery is in line, the one at the head of the line takes its step at last. -/
theorem exists_step_of_queues (endless : p.Endless start log events n) (past : 0 < k)
    {head ahead : Nat} {task : Task} (queues : (p.course events k).QueuesUp n head ahead task) :
    ∃ j, k ≤ j ∧ (∃ nearer ≤ ahead, (p.course events j).QueuesUp n head nearer task) ∧
      events j = .step head := by
  refine endless.fair.exists_step (fun j later state other => ?_)
    (fun j _ ⟨_, _, queues⟩ passed => queues.isReady (endless.inOrder_course j).linesUp
      (endless.counts j) passed)
    ⟨ahead, Nat.le_refl ahead, queues⟩
  obtain ⟨nearer, less, queues⟩ := state
  have inOrder := endless.inOrder_course j
  have mine : events j ≠ .step n := by
    intro own
    obtain ⟨delivery, here⟩ := endless.exists_delivery (Nat.lt_of_lt_of_le past later)
    obtain ⟨task, mem, -⟩ := (delivery?_eq_some_iff (endless.counts j)).mp here
    have first := queues.eq_head inOrder.linesUp (endless.counts j) mem (endless.able_of_own own)
    exact other (own.trans (congrArg Event.step first))
  obtain ⟨nearest, least, queues⟩ := queues.stays inOrder (endless.able j) other mine
  exact ⟨nearest, Nat.le_trans least less, queues⟩

/-- An attempt that is granted is spent. -/
theorem unspent_act (endless : p.Endless start log events n) (k : Nat) :
    p.unspent events (k + 1) +
        ((p.course events k).reconnects (events k)).countP Reconnect.isGranted =
      p.unspent events k := by
  have granted := (endless.spends (endless.underWay k)).2
  have grants := p.countP_courseLog_succ events k Reconnect.isGranted
  unfold unspent
  omega

theorem unspent_anti (endless : p.Endless start log events n) : Antitone (p.unspent events) :=
  antitone_nat_of_succ_le fun k => endless.unspent_act k ▸ Nat.le_add_right _ _

/-- **A delivery in line gets to a send.**  The induction is on what is before it, and on the
attempts that can still be granted to those before it. -/
theorem exists_send_of_queues (endless : p.Endless start log events n) (past : 0 < k)
    {head ahead : Nat} {task : Task} (queues : (p.course events k).QueuesUp n head ahead task) :
    ∃ j, k ≤ j ∧ (p.course events j).beginsSend n (events j) = true := by
  induction measure : 3 * ahead + task.weight + 3 * p.unspent events k using Nat.strongRecOn
    generalizing k head ahead task with
  | ind before ih =>
      obtain ⟨j, later, ⟨nearer, less, queues⟩, own⟩ := endless.exists_step_of_queues past queues
      by_cases begins : (p.course events j).beginsSend n (events j) = true
      · exact ⟨j, later, begins⟩
      · have mem := endless.mem_line_act (Nat.lt_of_lt_of_le past later) queues.mem begins
        have after := course_succ_of (p := p) own
        obtain ⟨head', ahead', task', queues', lighter⟩ :=
          queues.served (endless.inOrder_course j) (endless.able_of_own own) (after ▸ mem)
        -- An attempt that makes the head heavier is spent.
        have spent := endless.unspent_act j
        have fewer := endless.unspent_anti later
        rw [own] at spent
        obtain ⟨i, laterStill, begins⟩ :=
          ih _ (by omega) (Nat.add_one_pos j) (after ▸ queues') rfl
        exact ⟨i, Nat.le_trans (Nat.le_succ_of_le later) laterStill, begins⟩

theorem exists_send_of_isInLine (endless : p.Endless start log events n) (past : 0 < k)
    {place : Reopening} (inLine : place.isInLine = true)
    (here : (p.course events k).delivery? n = some (.reopening text place)) :
    ∃ j, k ≤ j ∧ (p.course events j).beginsSend n (events j) = true := by
  obtain ⟨head, task, queues⟩ := (endless.inOrder_course k).linesUp.exists_queues
    ((endless.mem_line_iff here).mpr ⟨text, place, rfl, inLine⟩)
  exact endless.exists_send_of_queues past queues

/-- **A delivery that sees to the transport gets to a send.** -/
theorem exists_send_of_reopening (endless : p.Endless start log events n) (past : 0 < k)
    {place : Reopening}
    (here : (p.course events k).delivery? n = some (.reopening text place)) :
    ∃ j, k ≤ j ∧ (p.course events j).beginsSend n (events j) = true := by
  cases place with
  | requesting =>
      obtain ⟨j, later, here, own⟩ := endless.exists_step here 0 fun _ _ => rfl
      rcases endless.reopening_step here own with begins | ⟨next, inLine, after⟩
      · exact ⟨j, later, begins⟩
      · obtain ⟨i, laterStill, begins⟩ :=
          endless.exists_send_of_isInLine (Nat.succ_pos j) inLine after
        exact ⟨i, Nat.le_trans (Nat.le_succ_of_le later) laterStill, begins⟩
  | _ => exact endless.exists_send_of_isInLine past rfl here

/-- There is always one more send. -/
theorem exists_send (endless : p.Endless start log events n) (past : 0 < k) :
    ∃ j, k ≤ j ∧ (p.course events j).beginsSend n (events j) = true := by
  obtain ⟨delivery, here⟩ := endless.exists_delivery past
  cases delivery with
  | reopening text place => exact endless.exists_send_of_reopening past here
  | sending text place =>
      obtain ⟨i, later, retries⟩ := endless.exists_retry here
      obtain ⟨j, laterStill, begins⟩ :=
        endless.exists_send_of_reopening (Nat.lt_of_lt_of_le past later) retries
      exact ⟨j, Nat.le_trans later laterStill, begins⟩

theorem exists_sendCount_ge (endless : p.Endless start log events n) (count : Nat) :
    ∃ k, count ≤ p.sendCount events n k := by
  induction count with
  | zero => exact ⟨0, Nat.zero_le _⟩
  | succ count ih =>
      obtain ⟨k, sends⟩ := ih
      obtain ⟨j, later, begins⟩ := endless.exists_send (Nat.succ_pos k)
      have before : count ≤ p.sendCount events n j :=
        Nat.le_trans sends (sendCount_mono p events n (Nat.le_of_succ_le later))
      refine ⟨j + 1, ?_⟩
      rw [sendCount, begins]
      exact Nat.succ_le_succ before

/-- There are not so many attempts. -/
theorem elim (endless : p.Endless start log events n) : False := by
  obtain ⟨k, sends⟩ := endless.exists_sendCount_ge
    (p.agent.connection.limit.toNat - p.agent.connection.attempts.toNat + 2)
  have most := endless.sendCount_le (endless.underWay k)
  have grows := sendCount_mono p events n (Nat.le_add_right k 1)
  omega

end Endless

/-! ## Deliveries return -/

/-- An activity that is at a delivery stays there unless it takes a step or is given up. -/
theorem delivery?_act_of_ne (counts : p.Counts) {delivery : Delivery} (other : event ≠ .step n)
    (spared : ∀ task, ⟨n, task, true⟩ ∉ (p.act event).activities)
    (delivers : p.delivery? n = some delivery) : (p.act event).delivery? n = some delivery := by
  obtain ⟨task, mem, here⟩ := (delivery?_eq_some_iff counts).mp delivers
  obtain ⟨aborted, after, -⟩ := exists_mem_act mem other
  cases aborted with
  | true => exact absurd after (spared task)
  | false => exact (delivery?_eq_some_iff (counts.act event)).mpr ⟨task, after, here⟩

/-- An activity goes on where its delivery does, unless it is given up. -/
theorem delivery?_act_of_going (counts : p.Counts) {next : Delivery}
    (spared : ∀ task, ⟨n, task, true⟩ ∉ (p.act (.step n)).activities)
    (going : p.deliveryStep? n = some (.going next)) :
    (p.act (.step n)).delivery? n = some next := by
  obtain ⟨task, running, going⟩ := Option.bind_eq_some_iff.mp going
  have mem := (task?_eq_some_iff counts).mp running
  have goesOn : (task.step p.agent n p.fresh).1.delivery? = some next := by
    unfold Task.deliveryStep? at going
    cases delivers : task.delivery? with
    | some delivery =>
        rw [delivers] at going
        rw [(Task.step_of_delivery p.agent n p.fresh delivers).2.1]
        exact congrArg _ (Option.some.inj going)
    | none =>
        rw [delivers] at going
        obtain ⟨envelope, begins, started⟩ := Option.map_eq_some_iff.mp going
        rw [(Task.step_of_envelope n p.fresh begins).2.2.1, started]
        rfl
  obtain ⟨after, progress, here⟩ := Option.bind_eq_some_iff.mp goesOn
  obtain ⟨aborted, memAfter, -⟩ := exists_mem_after_going (p := p) (n := n)
    (Progress.next?_eq_some_iff.mp progress)
  have same : p.act (.step n) = p.after n (task.step p.agent n p.fresh) :=
    step_of_running (activity?_of_mem counts mem)
  rw [← same] at memAfter
  cases aborted with
  | true => exact absurd memAfter (spared after)
  | false => exact (delivery?_eq_some_iff (counts.act _)).mpr ⟨after, memAfter, here⟩

namespace Delivers

variable {start : Connection} {log : List Reconnect} {events : Nat → Event τ φ η} {k : Nat}

/-- Who is at a delivery, or begins one, takes a step of it next. -/
theorem exists_deliveryStep (delivers : p.Delivers start log events n)
    (underWay : p.UnderWay events n k) :
    ∃ progress, (p.course events k).deliveryStep? n = some progress := by
  rcases Nat.eq_zero_or_pos k with rfl | past
  · obtain ⟨task, envelope, mem, begins⟩ := delivers.envelope
    refine ⟨Delivery.start p.agent envelope, Option.bind_eq_some_iff.mpr
      ⟨task, (task?_eq_some_iff (delivers.counts 0)).mpr mem, ?_⟩⟩
    unfold Task.deliveryStep?
    rw [Task.delivery?_of_envelope begins]
    exact congrArg (Option.map (Delivery.start p.agent)) begins
  · obtain ⟨delivery, here⟩ := underWay.exists_delivery past
    obtain ⟨task, running, delivering⟩ := Option.bind_eq_some_iff.mp here
    refine ⟨(delivery.step (p.course events k).agent n).1, Option.bind_eq_some_iff.mpr
      ⟨task, running, ?_⟩⟩
    unfold Task.deliveryStep?
    rw [delivering]

/-- A delivery that is under way stays so, or returns, unless it is given up. -/
theorem underWay_or_returns (delivers : p.Delivers start log events n)
    (spared : p.Spared events n) (underWay : p.UnderWay events n k) :
    p.UnderWay events n (k + 1) ∨ ∃ result, p.ReturnsAt events n k result := by
  have counts := delivers.counts k
  have spared := spared k underWay
  have goesOn : ∀ {delivery}, (p.course events (k + 1)).delivery? n = some delivery →
      p.UnderWay events n (k + 1) := by
    intro delivery here j past before
    rcases Nat.lt_or_eq_of_le before with earlier | rfl
    · exact underWay j past (Nat.le_of_lt_succ earlier)
    · exact Option.isSome_iff_exists.mpr ⟨delivery, here⟩
  by_cases own : events k = .step n
  · obtain ⟨progress, stepped⟩ := delivers.exists_deliveryStep underWay
    cases progress with
    | done result => exact .inr ⟨result, underWay, own, stepped⟩
    | going next =>
        rw [course_succ_of own] at spared goesOn
        exact .inl (goesOn (delivery?_act_of_going counts spared stepped))
  · have past : 0 < k := by
      by_contra first
      obtain rfl : k = 0 := Nat.eq_zero_of_not_pos first
      exact own delivers.begins
    obtain ⟨delivery, here⟩ := underWay.exists_delivery past
    exact .inl (goesOn (delivery?_act_of_ne counts own spared here))

/-- **A delivery returns.** -/
theorem returns (delivers : p.Delivers start log events n) (fair : p.Fair events)
    (wall : p.WallPasses events) (spared : p.Spared events n) :
    ∃ k result, p.ReturnsAt events n k result := by
  by_contra never
  have underWay : ∀ k, p.UnderWay events n k := by
    intro k
    induction k with
    | zero => exact fun j past before => absurd past (Nat.not_lt.mpr before)
    | succ k ih =>
        rcases delivers.underWay_or_returns spared ih with underWay | returns
        · exact underWay
        · exact absurd ⟨k, returns⟩ never
  exact Endless.elim ⟨delivers, underWay, fair, wall⟩

end Delivers

/-! ## What may be said of a delivery -/

/-- What may be said of the delivery that activity `n` begins with the first event. -/
structure Tries (p : Service τ φ η) (events : Nat → Event τ φ η) (n : Nat) : Prop where
  /-- It begins at most one send more than attempts are left. -/
  sends : ∀ k, p.UnderWay events n k → p.sendCount events n (k + 1) ≤
    p.agent.connection.limit.toNat - p.agent.connection.attempts.toNat + 1
  /-- Meanwhile at most one attempt more is made than are left, whoever makes it. -/
  attempts : ∀ k, p.UnderWay events n k →
    (p.courseLog events (k + 1)).countP Reconnect.isAttempt ≤
      p.agent.connection.limit.toNat - p.agent.connection.attempts.toNat + 1
  /-- If it returns, it returns what it should. -/
  concludes : ∀ k result, p.ReturnsAt events n k result → p.Concludes events n k result
  /-- It does return, if nobody is kept from its step for ever, both clocks go on and nobody gives
  the delivery up. -/
  returns : p.Fair events → p.WallPasses events → p.Spared events n →
    ∃ k result, p.ReturnsAt events n k result

/-- **How often a delivery tries, and that it ends.**  In every state that an agent may come to in
which nobody acts out of turn, whatever the transport answers and whenever it breaks, if it does not
open by itself and no other send succeeds meanwhile: a delivery begins at most one send more than
attempts are left, and makes at most one attempt more than are left.  It returns, without an error
exactly if one of its sends has succeeded.  If it returns for want of attempts, the connection is
given up, or it only hands on what the transport itself has answered a send with. -/
theorem delivery_tries {agent : Agent τ φ η} (free : agent.reconnecting = .free)
    {prior : List (Event τ φ η)} (inTurn : (ofAgent agent).InTurn prior)
    {events : Nat → Event τ φ η} (undertakes : ((ofAgent agent).run prior).Undertakes events n) :
    ((ofAgent agent).run prior).Tries events n := by
  have delivers : ((ofAgent agent).run prior).Delivers _ _ events n :=
    ⟨undertakes, (InOrder.ofAgent free).run inTurn⟩
  refine ⟨fun k underWay => delivers.sendCount_le underWay, fun k underWay => ?_,
    fun k result returns => delivers.concludes returns, delivers.returns⟩
  have most := (delivers.spends underWay).1
  omega

section Quiet

variable {events : Nat → Event τ φ η} {stop : Nat}

/-- Once a delivery is over it is under way no more. -/
theorem UnderWay.lt_of_ended {k : Nat} (underWay : p.UnderWay events n k) (past : 0 < stop)
    (ended : ((p.course events stop).delivery? n).isSome = false) : k < stop := by
  by_contra late
  have delivers := underWay stop past (Nat.not_lt.mp late)
  rw [ended] at delivers
  cases delivers

/-- Where nothing happens any more once the delivery is over, it is enough to look at what happens
before. -/
theorem undertakes_of_quiet (past : 0 < stop) (quiet : ∀ k, stop ≤ k → events k = .time k k)
    (ended : ((p.course events stop).delivery? n).isSome = false) (begins : events 0 = .step n)
    (envelope : ∃ task envelope, ⟨n, task, false⟩ ∈ p.activities ∧
      task.envelope? p.agent = some envelope)
    (within : p.agent.connection.attempts ≤ p.agent.connection.limit)
    (below : p.agent.connection.limit.toNat < UInt32.size - 1)
    (able : ∀ k < stop, (p.course events k).Able (events k))
    (inLine : ∀ k < stop, (p.course events k).OpensInLine (events k))
    (alone : ∀ k < stop, ∀ entry ∈ (p.course events k).reconnects (events k),
      entry.number? = some n) : p.Undertakes events n where
  able k := by
    rcases Nat.lt_or_ge k stop with early | late
    · exact able k early
    · rw [quiet k late]
      trivial
  begins
  envelope
  within
  below
  inLine k underWay := inLine k (underWay.lt_of_ended past ended)
  alone k _ underWay forgets :=
    Option.some.inj (alone k (underWay.lt_of_ended past ended) _ forgets)

end Quiet

end Steps

/-! ### A channel that breaks with every send -/

/-- An agent that may try twice to open its transport again, over a channel that breaks with each of
the first three sends. -/
def twiceMore : Service ScriptedChannel Console.Method Empty :=
  .ofAgent (.new { Config.default with reconnectLimit := 2 }
    (.new [] [.broke .closed, .broke (.io "reset"), .broke .closed]) .null .empty "id")

/-- Activity 0 has opened the channel, and activity 1 is to send. -/
def connecting : List (Event ScriptedChannel Console.Method Empty) :=
  [.call .connect, .step 0, .call (.send .null)]

/-- It sends three times, and uses up both attempts in between. -/
def breaking : List (Event ScriptedChannel Console.Method Empty) :=
  [.step 1, .step 1, .step 1, .step 1, .step 1, .time 1000 1000, .step 1, .step 1, .step 1, .step 1,
    .step 1, .time 2000 2000, .step 1, .step 1, .step 1, .step 1, .step 1]

/-- Then nothing happens any more, and time goes on. -/
def retrying (k : Nat) : Event ScriptedChannel Console.Method Empty :=
  breaking[k]?.getD (.time k k)

/-- The state in which that begins. -/
def connected : Service ScriptedChannel Console.Method Empty := twiceMore.run connecting

theorem retrying_of_le {k : Nat} (late : 17 ≤ k) : retrying k = .time k k := by
  unfold retrying
  rw [List.getElem?_eq_none (show breaking.length ≤ k from late)]
  rfl

theorem ended_retrying : ((connected.course retrying 17).delivery? 1).isSome = false := by
  decide +kernel

theorem undertakes_retrying : connected.Undertakes retrying 1 :=
  undertakes_of_quiet (by decide) (fun _ late => retrying_of_le late) ended_retrying rfl
    ⟨.send .null, .null, List.mem_of_mem_head? rfl, rfl⟩ (by decide +kernel) (by decide +kernel)
    (by decide +kernel) (by decide +kernel) (by decide +kernel)

theorem fair_retrying : connected.Fair retrying :=
  fair_of_quiet 17 (List.isEmpty_iff.mp (by decide +kernel)) fun k late =>
    ⟨k, retrying_of_le late⟩

theorem wallPasses_retrying : connected.WallPasses retrying := by
  refine fun time => ⟨max time 17 + 1, ?_⟩
  rintro (_ | k) later
  · cases later
  · have past : max time 17 ≤ k := Nat.le_of_succ_le_succ later
    rw [course, retrying_of_le (Nat.le_trans (Nat.le_max_right ..) past)]
    exact Nat.le_trans (Nat.le_max_left ..) past

theorem spared_retrying : connected.Spared retrying 1 := by
  intro k underWay task mem
  have all : ∀ k < 17, (connected.course retrying (k + 1)).activities.all
      (fun activity => !activity.aborted) = true := by
    decide +kernel
  have early : k < 17 := underWay.lt_of_ended (by decide) ended_retrying
  have spared := List.all_eq_true.mp (all k early) _ mem
  cases spared

/-- Three sends and three attempts, the last one refused, are as many as there may be. -/
theorem delivery_tries_retrying :
    twiceMore.InTurn connecting ∧ connected.Undertakes retrying 1 ∧ connected.Tries retrying 1 ∧
      connected.Fair retrying ∧ connected.WallPasses retrying ∧ connected.Spared retrying 1 ∧
      connected.sendCount retrying 1 17 = 3 ∧
      (connected.courseLog retrying 17).countP Reconnect.isAttempt = 3 ∧
      connected.ReturnsAt retrying 1 16 (.error (.reconnectLimit 2)) := by
  have inTurn : twiceMore.InTurn connecting := by decide +kernel
  have tries := delivery_tries rfl inTurn undertakes_retrying
  have underWay : ∀ j < 17, 0 < j → ((connected.course retrying j).delivery? 1).isSome = true := by
    decide +kernel
  exact ⟨inTurn, undertakes_retrying, tries, fair_retrying, wallPasses_retrying, spared_retrying,
    by decide +kernel, by decide +kernel,
    fun j past before => underWay j (Nat.lt_succ_of_le before) past, rfl, rfl⟩

/-! ### A transport that answers a send with the error of the limit -/

/-- An agent over a channel that fails the first send as if there were no attempts left. -/
def misled : Service ScriptedChannel Console.Method Empty :=
  .ofAgent (.new { Config.default with reconnectLimit := 2 }
    (.new [] [.failed (.reconnectLimit 2)]) .null .empty "id")

/-- Activity 1 sends once.  Then nothing happens any more, and time goes on. -/
def sending (k : Nat) : Event ScriptedChannel Console.Method Empty :=
  if k < 4 then .step 1 else .time k k

/-- The delivery returns that error, with all attempts left and the connection as it was. -/
theorem limit_not_halted :
    misled.InTurn connecting ∧ (misled.run connecting).Undertakes sending 1 ∧
      (misled.run connecting).ReturnsAt sending 1 3 (.error (.reconnectLimit 2)) ∧
      ((misled.run connecting).course sending 4).agent.isHalted = false ∧
      ((misled.run connecting).course sending 4).agent.connection.attempts = 0 := by
  have undertakes : (misled.run connecting).Undertakes sending 1 :=
    undertakes_of_quiet (by decide) (fun _ late => if_neg (Nat.not_lt.mpr late))
      (by decide +kernel) rfl ⟨.send .null, .null, List.mem_of_mem_head? rfl, rfl⟩
      (by decide +kernel) (by decide +kernel) (by decide +kernel) (by decide +kernel)
      (by decide +kernel)
  have underWay : ∀ j < 4, 0 < j →
      (((misled.run connecting).course sending j).delivery? 1).isSome = true := by
    decide +kernel
  exact ⟨by decide +kernel, undertakes,
    ⟨fun j past before => underWay j (Nat.lt_succ_of_le before) past, rfl, rfl⟩,
    by decide +kernel, by decide +kernel⟩

end Service

end RemoteAgent
