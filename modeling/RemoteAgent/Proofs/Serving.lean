import RemoteAgent.Proofs.OrderlyRuns
import RemoteAgent.Proofs.Returning

/-!
# How the line at the lock moves on

Who waits for the lock depends on those before it: on the one who has the lock, which may have to
wait for a pause to be over, and on those between.  The measure is `3 * place in line + what the
head has before it`.  What others do does not make it greater (`Service.QueuesUp.stays`), and a step
of the one at the head makes it smaller, unless that one is granted another attempt
(`Service.QueuesUp.served`).  So the line moves on as long as attempts do not go on being granted
for ever.

## Main definitions

* `Reopening.weight`: what a reopening that has the lock has before it.
* `Service.QueuesUp`: an activity that waits for the lock, or has it.
* `Service.MovesOn`: what the one at the head of the line does to it.
-/

namespace RemoteAgent

variable {τ φ η : Type}

/-- How many steps a reopening that has the lock has before it at most, if it is granted no other
attempt. -/
def Reopening.weight : Reopening → Nat
  | requesting | opening => 0
  | pausing _ => 1
  | queued => 2

/-- The same for an activity. -/
def Task.weight (task : Task) : Nat := (task.reopening?.map Reopening.weight).getD 0

theorem Task.weight_le (task : Task) : task.weight ≤ 2 := by
  unfold weight
  cases task.reopening? with
  | none => exact Nat.zero_le 2
  | some place => cases place <;> simp [Reopening.weight]

namespace Reopening

variable [Transport τ] {agent after : Agent τ φ η} {n : Nat} {place next : Reopening}

/-- A reopening that goes on is in line. -/
theorem isInLine_of_going (stepped : (place.step agent n).1 = .going next) :
    next.isInLine = true := by
  have check : ∀ {agent : Agent τ φ η}, (check agent n).1 = .going next →
      next.isInLine = true := by
    intro agent checked
    rcases lock_check agent n with ⟨time, going, -⟩ | ⟨result, ended, -⟩
    · rw [checked] at going
      cases going
      rfl
    · rw [checked] at ended
      cases ended
  cases place with
  | requesting =>
      unfold step at stepped
      dsimp only at stepped
      split at stepped
      · exact check stepped
      · cases stepped
        rfl
  | queued => exact check stepped
  | pausing time =>
      cases stepped
      rfl
  | opening => exact check stepped

/-- A reopening that is in line and goes on keeps the lock. -/
theorem lock_of_going (inLine : place.isInLine = true)
    (stepped : (place.step agent n).1 = .going next) :
    (place.step agent n).2.reconnecting = agent.reconnecting := by
  have check : ∀ {agent : Agent τ φ η}, (check agent n).1 = .going next →
      (Reopening.check agent n).2.reconnecting = agent.reconnecting := by
    intro agent checked
    rcases lock_check agent n with ⟨time, -, same⟩ | ⟨result, ended, -⟩
    · exact same
    · rw [checked] at ended
      cases ended
  cases place with
  | requesting => cases inLine
  | queued => exact check stepped
  | pausing time => rfl
  | opening => exact check stepped

/-- A reopening that has the lock and goes on has less before it, or is granted another attempt. -/
theorem weight_of_going (inLine : place.isInLine = true)
    (stepped : (place.step agent n).1 = .going next) :
    next.weight < place.weight + 3 * (place.reconnects agent n).countP Reconnect.isGranted := by
  have check : ∀ {agent : Agent τ φ η}, (check agent n).1 = .going next →
      next.weight < 3 * (checked agent n).countP Reconnect.isGranted := by
    intro agent going
    have checks : Checks agent n (checked agent n) (Reopening.check agent n) := checks_check
    generalize checked agent n = entries, Reopening.check agent n = stepped at checks going ⊢
    cases checks with
    | ended => cases going
    | granted =>
        cases going
        exact Nat.lt_add_of_pos_right (Nat.succ_pos 1)
    | refused => cases going
  cases place with
  | requesting => cases inLine
  | queued => exact Nat.lt_of_lt_of_le (check stepped) (Nat.le_add_left _ _)
  | pausing time =>
      cases stepped
      exact Nat.zero_lt_one
  | opening => exact Nat.lt_of_lt_of_le (check stepped) (Nat.le_add_left _ _)

end Reopening

namespace Service

variable {p : Service τ φ η} {event : Event τ φ η} {n head ahead : Nat} {task : Task}
  {start : Connection} {log : List Reconnect}

/-- Activity `n` is in line for the lock with `ahead` others before it, and `head` is the one at the
head, which goes on with `task`. -/
structure QueuesUp (p : Service τ φ η) (n head ahead : Nat) (task : Task) : Prop where
  /-- It is in line. -/
  mem : n ∈ p.agent.reconnecting.line
  /-- The other one has the lock. -/
  first : p.agent.reconnecting.line.head? = some head
  /-- That one is under way. -/
  active : ∃ aborted, ⟨head, task, aborted⟩ ∈ p.activities
  /-- How many are before it. -/
  ahead : p.agent.reconnecting.line.idxOf n = ahead

/-- If somebody is in line, somebody is at the head of the line. -/
theorem LinesUp.exists_queues (linesUp : p.LinesUp) (mem : n ∈ p.agent.reconnecting.line) :
    ∃ head task, p.QueuesUp n head (p.agent.reconnecting.line.idxOf n) task := by
  cases first : p.agent.reconnecting.line.head? with
  | none =>
      rw [List.head?_eq_none_iff.mp first] at mem
      cases mem
  | some head =>
      obtain ⟨activity, memActivity, rfl, -⟩ :=
        (linesUp.line head).mp (List.mem_of_mem_head? first)
      exact ⟨_, _, mem, first, ⟨_, memActivity⟩, rfl⟩

section Transport

variable [Transport τ]

section Head

variable [ObjectModel φ η]

/-- What a step of the one at the head of the line does to the line. -/
inductive MovesOn (p : Service τ φ η) (head : Nat) (task : Task) : Prop
  /-- It leaves the line. -/
  | leaves (gone : head ∉ (p.act (.step head)).agent.reconnecting.line)
  /-- It stays, and has less before it unless it is granted another attempt. -/
  | goesOn {next : Task} {aborted : Bool}
      (same : (p.act (.step head)).agent.reconnecting.line = p.agent.reconnecting.line)
      (mem : ⟨head, next, aborted⟩ ∈ (p.act (.step head)).activities)
      (lighter : next.weight <
        task.weight + 3 * (p.reconnects (.step head)).countP Reconnect.isGranted)

theorem InOrder.movesOn_of_running (inOrder : p.InOrder start log) (able : p.Able (.step head))
    (first : p.agent.reconnecting.line.head? = some head)
    (mem : ⟨head, task, false⟩ ∈ p.activities) : p.MovesOn head task := by
  have linesUp := inOrder.linesUp
  have own := linesUp.own inOrder.tallies.counts mem
  have found : p.activity? head = some ⟨head, task, false⟩ :=
    activity?_of_mem inOrder.tallies.counts mem
  have after : p.act (.step head) = p.after head (task.step p.agent head p.fresh) :=
    step_of_running found
  have entries : p.reconnects (.step head) = task.reconnects p.agent head :=
    stepReconnects_of_running found
  have ready : p.isReady head = true := able
  unfold Service.isReady at ready
  rw [found] at ready
  obtain ⟨place, here, inLine⟩ :=
    (Option.any_eq_true ..).mp (own.mp (List.mem_of_mem_head? first))
  have reopens : Task.Reopens p.agent head place (task.step p.agent head p.fresh) :=
    Task.reopens_step here
  have turn := Task.turn_step p.fresh linesUp.orderly ready own (linesUp.holds _ mem)
  have goesOn := reopens.next
  rw [reopens.next] at turn
  cases progress : (place.step p.agent head).1 with
  | done result =>
      rw [progress] at turn
      refine .leaves fun inLine => ?_
      rw [after, agent_after] at inLine
      cases turn.own.mp inLine
  | going next =>
      rw [progress] at goesOn
      obtain ⟨there, going, at_⟩ := Option.bind_eq_some_iff.mp goesOn
      obtain ⟨aborted, memAfter, -⟩ := exists_mem_after_going (p := p) (n := head)
        (Progress.next?_eq_some_iff.mp going)
      refine .goesOn ?_ (after ▸ memAfter) ?_
      · rw [after, agent_after, reopens.agent, Reopening.lock_of_going inLine progress]
      · unfold Task.weight
        rw [at_, here, entries, Task.reconnects_of_reopening here]
        exact Reopening.weight_of_going inLine progress

/-- One that is given up is no more after its step. -/
theorem InOrder.not_mem_line_of_aborted (inOrder : p.InOrder start log) (able : p.Able (.step head))
    (mem : ⟨head, task, true⟩ ∈ p.activities) :
    head ∉ (p.act (.step head)).agent.reconnecting.line := by
  intro inLine
  have after : p.act (.step head) = _ :=
    step_of_aborted (activity?_of_mem inOrder.tallies.counts mem)
  obtain ⟨activity, here, number, -⟩ := ((inOrder.act able).linesUp.line head).mp inLine
  rw [after] at here
  exact of_decide_eq_true (List.mem_filter.mp here).2 number

theorem InOrder.movesOn (inOrder : p.InOrder start log) (able : p.Able (.step head))
    (first : p.agent.reconnecting.line.head? = some head) {aborted : Bool}
    (mem : ⟨head, task, aborted⟩ ∈ p.activities) : p.MovesOn head task := by
  cases aborted with
  | true => exact .leaves (inOrder.not_mem_line_of_aborted able mem)
  | false => exact inOrder.movesOn_of_running able first mem

end Head

namespace QueuesUp

/-- Who is in line, and not to end, does not take a step before it is at the head. -/
theorem eq_head (queues : p.QueuesUp n head ahead task) (linesUp : p.LinesUp) (counts : p.Counts)
    {own : Task} (mem : ⟨n, own, false⟩ ∈ p.activities) (able : p.isReady n = true) :
    n = head := by
  obtain ⟨place, here, inLine⟩ := (Option.any_eq_true ..).mp ((linesUp.own counts mem).mp queues.mem)
  have held := linesUp.isHeldBy_of_ready counts mem here inLine able
  rw [FairLock.isHeldBy_iff linesUp.orderly, queues.first] at held
  exact (Option.some.inj held).symm

/-- The one at the head can take a step, once its pause is over if it pauses. -/
theorem isReady (queues : p.QueuesUp n head ahead task) (linesUp : p.LinesUp) (counts : p.Counts)
    (passed : (task.reopening?.bind Reopening.deadline?).getD 0 ≤ p.agent.link.timer) :
    p.isReady head = true := by
  obtain ⟨-, first, ⟨aborted, mem⟩, -⟩ := queues
  have inLine := (linesUp.own counts mem).mp (List.mem_of_mem_head? first)
  obtain ⟨place, here, inLine⟩ := (Option.any_eq_true ..).mp inLine
  have ready : place.isReady p.agent head = true := by
    rw [here] at passed
    cases place with
    | requesting => cases inLine
    | queued => exact (FairLock.isHeldBy_iff linesUp.orderly).mpr first
    | pausing time => exact decide_eq_true passed
    | opening => rfl
  unfold Service.isReady
  rw [activity?_of_mem counts mem]
  exact Bool.or_eq_true_iff.mpr (.inr ((Task.isReady_of_reopening here head).trans ready))

variable [ObjectModel φ η]

/-- What others do brings nobody farther from the head of the line. -/
theorem stays (queues : p.QueuesUp n head ahead task) (inOrder : p.InOrder start log)
    (able : p.Able event) (other : event ≠ .step head) (mine : event ≠ .step n) :
    ∃ nearer ≤ ahead, (p.act event).QueuesUp n head nearer task := by
  obtain ⟨mem, first, ⟨aborted, active⟩, rfl⟩ := queues
  obtain ⟨aborted', active', -⟩ := exists_mem_act active other
  have same : (p.act event).agent.reconnecting = p.agent.reconnecting →
      ∃ nearer ≤ p.agent.reconnecting.line.idxOf n, (p.act event).QueuesUp n head nearer task :=
    fun same => ⟨_, Nat.le_refl _, same ▸ mem, same ▸ first, ⟨_, active'⟩, by rw [same]⟩
  cases event with
  | step m =>
      have shift := (inOrder.linesUp.step inOrder.tallies.counts able).2
      have apart : ∀ {k : Nat}, Event.step m ≠ (.step k : Event τ φ η) → k ≠ m :=
        fun different same => different (congrArg Event.step same.symm)
      exact ⟨_, shift.nearer n (apart mine) mem, (shift.others n (apart mine)).mpr mem,
        shift.head head (apart other) first, ⟨_, active'⟩, rfl⟩
  | _ => exact same rfl

/-- **The one at the head of the line moves it on.** -/
theorem served (queues : p.QueuesUp n head ahead task) (inOrder : p.InOrder start log)
    (able : p.Able (.step head)) (mem : n ∈ (p.act (.step head)).agent.reconnecting.line) :
    ∃ head' ahead' task', (p.act (.step head)).QueuesUp n head' ahead' task' ∧
      3 * ahead' + task'.weight < 3 * ahead + task.weight +
        3 * (p.reconnects (.step head)).countP Reconnect.isGranted := by
  obtain ⟨memBefore, first, ⟨aborted, active⟩, rfl⟩ := queues
  cases inOrder.movesOn able first active with
  | leaves gone =>
      have shift := (inOrder.linesUp.step inOrder.tallies.counts able).2
      have own : n ≠ head := fun own => gone (own ▸ mem)
      obtain ⟨head', task', queues⟩ := (inOrder.act able).linesUp.exists_queues mem
      have nearer : (p.act (.step head)).agent.reconnecting.line.idxOf n <
          p.agent.reconnecting.line.idxOf n := shift.served first gone n own memBefore
      have light := task'.weight_le
      exact ⟨head', _, task', queues, by omega⟩
  | goesOn same here lighter =>
      refine ⟨head, _, _, ⟨mem, same ▸ first, ⟨_, here⟩, by rw [same]⟩, ?_⟩
      omega

end QueuesUp

end Transport

end Service

end RemoteAgent
