import RemoteAgent.Proofs.Fairness

/-!
# What the reader returns

A reader takes its steps until it returns; nobody but the host asks it to end
(`Service.Driven.exists_readsAt`).  When it returns, it has closed the channel, and what it returns
is right by the log of the run (`Service.Driven.returned`).  As long as the connection is not given
up, it has not decided to return anything (`Service.Driven.undecided_of_running`).

All of this is said of an endless run in which an activity begins to drive the connection.

## Main definitions

* `Service.ReaderStep`: what comes of a step of the reader.
* `Service.Returned`: how a reader may have returned.
* `Service.Driven`: a run in which an activity begins to drive the connection.
-/

namespace RemoteAgent

variable {φ η : Type}

namespace Service

section Activities

variable {τ : Type} [Transport τ] [ObjectModel φ η] {p : Service τ φ η} {event : Event τ φ η}

/-- An activity stays where it is unless it takes a step, and is not asked to end unless somebody
asks it. -/
theorem exists_mem_act {activity : Activity} (mem : activity ∈ p.activities)
    (other : event ≠ .step activity.number) :
    ∃ aborted, ⟨activity.number, activity.task, aborted⟩ ∈ (p.act event).activities ∧
      (event ≠ .abort activity.number →
        (∀ m task, event = .step m → ⟨m, task, false⟩ ∈ p.activities →
          activity.number ∉ (task.step p.agent m p.fresh).1.aborted) →
        aborted = activity.aborted) := by
  cases event with
  | step m =>
      have other : activity.number ≠ m := fun same => other (congrArg Event.step same.symm)
      show ∃ aborted, _ ∈ (p.step m).activities ∧ _
      cases found : p.activity? m with
      | none =>
          rw [step_of_none found]
          exact ⟨activity.aborted, mem, fun _ _ => rfl⟩
      | some stepping =>
          obtain ⟨number, task, aborted⟩ := stepping
          obtain ⟨memStepping, rfl⟩ := mem_of_activity? found
          cases aborted with
          | true =>
              rw [step_of_aborted found]
              exact ⟨activity.aborted, List.mem_filter.mpr ⟨mem, decide_eq_true other⟩,
                fun _ _ => rfl⟩
          | false =>
              obtain ⟨aborted, here, spared⟩ :=
                exists_mem_after_of_ne (task.step p.agent number p.fresh) mem other
              rw [step_of_running found]
              exact ⟨aborted, here, fun _ asked => spared (asked number task rfl memStepping)⟩
  | call call => exact ⟨activity.aborted, List.mem_append_left _ mem, fun _ _ => rfl⟩
  | abort m =>
      obtain ⟨aborted, here, spared⟩ := exists_mem_abortAll mem [m]
      exact ⟨aborted, here, fun unasked _ => spared fun asked =>
        unasked (congrArg Event.abort (List.mem_singleton.mp asked).symm)⟩
  | halt => exact ⟨activity.aborted, mem, fun _ _ => rfl⟩
  | channel => exact ⟨activity.aborted, mem, fun _ _ => rfl⟩
  | time => exact ⟨activity.aborted, mem, fun _ _ => rfl⟩
  | session => exact ⟨activity.aborted, mem, fun _ _ => rfl⟩

end Activities

variable [ObjectModel φ η] {p : Service MemoryChannel φ η} {event : Event MemoryChannel φ η}
  {n limit : Nat} {start : Connection} {log : List Reconnect} {failed : TransportError → Prop}

/-- Activity `n` returns a result. -/
def Returns (p : Service MemoryChannel φ η) (n : Nat) (event : Event MemoryChannel φ η)
    (result : TaskResult) : Prop :=
  (p.act event).finished = (n, result) :: p.finished

/-- Activity `n` reads, at this place, and is not to end. -/
def ReadsAt (p : Service MemoryChannel φ η) (n : Nat) (place : Reader) : Prop :=
  ∃ companions, ⟨n, .reader place companions, false⟩ ∈ p.activities

/-- What comes of a step of the reader. -/
inductive ReaderStep (p : Service MemoryChannel φ η) (n : Nat) (place : Reader) : Prop
  /-- It returns. -/
  | returns {result : Except AgentError Unit} (closing : place = .closing result)
      (returns : p.Returns n (.step n) (result.map fun _ => none))
  /-- It has decided how it ends. -/
  | closes {result : Except AgentError Unit} (undecided : place.isClosing = false)
      (reads : (p.act (.step n)).ReadsAt n (.closing result))
  /-- It goes on, out of line. -/
  | proceeds {next : Reader} (undecided : place.isClosing = false)
      (reads : (p.act (.step n)).ReadsAt n next)
      (nearer : p.agent.isHalted = true → next.stage < place.stage)
  /-- It goes on seeing to the transport. -/
  | reopens {here next : Reopening} {agent : Agent MemoryChannel φ η}
      (at_ : place = .reopening here) (stepped : here.step p.agent n = (.going next, agent))
      (reads : (p.act (.step n)).ReadsAt n (.reopening next))

namespace ReadBy

variable {place : Reader}

/-- Nobody else asks the reader to end. -/
theorem stays (readBy : p.ReadBy n limit failed log) (regular : p.Regular start log)
    (reads : p.ReadsAt n place) (other : event ≠ .step n) (kept : event ≠ .abort n) :
    (p.act event).ReadsAt n place := by
  obtain ⟨companions, mem⟩ := reads
  obtain ⟨aborted, here, spared⟩ := exists_mem_act mem other
  obtain rfl : aborted = false := by
    refine spared kept fun m stepping stepped memStepping => ?_
    have different : m ≠ n := fun own => other (own ▸ stepped)
    rw [(readBy.effect_step regular memStepping).2 different]
    exact nofun
  exact ⟨companions, here⟩

/-- **What comes of a step of the reader.** -/
theorem readerStep (readBy : p.ReadBy n limit failed log) (counts : p.Counts)
    (reads : p.ReadsAt n place) : p.ReaderStep n place := by
  obtain ⟨companions, mem⟩ := reads
  have moves : p.act (.step n) = p.after n (Task.stepReader p.agent n companions place) :=
    step_of_running (activity?_of_mem counts mem)
  have turn : Reader.Turn p.agent n companions place
      (Task.stepReader p.agent n companions place) := Reader.turn_step place
  have goesOn : ∀ {next : Reader}, (Task.stepReader p.agent n companions place).1.progress =
      .going (.reader next companions) → (p.act (.step n)).ReadsAt n next := by
    intro next going
    obtain ⟨aborted, here, spared⟩ := exists_mem_after_going going
    obtain rfl : aborted = false := spared fun asked =>
      (readBy.placed _ mem).companions rfl (turn.effect.2 n asked)
    exact ⟨companions, moves ▸ here⟩
  have ends : ∀ {result : TaskResult},
      (Task.stepReader p.agent n companions place).1.progress = .done result →
        p.Returns n (.step n) result := by
    intro result ended
    unfold Returns
    rw [moves]
    unfold Service.after move
    rw [ended]
    rfl
  generalize Task.stepReader p.agent n companions place = stepped at turn goesOn ends
  cases turn with
  | fails => exact .closes rfl (goesOn rfl)
  | decides undecided => exact .closes undecided (goesOn rfl)
  | proceeds undecided _ _ _ nearer => exact .proceeds undecided (goesOn rfl) nearer
  | reopens stepped => exact .reopens rfl stepped (goesOn rfl)
  | refused => exact .closes rfl (goesOn rfl)
  | closes => exact .returns rfl (ends rfl)

end ReadBy

/-- How a reader may have returned, by the log of the run and the errors with which its first
opening failed. -/
structure Returned (limit : Nat) (log : List Reconnect) (failed : TransportError → Prop)
    (p : Service MemoryChannel φ η) (result : TaskResult) : Prop where
  /-- The channel is closed. -/
  closed : p.agent.isOpen = false
  /-- If the first opening failed, it has returned its error. -/
  unconnected : ∀ error, failed error → result = .error (.transport error)
  /-- If not, the connection is given up. -/
  halted : (∀ error, ¬ failed error) → p.agent.isHalted = true
  /-- It has returned the error that names the limit exactly if the budget of attempts was exceeded,
  by whomever. -/
  refused : (∀ error, ¬ failed error) →
    (result = .error (.transport (.reconnectLimit limit)) ↔ ∃ m, .refused m ∈ log)
  /-- It has returned without an error exactly if the host halted the connection and the budget was
  not exceeded. -/
  ok : (∀ error, ¬ failed error) →
    (result = .ok none ↔ .halted ∈ log ∧ ∀ m, .refused m ∉ log)

omit [ObjectModel φ η] in
theorem Returned.of_verdict {result : Except AgentError Unit} (regular : p.Regular start log)
    (closed : p.agent.isOpen = false) (verdict : Verdict limit log failed result) :
    p.Returned limit log failed (result.map fun _ => none) where
  closed := closed
  unconnected error fails := by
    cases verdict with
    | failed same => rw [(same error).mp fails]; rfl
    | refused connected => exact absurd fails (connected error)
    | halted connected => exact absurd fails (connected error)
  halted connected := regular.halted_iff.mpr (verdict.exists_givesUp connected)
  refused connected := by
    cases verdict with
    | failed same => exact absurd ((same _).mpr rfl) (connected _)
    | refused _ refused => exact ⟨fun _ => refused, fun _ => rfl⟩
    | halted _ granted => exact ⟨nofun, fun ⟨m, mem⟩ => absurd mem (granted m)⟩
  ok connected := by
    cases verdict with
    | failed same => exact absurd ((same _).mpr rfl) (connected _)
    | refused _ refused =>
        obtain ⟨m, mem⟩ := refused
        exact ⟨nofun, fun both => absurd mem (both.2 m)⟩
    | halted _ granted halted => exact ⟨fun _ => ⟨halted, granted⟩, fun _ => rfl⟩

/-- Only a step that has come to its end returns something. -/
theorem exists_of_returns {result : TaskResult} (returns : p.Returns n event result) :
    event = .step n ∧ ∃ task, p.activity? n = some ⟨n, task, false⟩ ∧
      (task.step p.agent n p.fresh).1.progress = .done result := by
  have longer : ∀ {entry : Nat × TaskResult}, p.finished ≠ entry :: p.finished := by
    intro entry same
    have := congrArg List.length same
    simp at this
  cases event with
  | step m =>
      have returns : (p.step m).finished = (n, result) :: p.finished := returns
      cases found : p.activity? m with
      | none =>
          rw [step_of_none found] at returns
          exact absurd returns longer
      | some activity =>
          obtain ⟨number, task, aborted⟩ := activity
          obtain ⟨-, rfl⟩ := mem_of_activity? found
          cases aborted with
          | true =>
              rw [step_of_aborted found] at returns
              exact absurd returns longer
          | false =>
              rw [step_of_running found] at returns
              unfold after move at returns
              cases progress : (task.step p.agent number p.fresh).1.progress with
              | going next =>
                  rw [progress] at returns
                  exact absurd returns longer
              | done other =>
                  rw [progress] at returns
                  obtain ⟨rfl, rfl⟩ := Prod.mk.inj (List.head_eq_of_cons_eq returns)
                  exact ⟨rfl, task, found, progress⟩
  | _ => exact absurd returns longer

/-- **A reader that returns has closed the channel, and its verdict is right.** -/
theorem ReadBy.returned (readBy : p.ReadBy n start.limit.toNat failed log)
    (regular : p.Regular start log) (possible : p.Possible event) {result : TaskResult}
    (returns : p.Returns n event result) :
    (p.act event).Returned start.limit.toNat (log ++ p.reconnects event)
      (fun error => failed error ∨ p.FailsToConnect n event error) result := by
  obtain ⟨rfl, task, found, ended⟩ := exists_of_returns returns
  have placed := readBy.placed _ (mem_of_activity? found).1
  cases task with
  | reader place companions =>
      have turn : Reader.Turn p.agent n companions place
          (Task.stepReader p.agent n companions place) := Reader.turn_step place
      have ended : (Task.stepReader p.agent n companions place).1.progress = .done result := ended
      have closed : (p.act (.step n)).agent = (Task.stepReader p.agent n companions place).2 :=
        (congrArg Service.agent (step_of_running found)).trans (agent_after ..)
      generalize Task.stepReader p.agent n companions place = stepped at turn ended closed
      cases turn with
      | @closes verdict =>
          cases ended
          refine .of_verdict (regular.act possible) (by rw [closed]; rfl) ?_
          refine (((placed.stands rfl).decided verdict rfl).append
            (regular.tallies.act _).lawful).congr fun error => or_iff_left ?_
          rintro ⟨-, ⟨others, here⟩, -⟩
          rw [found] at here
          cases here
      | _ => cases ended
  | _ => cases placed.reader.mp rfl

/-! ## A run in which the connection is driven -/

/-- The first opening by activity `n` has failed before event `k`. -/
def HasFailed (p : Service MemoryChannel φ η) (events : Nat → Event MemoryChannel φ η) (n k : Nat)
    (error : TransportError) : Prop :=
  ∃ j < k, (p.course events j).FailsToConnect n (events j) error

theorem hasFailed_succ {events : Nat → Event MemoryChannel φ η} {k : Nat} :
    p.HasFailed events n (k + 1) = fun error => p.HasFailed events n k error ∨
      (p.course events k).FailsToConnect n (events k) error := by
  funext error
  refine propext ⟨?_, ?_⟩
  · rintro ⟨j, before, fails⟩
    rcases Nat.lt_or_eq_of_le (Nat.le_of_lt_succ before) with earlier | rfl
    · exact .inl ⟨j, earlier, fails⟩
    · exact .inr fails
  · rintro (⟨j, before, fails⟩ | fails)
    · exact ⟨j, Nat.lt_succ_of_lt before, fails⟩
    · exact ⟨k, Nat.lt_succ_self k, fails⟩

/-- An endless run of possible events from an agent that nothing has happened to, in which activity
`n` begins to drive the connection by the event `begun`. -/
structure Driven (start : Connection) (p : Service MemoryChannel φ η)
    (events : Nat → Event MemoryChannel φ η) (n begun : Nat) : Prop where
  /-- Nothing is wrong at first. -/
  regular : p.Regular start []
  /-- Nobody drives the connection at first. -/
  unread : p.Unread []
  /-- The events are possible. -/
  possible : ∀ k, (p.course events k).Possible (events k)
  /-- The activity begins to drive the connection. -/
  begins : (p.course events begun).Begins n (events begun)

namespace Driven

variable {events : Nat → Event MemoryChannel φ η} {begun k j : Nat}

theorem regular_course (driven : p.Driven start events n begun) (k : Nat) :
    (p.course events k).Regular start (p.courseLog events k) := by
  induction k with
  | zero => exact driven.regular
  | succ k ih => exact ih.act (driven.possible k)

/-- A connection that is driven remains so. -/
theorem driven_course (later : k ≤ j) (here : (p.course events k).agent.driven = true) :
    (p.course events j).agent.driven = true := by
  induction later with
  | refl => exact here
  | step _ ih =>
      refine (driven_act fun m begins => ?_).trans ih
      have undriven := begins.2.2
      rw [ih] at undriven
      cases undriven

/-- Nobody has begun to drive the connection before. -/
theorem unread_course (driven : p.Driven start events n begun) (before : k ≤ begun) :
    (p.course events k).Unread (p.courseLog events k) := by
  induction k with
  | zero => exact driven.unread
  | succ k ih =>
      have unread := ih (Nat.le_of_succ_le before)
      have regular := driven.regular_course k
      refine unread.act regular (driven.possible k) fun m begins => ?_
      have undriven := driven.begins.2.2
      rw [driven_course before (unread.begin regular (driven.possible k) begins).driven] at undriven
      cases undriven

/-- The activity is the reader from then on. -/
theorem readBy_course (driven : p.Driven start events n begun) (after : begun < k) :
    (p.course events k).ReadBy n start.limit.toNat (p.HasFailed events n k)
      (p.courseLog events k) := by
  have regular := driven.regular_course
  induction k with
  | zero => exact absurd after (Nat.not_lt_zero _)
  | succ k ih =>
      rcases Nat.lt_or_ge begun k with later | now
      · rw [hasFailed_succ]
        exact (ih later).act (regular k) (driven.possible k)
      · obtain rfl : k = begun := Nat.le_antisymm now (Nat.le_of_lt_succ after)
        have unread := driven.unread_course (Nat.le_refl k)
        refine (unread.begin (regular k) (driven.possible k) driven.begins).congr fun error => ?_
        refine iff_of_false ?_ id
        rintro ⟨j, before, -, ⟨companions, found⟩, -⟩
        have unread := driven.unread_course (Nat.le_of_lt_succ before)
        cases unread.readers _ (mem_of_activity? found).1

/-- The activity is the reader at once. -/
theorem exists_readsAt_begun (driven : p.Driven start events n begun) :
    ∃ place, (p.course events (begun + 1)).ReadsAt n place := by
  obtain ⟨begins, found, undriven⟩ := driven.begins
  have known : n < (p.course events begun).fresh :=
    (driven.regular_course begun).tallies.counts.fresh _ (mem_of_activity? found).1
  obtain ⟨place, companions, reading⟩ :=
    Task.exists_beginsReading undriven (p.course events begun).fresh
  have after : p.course events (begun + 1) = _ :=
    (congrArg (p.course events begun).act begins).trans (step_of_running found)
  obtain ⟨aborted, here, spared⟩ := exists_mem_after_going reading.progress
  obtain rfl : aborted = false := spared fun asked =>
    Nat.lt_irrefl n (Nat.lt_of_lt_of_le known (reading.aborted n asked))
  exact ⟨place, companions, after ▸ here⟩

/-- It remains the reader until it returns, unless somebody gives it up. -/
theorem exists_readsAt (driven : p.Driven start events n begun) (after : begun < k)
    (kept : ∀ j, begun < j → j < k → events j ≠ .abort n) :
    (∃ place, (p.course events k).ReadsAt n place) ∨
      ∃ j result, begun < j ∧ j < k ∧ (p.course events j).Returns n (events j) result := by
  induction k with
  | zero => exact absurd after (Nat.not_lt_zero _)
  | succ k ih =>
      rcases Nat.lt_or_ge begun k with later | now
      · rcases ih later fun j past before => kept j past (Nat.lt_succ_of_lt before) with
          ⟨place, reads⟩ | ⟨j, result, past, before, returns⟩
        · have readBy := driven.readBy_course later
          have regular := driven.regular_course k
          by_cases own : events k = .step n
          · show (∃ place, ((p.course events k).act (events k)).ReadsAt n place) ∨ _
            cases readBy.readerStep regular.tallies.counts reads with
            | returns _ returns => exact .inr ⟨k, _, later, Nat.lt_succ_self k, own ▸ returns⟩
            | closes _ reads => exact .inl ⟨_, own ▸ reads⟩
            | proceeds _ reads => exact .inl ⟨_, own ▸ reads⟩
            | reopens _ _ reads => exact .inl ⟨_, own ▸ reads⟩
          · exact .inl ⟨place, readBy.stays regular reads own (kept k later (Nat.lt_succ_self k))⟩
        · exact .inr ⟨j, result, past, Nat.lt_succ_of_lt before, returns⟩
      · obtain rfl : k = begun := Nat.le_antisymm now (Nat.le_of_lt_succ after)
        exact .inl driven.exists_readsAt_begun

/-- As long as the connection is not given up and its first opening has not failed, it has not
decided how it ends. -/
theorem undecided_of_running (driven : p.Driven start events n begun) (after : begun < k)
    (running : (p.course events k).agent.isHalted = false)
    (connected : ∀ error, ¬ p.HasFailed events n k error) {place : Reader}
    (reads : (p.course events k).ReadsAt n place) : place.isClosing = false := by
  cases place with
  | closing result =>
      obtain ⟨companions, mem⟩ := reads
      have stands := ((driven.readBy_course after).placed _ mem).stands rfl
      have halted := (driven.regular_course k).halted_iff.mpr
        ((stands.decided result rfl).exists_givesUp connected)
      rw [running] at halted
      cases halted
  | _ => rfl

/-- What the activity returns is right. -/
theorem returned (driven : p.Driven start events n begun) (after : begun < k) {result : TaskResult}
    (returns : (p.course events k).Returns n (events k) result) :
    (p.course events (k + 1)).Returned start.limit.toNat (p.courseLog events (k + 1))
      (p.HasFailed events n (k + 1)) result := by
  rw [hasFailed_succ]
  exact (driven.readBy_course after).returned (driven.regular_course k) (driven.possible k) returns

end Driven

end Service

end RemoteAgent
