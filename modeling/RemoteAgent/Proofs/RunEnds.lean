import RemoteAgent.Proofs.Serving

/-!
# How driving a connection ends

`Service.run_ends` says how an activity that drives a connection returns, in any run over a channel
in memory: with what, in which state, and that it does return.

That it returns is shown with the connection given up.  The reader then comes nearer to its end by
each of its own steps (`Reader.stage`), unless it waits for the lock.  There it depends on others:
on the one who has the lock, which may have to wait for a pause to be over before it sees that there
is nothing left to do, and on those between.  With every step of the one at the head of the line the
measure `3 * place in line + what the head has before it` gets smaller (`Service.Waits.served`), and
no step of others makes it greater (`Service.Waits.stays`).

## Main definitions

* `Service.Waits`: the reader waits for the lock.
* `Service.Attended`: a run in which the reader is let come to its end.
* `Service.FirstRun`: what a host may count on who drives a connection.
-/

namespace RemoteAgent

variable {φ η : Type}

namespace Service

variable [ObjectModel φ η] {p : Service MemoryChannel φ η} {event : Event MemoryChannel φ η}
  {n limit : Nat} {start : Connection} {log : List Reconnect} {failed : TransportError → Prop}

/-! ## The reader in line -/

omit [ObjectModel φ η] in
theorem Possible.able (possible : p.Possible event) : p.Able event := by
  cases event with
  | step n => exact possible
  | _ => trivial

omit [ObjectModel φ η] in
theorem Regular.inOrder (regular : p.Regular start log) : p.InOrder start log :=
  ⟨regular.tallies, regular.linesUp⟩

/-- Over a connection that is given up no attempt is granted. -/
theorem Regular.no_grant (regular : p.Regular start log) (halted : p.agent.isHalted = true)
    (event : Event MemoryChannel φ η) : (p.reconnects event).countP Reconnect.isGranted = 0 := by
  have given : (Reconnect.replay start log).halted = true := regular.tallies.connection ▸ halted
  refine List.countP_eq_zero.mpr fun entry mem granted => ?_
  have silent := (regular.tallies.act event).lawful.silent given entry mem
  cases entry with
  | granted m => cases silent
  | _ => cases granted

/-- Activity `n`, the reader, is in line for the lock with `ahead` others before it, and `head` is
the one at the head. -/
structure Waits (p : Service MemoryChannel φ η) (n head ahead : Nat) (task : Task) : Prop where
  /-- The reader sees to the transport. -/
  reads : ∃ place, place.isInLine = true ∧ p.ReadsAt n (.reopening place)
  /-- It is in line. -/
  queues : p.QueuesUp n head ahead task

omit [ObjectModel φ η] in
theorem ReadsAt.mem_line (regular : p.Regular start log) {place : Reopening}
    (inLine : place.isInLine = true) (reads : p.ReadsAt n (.reopening place)) :
    n ∈ p.agent.reconnecting.line := by
  obtain ⟨companions, mem⟩ := reads
  exact (regular.linesUp.own regular.tallies.counts mem).mpr inLine

omit [ObjectModel φ η] in
/-- If the reader is in line, somebody is at the head of the line. -/
theorem exists_waits (regular : p.Regular start log) {place : Reopening}
    (inLine : place.isInLine = true) (reads : p.ReadsAt n (.reopening place)) :
    ∃ head task, p.Waits n head (p.agent.reconnecting.line.idxOf n) task := by
  obtain ⟨head, task, queues⟩ := regular.linesUp.exists_queues (reads.mem_line regular inLine)
  exact ⟨head, task, ⟨place, inLine, reads⟩, queues⟩

namespace Waits

variable {head ahead : Nat} {task : Task}

/-- What others do brings the reader no farther from the head of the line. -/
theorem stays (waits : p.Waits n head ahead task) (readBy : p.ReadBy n limit failed log)
    (regular : p.Regular start log) (possible : p.Possible event) (other : event ≠ .step head)
    (kept : event ≠ .abort n) : ∃ nearer ≤ ahead, (p.act event).Waits n head nearer task := by
  obtain ⟨⟨place, inLine, reads⟩, queues⟩ := waits
  have mine : event ≠ .step n := by
    rintro rfl
    obtain ⟨companions, mem⟩ := reads
    have first := queues.eq_head regular.linesUp regular.tallies.counts mem possible
    exact other (congrArg Event.step first)
  obtain ⟨nearer, less, queues⟩ := queues.stays regular.inOrder possible.able other mine
  exact ⟨nearer, less, ⟨place, inLine, readBy.stays regular reads mine kept⟩, queues⟩

/-- **The one at the head of the line moves it on.**  Over a connection that is given up, its step
brings the reader to its end or the line nearer to the reader. -/
theorem served (waits : p.Waits n head ahead task) (readBy : p.ReadBy n limit failed log)
    (regular : p.Regular start log) (possible : p.Possible (.step head))
    (halted : p.agent.isHalted = true) :
    (∃ result, (p.act (.step head)).ReadsAt n (.closing result)) ∨
      ∃ head' ahead' task', (p.act (.step head)).Waits n head' ahead' task' ∧
        3 * ahead' + task'.weight < 3 * ahead + task.weight := by
  obtain ⟨⟨place, inLine, reads⟩, queues⟩ := waits
  have counts := regular.tallies.counts
  -- The reader ends, or is in line still.
  have goesOn : (∃ result, (p.act (.step head)).ReadsAt n (.closing result)) ∨
      ∃ next, next.isInLine = true ∧ (p.act (.step head)).ReadsAt n (.reopening next) := by
    by_cases own : head = n
    · subst own
      cases readBy.readerStep counts reads with
      | returns closing => cases closing
      | closes _ reads => exact .inl ⟨_, reads⟩
      | proceeds _ reads nearer =>
          have nearer := nearer halted
          simp [Reader.stage, inLine] at nearer
      | reopens _ stepped reads =>
          exact .inr ⟨_, Reopening.isInLine_of_going (congrArg Prod.fst stepped), reads⟩
    · exact .inr ⟨place, inLine,
        readBy.stays regular reads (fun same => own (Event.step.inj same)) nofun⟩
  refine goesOn.imp_right fun ⟨next, inLine, reads⟩ => ?_
  have memAfter := reads.mem_line (regular.act possible) inLine
  obtain ⟨head', ahead', task', queues, lighter⟩ :=
    queues.served regular.inOrder possible.able memAfter
  rw [regular.no_grant halted] at lighter
  exact ⟨head', ahead', task', ⟨⟨next, inLine, reads⟩, queues⟩, lighter⟩

end Waits

/-! ## The reader comes to its end -/

/-- Activity `n` returns a result after it has begun. -/
def Finishes (p : Service MemoryChannel φ η) (events : Nat → Event MemoryChannel φ η)
    (n begun : Nat) : Prop :=
  ∃ k result, begun < k ∧ (p.course events k).Returns n (events k) result

/-- A run in which the connection is driven to the end: the host does not give up who drives it, and
nobody is kept from its step for ever. -/
structure Attended (start : Connection) (p : Service MemoryChannel φ η)
    (events : Nat → Event MemoryChannel φ η) (n begun : Nat) : Prop
    extends p.Driven start events n begun where
  /-- The host does not give the reader up. -/
  kept : ∀ k, begun < k → events k ≠ .abort n
  /-- Nobody is kept from its step for ever. -/
  fair : p.Fair events

namespace Attended

variable {events : Nat → Event MemoryChannel φ η} {begun k : Nat}

/-- A reader that can take a step takes one. -/
theorem exists_step (attended : p.Attended start events n begun) (after : begun < k)
    {place : Reader} (reads : (p.course events k).ReadsAt n place)
    (ready : ∀ j, k ≤ j → ∀ companions,
      (Task.reader place companions).isReady (p.course events j).agent n = true) :
    ∃ j, k ≤ j ∧ (p.course events j).ReadsAt n place ∧ events j = .step n := by
  have stays : ∀ j, k ≤ j → (p.course events j).ReadsAt n place → events j ≠ .step n →
      (p.course events (j + 1)).ReadsAt n place := by
    intro j later reads other
    have past : begun < j := Nat.lt_of_lt_of_le after later
    exact (attended.readBy_course past).stays (attended.regular_course j) reads other
      (attended.kept j past)
  have able : ∀ j, k ≤ j → (p.course events j).ReadsAt n place →
      0 ≤ (p.course events j).agent.link.timer → (p.course events j).isReady n = true := by
    rintro j later ⟨companions, mem⟩ -
    unfold isReady
    rw [activity?_of_mem (attended.regular_course j).tallies.counts mem]
    exact ready j later companions
  exact attended.fair.exists_step stays able reads

/-- A reader that has decided how it ends comes to its end. -/
theorem finishes_of_closing (attended : p.Attended start events n begun) (after : begun < k)
    {result : Except AgentError Unit} (reads : (p.course events k).ReadsAt n (.closing result)) :
    p.Finishes events n begun := by
  obtain ⟨j, later, reads, own⟩ := attended.exists_step after reads fun _ _ _ => rfl
  have after : begun < j := Nat.lt_of_lt_of_le after later
  have counts := (attended.regular_course j).tallies.counts
  cases (attended.readBy_course after).readerStep counts reads with
  | returns _ returns => exact ⟨j, _, after, own ▸ returns⟩
  | closes undecided => cases undecided
  | proceeds undecided => cases undecided
  | reopens at_ => cases at_

/-- While the reader waits, the one at the head of the line takes its step at last. -/
theorem exists_step_of_waits (attended : p.Attended start events n begun) (after : begun < k)
    {head ahead : Nat} {task : Task} (waits : (p.course events k).Waits n head ahead task) :
    ∃ j, k ≤ j ∧ (∃ nearer ≤ ahead, (p.course events j).Waits n head nearer task) ∧
      events j = .step head := by
  refine attended.fair.exists_step (fun j later state other => ?_)
    (fun j _ ⟨_, _, waits⟩ passed => waits.queues.isReady (attended.regular_course j).linesUp
      (attended.regular_course j).tallies.counts passed)
    ⟨ahead, Nat.le_refl ahead, waits⟩
  obtain ⟨nearer, less, waits⟩ := state
  have past : begun < j := Nat.lt_of_lt_of_le after later
  obtain ⟨nearest, least, waits⟩ := waits.stays (attended.readBy_course past)
    (attended.regular_course j) (attended.possible j) other (attended.kept j past)
  exact ⟨nearest, Nat.le_trans least less, waits⟩

/-- **A reader in line comes to its end.**  The induction is on what is before it. -/
theorem finishes_of_waits (attended : p.Attended start events n begun) (after : begun < k)
    (halted : (p.course events k).agent.isHalted = true) {head ahead : Nat} {task : Task}
    (waits : (p.course events k).Waits n head ahead task) : p.Finishes events n begun := by
  induction measure : 3 * ahead + task.weight using Nat.strongRecOn
    generalizing k head ahead task with
  | ind before ih =>
      obtain ⟨j, later, ⟨nearer, less, waits⟩, own⟩ := attended.exists_step_of_waits after waits
      have after : begun < j := Nat.lt_of_lt_of_le after later
      have halted := halted_course halted later
      have possible := attended.possible j
      rw [own] at possible
      have next := course_succ_of (p := p) own
      rcases waits.served (attended.readBy_course after) (attended.regular_course j) possible halted
        with ⟨result, reads⟩ | ⟨head', ahead', task', waits, lighter⟩
      · exact attended.finishes_of_closing (Nat.lt_succ_of_lt after) (next ▸ reads)
      · exact ih _ (by omega) (Nat.lt_succ_of_lt after) (halted_course halted (Nat.le_succ j))
          (next ▸ waits) rfl

/-- **Over a connection that is given up the reader comes to its end.**  The induction is on how far
it is from there. -/
theorem finishes_of_halted (attended : p.Attended start events n begun) (after : begun < k)
    (halted : (p.course events k).agent.isHalted = true) {place : Reader}
    (reads : (p.course events k).ReadsAt n place) : p.Finishes events n begun := by
  induction stage : place.stage using Nat.strongRecOn generalizing k place with
  | ind stage ih =>
      have signal : ∀ j, k ≤ j → (p.course events j).agent.haltSignal = true := by
        intro j later
        have regular := attended.regular_course j
        obtain ⟨entry, mem, given⟩ := regular.halted_iff.mp (halted_course halted later)
        exact regular.signal entry mem given
      by_cases inLine : ∃ reopening, place = .reopening reopening ∧ reopening.isInLine = true
      · obtain ⟨reopening, rfl, inLine⟩ := inLine
        obtain ⟨head, task, waits⟩ := exists_waits (attended.regular_course k) inLine reads
        exact attended.finishes_of_waits after halted waits
      · have ready : ∀ j, k ≤ j → ∀ companions,
            (Task.reader place companions).isReady (p.course events j).agent n = true := by
          intro j later companions
          cases place with
          | receiving => exact Bool.or_eq_true_iff.mpr (.inl (signal j later))
          | reopening reopening =>
              cases reopening with
              | requesting => rfl
              | _ => exact absurd ⟨_, rfl, rfl⟩ inLine
          | _ => rfl
        obtain ⟨j, later, reads, own⟩ := attended.exists_step after reads ready
        have after : begun < j := Nat.lt_of_lt_of_le after later
        have next := course_succ_of (p := p) own
        have halted := halted_course halted later
        have haltedNext := halted_course halted (Nat.le_succ j)
        have counts := (attended.regular_course j).tallies.counts
        cases (attended.readBy_course after).readerStep counts reads with
        | returns _ returns => exact ⟨j, _, after, own ▸ returns⟩
        | closes _ reads =>
            exact attended.finishes_of_closing (Nat.lt_succ_of_lt after) (next ▸ reads)
        | proceeds _ reads nearer =>
            exact ih _ (stage ▸ nearer halted) (Nat.lt_succ_of_lt after) haltedNext
              (next ▸ reads) rfl
        | reopens _ stepped reads =>
            obtain ⟨head, task, waits⟩ := exists_waits (attended.regular_course (j + 1))
              (Reopening.isInLine_of_going (congrArg Prod.fst stepped)) (next ▸ reads)
            exact attended.finishes_of_waits (Nat.lt_succ_of_lt after) haltedNext waits

/-- **The reader comes to its end**, if the connection is given up or its first opening fails. -/
theorem finishes (attended : p.Attended start events n begun) {k : Nat}
    (ends : (p.course events k).agent.isHalted = true ∨ ∃ error, p.HasFailed events n k error) :
    p.Finishes events n begun := by
  have later : begun < max k (begun + 1) := Nat.lt_of_succ_le (Nat.le_max_right ..)
  rcases attended.exists_readsAt later fun j past _ => attended.kept j past with
    ⟨place, reads⟩ | ⟨j, result, past, -, returns⟩
  · rcases ends with halted | ⟨error, j, before, failed⟩
    · exact attended.finishes_of_halted later (halted_course halted (Nat.le_max_left ..)) reads
    · have failed : p.HasFailed events n (max k (begun + 1)) error :=
        ⟨j, Nat.lt_of_lt_of_le before (Nat.le_max_left ..), failed⟩
      obtain ⟨companions, mem⟩ := reads
      have stands := ((attended.readBy_course later).placed _ mem).stands rfl
      cases place with
      | closing result => exact attended.finishes_of_closing later ⟨companions, mem⟩
      | _ => exact absurd failed (stands.connected rfl error)
  · exact ⟨j, result, past, returns⟩

end Attended

/-! ## What a host may count on -/

/-- What a host may count on that lets activity `n` drive a connection, in a run in which it begins
with the event `begun`. -/
structure FirstRun (limit : Nat) (p : Service MemoryChannel φ η)
    (events : Nat → Event MemoryChannel φ η) (n begun : Nat) : Prop where
  /-- The connection is given up if the host halts it or if an attempt is refused, and not
  otherwise, whatever comes in and whatever fails. -/
  halts : ∀ k, (p.course events k).agent.isHalted = true ↔
    .halted ∈ p.courseLog events k ∨ ∃ m, .refused m ∈ p.courseLog events k
  /-- As long as the connection is not given up, its first opening has not failed and nobody gives
  the activity up, it reads on. -/
  lasts : ∀ k, begun < k → (∀ j, begun < j → j < k → events j ≠ .abort n) →
    (p.course events k).agent.isHalted = false → (∀ error, ¬ p.HasFailed events n k error) →
      ∃ place, (p.course events k).ReadsAt n place ∧ place.isClosing = false
  /-- If it returns, it returns what it should. -/
  ends : ∀ k result, begun < k → (p.course events k).Returns n (events k) result →
    (p.course events (k + 1)).Returned limit (p.courseLog events (k + 1))
      (p.HasFailed events n (k + 1)) result
  /-- It does return when it should, if the run is fair and nobody gives the activity up. -/
  returns : p.Fair events → (∀ k, begun < k → events k ≠ .abort n) →
    (∃ k, (p.course events k).agent.isHalted = true ∨ ∃ error, p.HasFailed events n k error) →
      p.Finishes events n begun

namespace Driven

variable {events : Nat → Event MemoryChannel φ η} {begun : Nat}

theorem firstRun (driven : p.Driven start events n begun) :
    p.FirstRun start.limit.toNat events n begun where
  halts k := by
    rw [(driven.regular_course k).halted_iff]
    constructor
    · rintro ⟨entry, mem, given⟩
      cases entry with
      | halted => exact .inl mem
      | refused m => exact .inr ⟨m, mem⟩
      | _ => cases given
    · rintro (mem | ⟨m, mem⟩)
      · exact ⟨_, mem, rfl⟩
      · exact ⟨_, mem, rfl⟩
  lasts k after kept running connected := by
    rcases driven.exists_readsAt after kept with ⟨place, reads⟩ | ⟨j, result, past, before, returns⟩
    · exact ⟨place, reads, driven.undecided_of_running after running connected reads⟩
    · have halted := (driven.returned past returns).halted fun error ⟨i, earlier, failed⟩ =>
        connected error ⟨i, Nat.lt_of_lt_of_le earlier before, failed⟩
      rw [halted_course halted before] at running
      cases running
  ends k result after returns := driven.returned after returns
  returns fair kept := fun ⟨k, ends⟩ => Attended.finishes ⟨driven, kept, fair⟩ ends

end Driven

/-- **How driving a connection ends.**  Over a channel in memory, whatever the far end does with it
and whoever else sends or sees to the transport, the first activity that drives the connection
returns the error of the first opening if that fails, and otherwise does not return before the
connection is given up; then it names the limit if the budget of attempts was exceeded, and returns
without an error if the host halted the connection.  It leaves the channel closed. -/
theorem run_ends (config : Config) (channel : MemoryChannel) (root : Value) (world : World φ η)
    (reconnectId : String) (below : config.reconnectLimit.toNat < UInt32.size - 1)
    {events : Nat → Event MemoryChannel φ η}
    (possible : ∀ k,
      ((ofAgent (.new config channel root world reconnectId)).course events k).Possible (events k))
    {n begun : Nat}
    (begins : ((ofAgent (.new config channel root world reconnectId)).course events begun).Begins n
      (events begun)) :
    (ofAgent (.new config channel root world reconnectId)).FirstRun config.reconnectLimit.toNat
      events n begun := by
  have driven : (ofAgent (.new config channel root world reconnectId)).Driven _ events n begun :=
    ⟨regular_ofAgent ⟨rfl, below⟩ rfl rfl, unread_ofAgent rfl, possible, begins⟩
  exact driven.firstRun

/-! ### A reader that others leave without attempts -/

/-- An agent that may try once to open its transport again. -/
def onceMore : Service MemoryChannel Console.Method Empty :=
  .ofAgent (.new { Config.default with reconnectLimit := 1 } .new .null .empty "id")

/-- The host drives the connection by activity 0, which opens the channel and waits for a frame.
Activity 2 is a caller: when the channel breaks and the far end refuses to be opened, it gets the
lock first and uses up the attempts, while the reader waits for the lock.  The reader finds the
connection given up, and ends, and takes its writer with it. -/
def deserted : List (Event MemoryChannel Console.Method Empty) :=
  [.call .run, .step 0, .step 0, .step 0, .call .reopen,
    .channel { MemoryChannel.new with refusing := true }, .step 2, .step 0, .step 0, .time 1000 0,
    .step 2, .step 2, .step 0, .step 0, .step 1]

/-- Then nothing happens any more, and time goes on. -/
def deserting (k : Nat) : Event MemoryChannel Console.Method Empty :=
  deserted[k]?.getD (.time k 0)

theorem deserting_of_le {k : Nat} (late : 15 ≤ k) : deserting k = .time k 0 := by
  unfold deserting
  rw [List.getElem?_eq_none (show deserted.length ≤ k from late)]
  rfl

theorem possible_deserting (k : Nat) : (onceMore.course deserting k).Possible (deserting k) := by
  rcases Nat.lt_or_ge k 15 with early | late
  · have all : ∀ k < 15, (onceMore.course deserting k).Possible (deserting k) := by decide +kernel
    exact all k early
  · rw [deserting_of_le late]
    trivial

theorem fair_deserting : onceMore.Fair deserting :=
  fair_of_quiet 15 (List.isEmpty_iff.mp (by decide +kernel)) fun _ late =>
    ⟨0, deserting_of_le late⟩

theorem run_ends_deserting :
    (∀ k, (onceMore.course deserting k).Possible (deserting k)) ∧
      (onceMore.course deserting 1).Begins 0 (deserting 1) ∧
      onceMore.FirstRun 1 deserting 0 1 ∧
      onceMore.courseLog deserting 12 = [.granted 2, .opened 2, .refused 2] ∧
      (onceMore.course deserting 13).Returns 0 (deserting 13)
        (.error (.transport (.reconnectLimit 1))) ∧
      onceMore.Fair deserting := by
  have begins : (onceMore.course deserting 1).Begins 0 (deserting 1) := ⟨rfl, rfl, rfl⟩
  have firstRun := run_ends { Config.default with reconnectLimit := 1 } .new .null .empty "id"
    (by decide) possible_deserting begins
  exact ⟨possible_deserting, begins, firstRun, by decide +kernel, rfl, fair_deserting⟩

end Service

end RemoteAgent
