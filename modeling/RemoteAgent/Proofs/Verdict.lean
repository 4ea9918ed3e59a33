import RemoteAgent.Proofs.Exhaustion

/-!
# How the reader ends

There is one reader at most, since a connection can be driven once.  This module follows it from the
step in which it begins.  As long as it has not decided how it ends, the attempts are used up as
soon as one is refused, and so the counter tells it what has happened (`Service.ReadBy.act`).  What
it has decided stays right whatever happens afterwards: the connection is given up by then, and no
more attempts are recorded (`Verdict.append`).

## Main definitions

* `Verdict`: how a reader ends, by the log of the run.
* `Service.FailsToConnect`: the first opening fails.
* `Service.Unread`, `Service.ReadBy`: the invariants before and after the reader begins.
-/

namespace RemoteAgent

variable {τ φ η : Type}

/-! ## Verdicts -/

/-- How a reader ends, by the log of the run and the errors with which its first opening failed. -/
inductive Verdict (limit : Nat) (log : List Reconnect) (failed : TransportError → Prop) :
    Except AgentError Unit → Prop
  /-- The first opening failed, with this error. -/
  | failed {error : TransportError} (fails : ∀ other, failed other ↔ other = error) :
      Verdict limit log failed (.error (.transport error))
  /-- The budget of attempts was exceeded, by whomever. -/
  | refused (connected : ∀ error, ¬ failed error) (refused : ∃ m, .refused m ∈ log) :
      Verdict limit log failed (.error (.transport (.reconnectLimit limit)))
  /-- The host halted the connection, and the budget was not exceeded. -/
  | halted (connected : ∀ error, ¬ failed error) (granted : ∀ m, .refused m ∉ log)
      (halted : .halted ∈ log) : Verdict limit log failed (.ok ())

namespace Verdict

variable {limit : Nat} {log : List Reconnect} {failed : TransportError → Prop}
  {result : Except AgentError Unit}

/-- A reader whose first opening did not fail ends over a connection that is given up. -/
theorem exists_givesUp (verdict : Verdict limit log failed result)
    (connected : ∀ error, ¬ failed error) : ∃ entry ∈ log, entry.givesUp = true := by
  cases verdict with
  | failed fails => exact absurd ((fails _).mpr rfl) (connected _)
  | refused _ refused =>
      obtain ⟨m, mem⟩ := refused
      exact ⟨_, mem, rfl⟩
  | halted _ _ halted => exact ⟨_, halted, rfl⟩

/-- **A verdict stays right**, since no attempts are recorded after the connection is given up. -/
theorem append {start : Connection} {entries : List Reconnect}
    (lawful : Reconnect.Lawful start (log ++ entries)) (verdict : Verdict limit log failed result) :
    Verdict limit (log ++ entries) failed result := by
  cases verdict with
  | failed fails => exact .failed fails
  | refused connected refused =>
      obtain ⟨m, mem⟩ := refused
      exact .refused connected ⟨m, List.mem_append_left _ mem⟩
  | halted connected granted halted =>
      have given : (Reconnect.replay start log).halted = true :=
        Reconnect.halted_replay_iff.mpr (.inr ⟨_, halted, rfl⟩)
      refine .halted connected (fun m mem => ?_) (List.mem_append_left _ halted)
      rcases List.mem_append.mp mem with old | new
      · exact granted m old
      · cases lawful.silent given _ new

theorem congr {other : TransportError → Prop} (verdict : Verdict limit log failed result)
    (same : ∀ error, other error ↔ failed error) : Verdict limit log other result := by
  obtain rfl : other = failed := funext fun error => propext (same error)
  exact verdict

end Verdict

/-! ## Who drives -/

namespace Task

/-- Whether an activity is a reader. -/
def isReader : Task → Bool
  | reader _ _ => true
  | _ => false

/-- A bystander is no reader. -/
theorem isReader_of_isBystander {task : Task} (bystander : task.isBystander = true) :
    task.isReader = false := by
  cases task with
  | reader => cases bystander
  | _ => rfl

variable [Transport τ] [ObjectModel φ η] {agent : Agent τ φ η}

/-- Only who begins to drive the connection changes whether somebody does. -/
theorem driven_step (n fresh : Nat) {task : Task} (other : task ≠ .run) :
    (task.step agent n fresh).2.driven = agent.driven := by
  cases elsewhere : task.reopening? with
  | some place =>
      have reopens : Reopens agent n place (task.step agent n fresh) := reopens_step elsewhere
      rw [reopens.agent]
      exact (place.spares_step agent n).1
  | none =>
      have apart : Apart agent (task.step agent n fresh) := apart_step n fresh elsewhere other
      exact apart.steady.driven

end Task

namespace Service

section Driven

variable [Transport τ] [ObjectModel φ η] {p : Service τ φ η} {event : Event τ φ η} {n : Nat}

/-- Activity `n` begins to drive a connection that nobody drives. -/
def Begins (p : Service τ φ η) (n : Nat) (event : Event τ φ η) : Prop :=
  event = .step n ∧ p.activity? n = some ⟨n, .run, false⟩ ∧ p.agent.driven = false

/-- A connection is driven from then on, and not before. -/
theorem driven_act (calm : ∀ n, ¬ p.Begins n event) :
    (p.act event).agent.driven = p.agent.driven := by
  cases event with
  | step n =>
      refine agent_step (P := fun agent => agent.driven = p.agent.driven) rfl
        (fun task => (task.spares_abandon p.agent n).1) fun task found => ?_
      by_cases driving : task = .run
      · subst driving
        have driven : p.agent.driven = true := by
          by_contra undriven
          exact calm n ⟨rfl, found, Bool.not_eq_true _ ▸ undriven⟩
        show (Task.startReading p.agent p.fresh).2.driven = p.agent.driven
        rw [Task.startReading_of_driven driven]
      · exact Task.driven_step n p.fresh driving
  | _ => rfl

end Driven

variable {p : Service MemoryChannel φ η} {event : Event MemoryChannel φ η} {n limit : Nat}
  {start : Connection} {log : List Reconnect} {failed : TransportError → Prop}

/-- The first opening by activity `n`, its reader, fails with an error. -/
def FailsToConnect (p : Service MemoryChannel φ η) (n : Nat) (event : Event MemoryChannel φ η)
    (error : TransportError) : Prop :=
  event = .step n ∧
    (∃ companions, p.activity? n = some ⟨n, .reader .connecting companions, false⟩) ∧
      p.agent.openTransport.1 = .error error

/-- Only a reader that is at its first opening can fail with it. -/
theorem FailsToConnect.opening {place : Reader} {companions : List Nat} {error : TransportError}
    (found : p.activity? n = some ⟨n, .reader place companions, false⟩)
    (fails : p.FailsToConnect n event error) :
    place = .connecting ∧ p.agent.openTransport.1 = .error error := by
  obtain ⟨-, ⟨others, here⟩, fails⟩ := fails
  rw [found] at here
  obtain ⟨rfl, -⟩ := Task.reader.inj (congrArg Activity.task (Option.some.inj here))
  exact ⟨rfl, fails⟩

/-- Only a reader that is at its first opening can do it. -/
theorem Connects.opening {place : Reader} {companions : List Nat}
    (found : p.activity? n = some ⟨n, .reader place companions, false⟩)
    (connects : p.Connects (.step n)) : place = .connecting := by
  obtain ⟨m, others, same, here⟩ := connects
  obtain rfl := Event.step.inj same
  rw [found] at here
  exact (Task.reader.inj (congrArg Activity.task (Option.some.inj here))).1

/-- Where a reader stands: it has decided and its verdict is right, or it has not, and then it will
find out. -/
structure Stands (limit : Nat) (failed : TransportError → Prop) (log : List Reconnect)
    (p : Service MemoryChannel φ η) (place : Reader) : Prop where
  /-- What it has decided is right. -/
  decided : ∀ result, place = .closing result → Verdict limit log failed result
  /-- Its first opening has not failed, or it would have decided. -/
  connected : place.isClosing = false → ∀ error, ¬ failed error
  /-- It will see an attempt that was refused. -/
  spent : place.isClosing = false → (∃ m, .refused m ∈ log) → p.Spent

/-- Nobody drives the connection yet. -/
structure Unread (log : List Reconnect) (p : Service MemoryChannel φ η) : Prop where
  /-- Nobody has begun. -/
  undriven : p.agent.driven = false
  /-- So there is no reader. -/
  readers : ∀ activity ∈ p.activities, activity.task.isReader = false
  /-- Whoever will be the reader will see an attempt that was refused. -/
  spent : (∃ m, .refused m ∈ log) → p.Spent

theorem unread_ofAgent {agent : Agent MemoryChannel φ η} (undriven : agent.driven = false) :
    (ofAgent agent).Unread [] :=
  ⟨undriven, nofun, nofun⟩

/-- Where an activity may be if activity `n` is the reader. -/
structure Placed (n limit : Nat) (failed : TransportError → Prop) (log : List Reconnect)
    (p : Service MemoryChannel φ η) (number : Nat) (task : Task) : Prop where
  /-- Nobody else is a reader. -/
  reader : number = n ↔ task.isReader = true
  /-- The reader does not take itself along when it ends. -/
  companions : ∀ {place companions}, task = .reader place companions → n ∉ companions
  /-- The reader stands where it should. -/
  stands : ∀ {place companions}, task = .reader place companions → p.Stands limit failed log place

/-- Others may be anywhere. -/
theorem Placed.of_not_reader {number : Nat} {task : Task} (other : number ≠ n)
    (apart : task.isReader = false) : p.Placed n limit failed log number task where
  reader := ⟨fun same => absurd same other, fun reads => by rw [reads] at apart; cases apart⟩
  companions here := by
    rw [here] at apart
    cases apart
  stands here := by
    rw [here] at apart
    cases apart

/-- The reader is where it may be if it stands where it should. -/
theorem Placed.of_reader {place : Reader} {companions : List Nat} (apart : n ∉ companions)
    (stands : p.Stands limit failed log place) :
    p.Placed n limit failed log n (.reader place companions) where
  reader := ⟨fun _ => rfl, fun _ => rfl⟩
  companions same := by
    obtain ⟨-, rfl⟩ := Task.reader.inj same
    exact apart
  stands same := by
    obtain ⟨rfl, -⟩ := Task.reader.inj same
    exact stands

/-- Activity `n` has begun to drive the connection. -/
structure ReadBy (n limit : Nat) (failed : TransportError → Prop) (log : List Reconnect)
    (p : Service MemoryChannel φ η) : Prop where
  /-- The connection is driven. -/
  driven : p.agent.driven = true
  /-- The number is used up. -/
  known : n < p.fresh
  /-- The activities are where they may be. -/
  placed : ∀ activity ∈ p.activities, p.Placed n limit failed log activity.number activity.task

namespace Stands

variable [ObjectModel φ η] {place : Reader} {companions : List Nat}

omit [ObjectModel φ η] in
theorem of_verdict {result : Except AgentError Unit} (verdict : Verdict limit log failed result) :
    p.Stands limit failed log (.closing result) where
  decided _ same := Reader.closing.inj same ▸ verdict
  connected := nofun
  spent := nofun

omit [ObjectModel φ η] in
theorem of_undecided (undecided : place.isClosing = false) (connected : ∀ error, ¬ failed error)
    (spent : (∃ m, .refused m ∈ log) → p.Spent) : p.Stands limit failed log place where
  decided result closing := by
    rw [closing] at undecided
    cases undecided
  connected _ := connected
  spent _ := spent

/-- A reader that others take steps around stands where it stood. -/
theorem keep (regular : p.Regular start log) (possible : p.Possible event)
    (calm : ¬ p.Connects event) (others : ∀ error, ¬ p.FailsToConnect n event error)
    (stands : p.Stands limit failed log place) :
    (p.act event).Stands limit (fun error => failed error ∨ p.FailsToConnect n event error)
      (log ++ p.reconnects event) place where
  decided result closing := by
    refine ((stands.decided result closing).append (regular.tallies.act event).lawful).congr ?_
    exact fun error => or_iff_left (others error)
  connected undecided error fails :=
    fails.elim (stands.connected undecided error) (others error)
  spent undecided := regular.spent_act possible calm (stands.spent undecided)

omit [ObjectModel φ η] in
/-- What the reader finds when it sees that the connection is given up is right. -/
theorem decides (regular : p.Regular start log)
    (stands : p.Stands start.limit.toNat failed log place) (undecided : place.isClosing = false)
    {agent : Agent MemoryChannel φ η} (connection : agent.connection = p.agent.connection)
    (halted : agent.isHalted = true) :
    Verdict start.limit.toNat log failed agent.haltResult := by
  have tallies := regular.tallies
  have connected := stands.connected undecided
  unfold Agent.haltResult
  rw [connection, regular.limit_eq]
  split
  · next exhausted =>
      rw [← tallies.connection] at exhausted
      exact .refused connected (tallies.lawful.exists_refused regular.fresh exhausted)
  · next within =>
      have granted : ∀ m, .refused m ∉ log := fun m mem =>
        within (stands.spent undecided ⟨m, mem⟩).exhausted
      have given : p.agent.isHalted = true :=
        (congrArg Connection.halted connection).symm.trans halted
      obtain ⟨entry, mem, givesUp⟩ := regular.halted_iff.mp given
      cases entry with
      | halted => exact .halted connected granted mem
      | refused m => exact absurd mem (granted m)
      | _ => cases givesUp

/-- A reader that takes a step stands where the step has taken it. -/
theorem step (regular : p.Regular start log) (possible : p.Possible (.step n))
    (found : p.activity? n = some ⟨n, .reader place companions, false⟩)
    (stands : p.Stands start.limit.toNat failed log place) {task : Task}
    (going : (Task.stepReader p.agent n companions place).1.progress = .going task) :
    ∃ next, task = .reader next companions ∧
      (p.act (.step n)).Stands start.limit.toNat
        (fun error => failed error ∨ p.FailsToConnect n (.step n) error)
        (log ++ p.reconnects (.step n)) next := by
  have entries : p.reconnects (.step n) = (Task.reader place companions).reconnects p.agent n :=
    stepReconnects_of_running found
  have lawful := (regular.tallies.act (.step n)).lawful
  have connected : place.isClosing = false →
      (place = .connecting → p.agent.openTransport.1 = .ok ()) →
        ∀ error, ¬ (failed error ∨ p.FailsToConnect n (.step n) error) := by
    rintro undecided opens error (fails | fails)
    · exact stands.connected undecided error fails
    · obtain ⟨here, fails⟩ := fails.opening found
      rw [opens here] at fails
      cases fails
  have turn : Reader.Turn p.agent n companions place
      (Task.stepReader p.agent n companions place) := Reader.turn_step place
  generalize Task.stepReader p.agent n companions place = stepped at turn going
  cases turn with
  | @fails error after fails =>
      cases going
      refine ⟨_, rfl, .of_verdict (.failed fun other => ⟨fun again => ?_, fun same => ?_⟩)⟩
      · obtain ⟨-, here⟩ := (again.resolve_left (stands.connected rfl other)).opening found
        exact Except.error.inj (here.symm.trans fails)
      · exact .inr ⟨rfl, ⟨companions, found⟩, same ▸ fails⟩
  | decides undecided opens quiet connection halted =>
      cases going
      have verdict := stands.decides regular undecided connection halted
      refine ⟨_, rfl, .of_verdict ((verdict.append lawful).congr fun error => or_iff_left ?_)⟩
      exact fun fails => connected undecided opens error (.inr fails)
  | proceeds undecided goesOn opens quiet nearer =>
      cases going
      have spent := stands.spent undecided
      refine ⟨_, rfl, .of_undecided goesOn (connected undecided fun here => (opens here).1) ?_⟩
      intro refused
      refine regular.spent_act possible (fun connects => ?_) spent refused
      -- Over a connection that is given up the first opening is the last thing that is done.
      have here := connects.opening found
      obtain ⟨m, mem⟩ := refused
      rcases List.mem_append.mp mem with old | new
      · have halted := (spent ⟨m, old⟩).halted
        rw [(opens here).2] at halted
        cases halted
      · rw [entries] at new
        exact quiet m new
  | reopens stepped =>
      cases going
      refine ⟨_, rfl, .of_undecided rfl (connected rfl nofun)
        (regular.spent_act possible (fun connects => ?_) (stands.spent rfl))⟩
      cases connects.opening found
  | @refused place after stepped =>
      cases going
      have refused : .refused n ∈ p.reconnects (.step n) := by
        rw [entries]
        exact (place.step_eq_reconnectLimit_iff.mp (congrArg Prod.fst stepped)).2
      rw [regular.limit_eq]
      exact ⟨_, rfl, .of_verdict
        (.refused (connected rfl nofun) ⟨n, List.mem_append_right _ refused⟩)⟩
  | closes => cases going

end Stands

section Steps

variable [ObjectModel φ η]

omit [ObjectModel φ η] in
/-- Without a reader nobody opens the channel for the first time. -/
theorem Unread.not_connects (unread : p.Unread log) : ¬ p.Connects event := by
  rintro ⟨m, companions, -, found⟩
  cases unread.readers _ (mem_of_activity? found).1

/-- **The step lemma before the reader begins.** -/
theorem Unread.act (unread : p.Unread log) (regular : p.Regular start log)
    (possible : p.Possible event) (calm : ∀ n, ¬ p.Begins n event) :
    (p.act event).Unread (log ++ p.reconnects event) where
  undriven := (driven_act calm).trans unread.undriven
  readers := by
    refine forall_act (P := fun _ task => task.isReader = false)
      (fun activity mem _ => unread.readers activity mem) (fun call _ => ?_)
      fun m task stepped mem => ?_
    · cases call <;> rfl
    · by_cases bystander : task.isBystander = true
      · have bystands := Task.bystands_step p.agent m p.fresh bystander
        exact ⟨fun next going => Task.isReader_of_isBystander (bystands.next next going),
          by simp [bystands.started]⟩
      · cases task with
        | run =>
            have found := activity?_of_mem regular.tallies.counts mem
            exact absurd ⟨stepped, found, unread.undriven⟩ (calm m)
        | reader => cases unread.readers _ mem
        | connect => exact absurd rfl (regular.unconnecting _ mem)
        | _ => exact absurd rfl bystander
  spent := regular.spent_act possible unread.not_connects unread.spent

/-- Where the reader begins it stands where it should: if it ends at once, then by what it finds. -/
theorem Unread.stands_begin (unread : p.Unread log) (regular : p.Regular start log)
    (possible : p.Possible event) {place : Reader}
    (decided : place = .closing p.agent.haltResult ∧ p.agent.isHalted = true ∨
      place.isClosing = false) :
    (p.act event).Stands start.limit.toNat (fun _ => False) (log ++ p.reconnects event) place := by
  rcases decided with ⟨rfl, halted⟩ | undecided
  · have stands : p.Stands start.limit.toNat (fun _ => False) log .connecting :=
      .of_undecided rfl (fun _ => id) unread.spent
    exact .of_verdict ((stands.decides regular rfl rfl halted).append
      (regular.tallies.act event).lawful)
  · exact .of_undecided undecided (fun _ => id)
      (regular.spent_act possible unread.not_connects unread.spent)

/-- **The step with which the reader begins.** -/
theorem Unread.begin (unread : p.Unread log) (regular : p.Regular start log)
    (possible : p.Possible event) (begins : p.Begins n event) :
    (p.act event).ReadBy n start.limit.toNat (fun _ => False) (log ++ p.reconnects event) := by
  obtain ⟨rfl, found, undriven⟩ := begins
  have known : n < p.fresh := regular.tallies.counts.fresh _ (mem_of_activity? found).1
  have new : ∀ {m : Nat}, p.fresh ≤ m → m ≠ n := fun above =>
    Nat.ne_of_gt (Nat.lt_of_lt_of_le known above)
  obtain ⟨place, companions, begins⟩ := Task.exists_beginsReading undriven p.fresh
  refine ⟨?_, Nat.lt_of_lt_of_le known (p.fresh_act _), ?_⟩
  · show (p.step n).agent.driven = true
    rw [step_of_running found, agent_after]
    exact congrArg Agent.driven begins.driven
  · refine forall_act (P := Placed n _ _ _ _) (fun activity mem other => ?_) nofun
      fun m task stepped mem => ?_
    · exact .of_not_reader (fun same => other (congrArg Event.step same.symm))
        (unread.readers activity mem)
    · obtain rfl := Event.step.inj stepped
      have same := (activity?_of_mem regular.tallies.counts mem).symm.trans found
      obtain rfl := congrArg Activity.task (Option.some.inj same)
      refine ⟨fun next going => ?_, fun other started number above => ?_⟩
      · have going : Progress.going (.reader place companions) = .going next :=
          begins.progress.symm.trans going
        obtain rfl := Progress.going.inj going
        exact .of_reader (fun mem => new (begins.companions n mem) rfl)
          (unread.stands_begin regular possible begins.decided)
      · exact .of_not_reader (new above)
          (Task.isReader_of_isBystander (begins.started other started))

namespace ReadBy

omit [ObjectModel φ η] in
theorem congr {other : TransportError → Prop} (readBy : p.ReadBy n limit failed log)
    (same : ∀ error, other error ↔ failed error) : p.ReadBy n limit other log := by
  obtain rfl : other = failed := funext fun error => propext (same error)
  exact readBy

omit [ObjectModel φ η] in
/-- Only the reader opens the channel for the first time. -/
theorem not_connects (readBy : p.ReadBy n limit failed log) (other : event ≠ .step n) :
    ¬ p.Connects event := by
  rintro ⟨m, companions, rfl, found⟩
  have own := (readBy.placed _ (mem_of_activity? found).1).reader.mpr rfl
  exact other (congrArg Event.step own)

/-- A step of activity `m` brings it where it may be. -/
theorem placed_step (readBy : p.ReadBy n start.limit.toNat failed log)
    (regular : p.Regular start log) {m : Nat} (possible : p.Possible (.step m)) {task next : Task}
    (mem : ⟨m, task, false⟩ ∈ p.activities)
    (going : (task.step p.agent m p.fresh).1.progress = .going next) :
    (p.act (.step m)).Placed n start.limit.toNat
      (fun error => failed error ∨ p.FailsToConnect n (.step m) error)
      (log ++ p.reconnects (.step m)) m next := by
  have placed := readBy.placed _ mem
  by_cases bystander : task.isBystander = true
  · have bystands := Task.bystands_step p.agent m p.fresh bystander
    refine .of_not_reader (fun own => ?_)
      (Task.isReader_of_isBystander (bystands.next next going))
    have reads := placed.reader.mp own
    cases task with
    | reader => cases bystander
    | _ => cases reads
  · cases task with
    | run =>
        have ends : Task.run.step p.agent m p.fresh = _ :=
          Task.startReading_of_driven readBy.driven p.fresh
        rw [ends] at going
        cases going
    | reader place companions =>
        obtain rfl : m = n := placed.reader.mpr rfl
        obtain ⟨next, rfl, stands⟩ := (placed.stands rfl).step regular possible
          (activity?_of_mem regular.tallies.counts mem) going
        exact .of_reader (placed.companions rfl) stands
    | connect => exact absurd rfl (regular.unconnecting _ mem)
    | _ => exact absurd rfl bystander

/-- Nothing is started once the connection is driven, and only the reader asks others to end. -/
theorem effect_step (readBy : p.ReadBy n limit failed log) (regular : p.Regular start log) {m : Nat}
    {task : Task} (mem : ⟨m, task, false⟩ ∈ p.activities) :
    (task.step p.agent m p.fresh).1.started = [] ∧
      (m ≠ n → (task.step p.agent m p.fresh).1.aborted = []) := by
  by_cases bystander : task.isBystander = true
  · have bystands := Task.bystands_step p.agent m p.fresh bystander
    exact ⟨bystands.started, fun _ => bystands.aborted⟩
  · cases task with
    | run =>
        have ends : Task.run.step p.agent m p.fresh = _ :=
          Task.startReading_of_driven readBy.driven p.fresh
        rw [ends]
        exact ⟨rfl, fun _ => rfl⟩
    | reader place companions =>
        have turn : Reader.Turn p.agent m companions place
            (Task.stepReader p.agent m companions place) := Reader.turn_step place
        exact ⟨turn.effect.1, fun other => absurd ((readBy.placed _ mem).reader.mpr rfl) other⟩
    | connect => exact absurd rfl (regular.unconnecting _ mem)
    | _ => exact absurd rfl bystander

/-- **The step lemma once the reader has begun**: it remains the only one, and stands where it
should. -/
theorem act (readBy : p.ReadBy n start.limit.toNat failed log) (regular : p.Regular start log)
    (possible : p.Possible event) :
    (p.act event).ReadBy n start.limit.toNat
      (fun error => failed error ∨ p.FailsToConnect n event error)
      (log ++ p.reconnects event) where
  driven := by
    have driven : (p.act event).agent.driven = p.agent.driven := driven_act fun m begins => by
      have undriven := begins.2.2
      rw [readBy.driven] at undriven
      cases undriven
    exact driven.trans readBy.driven
  known := Nat.lt_of_lt_of_le readBy.known (p.fresh_act event)
  placed := by
    refine forall_act (P := Placed n _ _ _ _) (fun activity mem other => ?_) (fun call _ => ?_)
      fun m task stepped mem => ?_
    · have placed := readBy.placed activity mem
      refine ⟨placed.reader, placed.companions, fun {place companions} here => ?_⟩
      obtain rfl : activity.number = n := placed.reader.mpr (by rw [here]; rfl)
      exact (placed.stands here).keep regular possible (readBy.not_connects other)
        fun error fails => other fails.1
    · refine .of_not_reader (Nat.ne_of_gt readBy.known) ?_
      cases call <;> rfl
    · subst stepped
      refine ⟨fun next going => readBy.placed_step regular possible mem going, ?_⟩
      rw [(readBy.effect_step regular mem).1]
      exact nofun

end ReadBy

end Steps

end Service

end RemoteAgent
