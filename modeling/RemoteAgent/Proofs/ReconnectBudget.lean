import RemoteAgent.Proofs.Reopenings
import RemoteAgent.Transport.Memory
import RemoteAgent.Console

/-!
# The budget of a connection

In a run of an agent any number of activities may try to open the transport, the reader, the writer
and callers, while others send and set the counter of attempts back, the transport breaks and
refuses as it likes, and the host begins activities and gives them up.  `Service.budget_run` says
what a host may count on all the same: how often the transport is opened, who is told that the
attempts are used up, and that this is the end.

What an induction over a run carries is `Service.Tallies`: the log of the run accounts for every
activity.  An activity that pauses before it opens the transport was granted its attempt at an
earlier step, and others have taken steps since.  They have not taken its attempt away, since what a
step adds to the log belongs to the activity that takes it; but they may have set the counter back,
which is why the attempts between two successes are counted where they are granted and not where
they are used.

## Main definitions

* `Service.reconnectLog`: the log of a run.
* `Service.Tallies`: the invariant.
* `Service.Budget`: what a host may count on.
-/

namespace RemoteAgent

variable {τ φ η : Type}

namespace Service

variable {p : Service τ φ η} {n : Nat}

/-! ## The log of a run -/

/-- Where activity `n` sees to the transport, unless it is to end. -/
def reopening? (p : Service τ φ η) (n : Nat) : Option Reopening :=
  match p.activity? n with
  | some ⟨_, task, false⟩ => task.reopening?
  | some ⟨_, _, true⟩ | none => none

/-- What a step of activity `n` adds to the log. -/
def stepReconnects [Transport τ] (p : Service τ φ η) (n : Nat) : List Reconnect :=
  match p.activity? n with
  | some ⟨_, task, false⟩ => task.reconnects p.agent n
  | some ⟨_, _, true⟩ | none => []

theorem stepReconnects_of_running [Transport τ] {number : Nat} {task : Task}
    (found : p.activity? n = some ⟨number, task, false⟩) :
    p.stepReconnects n = task.reconnects p.agent n := by
  unfold stepReconnects
  rw [found]

/-- What an event adds to the log. -/
def reconnects [Transport τ] (p : Service τ φ η) : Event τ φ η → List Reconnect
  | .step n => p.stepReconnects n
  | .halt => [.halted]
  | .call _ | .abort _ | .channel _ | .time _ _ | .session _ => []

/-- The log of a run. -/
def reconnectLog [Transport τ] [ObjectModel φ η] (p : Service τ φ η) :
    List (Event τ φ η) → List Reconnect
  | [] => []
  | event :: rest => p.reconnects event ++ reconnectLog (p.act event) rest

/-! ## The invariant -/

/-- A log accounts for a connection and for the activities. -/
structure Tallies (start : Connection) (log : List Reconnect) (p : Service τ φ η) : Prop where
  /-- The numbers of the activities are in order. -/
  counts : p.Counts
  /-- The connection is what the log makes of it. -/
  connection : Reconnect.replay start log = p.agent.connection
  /-- Every entry was allowed. -/
  lawful : Reconnect.Lawful start log
  /-- Whoever has an attempt was granted it, and has done nothing since. -/
  granted : ∀ activity ∈ p.activities, activity.task.reopening?.any Reopening.hasAttempt = true →
    Reconnect.lastOf activity.number log = some (.granted activity.number)

namespace Tallies

variable {start : Connection} {log : List Reconnect}

theorem accounts (tallies : p.Tallies start log) {activity : Activity}
    (mem : activity ∈ p.activities) :
    Reconnect.Accounts start activity.number log activity.task.reopening? p.agent.connection :=
  ⟨tallies.connection, tallies.lawful, tallies.granted activity mem⟩

/-- A log goes on to account for a service whose connection is the same, and in which nobody else
has an attempt. -/
theorem keep (tallies : p.Tallies start log) {after : Service τ φ η} (counts : after.Counts)
    (same : after.agent.connection = p.agent.connection)
    (others : ∀ activity ∈ after.activities,
      activity.task.reopening?.any Reopening.hasAttempt = true →
        ∃ old ∈ p.activities, old.number = activity.number ∧ old.task = activity.task) :
    after.Tallies start log where
  counts := counts
  connection := tallies.connection.trans same.symm
  lawful := tallies.lawful
  granted activity mem has := by
    obtain ⟨old, memOld, number, task⟩ := others activity mem has
    rw [← number]
    exact tallies.granted old memOld (task ▸ has)

theorem abandon (tallies : p.Tallies start log) (n : Nat) (task : Task) :
    Service.Tallies start log { p.remove n with agent := task.abandon p.agent n } :=
  tallies.keep ⟨(tallies.counts.remove n).distinct, (tallies.counts.remove n).fresh⟩
    (task.connection_abandon n)
    fun activity mem _ => ⟨activity, List.mem_of_mem_filter mem, rfl, rfl⟩

variable [Transport τ] [ObjectModel φ η]

/-- A step of an activity: its own place is accounted for by what the step adds to the log, and
those of the others by what they added before. -/
theorem stepTask (tallies : p.Tallies start log) {task : Task}
    (mem : ⟨n, task, false⟩ ∈ p.activities)
    (counts : (p.after n (task.step p.agent n p.fresh)).Counts) :
    (p.after n (task.step p.agent n p.fresh)).Tallies start (log ++ task.reconnects p.agent n) := by
  obtain ⟨accounts, started⟩ := task.accounts_step p.fresh (tallies.accounts mem)
  refine ⟨counts, ?_, accounts.lawful, ?_⟩
  · rw [agent_after]
    exact accounts.connection
  · intro activity memAfter has
    rcases exists_of_mem_after memAfter with ⟨old, memOld, other, number, same⟩ | ⟨own, next⟩ | new
    · have others : ∀ entry ∈ task.reconnects p.agent n, entry.number? ≠ some old.number := by
        intro entry memEntry
        rw [task.number_reconnects p.agent n entry memEntry]
        exact fun same => other (Option.some.inj same).symm
      rw [← number, Reconnect.lastOf_append_of_ne others]
      exact tallies.granted old memOld (same ▸ has)
    · rw [own]
      refine accounts.granted ?_
      rw [Effect.reopening?, next]
      exact has
    · rw [started _ (List.fst_mem_of_mem_zipIdx new)] at has
      cases has

theorem step (tallies : p.Tallies start log) (n : Nat) :
    (p.step n).Tallies start (log ++ p.stepReconnects n) := by
  have counts : (p.step n).Counts := tallies.counts.step n
  unfold stepReconnects
  cases found : p.activity? n with
  | none =>
      rw [step_of_none found, List.append_nil]
      exact tallies
  | some activity =>
      obtain ⟨number, task, aborted⟩ := activity
      obtain ⟨mem, rfl⟩ := mem_of_activity? found
      cases aborted with
      | true =>
          rw [step_of_aborted found, List.append_nil]
          exact tallies.abandon number task
      | false =>
          rw [step_of_running found] at counts ⊢
          exact tallies.stepTask mem counts

/-- **The step lemma**: whatever happens, the log goes on to account for everything. -/
theorem act (tallies : p.Tallies start log) (event : Event τ φ η) :
    (p.act event).Tallies start (log ++ p.reconnects event) := by
  have counts : (p.act event).Counts := tallies.counts.act event
  have stays : ∀ activity ∈ p.activities, activity.task.reopening?.any Reopening.hasAttempt = true →
      ∃ old ∈ p.activities, old.number = activity.number ∧ old.task = activity.task :=
    fun activity mem _ => ⟨activity, mem, rfl, rfl⟩
  cases event with
  | step n => exact tallies.step n
  | halt =>
      refine ⟨counts, ?_, tallies.lawful.concat trivial, fun activity mem has => ?_⟩
      · rw [Reconnect.replay_append, tallies.connection]
        rfl
      · have others : ∀ entry ∈ [Reconnect.halted], entry.number? ≠ some activity.number :=
          List.forall_mem_singleton.mpr nofun
        rw [reconnects, Reconnect.lastOf_append_of_ne others]
        exact tallies.granted activity mem has
  | call call =>
      rw [reconnects, List.append_nil]
      refine tallies.keep counts rfl fun activity mem has => ?_
      rcases List.mem_append.mp mem with old | new
      · exact stays activity old has
      · -- What the host begins asks for the lock first.
        rw [List.mem_singleton.mp new] at has
        cases call <;> cases has
  | abort n =>
      rw [reconnects, List.append_nil]
      exact tallies.keep counts rfl fun activity mem _ => exists_of_mem_abortAll mem
  | channel transport =>
      rw [reconnects, List.append_nil]
      exact tallies.keep counts rfl stays
  | time timer wall =>
      rw [reconnects, List.append_nil]
      exact tallies.keep counts rfl stays
  | session world =>
      rw [reconnects, List.append_nil]
      exact tallies.keep counts rfl stays

/-- **The run lemma.** -/
theorem run (tallies : p.Tallies start log) (events : List (Event τ φ η)) :
    (p.run events).Tallies start (log ++ p.reconnectLog events) := by
  induction events generalizing p log with
  | nil =>
      rw [reconnectLog, List.append_nil]
      exact tallies
  | cons event rest ih =>
      rw [reconnectLog, ← List.append_assoc]
      exact ih (tallies.act event)

end Tallies

/-! ## The budget -/

variable [Transport τ] [ObjectModel φ η]

/-- What a host may count on while at most `limit` attempts are allowed. -/
structure Budget (limit : Nat) (log : List Reconnect) (p : Service τ φ η) : Prop where
  /-- Who opens the transport uses an attempt of its own: it was granted one, and has done nothing
  since. -/
  opened : ∀ {n before after}, log = before ++ .opened n :: after →
    ∃ earlier between, before = earlier ++ .granted n :: between ∧
      ∀ entry ∈ between, entry.number? ≠ some n
  /-- Between two successes at most as many attempts are granted as are allowed. -/
  granted : ∀ {before window after}, log = before ++ window ++ after →
    (∀ n, .reset n ∉ window) → window.countP Reconnect.isGranted ≤ limit
  /-- One is refused only if as many were made since the last success. -/
  refused : ∀ {n before after}, log = before ++ .refused n :: after →
    Reconnect.attempts before = limit
  /-- The counter is the number of attempts since the last success. -/
  counter : p.agent.connection.attempts.toNat = Reconnect.attempts log
  /-- If the next step opens the transport, this is what it does to it, and otherwise nothing. -/
  opens : ∀ {n place}, p.reopening? n = some place →
    (p.act (.step n)).agent.link.transport =
      if .opened n ∈ p.reconnects (.step n) then p.agent.openTransport.2.link.transport
      else p.agent.link.transport
  /-- A reopening ends with the error that names the limit exactly if it is refused an attempt. -/
  returns : ∀ {n place}, p.reopening? n = some place → ∀ count,
    (place.step p.agent n).1 = .done (.error (.reconnectLimit count)) ↔
      count = limit ∧ .refused n ∈ p.reconnects (.step n)
  /-- Then the connection is given up, and those who wait are told. -/
  gives_up : ∀ {n}, .refused n ∈ p.reconnects (.step n) →
    (p.act (.step n)).agent.isHalted = true ∧ (p.act (.step n)).agent.haltSignal = true
  /-- A connection is given up if its attempts are used up. -/
  exhausted : p.agent.connection.isExhausted = true → p.agent.isHalted = true
  /-- It stays so whatever happens, and no attempt is recorded any more. -/
  final : p.agent.isHalted = true → ∀ events, (p.run events).agent.isHalted = true ∧
    ∀ entry ∈ p.reconnectLog events, entry.isAttempt = false

/-- An activity that sees to the transport takes a step of its reopening. -/
theorem step_of_reopening {place : Reopening} (here : p.reopening? n = some place) :
    p.stepReconnects n = place.reconnects p.agent n ∧
      (p.step n).agent = (place.step p.agent n).2 := by
  unfold reopening? at here
  unfold stepReconnects
  cases found : p.activity? n with
  | none =>
      rw [found] at here
      cases here
  | some activity =>
      obtain ⟨number, task, aborted⟩ := activity
      rw [found] at here
      cases aborted with
      | true => cases here
      | false =>
          have reopens : Task.Reopens p.agent n place (task.step p.agent n p.fresh) :=
            Task.reopens_step here
          rw [step_of_running found, agent_after]
          exact ⟨Task.reconnects_of_reopening here, reopens.agent⟩

omit [ObjectModel φ η] in
theorem exists_of_refused (refused : .refused n ∈ p.stepReconnects n) :
    ∃ place, p.reopening? n = some place := by
  unfold stepReconnects at refused
  unfold reopening?
  cases found : p.activity? n with
  | none =>
      rw [found] at refused
      cases refused
  | some activity =>
      obtain ⟨number, task, aborted⟩ := activity
      rw [found] at refused
      cases aborted with
      | true => cases refused
      | false => exact Task.exists_of_refused refused

namespace Tallies

variable {start : Connection} {log : List Reconnect}

theorem budget (fresh : Reconnect.Fresh start) (tallies : p.Tallies start log) :
    p.Budget start.limit.toNat log := by
  have keeps : Reconnect.Keeps start log := tallies.lawful.keeps fresh
  have limit : p.agent.connection.limit = start.limit := tallies.connection ▸ keeps.limit
  constructor
  case opened =>
    intro n before after split
    exact Reconnect.exists_of_lastOf (tallies.lawful before _ after split)
  case granted =>
    intro before window after split failing
    have lawful : Reconnect.Lawful start (before ++ window ++ after) := split ▸ tallies.lawful
    exact (lawful.of_append.granted_le fresh failing).2
  case refused =>
    intro n before after split
    have lawful : Reconnect.Lawful start (before ++ .refused n :: after) := split ▸ tallies.lawful
    exact lawful.attempts_of_refused fresh
  case counter =>
    rw [← tallies.connection]
    exact keeps.counter
  case opens =>
    intro n place here
    obtain ⟨entries, stepped⟩ := step_of_reopening here
    rw [Service.act, reconnects, entries, stepped]
    exact place.transport_step
  case returns =>
    intro n place here count
    rw [reconnects, (step_of_reopening here).1, ← limit]
    exact place.step_eq_reconnectLimit_iff
  case gives_up =>
    intro n refused
    obtain ⟨place, here⟩ := exists_of_refused refused
    obtain ⟨entries, stepped⟩ := step_of_reopening here
    rw [reconnects, entries] at refused
    rw [Service.act, stepped]
    exact Reopening.gives_up_step refused
  case exhausted =>
    intro exhausted
    by_contra running
    have within := keeps.within (tallies.connection ▸ Bool.not_eq_true _ ▸ running)
    have beyond := UInt32.lt_iff_toNat_lt.mp (of_decide_eq_true exhausted)
    rw [limit, ← tallies.connection, keeps.counter] at beyond
    omega
  case final =>
    intro halted events
    refine ⟨halted_run halted events, ?_⟩
    exact (tallies.run events).lawful.silent (tallies.connection ▸ halted)

end Tallies

omit [Transport τ] [ObjectModel φ η] in
theorem tallies_ofAgent (agent : Agent τ φ η) :
    (ofAgent agent).Tallies agent.connection [] where
  counts := counts_ofAgent agent
  connection := rfl
  lawful := .nil
  granted := nofun

/-- **The budget of attempts.**  Let the limit be less than the greatest number that the counter can
hold.  Then in every run of an agent, with any activities that see to the transport in any order,
and whatever the transport does:

* who opens the transport was granted an attempt that it has not used before, and between two sends
  that succeed, or before the first one, no more attempts are granted than are allowed;
* a reopening ends with the error that names the limit exactly if it records the attempt beyond the
  limit, and then the connection is given up and those who wait are told;
* a connection whose attempts are used up is given up;
* once it is given up no attempt is recorded any more, and it stays given up. -/
theorem budget_run (config : Config) (transport : τ) (root : Value) (world : World φ η)
    (reconnectId : String) (below : config.reconnectLimit.toNat < UInt32.size - 1)
    (events : List (Event τ φ η)) :
    let start := ofAgent (.new config transport root world reconnectId)
    (start.run events).Budget config.reconnectLimit.toNat (start.reconnectLog events) := by
  intro start
  have tallies : (start.run events).Tallies start.agent.connection (start.reconnectLog events) :=
    (tallies_ofAgent _).run events
  exact tallies.budget ⟨rfl, below⟩

/-- An agent that may try once to open its transport, at a far end that refuses. -/
def onceRefused : Service MemoryChannel Console.Method Empty :=
  .ofAgent (.new { Config.default with reconnectLimit := 1 }
    { MemoryChannel.new with refusing := true } .null .empty "id")

/-- Two callers see to the transport: activity 0 gets the lock and tries twice, activity 1 waits for
the lock.  Then the first one tries again, and the second one gets the lock. -/
def exhausting : List (Event MemoryChannel Console.Method Empty) :=
  [.call .reopen, .call .reopen, .step 0, .step 1, .time 100000 0, .step 0, .step 0, .step 1]

theorem budget_run_onceRefused :
    onceRefused.reconnectLog exhausting = [.granted 0, .opened 0, .refused 0] ∧
      (onceRefused.run exhausting).agent.isHalted = true ∧
      (onceRefused.run exhausting).Budget 1 (onceRefused.reconnectLog exhausting) := by
  have budget := budget_run { Config.default with reconnectLimit := 1 }
    { MemoryChannel.new with refusing := true } .null .empty "id" (by decide) exhausting
  exact ⟨by decide +kernel, by decide +kernel, budget⟩

end Service

end RemoteAgent
