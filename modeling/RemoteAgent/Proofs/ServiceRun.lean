import RemoteAgent.Proofs.Chronicle

/-!
# Runs of an agent

A run is any list of events: activities take their steps in any order, the host begins activities
or gives them up or halts the connection, and between two steps the transport, the clocks and the
session may be put into any state.  So a transport may break and may be opened at any moment, frames
may come in, be lost or be made up, and envelopes may be queued.  What nobody else can touch is what
belongs to the agent alone: its framer, its connection and the places of its activities.

The chronicle of a run is recorded event by event, and `Recorded.tells_run` says that it is true
after any run.
-/

namespace RemoteAgent

variable {τ φ η : Type}

/-- What a host may begin. -/
inductive Call where
  /-- To drive the connection. -/
  | run
  /-- To open the transport. -/
  | connect
  /-- To see to it that the transport is open. -/
  | reopen
  /-- To deliver an envelope. -/
  | send (envelope : Json)
  /-- To handle a frame. -/
  | frame (text : String)

/-- The activity that is begun. -/
def Call.task : Call → Task
  | run => .run
  | connect => .connect
  | reopen => .reopen .requesting
  | send envelope => .send envelope
  | frame text => .frame text

namespace Service

/-- Something that happens to an agent. -/
inductive Event (τ φ η : Type) where
  /-- An activity takes a step. -/
  | step (n : Nat)
  /-- The host begins something. -/
  | call (call : Call)
  /-- The host gives an activity up. -/
  | abort (n : Nat)
  /-- The host halts the connection. -/
  | halt
  /-- The transport changes. -/
  | channel (transport : τ)
  /-- The clocks are set. -/
  | time (timer wall : Nat)
  /-- The host does something in the session. -/
  | session (world : World φ η)

/-- The agent after an event. -/
def act [Transport τ] [ObjectModel φ η] (p : Service τ φ η) : Event τ φ η → Service τ φ η
  | .step n => p.step n
  | .call call => (p.start call.task).2
  | .abort n => p.abortAll [n]
  | .halt => { p with agent := p.agent.halt }
  | .channel transport =>
    { p with agent := { p.agent with link := { p.agent.link with transport } } }
  | .time timer wall =>
    { p with agent := { p.agent with link := { p.agent.link with timer, wall } } }
  | .session world => { p with agent := { p.agent with world } }

/-- The chronicle after a step of an activity. -/
def recordStep [Transport τ] (p : Service τ φ η) (chronicle : Chronicle) (n : Nat) : Chronicle :=
  match p.activity? n with
  | some ⟨_, task, true⟩ => chronicle.abandon n task
  | some ⟨_, task, false⟩ => chronicle.step p.agent n task
  | none => chronicle

/-- The chronicle after an event. -/
def record [Transport τ] (p : Service τ φ η) (chronicle : Chronicle) : Event τ φ η → Chronicle
  | .step n => p.recordStep chronicle n
  | _ => chronicle

/-- The deliveries under way. -/
def deliveries (p : Service τ φ η) : List (Nat × Delivery) :=
  p.activities.filterMap fun activity => activity.task.delivery?.map (activity.number, ·)

/-- The numbers of the activities are all different, and used up. -/
structure Counts (p : Service τ φ η) : Prop where
  /-- No two activities have one number. -/
  distinct : (p.activities.map Activity.number).Nodup
  /-- A number that is to be given out is new. -/
  fresh : ∀ activity ∈ p.activities, activity.number < p.fresh

/-! ## What a service does with its activities -/

variable {p : Service τ φ η} {n m : Nat} {delivery : Delivery}

theorem mem_deliveries :
    (n, delivery) ∈ p.deliveries ↔
      ∃ activity ∈ p.activities, activity.number = n ∧ activity.task.delivery? = some delivery := by
  unfold deliveries
  rw [List.mem_filterMap]
  constructor
  · rintro ⟨activity, mem, here⟩
    obtain ⟨other, delivers, same⟩ := Option.map_eq_some_iff.mp here
    obtain ⟨rfl, rfl⟩ := Prod.mk.inj same
    exact ⟨activity, mem, rfl, delivers⟩
  · rintro ⟨activity, mem, rfl, delivers⟩
    exact ⟨activity, mem, by simp [delivers]⟩

theorem mem_of_activity? {activity : Activity} (found : p.activity? n = some activity) :
    activity ∈ p.activities ∧ activity.number = n :=
  ⟨List.mem_of_find?_eq_some found, by simpa using List.find?_some found⟩

/-- There is one activity of a number. -/
theorem activity?_of_mem (counts : p.Counts) {activity : Activity} (mem : activity ∈ p.activities) :
    p.activity? activity.number = some activity := by
  cases found : p.activity? activity.number with
  | none => simpa using List.find?_eq_none.mp found activity mem
  | some other =>
      obtain ⟨memOther, number⟩ := mem_of_activity? found
      rw [List.inj_on_of_nodup_map counts.distinct memOther mem number]

/-- An activity that does not deliver has no delivery. -/
theorem not_mem_deliveries (counts : p.Counts) {activity : Activity} (mem : activity ∈ p.activities)
    (idle : activity.task.delivery? = none) : activity.number ∉ p.deliveries.map Prod.fst := by
  intro other
  obtain ⟨⟨m, delivery⟩, memDeliveries, rfl⟩ := List.mem_map.mp other
  obtain ⟨twin, memTwin, number, delivers⟩ := mem_deliveries.mp memDeliveries
  have same : twin = activity := List.inj_on_of_nodup_map counts.distinct memTwin mem number
  rw [same, idle] at delivers
  cases delivers

theorem deliveries_remove (p : Service τ φ η) (n : Nat) :
    (p.remove n).deliveries = Numbered.moved p.deliveries n none := by
  unfold deliveries remove Numbered.moved
  rw [Option.map_none, Option.toList_none, List.append_nil]
  induction p.activities with
  | nil => rfl
  | cons activity rest ih =>
      by_cases same : activity.number = n
      · cases delivers : activity.task.delivery? <;> simpa [same, delivers] using ih
      · cases delivers : activity.task.delivery? <;> simpa [same, delivers] using ih

theorem deliveries_move (p : Service τ φ η) (n : Nat) (progress : Progress Task TaskResult) :
    (p.move n progress).deliveries =
      Numbered.moved p.deliveries n (progress.next?.bind Task.delivery?) := by
  have removed := deliveries_remove p n
  cases progress with
  | going task =>
      unfold Numbered.moved at removed ⊢
      unfold deliveries at removed ⊢
      rw [Option.map_none, Option.toList_none, List.append_nil] at removed
      show List.filterMap _ ((p.remove n).activities ++ [_]) = _
      rw [List.filterMap_append, removed]
      cases delivers : task.delivery? <;> simp [delivers, Progress.next?]
  | done result => exact removed

/-- New activities get the numbers from the first fresh one on. -/
theorem activities_startAll (p : Service τ φ η) (tasks : List Task) :
    (p.startAll tasks).activities =
      p.activities ++ (tasks.zipIdx p.fresh).map fun entry => ⟨entry.2, entry.1, false⟩ := rfl

/-- Activities that are begun do not deliver yet. -/
theorem deliveries_startAll (p : Service τ φ η) {tasks : List Task}
    (idle : ∀ task ∈ tasks, task.delivery? = none) : (p.startAll tasks).deliveries = p.deliveries := by
  unfold deliveries
  rw [activities_startAll, List.filterMap_append]
  have none : ((tasks.zipIdx p.fresh).map fun entry => Activity.mk entry.2 entry.1 false).filterMap
      (fun activity => activity.task.delivery?.map (activity.number, ·)) = [] := by
    rw [List.filterMap_eq_nil_iff]
    intro activity mem
    obtain ⟨entry, memZip, rfl⟩ := List.mem_map.mp mem
    have idle := idle entry.1 (List.fst_mem_of_mem_zipIdx memZip)
    simp [idle]
  rw [none, List.append_nil]

theorem deliveries_abortAll (p : Service τ φ η) (numbers : List Nat) :
    (p.abortAll numbers).deliveries = p.deliveries := by
  unfold deliveries abortAll
  rw [List.filterMap_map]
  congr 1
  funext activity
  by_cases mem : activity.number ∈ numbers <;> simp [mem]

/-- What the host begins does not deliver yet. -/
theorem deliveries_call (p : Service τ φ η) (call : Call) :
    (p.start call.task).2.deliveries = p.deliveries := by
  refine deliveries_startAll p fun task mem => ?_
  rw [List.mem_singleton.mp mem]
  cases call <;> rfl

/-- A service after a step of activity `n` that comes to this. -/
def after (p : Service τ φ η) (n : Nat) (step : Task.Step τ φ η) : Service τ φ η :=
  (({ p with agent := step.2 }.move n step.1.progress).startAll step.1.started).abortAll
    step.1.aborted

@[simp] theorem agent_after (p : Service τ φ η) (n : Nat) (step : Task.Step τ φ η) :
    (p.after n step).agent = step.2 := by
  unfold after move
  cases step.1.progress <;> rfl

theorem fresh_after (p : Service τ φ η) (n : Nat) (step : Task.Step τ φ η) :
    (p.after n step).fresh = p.fresh + step.1.started.length := by
  unfold after move
  cases step.1.progress <;> rfl

/-- Activities that are asked to end are at the same places. -/
theorem exists_of_mem_abortAll {numbers : List Nat} {activity : Activity}
    (mem : activity ∈ (p.abortAll numbers).activities) :
    ∃ old ∈ p.activities, old.number = activity.number ∧ old.task = activity.task := by
  obtain ⟨old, memOld, rfl⟩ := List.mem_map.mp mem
  refine ⟨old, memOld, ?_⟩
  split <;> exact ⟨rfl, rfl⟩

/-- The activities after a step: those that others are at, the place that is gone on from, and
those that were started, with the numbers that were free. -/
theorem exists_of_mem_after {step : Task.Step τ φ η} {activity : Activity}
    (mem : activity ∈ (p.after n step).activities) :
    (∃ old ∈ p.activities, old.number ≠ n ∧ old.number = activity.number ∧
        old.task = activity.task) ∨
      (activity.number = n ∧ step.1.progress.next? = some activity.task) ∨
        (activity.task, activity.number) ∈ step.1.started.zipIdx p.fresh := by
  obtain ⟨old, memOld, number, task⟩ := exists_of_mem_abortAll mem
  rw [← number, ← task]
  rw [activities_startAll] at memOld
  rcases List.mem_append.mp memOld with moved | new
  · have stays : old ∈ (p.remove n).activities →
        ∃ other ∈ p.activities, other.number ≠ n ∧ other.number = old.number ∧
          other.task = old.task := fun mem =>
      ⟨old, List.mem_of_mem_filter mem, by simpa using (List.mem_filter.mp mem).2, rfl, rfl⟩
    cases progress : step.1.progress with
    | going next =>
        rw [progress] at moved
        rcases List.mem_append.mp moved with other | here
        · exact .inl (stays other)
        · rw [List.mem_singleton.mp here]
          exact .inr (.inl ⟨rfl, rfl⟩)
    | done result =>
        rw [progress] at moved
        exact .inl (stays moved)
  · obtain ⟨entry, memZip, rfl⟩ := List.mem_map.mp new
    have same : ({ p with agent := step.2 }.move n step.1.progress).fresh = p.fresh := by
      cases step.1.progress <;> rfl
    rw [same] at memZip
    exact .inr (.inr memZip)

/-- Who is asked to end stays, and others do not notice. -/
theorem exists_mem_abortAll {activity : Activity} (mem : activity ∈ p.activities)
    (numbers : List Nat) :
    ∃ aborted, ⟨activity.number, activity.task, aborted⟩ ∈ (p.abortAll numbers).activities ∧
      (activity.number ∉ numbers → aborted = activity.aborted) := by
  have here : (if activity.number ∈ numbers then { activity with aborted := true } else activity) ∈
      (p.abortAll numbers).activities := List.mem_map.mpr ⟨activity, mem, rfl⟩
  by_cases asked : activity.number ∈ numbers
  · rw [if_pos asked] at here
    exact ⟨true, here, fun spared => absurd asked spared⟩
  · rw [if_neg asked] at here
    exact ⟨activity.aborted, here, fun _ => rfl⟩

/-- The activities of others stay where they are when activity `n` takes a step. -/
theorem exists_mem_after_of_ne (step : Task.Step τ φ η) {activity : Activity}
    (mem : activity ∈ p.activities) (other : activity.number ≠ n) :
    ∃ aborted, ⟨activity.number, activity.task, aborted⟩ ∈ (p.after n step).activities ∧
      (activity.number ∉ step.1.aborted → aborted = activity.aborted) := by
  have stays : activity ∈ (p.remove n).activities :=
    List.mem_filter.mpr ⟨mem, decide_eq_true other⟩
  have moved : activity ∈ ({ p with agent := step.2 }.move n step.1.progress).activities := by
    cases progress : step.1.progress with
    | going next => exact List.mem_append_left _ stays
    | done result => exact stays
  exact exists_mem_abortAll (List.mem_append_left _ moved) step.1.aborted

/-- Activity `n` itself is where its step has taken it. -/
theorem exists_mem_after_going {step : Task.Step τ φ η} {next : Task}
    (going : step.1.progress = .going next) :
    ∃ aborted, ⟨n, next, aborted⟩ ∈ (p.after n step).activities ∧
      (n ∉ step.1.aborted → aborted = false) := by
  have moved : ⟨n, next, false⟩ ∈ (({ p with agent := step.2 }.move n step.1.progress).startAll
      step.1.started).activities := by
    rw [going]
    exact List.mem_append_left _ (List.mem_append_right _ (List.mem_singleton_self _))
  exact exists_mem_abortAll moved step.1.aborted

theorem deliveries_after (p : Service τ φ η) (n : Nat) {step : Task.Step τ φ η}
    (idle : ∀ task ∈ step.1.started, task.delivery? = none) :
    (p.after n step).deliveries = Numbered.moved p.deliveries n step.1.delivery? := by
  unfold after
  rw [deliveries_abortAll, deliveries_startAll _ idle, deliveries_move]
  rfl

/-- An activity that is to end is given up. -/
theorem step_of_aborted [Transport τ] [ObjectModel φ η] {number : Nat} {task : Task}
    (found : p.activity? n = some ⟨number, task, true⟩) :
    p.step n = { p.remove n with agent := task.abandon p.agent n } := by
  unfold step
  rw [found]

/-- Any other activity takes its step. -/
theorem step_of_running [Transport τ] [ObjectModel φ η] {number : Nat} {task : Task}
    (found : p.activity? n = some ⟨number, task, false⟩) :
    p.step n = p.after n (task.step p.agent n p.fresh) := by
  unfold step
  rw [found]
  rfl

theorem step_of_none [Transport τ] [ObjectModel φ η] (found : p.activity? n = none) :
    p.step n = p := by
  unfold step
  rw [found]

/-- What is true of the agent stays true in a step, if it stays true when an activity is given up
and when one takes its step. -/
theorem agent_step [Transport τ] [ObjectModel φ η] {P : Agent τ φ η → Prop} (here : P p.agent)
    (abandoned : ∀ task : Task, P (task.abandon p.agent n))
    (stepped : ∀ task, p.activity? n = some ⟨n, task, false⟩ →
      P (task.step p.agent n p.fresh).2) : P (p.step n).agent := by
  cases found : p.activity? n with
  | none =>
      rw [step_of_none found]
      exact here
  | some activity =>
      obtain ⟨number, task, aborted⟩ := activity
      obtain ⟨-, rfl⟩ := mem_of_activity? found
      cases aborted with
      | true =>
          rw [step_of_aborted found]
          exact abandoned task
      | false =>
          rw [step_of_running found, agent_after]
          exact stepped task found

namespace Counts

theorem remove (counts : p.Counts) (n : Nat) : (p.remove n).Counts where
  distinct := counts.distinct.sublist (List.filter_sublist.map _)
  fresh activity mem := counts.fresh activity (List.mem_of_mem_filter mem)

theorem move (counts : p.Counts) (known : n < p.fresh) (progress : Progress Task TaskResult) :
    (p.move n progress).Counts := by
  have removed := counts.remove n
  cases progress with
  | going task =>
      refine ⟨?_, fun activity mem => ?_⟩
      · show (((p.remove n).activities ++ [_]).map Activity.number).Nodup
        rw [List.map_append]
        refine removed.distinct.append (List.nodup_singleton n) ?_
        simp [Service.remove]
      · rcases List.mem_append.mp mem with old | new
        · exact removed.fresh activity old
        · rw [List.mem_singleton.mp new]
          exact known
  | done result => exact ⟨removed.distinct, removed.fresh⟩

theorem startAll (counts : p.Counts) (tasks : List Task) : (p.startAll tasks).Counts := by
  have numbers : ((tasks.zipIdx p.fresh).map fun entry =>
      Activity.mk entry.2 entry.1 false).map Activity.number =
        List.range' p.fresh tasks.length := by
    rw [List.map_map, ← List.zipIdx_map_snd p.fresh tasks]
    rfl
  refine ⟨?_, fun activity mem => ?_⟩
  · rw [activities_startAll, List.map_append, numbers]
    refine counts.distinct.append List.nodup_range' ?_
    intro number old new
    obtain ⟨activity, mem, rfl⟩ := List.mem_map.mp old
    have := counts.fresh activity mem
    have := (List.mem_range'_1.mp new).1
    omega
  · show activity.number < p.fresh + tasks.length
    rw [activities_startAll] at mem
    rcases List.mem_append.mp mem with old | new
    · have := counts.fresh activity old
      omega
    · have known : activity.number ∈ List.range' p.fresh tasks.length :=
        numbers ▸ List.mem_map_of_mem new
      exact (List.mem_range'_1.mp known).2

theorem abortAll (counts : p.Counts) (numbers : List Nat) : (p.abortAll numbers).Counts := by
  have same : (p.abortAll numbers).activities.map Activity.number =
      p.activities.map Activity.number := by
    unfold Service.abortAll
    rw [List.map_map]
    congr 1
    funext activity
    by_cases mem : activity.number ∈ numbers <;> simp [mem]
  refine ⟨same ▸ counts.distinct, fun activity mem => ?_⟩
  have known : activity.number ∈ p.activities.map Activity.number :=
    same ▸ List.mem_map_of_mem mem
  obtain ⟨old, memOld, number⟩ := List.mem_map.mp known
  exact number ▸ counts.fresh old memOld

variable [Transport τ] [ObjectModel φ η]

theorem step (counts : p.Counts) (n : Nat) : (p.step n).Counts := by
  cases found : p.activity? n with
  | none =>
      rw [step_of_none found]
      exact counts
  | some activity =>
      obtain ⟨number, task, aborted⟩ := activity
      obtain ⟨mem, rfl⟩ := mem_of_activity? found
      cases aborted with
      | true =>
          rw [step_of_aborted found]
          exact ⟨(counts.remove number).distinct, (counts.remove number).fresh⟩
      | false =>
          rw [step_of_running found]
          have same : Service.Counts { p with
              agent := (task.step p.agent number p.fresh).2 } :=
            ⟨counts.distinct, counts.fresh⟩
          exact ((same.move (counts.fresh _ mem) _).startAll _).abortAll _

/-- Every event keeps the count. -/
theorem act (counts : p.Counts) (event : Event τ φ η) : (p.act event).Counts := by
  cases event with
  | step n => exact counts.step n
  | call call => exact counts.startAll [call.task]
  | abort n => exact counts.abortAll [n]
  | halt => exact ⟨counts.distinct, counts.fresh⟩
  | channel => exact ⟨counts.distinct, counts.fresh⟩
  | time => exact ⟨counts.distinct, counts.fresh⟩
  | session => exact ⟨counts.distinct, counts.fresh⟩

end Counts

/-- No number is given out twice. -/
theorem fresh_act [Transport τ] [ObjectModel φ η] (p : Service τ φ η) (event : Event τ φ η) :
    p.fresh ≤ (p.act event).fresh := by
  cases event with
  | step n =>
      show p.fresh ≤ (p.step n).fresh
      cases found : p.activity? n with
      | none => exact Nat.le_of_eq (congrArg Service.fresh (step_of_none found)).symm
      | some activity =>
          obtain ⟨number, task, aborted⟩ := activity
          cases aborted with
          | true =>
              rw [step_of_aborted found]
              exact Nat.le_refl _
          | false =>
              rw [step_of_running found, fresh_after]
              exact Nat.le_add_right _ _
  | call => exact Nat.le_succ _
  | _ => exact Nat.le_refl _

/-- What is true of the numbers and places of all activities stays so, if it stays true of those
that others are at, if it is true of what the host begins, and if a step brings its activity to such
a place. -/
theorem forall_act [Transport τ] [ObjectModel φ η] {P : Nat → Task → Prop} {event : Event τ φ η}
    (others : ∀ activity ∈ p.activities, event ≠ .step activity.number →
      P activity.number activity.task)
    (begun : ∀ call, event = .call call → P p.fresh call.task)
    (stepped : ∀ n task, event = .step n → ⟨n, task, false⟩ ∈ p.activities →
      (∀ next, (task.step p.agent n p.fresh).1.progress = .going next → P n next) ∧
        ∀ other ∈ (task.step p.agent n p.fresh).1.started, ∀ number, p.fresh ≤ number →
          P number other) :
    ∀ activity ∈ (p.act event).activities, P activity.number activity.task := by
  intro activity mem
  cases event with
  | step n =>
      have mem : activity ∈ (p.step n).activities := mem
      have other : ∀ {old : Activity}, old ∈ p.activities → old.number ≠ n →
          P old.number old.task := fun memOld different =>
        others _ memOld fun same => different (Event.step.inj same).symm
      cases found : p.activity? n with
      | none =>
          rw [step_of_none found] at mem
          refine other mem ?_
          simpa using List.find?_eq_none.mp found activity mem
      | some old =>
          obtain ⟨number, task, aborted⟩ := old
          obtain ⟨memOld, rfl⟩ := mem_of_activity? found
          cases aborted with
          | true =>
              rw [step_of_aborted found] at mem
              have stays := List.mem_filter.mp mem
              exact other stays.1 (by simpa using stays.2)
          | false =>
              obtain ⟨goesOn, started⟩ := stepped number task rfl memOld
              rw [step_of_running found] at mem
              rcases exists_of_mem_after mem with
                ⟨old, memOld, different, same, task⟩ | ⟨own, next⟩ | new
              · exact same ▸ task ▸ other memOld different
              · rw [own]
                exact goesOn _ (Progress.next?_eq_some_iff.mp next)
              · exact started _ (List.fst_mem_of_mem_zipIdx new) _ (List.le_snd_of_mem_zipIdx new)
  | call call =>
      rcases List.mem_append.mp mem with old | new
      · exact others activity old nofun
      · rw [List.mem_singleton.mp new]
        exact begun call rfl
  | abort n =>
      obtain ⟨old, memOld, number, same⟩ := exists_of_mem_abortAll mem
      exact number ▸ same ▸ others old memOld nofun
  | halt => exact others activity mem nofun
  | channel => exact others activity mem nofun
  | time => exact others activity mem nofun
  | session => exact others activity mem nofun

/-- No event takes it back that the connection is given up. -/
theorem halted_act [Transport τ] [ObjectModel φ η] (halted : p.agent.isHalted = true)
    (event : Event τ φ η) : (p.act event).agent.isHalted = true := by
  cases event with
  | step n =>
      exact agent_step (P := fun agent => agent.isHalted = true) halted
        (fun task => (task.isHalted_abandon n).trans halted)
        fun task _ => Task.halted_step n p.fresh task halted
  | call call => exact halted
  | abort n => exact halted
  | halt => rfl
  | channel => exact halted
  | time => exact halted
  | session => exact halted

/-! ### Runs without a chronicle -/

section Run

variable [Transport τ] [ObjectModel φ η]

/-- Things happen to the agent, one after the other. -/
def run (p : Service τ φ η) (events : List (Event τ φ η)) : Service τ φ η := events.foldl act p

theorem run_cons (p : Service τ φ η) (event : Event τ φ η) (rest : List (Event τ φ η)) :
    p.run (event :: rest) = (p.act event).run rest := rfl

omit [Transport τ] [ObjectModel φ η] in
theorem counts_ofAgent (agent : Agent τ φ η) : (ofAgent agent).Counts :=
  ⟨List.nodup_nil, by simp [ofAgent]⟩

theorem Counts.run (counts : p.Counts) (events : List (Event τ φ η)) : (p.run events).Counts := by
  induction events generalizing p with
  | nil => exact counts
  | cons event rest ih => exact ih (counts.act event)

/-- **A connection that is given up stays so.** -/
theorem halted_run (halted : p.agent.isHalted = true) (events : List (Event τ φ η)) :
    (p.run events).agent.isHalted = true := by
  induction events generalizing p with
  | nil => exact halted
  | cons event rest ih => exact ih (halted_act halted event)

end Run

/-! ## The chronicle of a run -/

section Chronicle

variable [Transport τ] [ObjectModel φ η] {chronicle : Chronicle}

/-- The chronicle is true of a service. -/
def Told (p : Service τ φ η) (chronicle : Chronicle) : Prop :=
  chronicle.Tells p.agent.link.framer p.deliveries

/-- An activity that goes on keeps the chronicle true. -/
theorem Told.after_step (told : p.Told chronicle) (counts : p.Counts) {task : Task}
    (mem : ⟨n, task, false⟩ ∈ p.activities) :
    (p.after n (task.step p.agent n p.fresh)).Told (chronicle.step p.agent n task) := by
  have fresh : task.delivery? = none → n ∉ p.deliveries.map Prod.fst :=
    not_mem_deliveries counts mem
  unfold Told Chronicle.step
  rw [agent_after]
  cases delivers : task.delivery? with
  | some delivery =>
      obtain ⟨rest, next, started⟩ := Task.step_of_delivery p.agent n p.fresh delivers
      rw [deliveries_after p n (by simp [started]), rest, next]
      exact Chronicle.Tells.deliver told (mem_deliveries.mpr ⟨_, mem, rfl, delivers⟩)
  | none =>
      have fresh := fresh delivers
      cases begins : task.envelope? p.agent with
      | some envelope =>
          obtain ⟨link, -, next, started⟩ := Task.step_of_envelope n p.fresh begins
          rw [deliveries_after p n (by simp [started]), link, next]
          exact Chronicle.Tells.begin told fresh envelope
      | none =>
          -- What is left are steps without a delivery; at most they let a frame in.
          have idles : Task.Idles p.agent (task.step p.agent n p.fresh) :=
            Task.step_of_idle delivers begins
          rw [deliveries_after p n idles.started, idles.delivery, Numbered.moved_of_fresh fresh,
            Option.map_none, Option.toList_none, List.append_nil]
          exact Chronicle.Tells.hear told idles.hears

omit [Transport τ] [ObjectModel φ η] in
/-- An activity that is given up keeps the chronicle true. -/
theorem Told.after_abandon (told : p.Told chronicle) (counts : p.Counts) {task : Task}
    {aborted : Bool} (mem : ⟨n, task, aborted⟩ ∈ p.activities) :
    Service.Told { p.remove n with agent := task.abandon p.agent n }
      (chronicle.abandon n task) := by
  show Chronicle.Tells _ (task.abandon p.agent n).link.framer (p.remove n).deliveries
  rw [deliveries_remove]
  cases delivers : task.delivery? with
  | some delivery =>
      rw [Task.abandon_of_delivery delivers]
      exact Chronicle.Tells.abandon told (mem_deliveries.mpr ⟨_, mem, rfl, delivers⟩) delivers
  | none =>
      have fresh : n ∉ p.deliveries.map Prod.fst := not_mem_deliveries counts mem delivers
      have same : chronicle.abandon n task = chronicle := by
        simp [Chronicle.abandon, delivers]
      rw [same, Task.framer_abandon_of_idle delivers, Numbered.moved_of_fresh fresh,
        Option.map_none, Option.toList_none, List.append_nil]
      exact told

theorem Told.step (told : p.Told chronicle) (counts : p.Counts) (n : Nat) :
    (p.step n).Told (p.recordStep chronicle n) := by
  unfold recordStep
  cases found : p.activity? n with
  | none =>
      rw [step_of_none found]
      exact told
  | some activity =>
      obtain ⟨number, task, aborted⟩ := activity
      obtain ⟨mem, rfl⟩ := mem_of_activity? found
      cases aborted with
      | true => exact step_of_aborted found ▸ told.after_abandon counts mem
      | false => exact step_of_running found ▸ told.after_step counts mem

/-- **Every event keeps the chronicle true.** -/
theorem Told.act (told : p.Told chronicle) (counts : p.Counts) (event : Event τ φ η) :
    (p.act event).Told (p.record chronicle event) := by
  cases event with
  | step n => exact told.step counts n
  | call call =>
      show Chronicle.Tells _ _ (p.start call.task).2.deliveries
      rw [deliveries_call]
      exact told
  | abort n =>
      show Chronicle.Tells _ _ (p.abortAll [n]).deliveries
      rw [deliveries_abortAll]
      exact told
  | halt => exact told
  | channel => exact told
  | time => exact told
  | session => exact told

end Chronicle

end Service

/-! ## Runs -/

/-- An agent with the chronicle of what it did. -/
structure Recorded (τ φ η : Type) where
  /-- The agent. -/
  service : Service τ φ η
  /-- Its chronicle. -/
  chronicle : Chronicle

namespace Recorded

/-- An agent that nothing has happened to. -/
def start (config : Config) (transport : τ) (root : Value) (world : World φ η)
    (reconnectId : String) : Recorded τ φ η :=
  ⟨.ofAgent (.new config transport root world reconnectId), .empty⟩

variable [Transport τ] [ObjectModel φ η]

/-- Something happens to the agent. -/
def act (r : Recorded τ φ η) (event : Service.Event τ φ η) : Recorded τ φ η :=
  ⟨r.service.act event, r.service.record r.chronicle event⟩

/-- Things happen to the agent, one after the other. -/
def run (r : Recorded τ φ η) (events : List (Service.Event τ φ η)) : Recorded τ φ η :=
  events.foldl act r

/-- A connection that is not given up at the end never was. -/
theorem running_of_run {r : Recorded τ φ η} {events : List (Service.Event τ φ η)}
    (running : (r.run events).service.agent.isHalted = false) :
    r.service.agent.isHalted = false := by
  induction events generalizing r with
  | nil => exact running
  | cons event rest ih =>
      have next : (r.service.act event).agent.isHalted = false := ih running
      -- A connection that is given up is given up after the event as well.
      by_contra halted
      rw [Bool.not_eq_false] at halted
      rw [Service.halted_act halted event] at next
      cases next

/-- The chronicle is true, and the numbers of the activities are in order. -/
structure Sound (r : Recorded τ φ η) : Prop where
  /-- The numbers. -/
  counts : r.service.Counts
  /-- The chronicle. -/
  told : r.service.Told r.chronicle

omit [Transport τ] [ObjectModel φ η] in
theorem sound_start (config : Config) (transport : τ) (root : Value) (world : World φ η)
    (reconnectId : String) : (start config transport root world reconnectId).Sound where
  counts := Service.counts_ofAgent _
  told :=
    { distinct := List.nodup_nil
      describes := by
        have positive : (Agent.framerOf config).frameLimit ≠ 0 := Framer.frameLimit_new_ne_zero _ _ _ _
        exact History.describes_empty positive rfl rfl
      waiting := by simp [start, Service.ofAgent, Service.deliveries]
      holding := by simp [start, Service.ofAgent, Service.deliveries]
      begun := fun _ => rfl
      sent := fun _ => rfl }

theorem Sound.act {r : Recorded τ φ η} (sound : r.Sound) (event : Service.Event τ φ η) :
    (r.act event).Sound :=
  ⟨sound.counts.act event, sound.told.act sound.counts event⟩

/-- **The chronicle of any run is true.** -/
theorem Sound.run {r : Recorded τ φ η} (sound : r.Sound) (events : List (Service.Event τ φ η)) :
    (r.run events).Sound := by
  induction events generalizing r with
  | nil => exact sound
  | cons event rest ih => exact ih (sound.act event)

end Recorded

end RemoteAgent
