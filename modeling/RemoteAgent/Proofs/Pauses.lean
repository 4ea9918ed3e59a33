import RemoteAgent.Proofs.OrderlyRuns

/-!
# What a reopening has seen when it opens the transport

Who sees to the transport looks whether it is closed and the connection is not given up, then
pauses, and then opens the transport without another look.  In the pause it has the lock, so nobody
else who sees to the transport gets in between; but a host may halt the connection, and may have the
transport opened past the lock, and then a transport is opened that is open, or one of a connection
that is given up (`Service.opens_in_vain`).

`Service.opened_after_pause` says when this is so.  The pause is the stretch of a run between the
look of an activity and its opening (`Service.Pause`).  The connection is given up at its end
exactly if the host has halted it in the pause, and the transport is open at its end exactly if
somebody has connected in the pause, or the far end has put the channel in another state, and it has
stayed open since.

## Main definitions

* `Service.Pause`: the pause of an activity.
* `Service.Bypasses`: an event by which the transport may get open past the lock.
* `Service.Opens`: what an opening comes upon.
-/

namespace RemoteAgent

variable {τ φ η : Type}

/-! ## The look before a pause -/

namespace Reopening

variable [Transport τ] {agent after : Agent τ φ η} {n : Nat} {place next : Reopening}

/-- A check goes on only over a transport that is closed and a connection that is not given up. -/
theorem closed_of_check (checked : check agent n = (.going next, after)) :
    after.isOpen = false ∧ after.isHalted = false := by
  unfold check at checked
  split at checked
  · cases checked
  · next running =>
      split at checked
      · cases checked
      · next isClosed =>
          split at checked
          · cases checked
          · next attempt connection counted =>
              cases checked
              have same : agent.connection.recordAttempt.2.halted = agent.connection.halted := by
                unfold Connection.recordAttempt at counted ⊢
                dsimp only at counted ⊢
                split at counted
                · cases counted
                · next within => rw [if_neg within]
              rw [counted] at same
              refine ⟨Bool.not_eq_true _ ▸ isClosed, ?_⟩
              exact same.trans (Bool.not_eq_true _ ▸ running)

/-- **How one comes to an attempt**: one has looked with this very step, or wakes up. -/
theorem attempt_step (stepped : place.step agent n = (.going next, after))
    (has : next.hasAttempt = true) :
    (∃ time, place = .pausing time ∧ after = agent) ∨
      after.isOpen = false ∧ after.isHalted = false := by
  cases place with
  | requesting =>
      unfold step at stepped
      dsimp only at stepped
      split at stepped
      · exact .inr (closed_of_check stepped)
      · cases stepped
        cases has
  | queued => exact .inr (closed_of_check stepped)
  | pausing time =>
      cases stepped
      exact .inl ⟨time, rfl, rfl⟩
  | opening => exact .inr (closed_of_check stepped)

end Reopening

namespace Service

variable [Transport τ] [ObjectModel φ η] {p : Service τ φ η} {event : Event τ φ η} {n : Nat}
  {task : Task}

/-- How an activity has come to its attempt. -/
inductive ComesToAttempt (p : Service τ φ η) (event : Event τ φ η) (n : Nat) (task : Task) : Prop
  /-- It had it before. -/
  | stayed (mem : ⟨n, task, false⟩ ∈ p.activities) (other : event ≠ .step n)
  /-- It wakes up. -/
  | woke {before : Task} {time : Nat} (own : event = .step n)
      (mem : ⟨n, before, false⟩ ∈ p.activities) (paused : before.reopening? = some (.pausing time))
      (same : (p.act event).agent = p.agent)
  /-- It has looked. -/
  | looked (own : event = .step n) (isClosed : (p.act event).agent.isOpen = false)
      (running : (p.act event).agent.isHalted = false)

/-- **How an activity has come to its attempt.** -/
theorem comesToAttempt (counts : p.Counts) (mem : ⟨n, task, false⟩ ∈ (p.act event).activities)
    (has : task.reopening?.any Reopening.hasAttempt = true) : p.ComesToAttempt event n task := by
  cases came mem with
  | stayed old other => exact .stayed old other
  | @called call _ _ begun =>
      -- What the host begins asks for the lock first.
      rw [begun] at has
      cases call <;> cases has
  | @started m other _ _ _ starts =>
      rw [(other.plain_started p.agent m p.fresh task starts).2] at has
      cases has
  | @moved before own memBefore going =>
      have after : (p.act event).agent = (before.step p.agent n p.fresh).2 := by
        rw [own]
        show (p.step n).agent = _
        rw [step_of_running (activity?_of_mem counts memBefore), agent_after]
      have next : (before.step p.agent n p.fresh).1.reopening? = task.reopening? := by
        unfold Effect.reopening?
        rw [going]
        rfl
      cases here : before.reopening? with
      | none =>
          have idle := Task.idle_step p.agent n p.fresh here
          rw [next, has] at idle
          cases idle
      | some place =>
          have reopens : Task.Reopens p.agent n place (before.step p.agent n p.fresh) :=
            Task.reopens_step here
          rw [reopens.next] at next
          rw [reopens.agent] at after
          rcases stepped : place.step p.agent n with ⟨progress, agent⟩
          rw [stepped] at next after
          cases progress with
          | done result =>
              rw [← next] at has
              cases has
          | going there =>
              rw [← next] at has
              rcases Reopening.attempt_step stepped has with ⟨time, rfl, same⟩ | ⟨isClosed, running⟩
              · exact .woke own memBefore here (after.trans same)
              · exact .looked own (after ▸ isClosed) (after ▸ running)

/-! ## Pauses -/

/-- Activity `n` has looked, at a moment, and found the transport closed and the connection not
given up.  It has its attempt ever since, while `between` has happened, and at most it has woken up.
-/
structure Pause (n : Nat) (looked : Service τ φ η) (between : List (Event τ φ η)) : Prop where
  /-- The transport was closed. -/
  isClosed : looked.agent.isOpen = false
  /-- The connection was not given up. -/
  running : looked.agent.isHalted = false
  /-- The activity has its attempt. -/
  attempt : ∀ done rest, between = done ++ rest → ∃ task,
    ⟨n, task, false⟩ ∈ (looked.run done).activities ∧
      task.reopening?.any Reopening.hasAttempt = true
  /-- It does nothing with it. -/
  wakes : ∀ done rest, between = done ++ .step n :: rest → ∃ task time,
    ⟨n, task, false⟩ ∈ (looked.run done).activities ∧ task.reopening? = some (.pausing time)

namespace Pause

variable {looked : Service τ φ η} {between : List (Event τ φ η)}

/-- It begins with the look. -/
theorem nil (isClosed : looked.agent.isOpen = false) (running : looked.agent.isHalted = false)
    (mem : ⟨n, task, false⟩ ∈ looked.activities)
    (has : task.reopening?.any Reopening.hasAttempt = true) : Pause n looked [] where
  isClosed := isClosed
  running := running
  attempt done rest split := by
    obtain ⟨rfl, rfl⟩ := List.append_eq_nil_iff.mp split.symm
    exact ⟨task, mem, has⟩
  wakes done rest split := by simp at split

/-- It goes on while the activity has its attempt. -/
theorem concat (pause : Pause n looked between)
    (mem : ⟨n, task, false⟩ ∈ (looked.run (between ++ [event])).activities)
    (has : task.reopening?.any Reopening.hasAttempt = true)
    (wakes : event = .step n → ∃ before time,
      ⟨n, before, false⟩ ∈ (looked.run between).activities ∧
        before.reopening? = some (.pausing time)) :
    Pause n looked (between ++ [event]) where
  isClosed := pause.isClosed
  running := pause.running
  attempt done rest split := by
    rcases List.eq_nil_or_concat rest with rfl | ⟨others, last, rfl⟩
    · rw [List.append_nil] at split
      exact ⟨task, split ▸ mem, has⟩
    · have split : between ++ [event] = (done ++ others) ++ [last] := by simpa using split
      exact pause.attempt done others (List.append_inj' split rfl).1
  wakes done rest split := by
    rcases List.eq_nil_or_concat rest with rfl | ⟨others, last, rfl⟩
    · obtain ⟨rfl, same⟩ := List.append_inj' split rfl
      exact wakes (List.head_eq_of_cons_eq same)
    · have split : between ++ [event] = (done ++ .step n :: others) ++ [last] := by
        simpa using split
      exact pause.wakes done others (List.append_inj' split rfl).1

theorem of_concat (pause : Pause n looked (between ++ [event])) : Pause n looked between where
  isClosed := pause.isClosed
  running := pause.running
  attempt done rest split := pause.attempt done (rest ++ [event]) (by simp [split])
  wakes done rest split := pause.wakes done (rest ++ [event]) (by simp [split])

end Pause

/-- Who has an attempt is in the pause that follows its last look. -/
theorem exists_pause (counts : p.Counts)
    (unattempted : ∀ activity ∈ p.activities,
      activity.task.reopening?.any Reopening.hasAttempt = false)
    {events : List (Event τ φ η)} (mem : ⟨n, task, false⟩ ∈ (p.run events).activities)
    (has : task.reopening?.any Reopening.hasAttempt = true) :
    ∃ earlier between, events = earlier ++ .step n :: between ∧
      Pause n (p.run (earlier ++ [.step n])) between := by
  induction events using List.reverseRecOn generalizing task with
  | nil =>
      have none := unattempted _ mem
      rw [has] at none
      cases none
  | append_singleton events event ih =>
      have last : p.run (events ++ [event]) = (p.run events).act event := run_append p events [event]
      have mem' := mem
      rw [last] at mem'
      cases comesToAttempt (counts.run events) mem' has with
      | stayed old other =>
          obtain ⟨earlier, between, rfl, pause⟩ := ih old has
          refine ⟨earlier, between ++ [event], by simp, pause.concat ?_ has
            fun own => absurd own other⟩
          rw [← run_append]
          simpa using mem
      | @woke before time own old paused same =>
          obtain ⟨earlier, between, rfl, pause⟩ := ih old (by rw [paused]; rfl)
          refine ⟨earlier, between ++ [event], by simp, pause.concat ?_ has fun _ => ?_⟩
          · rw [← run_append]
            simpa using mem
          · refine ⟨before, time, ?_, paused⟩
            rw [← run_append]
            simpa using old
      | looked own isClosed running =>
          subst own
          exact ⟨events, [], rfl, .nil (last ▸ isClosed) (last ▸ running) mem has⟩

/-! ## What happens in a pause -/

/-- An event by which the transport may get open past the lock: an activity connects, or the far end
puts the channel in another state. -/
def Bypasses (p : Service τ φ η) : Event τ φ η → Prop
  | .step m => ∃ task, ⟨m, task, false⟩ ∈ p.activities ∧ task.isConnecting = true
  | .channel _ => True
  | .call _ | .abort _ | .halt | .time _ _ | .session _ => False

/-- Somebody has connected after a look, and the transport is open since. -/
def OpenSince (looked : Service τ φ η) (between : List (Event τ φ η)) : Prop :=
  ∃ before event after, between = before ++ event :: after ∧ (looked.run before).Bypasses event ∧
    ∀ done rest, after = done ++ rest → (looked.run (before ++ event :: done)).agent.isOpen = true

section Step

variable {start : Connection} {log : List Reconnect}

/-- **In a pause the connection is given up only by the host**, for an attempt is refused only to
who has the lock. -/
theorem halted_act_iff (inOrder : p.InOrder start log) (able : p.Able event)
    (mem : ⟨n, task, false⟩ ∈ p.activities) (has : task.reopening?.any Reopening.hasAttempt = true)
    (wakes : event = .step n → ∃ time, task.reopening? = some (.pausing time)) :
    (p.act event).agent.isHalted = true ↔ p.agent.isHalted = true ∨ event = .halt := by
  have counts : p.Counts := inOrder.tallies.counts
  unfold Agent.isHalted
  rw [inOrder.connection_act event, Reconnect.halted_replay_iff]
  refine or_congr_right ⟨?_, ?_⟩
  · rintro ⟨entry, memEntry, givesUp⟩
    cases event with
    | halt => rfl
    | step m =>
        exfalso
        obtain ⟨-, other, place, found, at_, refused⟩ := exists_of_givesUp memEntry givesUp
        obtain ⟨memOther, -⟩ := mem_of_activity? found
        have ready : place.isReady p.agent m = true := by
          have able : p.isReady m = true := able
          unfold isReady at able
          rw [found] at able
          rw [← Task.isReady_of_reopening at_]
          exact able
        have holds : place.hasAttempt = true → p.agent.reconnecting.isHeldBy m = true := fun has =>
          inOrder.linesUp.holds _ memOther (by rw [at_]; exact has)
        obtain rfl : n = m :=
          Reopening.alone_of_refused ready holds refused (inOrder.linesUp.holds _ mem has)
        obtain ⟨time, paused⟩ := wakes rfl
        rw [counts.task_eq mem memOther, paused] at at_
        cases at_
        cases refused
    | _ => cases memEntry
  · rintro rfl
    exact ⟨.halted, List.mem_singleton_self _, rfl⟩

/-- **In a pause nobody opens the transport but who connects past the lock.** -/
theorem closed_act [Transport.StaysClosed τ] (inOrder : p.InOrder start log)
    (mem : ⟨n, task, false⟩ ∈ p.activities) (has : task.reopening?.any Reopening.hasAttempt = true)
    (wakes : event = .step n → ∃ time, task.reopening? = some (.pausing time))
    (inLine : ¬ p.Bypasses event) (isClosed : p.agent.isOpen = false) :
    (p.act event).agent.isOpen = false := by
  cases event with
  | step m =>
      refine agent_step (P := fun agent => agent.isOpen = false) isClosed (fun other => ?_)
        fun other found => ?_
      · exact (congrArg Transport.isOpen (other.transport_abandon p.agent m)).trans isClosed
      · have memOther : ⟨m, other, false⟩ ∈ p.activities := (mem_of_activity? found).1
        cases here : other.reopening? with
        | none =>
            have plain : other.isConnecting = false := by
              by_contra connects
              exact inLine ⟨other, memOther, Bool.not_eq_false _ ▸ connects⟩
            exact Transport.StaysClosed.closed_of_handling
              (other.handling_step p.agent m p.fresh here plain) isClosed
        | some place =>
            have shut : place ≠ .opening := by
              rintro rfl
              obtain rfl : m = n :=
                inOrder.linesUp.attempt_unique mem has memOther (by rw [here]; rfl)
              obtain ⟨time, paused⟩ := wakes rfl
              rw [inOrder.tallies.counts.task_eq mem memOther, paused] at here
              cases here
            have reopens : Task.Reopens p.agent m place (other.step p.agent m p.fresh) :=
              Task.reopens_step here
            rw [reopens.agent]
            show Transport.isOpen _ = false
            rw [place.transport_step, if_neg (Reopening.opened_mem_iff.not.mpr shut)]
            exact isClosed
  | channel transport => exact absurd trivial inLine
  | _ => exact isClosed

end Step

namespace Pause

variable {looked : Service τ φ η} {between : List (Event τ φ η)} {start : Connection}
  {log : List Reconnect}

/-- The last event of a pause finds the activity with its attempt, and is at most its waking up. -/
theorem last (pause : Pause n looked (between ++ [event])) (counts : looked.Counts) :
    ∃ task, ⟨n, task, false⟩ ∈ (looked.run between).activities ∧
      task.reopening?.any Reopening.hasAttempt = true ∧
        (event = .step n → ∃ time, task.reopening? = some (.pausing time)) := by
  obtain ⟨task, mem, has⟩ := pause.attempt between [event] rfl
  refine ⟨task, mem, has, ?_⟩
  rintro rfl
  obtain ⟨other, time, memOther, paused⟩ := pause.wakes between [] rfl
  obtain rfl := (counts.run between).task_eq mem memOther
  exact ⟨time, paused⟩

/-- **The connection is given up at the end of a pause if the host has halted it meanwhile, and not
otherwise.** -/
theorem isHalted_iff (pause : Pause n looked between) (inOrder : looked.InOrder start log)
    (inTurn : looked.InTurn between) :
    (looked.run between).agent.isHalted = true ↔ .halt ∈ between := by
  induction between using List.reverseRecOn with
  | nil => simp [Service.run, pause.running]
  | append_singleton between event ih =>
      obtain ⟨before, able, -⟩ := inTurn_append.mp inTurn
      obtain ⟨task, mem, has, wakes⟩ := pause.last inOrder.tallies.counts
      rw [run_append]
      show ((looked.run between).act event).agent.isHalted = true ↔ _
      rw [halted_act_iff (inOrder.run before) able mem has wakes, ih pause.of_concat before]
      simp [eq_comm]

/-- **The transport is open at the end of a pause if somebody has connected past the lock meanwhile,
and not otherwise.** -/
theorem isOpen_iff [Transport.StaysClosed τ] (pause : Pause n looked between)
    (inOrder : looked.InOrder start log) (inTurn : looked.InTurn between) :
    (looked.run between).agent.isOpen = true ↔ looked.OpenSince between := by
  refine ⟨fun isOpen => ?_, fun ⟨before, event, after, split, _, stays⟩ => ?_⟩
  · induction between using List.reverseRecOn with
    | nil => exact absurd isOpen (Bool.eq_false_iff.mp pause.isClosed)
    | append_singleton between event ih =>
        by_cases connects : (looked.run between).Bypasses event
        · refine ⟨between, event, [], rfl, connects, fun done rest split => ?_⟩
          obtain ⟨rfl, -⟩ := List.append_eq_nil_iff.mp split.symm
          exact isOpen
        · obtain ⟨turns, -⟩ := inTurn_append.mp inTurn
          obtain ⟨task, mem, has, wakes⟩ := pause.last inOrder.tallies.counts
          have before : (looked.run between).agent.isOpen = true := by
            by_contra isClosed
            have still := closed_act (inOrder.run turns) mem has wakes connects
              (Bool.not_eq_true _ ▸ isClosed)
            rw [run_append] at isOpen
            exact absurd isOpen (Bool.eq_false_iff.mp still)
          obtain ⟨first, opening, after, rfl, connected, stays⟩ := ih pause.of_concat turns before
          refine ⟨first, opening, after ++ [event], by simp, connected, fun done rest split => ?_⟩
          rcases List.eq_nil_or_concat rest with rfl | ⟨others, last, rfl⟩
          · rw [List.append_nil] at split
            rw [← split]
            simpa using isOpen
          · have split : after ++ [event] = (done ++ others) ++ [last] := by simpa using split
            exact stays done others (List.append_inj' split rfl).1
  · rw [split]
    exact stays after [] (List.append_nil _).symm

end Pause

/-! ## The opening -/

/-- What an opening comes upon that ends a pause. -/
structure Opens (n : Nat) (looked : Service τ φ η) (between : List (Event τ φ η)) : Prop where
  /-- The activity has looked, and then paused. -/
  pause : Pause n looked between
  /-- It has the lock. -/
  held : (looked.run between).agent.reconnecting.isHeldBy n = true
  /-- With its next step it opens the transport, whatever it comes upon. -/
  opened : ((looked.run between).act (.step n)).agent.link.transport =
    (looked.run between).agent.openTransport.2.link.transport
  /-- The connection is given up exactly if the host has halted it in the pause. -/
  isHalted_iff : (looked.run between).agent.isHalted = true ↔ .halt ∈ between
  /-- The transport is open exactly if somebody has connected in the pause and it has stayed open. -/
  isOpen_iff : (looked.run between).agent.isOpen = true ↔ looked.OpenSince between

/-- **What a reopening has seen when it opens the transport.**  In every run of an agent in which
nobody acts out of turn, whoever sees to the transport and is about to open it has looked before,
and has found the transport closed and the connection not given up.  Since then it has paused, with
the lock, and it does not look again: the connection is given up by now exactly if the host has
halted it in the pause, and the transport is open by now exactly if somebody has connected past the
lock in the pause and it has stayed open. -/
theorem opened_after_pause [Transport.StaysClosed τ] {agent : Agent τ φ η}
    (free : agent.reconnecting = .free) {events : List (Event τ φ η)}
    (inTurn : (ofAgent agent).InTurn events)
    (opens : ((ofAgent agent).run events).reopening? n = some .opening) :
    ∃ earlier between, events = earlier ++ .step n :: between ∧
      Opens n ((ofAgent agent).run (earlier ++ [.step n])) between := by
  obtain ⟨task, mem, here⟩ := exists_of_reopening? opens
  have has : task.reopening?.any Reopening.hasAttempt = true := by rw [here]; rfl
  obtain ⟨earlier, between, rfl, pause⟩ := exists_pause (counts_ofAgent agent) nofun mem has
  have split : earlier ++ .step n :: between = (earlier ++ [.step n]) ++ between := by simp
  rw [split, run_append] at mem opens
  rw [split, inTurn_append] at inTurn
  obtain ⟨before, meanwhile⟩ := inTurn
  have inOrder := (InOrder.ofAgent free).run before
  refine ⟨earlier, between, rfl, pause, ?_, ?_, pause.isHalted_iff inOrder meanwhile,
    pause.isOpen_iff inOrder meanwhile⟩
  · exact (inOrder.run meanwhile).linesUp.holds _ mem has
  · show (Service.step _ n).agent.link.transport = _
    rw [(step_of_reopening opens).2, Reopening.transport_step,
      if_pos (Reopening.opened_mem_iff.mpr rfl)]

/-- An agent on a channel that has not been opened. -/
def unopened : Service MemoryChannel Console.Method Empty :=
  .ofAgent (.new Config.default .new .null .empty "id")

/-- A caller sees to the transport and pauses; another one connects meanwhile. -/
def overtaken : List (Event MemoryChannel Console.Method Empty) :=
  [.call .reopen, .step 0, .call .connect, .step 1, .time 100000 0, .step 0]

/-- A caller sees to the transport and pauses; the host halts the connection meanwhile. -/
def haltedMeanwhile : List (Event MemoryChannel Console.Method Empty) :=
  [.call .reopen, .step 0, .halt, .time 100000 0, .step 0]

theorem opened_after_pause_overtaken :
    unopened.InTurn overtaken ∧ (unopened.run overtaken).reopening? 0 = some .opening ∧
      ∃ earlier between, overtaken = earlier ++ .step 0 :: between ∧
        Opens 0 (unopened.run (earlier ++ [.step 0])) between := by
  have inTurn : unopened.InTurn overtaken := by decide +kernel
  have opens : (unopened.run overtaken).reopening? 0 = some .opening := by decide +kernel
  exact ⟨inTurn, opens, opened_after_pause rfl inTurn opens⟩

/-- **A reopening may open a transport that is open, and one of a connection that is given up.** -/
theorem opens_in_vain :
    (unopened.InTurn overtaken ∧ (unopened.run overtaken).reopening? 0 = some .opening ∧
        (unopened.run overtaken).agent.isOpen = true) ∧
      unopened.InTurn haltedMeanwhile ∧
        (unopened.run haltedMeanwhile).reopening? 0 = some .opening ∧
          (unopened.run haltedMeanwhile).agent.isHalted = true := by
  decide +kernel

end Service

end RemoteAgent
