import RemoteAgent.Proofs.Reconnects
import RemoteAgent.Proofs.TransportUse

/-!
# Who opens the transport again

A step of an activity adds entries to the log of attempts and openings (`Task.reconnects`).  Two
kinds of steps do: those that see to the transport, which all come down to a step of `Reopening`,
and the last one of a send that succeeds, which sets the counter back.

`Task.accounts_step` says that the log stays right: the connection is what the log makes of it,
every entry was allowed, and an activity that has an attempt was granted it as the last thing that
it did.  The second of these needs the third, for the step that opens the transport looks at
nothing; it may do so since it has its attempt from the step before.

## Main definitions

* `Reopening.reconnects`, `Task.reconnects`: what a step adds to the log.
* `Reconnect.Accounts`: a log that is right about a connection and about an activity.
-/

namespace RemoteAgent

variable {τ φ η : Type}

/-! ## Reopening -/

/-- A log accounts for a connection, and for the place at which an activity sees to the transport,
if it does: whoever has an attempt was granted it, and has done nothing since. -/
structure Reconnect.Accounts (start : Connection) (n : Nat) (log : List Reconnect)
    (place : Option Reopening) (c : Connection) : Prop where
  /-- The connection is what the log makes of it. -/
  connection : replay start log = c
  /-- Every entry was allowed. -/
  lawful : Lawful start log
  /-- The attempt was granted. -/
  granted : place.any Reopening.hasAttempt = true → lastOf n log = some (granted n)

/-- It goes on to do so for a place without an attempt. -/
theorem Reconnect.Accounts.quiet {start : Connection} {n : Nat} {log : List Reconnect}
    {place next : Option Reopening} {c : Connection} (accounts : Accounts start n log place c)
    (quiet : next.any Reopening.hasAttempt = false) : Accounts start n log next c :=
  ⟨accounts.connection, accounts.lawful, fun has => by simp [quiet] at has⟩

namespace Reopening

variable [Transport τ]

/-- What a check adds to the log. -/
def checked (agent : Agent τ φ η) (n : Nat) : List Reconnect :=
  if agent.isHalted ∨ agent.isOpen then []
  else
    match agent.connection.recordAttempt.1 with
    | .ok _ => [.granted n]
    | .error _ => [.refused n]

/-- What a step adds to the log. -/
def reconnects (agent : Agent τ φ η) (n : Nat) : Reopening → List Reconnect
  | requesting => if (agent.reconnecting.request n).isHeldBy n then checked agent n else []
  | queued => checked agent n
  | pausing _ => []
  | opening => .opened n :: checked agent.openTransport.2 n

/-- What a check comes to, told by what it adds to the log. -/
inductive Checks (agent : Agent τ φ η) (n : Nat) : List Reconnect → Step τ φ η → Prop
  /-- There is nothing left to do. -/
  | ended {result : Except TransportError Unit} {after : Agent τ φ η}
      (connection : after.connection = agent.connection)
      (other : ∀ count, result ≠ .error (.reconnectLimit count)) :
      Checks agent n [] (.done result, after)
  /-- An attempt may be made. -/
  | granted {time : Nat} {after : Agent τ φ η} (running : agent.connection.halted = false)
      (within : agent.connection.attempts + 1 ≤ agent.connection.limit)
      (connection : after.connection = Reconnect.apply agent.connection (.granted n)) :
      Checks agent n [.granted n] (.going (.pausing time), after)
  /-- There is one attempt too many. -/
  | refused {after : Agent τ φ η} (running : agent.connection.halted = false)
      (beyond : agent.connection.limit < agent.connection.attempts + 1)
      (connection : after.connection = Reconnect.apply agent.connection (.refused n))
      (signal : after.haltSignal = true) :
      Checks agent n [.refused n]
        (.done (.error (.reconnectLimit agent.connection.limit.toNat)), after)

/-- What a step comes to, told by what it adds to the log. -/
inductive Turn (agent : Agent τ φ η) (n : Nat) : Reopening → List Reconnect → Step τ φ η → Prop
  /-- It waits, for the lock or for the time. -/
  | waits {place next : Reopening} {after : Agent τ φ η}
      (connection : after.connection = agent.connection)
      (attempt : next.hasAttempt = true → place.hasAttempt = true) :
      Turn agent n place [] (.going next, after)
  /-- It has the lock, and checks. -/
  | checks {place : Reopening} {entries : List Reconnect} {stepped : Step τ φ η}
      {holding : Agent τ φ η} (connection : holding.connection = agent.connection)
      (checks : Checks holding n entries stepped) : Turn agent n place entries stepped
  /-- It opens the transport, and checks. -/
  | opens {entries : List Reconnect} {stepped : Step τ φ η}
      (checks : Checks agent.openTransport.2 n entries stepped) :
      Turn agent n opening (.opened n :: entries) stepped

variable {agent : Agent τ φ η} {n : Nat}

theorem checks_check : Checks agent n (checked agent n) (check agent n) := by
  unfold checked check
  by_cases halted : agent.isHalted = true
  · rw [if_pos (.inl halted), if_pos halted]
    exact .ended rfl nofun
  · by_cases isOpen : agent.isOpen = true
    · rw [if_pos (.inr isOpen), if_neg halted, if_pos isOpen]
      exact .ended rfl nofun
    · have running : agent.connection.halted = false := Bool.not_eq_true _ ▸ halted
      rw [if_neg (not_or.mpr ⟨halted, isOpen⟩), if_neg halted, if_neg isOpen]
      unfold Connection.recordAttempt
      dsimp only
      by_cases beyond : agent.connection.limit < agent.connection.attempts + 1
      · rw [if_pos beyond]
        exact .refused running beyond rfl rfl
      · rw [if_neg beyond]
        exact .granted running (UInt32.not_lt.mp beyond) rfl

theorem turn (place : Reopening) :
    Turn agent n place (place.reconnects agent n) (place.step agent n) := by
  cases place with
  | requesting =>
      unfold reconnects step
      dsimp only
      by_cases held : (agent.reconnecting.request n).isHeldBy n = true
      · rw [if_pos held, if_pos held]
        have checks : Checks { agent with reconnecting := agent.reconnecting.request n } n
            (checked agent n)
            (check { agent with reconnecting := agent.reconnecting.request n } n) :=
          checks_check
        exact Turn.checks (by rfl) checks
      · rw [if_neg held, if_neg held]
        exact .waits rfl nofun
  | queued => exact .checks rfl checks_check
  | pausing time => exact .waits rfl fun _ => rfl
  | opening => exact .opens checks_check

variable {entries : List Reconnect} {stepped : Step τ φ η}

/-! ### The log goes on -/

section Accounts

variable {start : Connection} {log : List Reconnect} {place : Option Reopening}

omit [Transport τ] in
theorem Checks.accounts (checks : Checks agent n entries stepped)
    (accounts : Reconnect.Accounts start n log place agent.connection) :
    Reconnect.Accounts start n (log ++ entries) stepped.1.next? stepped.2.connection := by
  obtain ⟨same, lawful, -⟩ := accounts
  cases checks with
  | ended connection other =>
      rw [List.append_nil]
      exact ⟨same.trans connection.symm, lawful, nofun⟩
  | granted running within connection =>
      refine ⟨?_, lawful.concat ?_, fun _ => Reconnect.lastOf_concat_self rfl log⟩
      · rw [Reconnect.replay_append, same]
        exact connection.symm
      · rw [← same] at running within
        exact ⟨running, within⟩
  | refused running beyond connection signal =>
      refine ⟨?_, lawful.concat ?_, nofun⟩
      · rw [Reconnect.replay_append, same]
        exact connection.symm
      · rw [← same] at running beyond
        exact ⟨running, beyond⟩

/-- A step of a reopening keeps the log right.  That it may open the transport is due to the attempt
that it was granted. -/
theorem accounts_step (place : Reopening)
    (accounts : Reconnect.Accounts start n log (some place) agent.connection) :
    Reconnect.Accounts start n (log ++ place.reconnects agent n) (place.step agent n).1.next?
      (place.step agent n).2.connection := by
  have turn : Turn agent n place (place.reconnects agent n) (place.step agent n) := turn place
  generalize place.reconnects agent n = entries, place.step agent n = stepped at turn ⊢
  cases turn with
  | waits connection attempt =>
      rw [List.append_nil]
      exact ⟨accounts.connection.trans connection.symm, accounts.lawful,
        fun has => accounts.granted (attempt has)⟩
  | checks connection checks => exact checks.accounts (connection ▸ accounts)
  | @opens entries _ checks =>
      have opened : Reconnect.Accounts start n (log ++ [.opened n]) none
          agent.openTransport.2.connection := by
        refine ⟨?_, accounts.lawful.concat (accounts.granted rfl), nofun⟩
        rw [Reconnect.replay_append, accounts.connection]
        rfl
      rw [List.append_cons]
      exact checks.accounts opened

end Accounts

/-! ### The attempt beyond the limit -/

omit [Transport τ] in
theorem Checks.reconnectLimit_iff (checks : Checks agent n entries stepped) {count : Nat} :
    stepped.1 = .done (.error (.reconnectLimit count)) ↔
      count = agent.connection.limit.toNat ∧ .refused n ∈ entries := by
  cases checks with
  | ended connection other =>
      constructor
      · intro ended
        exact absurd (Progress.done.inj ended) (other count)
      · rintro ⟨-, mem⟩
        cases mem
  | granted running within connection => simp
  | refused running beyond connection signal => simp [eq_comm]

/-- **A reopening ends for want of attempts exactly when it records one beyond the limit.** -/
theorem step_eq_reconnectLimit_iff (place : Reopening) {count : Nat} :
    (place.step agent n).1 = .done (.error (.reconnectLimit count)) ↔
      count = agent.connection.limit.toNat ∧ .refused n ∈ place.reconnects agent n := by
  have turn : Turn agent n place (place.reconnects agent n) (place.step agent n) := turn place
  generalize place.reconnects agent n = entries, place.step agent n = stepped at turn ⊢
  cases turn with
  | waits connection attempt => simp
  | checks connection checks => exact connection ▸ checks.reconnectLimit_iff
  | opens checks =>
      rw [checks.reconnectLimit_iff, List.mem_cons, or_iff_right Reconnect.noConfusion]
      rfl

omit [Transport τ] in
theorem Checks.gives_up (checks : Checks agent n entries stepped) (refused : .refused n ∈ entries) :
    stepped.2.isHalted = true ∧ stepped.2.haltSignal = true := by
  cases checks with
  | ended connection other => cases refused
  | granted running within connection => simp at refused
  | refused running beyond connection signal =>
      exact ⟨congrArg Connection.halted connection, signal⟩

/-- It has then given the connection up, and those who wait are told. -/
theorem gives_up_step {place : Reopening} (refused : .refused n ∈ place.reconnects agent n) :
    (place.step agent n).2.isHalted = true ∧ (place.step agent n).2.haltSignal = true := by
  have turn : Turn agent n place (place.reconnects agent n) (place.step agent n) := turn place
  generalize place.reconnects agent n = entries, place.step agent n = stepped at turn refused ⊢
  cases turn with
  | waits connection attempt => cases refused
  | checks connection checks => exact checks.gives_up refused
  | opens checks => exact checks.gives_up ((List.mem_cons.mp refused).resolve_left nofun)

/-! ### What opens the transport -/

omit [Transport τ] in
theorem Checks.not_opened (checks : Checks agent n entries stepped) : .opened n ∉ entries := by
  cases checks <;> simp

theorem opened_mem_iff {place : Reopening} :
    .opened n ∈ place.reconnects agent n ↔ place = opening := by
  have silent : ∀ agent : Agent τ φ η, .opened n ∉ checked agent n :=
    fun agent => checks_check.not_opened
  cases place with
  | requesting =>
      unfold reconnects
      dsimp only
      split <;> simp [silent]
  | queued => simp [reconnects, silent]
  | pausing time => simp [reconnects]
  | opening => simp [reconnects]

omit [Transport τ] in
theorem Checks.number (checks : Checks agent n entries stepped) :
    ∀ entry ∈ entries, entry.number? = some n := by
  cases checks with
  | ended connection other => exact nofun
  | granted running within connection => exact List.forall_mem_singleton.mpr rfl
  | refused running beyond connection signal => exact List.forall_mem_singleton.mpr rfl

/-- What a reopening adds to the log is its own. -/
theorem number_reconnects (place : Reopening) :
    ∀ entry ∈ place.reconnects agent n, entry.number? = some n := by
  have turn : Turn agent n place (place.reconnects agent n) (place.step agent n) := turn place
  generalize place.reconnects agent n = entries, place.step agent n = stepped at turn ⊢
  cases turn with
  | waits connection attempt => exact nofun
  | checks connection checks => exact checks.number
  | opens checks => exact List.forall_mem_cons.mpr ⟨rfl, checks.number⟩

/-- The log says when the transport is opened; a reopening does nothing else to it. -/
theorem transport_step (place : Reopening) :
    (place.step agent n).2.link.transport =
      if .opened n ∈ place.reconnects agent n then agent.openTransport.2.link.transport
      else agent.link.transport := by
  simp only [opened_mem_iff]
  cases place with
  | requesting =>
      unfold step
      dsimp only
      split
      · exact transport_check _ n
      · rfl
  | queued => exact transport_check agent n
  | pausing time => rfl
  | opening => exact transport_check _ n

end Reopening

/-! ## Deliveries and activities -/

namespace Delivery

variable [Transport τ]

/-- What a step of a delivery adds to the log. -/
def reconnects (agent : Agent τ φ η) (n : Nat) : Delivery → List Reconnect
  | reopening _ place => place.reconnects agent n
  | sending _ place =>
    match (place.step agent.link).1 with
    | .done (.ok ()) => [.reset n]
    | .done (.error _) | .going _ => []

variable {agent : Agent τ φ η} {n : Nat} {start : Connection} {log : List Reconnect}

theorem number_reconnects (delivery : Delivery) :
    ∀ entry ∈ delivery.reconnects agent n, entry.number? = some n := by
  cases delivery with
  | reopening text place => exact place.number_reconnects
  | sending text place =>
      unfold reconnects
      dsimp only
      split
      · exact List.forall_mem_singleton.mpr rfl
      · exact nofun
      · exact nofun

/-- A step of a send keeps the log right: if it is the last one, the attempts are forgotten. -/
theorem accounts_sending (text : String) (place : Sending)
    (accounts : Reconnect.Accounts start n log none agent.connection) :
    Reconnect.Accounts start n (log ++ (sending text place).reconnects agent n)
      (((sending text place).step agent n).1.next?.bind reopening?)
      ((sending text place).step agent n).2.connection := by
  have outcome : Outcome agent n (.sending text place) ((sending text place).step agent n) :=
    Delivery.outcome _
  generalize (sending text place).step agent n = stepped at outcome ⊢
  unfold reconnects
  dsimp only
  obtain ⟨same, lawful, -⟩ := accounts
  cases outcome with
  | sends stepped =>
      rw [stepped, List.append_nil]
      exact ⟨same, lawful, nofun⟩
  | sent stepped =>
      rw [stepped]
      refine ⟨?_, lawful.concat trivial, nofun⟩
      rw [Reconnect.replay_append, same]
      rfl
  | retries stepped broke isClosed =>
      rw [stepped, List.append_nil]
      exact ⟨same, lawful, nofun⟩
  | fails stepped fault =>
      rw [stepped, List.append_nil]
      exact ⟨same, lawful, nofun⟩

end Delivery

namespace Task

variable [Transport τ]

/-- What a step of an activity adds to the log. -/
def reconnects (agent : Agent τ φ η) (n : Nat) : Task → List Reconnect
  | reader (.reopening place) _ => place.reconnects agent n
  | reopen place => place.reconnects agent n
  | writer (.delivering delivery) => delivery.reconnects agent n
  | deliver delivery => delivery.reconnects agent n
  | _ => []

/-- What an activity adds to the log is its own. -/
theorem number_reconnects (agent : Agent τ φ η) (n : Nat) (task : Task) :
    ∀ entry ∈ task.reconnects agent n, entry.number? = some n := by
  cases task with
  | reader place companions =>
      cases place with
      | reopening place => exact place.number_reconnects
      | _ => exact nofun
  | writer place =>
      cases place with
      | delivering delivery => exact delivery.number_reconnects
      | _ => exact nofun
  | reopen place => exact place.number_reconnects
  | deliver delivery => exact delivery.number_reconnects
  | _ => exact nofun

variable {agent : Agent τ φ η} {n : Nat} {task : Task}

/-- An activity that delivers adds what its delivery adds. -/
theorem reconnects_of_delivery {delivery : Delivery} (delivers : task.delivery? = some delivery) :
    task.reconnects agent n = delivery.reconnects agent n := by
  obtain rfl | rfl := eq_of_delivery delivers
  · rfl
  · rfl

/-- An activity that sees to the transport adds what its reopening adds. -/
theorem reconnects_of_reopening {place : Reopening} (here : task.reopening? = some place) :
    task.reconnects agent n = place.reconnects agent n := by
  cases delivers : task.delivery? with
  | some delivery =>
      rw [reconnects_of_delivery delivers]
      rw [reopening?_of_delivery delivers] at here
      cases delivery with
      | sending => cases here
      | reopening text other =>
          cases here
          rfl
  | none =>
      obtain ⟨companions, rfl⟩ | rfl := eq_of_reopening delivers here
      · rfl
      · rfl

/-- Any other activity adds nothing. -/
theorem reconnects_of_plain (idle : task.delivery? = none) (elsewhere : task.reopening? = none) :
    task.reconnects agent n = [] := by
  cases task with
  | reader place companions =>
      cases place with
      | reopening => cases elsewhere
      | _ => rfl
  | writer place =>
      cases place with
      | delivering => cases idle
      | _ => rfl
  | reopen place => cases elsewhere
  | deliver delivery => cases idle
  | _ => rfl

/-- Only who sees to the transport is refused an attempt. -/
theorem exists_of_refused (refused : .refused n ∈ task.reconnects agent n) :
    ∃ place, task.reopening? = some place := by
  cases elsewhere : task.reopening? with
  | some place => exact ⟨place, rfl⟩
  | none =>
      cases delivers : task.delivery? with
      | none =>
          rw [reconnects_of_plain delivers elsewhere] at refused
          cases refused
      | some delivery =>
          rw [reopening?_of_delivery delivers] at elsewhere
          rw [reconnects_of_delivery delivers] at refused
          cases delivery with
          | reopening => cases elsewhere
          | sending text place =>
              unfold Delivery.reconnects at refused
              dsimp only at refused
              split at refused <;> simp at refused

variable [ObjectModel φ η] {start : Connection} {log : List Reconnect}

/-- **A step of an activity keeps the log right**, and those that it starts do not see to the
transport yet. -/
theorem accounts_step (fresh : Nat) (task : Task)
    (accounts : Reconnect.Accounts start n log task.reopening? agent.connection) :
    Reconnect.Accounts start n (log ++ task.reconnects agent n)
        (task.step agent n fresh).1.reopening? (task.step agent n fresh).2.connection ∧
      ∀ other ∈ (task.step agent n fresh).1.started, other.reopening? = none := by
  cases here : task.reopening? with
  | some place =>
      have reopens : Reopens agent n place (task.step agent n fresh) := reopens_step here
      rw [reopens.agent, reopens.next, reopens.started, reconnects_of_reopening here]
      exact ⟨place.accounts_step (here ▸ accounts), nofun⟩
  | none =>
      rw [here] at accounts
      cases delivers : task.delivery? with
      | some delivery =>
          obtain ⟨same, -, started⟩ := step_of_delivery agent n fresh delivers
          rw [reopening?_of_delivery delivers] at here
          rw [reopening_of_delivery delivers, reconnects_of_delivery delivers, same, started]
          cases delivery with
          | reopening => cases here
          | sending text place => exact ⟨Delivery.accounts_sending text place accounts, nofun⟩
      | none =>
          rw [reconnects_of_plain delivers here, List.append_nil]
          cases begins : task.envelope? agent with
          | some envelope =>
              obtain ⟨-, same, -, started⟩ := step_of_envelope n fresh begins
              have attempt := attempt_of_envelope n fresh begins
              rw [same, started]
              exact ⟨accounts.quiet attempt, nofun⟩
          | none =>
              have plain : Plain agent (task.step agent n fresh) :=
                step_of_plain delivers begins here
              rw [plain.connection]
              exact ⟨accounts.quiet plain.attempt, fun other mem => (plain.started other mem).2⟩

end Task

end RemoteAgent
