import Mathlib.Data.Bool.Basic
import RemoteAgent.Proofs.Fairness
import RemoteAgent.Proofs.OrderlyRuns

/-!
# How often a delivery tries

A delivery sees to the transport, sends its text, and does both again if the transport broke on the
way.  Neither loop has a counter of its own: what bounds them is the counter of attempts of the
connection, which others advance as well.

That it bounds the sends too is a matter of accounts.  A send costs an open transport, for the next
one comes only after the transport was found closed; and a transport that is closed gets open only
by who was granted an attempt.  So a send is paid for by an attempt, except for the first one, which
may find the transport open.  `Service.chances` are the sends that are paid for already: an attempt
that somebody has, and a transport that is open while the delivery sees to it.  With every event the
sends that begin and the chances after it are at most the chances before it and the attempts that it
grants (`Service.InOrder.chances_act`).

At first there may be an attempt and an open transport at once, two chances that nobody in the
window has paid for.  But the delivery waits for the lock first, and whoever has an attempt has the
lock; so when the delivery gets to look there is at most one
(`Service.InOrder.unattempted_of_looks`).

## Main definitions

* `Reconnect.Spends`: what a window of the log without a success has spent.
* `Service.deliveryStep?`: what a delivery comes to with the next step.
* `Service.sendCount`: how many sends an activity has begun.
* `Service.chances`: the sends that are paid for.
-/

namespace RemoteAgent

variable {τ φ η : Type}

/-! ## What a window spends -/

namespace Reconnect

variable {start c : Connection} {before window : List Reconnect} {entry : Reconnect}

/-- A window without a success, from a connection with some attempts made: the counter counts on
from there, and stays within the limit unless the connection is given up. -/
structure Spends (c : Connection) (window : List Reconnect) : Prop where
  /-- The limit stays. -/
  limit : (replay c window).limit = c.limit
  /-- The counter counts on. -/
  counter : (replay c window).attempts.toNat = c.attempts.toNat + window.countP isAttempt
  /-- At most one attempt is beyond the limit. -/
  most : c.attempts.toNat + window.countP isAttempt ≤ c.limit.toNat + 1
  /-- There is none while the connection is not given up. -/
  within : (replay c window).halted = false →
    c.attempts.toNat + window.countP isAttempt ≤ c.limit.toNat
  /-- No attempt beyond the limit is granted. -/
  granted : c.attempts.toNat + window.countP isGranted ≤ c.limit.toNat

theorem isAttempt_of_isGranted (granted : entry.isGranted = true) : entry.isAttempt = true := by
  cases entry with
  | granted n => rfl
  | _ => cases granted

namespace Spends

theorem nil (within : c.attempts ≤ c.limit) : Spends c [] where
  limit := rfl
  counter := rfl
  most := Nat.le_succ_of_le (UInt32.le_iff_toNat_le.mp within)
  within _ := UInt32.le_iff_toNat_le.mp within
  granted := UInt32.le_iff_toNat_le.mp within

/-- One more attempt is counted as one more, if the connection was not given up before. -/
theorem counter_succ (below : c.limit.toNat < UInt32.size - 1) (spends : Spends c window)
    (running : (replay c window).halted = false) :
    ((replay c window).attempts + 1).toNat = c.attempts.toNat + window.countP isAttempt + 1 := by
  have within := spends.within running
  rw [toNat_succ, spends.counter]
  rw [spends.counter]
  omega

/-- **The step lemma**: an entry that is allowed, and is not a success, keeps the accounts. -/
theorem concat (below : c.limit.toNat < UInt32.size - 1) (spends : Spends c window)
    (replayed : replay start before = c) (allowed : Allowed start (before ++ window) entry)
    (failing : ∀ n, entry ≠ reset n) : Spends c (window ++ [entry]) := by
  have same : replay c (window ++ [entry]) = apply (replay c window) entry :=
    replay_append c window [entry]
  have state : replay start (before ++ window) = replay c window := by
    rw [replay_append, replayed]
  have beyond : ∀ n, entry = .granted n →
      c.attempts.toNat + window.countP isAttempt + 1 ≤ c.limit.toNat := by
    rintro n rfl
    have within := UInt32.le_iff_toNat_le.mp allowed.2
    rwa [state, spends.counter_succ below (state ▸ allowed.1), spends.limit] at within
  constructor
  · rw [same]
    cases entry <;> exact spends.limit
  · rw [same, List.countP_append, ← Nat.add_assoc]
    cases entry with
    | granted n => exact spends.counter_succ below (state ▸ allowed.1)
    | refused n => exact spends.counter_succ below (state ▸ allowed.1)
    | reset n => exact absurd rfl (failing n)
    | _ => exact spends.counter
  · rw [List.countP_append, ← Nat.add_assoc]
    cases entry with
    | granted n => exact Nat.succ_le_succ (spends.within (state ▸ allowed.1))
    | refused n => exact Nat.succ_le_succ (spends.within (state ▸ allowed.1))
    | reset n => exact absurd rfl (failing n)
    | _ => exact spends.most
  · intro running
    rw [same] at running
    rw [List.countP_append, ← Nat.add_assoc]
    cases entry with
    | granted n => exact beyond n rfl
    | opened n => exact spends.within running
    | reset n => exact absurd rfl (failing n)
    | _ => cases running
  · rw [List.countP_append, ← Nat.add_assoc]
    cases entry with
    | granted n =>
        have fewer : window.countP isGranted ≤ window.countP isAttempt :=
          List.countP_mono_left fun _ _ => isAttempt_of_isGranted
        exact Nat.le_trans (Nat.succ_le_succ (Nat.add_le_add_left fewer _)) (beyond n rfl)
    | _ => exact spends.granted

end Spends

/-- **What a window without a success has spent.** -/
theorem Lawful.spends (lawful : Lawful start (before ++ window))
    (within : (replay start before).attempts ≤ (replay start before).limit)
    (below : (replay start before).limit.toNat < UInt32.size - 1)
    (failing : ∀ n, reset n ∉ window) : Spends (replay start before) window := by
  induction window using List.reverseRecOn with
  | nil => exact .nil within
  | append_singleton window entry ih =>
      rw [← List.append_assoc] at lawful
      have spends := ih lawful.of_append fun n mem => failing n (List.mem_append_left _ mem)
      refine spends.concat below rfl lawful.last fun n same => failing n ?_
      rw [same]
      exact List.mem_append_right _ (List.mem_singleton_self _)

end Reconnect

/-! ## What a reopening pays -/

namespace Reopening

variable [Transport τ] {agent : Agent τ φ η} {n : Nat}

/-- Whether a reopening has seen with this step that the transport is open. -/
def hasOpened : Progress Reopening (Except TransportError Unit) → Bool
  | .done (.ok ()) => true
  | .done (.error _) | .going _ => false

/-- What a look comes to, told by what is open then. -/
inductive Looks (agent : Agent τ φ η) (n : Nat) : List Reconnect → Step τ φ η → Prop
  /-- The transport is open. -/
  | opened {after : Agent τ φ η} (isOpen : agent.isOpen = true) :
      Looks agent n [] (.done (.ok ()), after)
  /-- The transport is closed, and an attempt is granted. -/
  | granted {time : Nat} {after : Agent τ φ η} (isClosed : after.isOpen = false) :
      Looks agent n [.granted n] (.going (.pausing time), after)
  /-- The connection is given up. -/
  | fails {entries : List Reconnect} {error : TransportError} {after : Agent τ φ η} :
      Looks agent n entries (.done (.error error), after)

theorem looks_check : Looks agent n (checked agent n) (check agent n) := by
  unfold checked check
  by_cases halted : agent.isHalted = true
  · rw [if_pos (.inl halted), if_pos halted]
    exact .fails
  · by_cases isOpen : agent.isOpen = true
    · rw [if_pos (.inr isOpen), if_neg halted, if_pos isOpen]
      exact .opened isOpen
    · have isClosed : agent.isOpen = false := Bool.not_eq_true _ ▸ isOpen
      rw [if_neg (not_or.mpr ⟨halted, isOpen⟩), if_neg halted, if_neg isOpen]
      unfold Connection.recordAttempt
      dsimp only
      by_cases beyond : agent.connection.limit < agent.connection.attempts + 1
      · rw [if_pos beyond]
        exact .fails
      · rw [if_neg beyond]
        exact .granted isClosed

/-- What is left after a step, an attempt or an open transport, against what was there before and
what is granted. -/
structure Pays (place : Reopening) (wasOpen : Bool) (entries : List Reconnect)
    (stepped : Step τ φ η) : Prop where
  /-- To the one who takes the step, which may go on to send, or to see to the transport. -/
  own : (hasOpened stepped.1).toNat + (stepped.1.next?.any hasAttempt).toNat +
      (stepped.1.next?.isSome && stepped.2.isOpen).toNat ≤
    place.hasAttempt.toNat + wasOpen.toNat + entries.countP Reconnect.isGranted
  /-- To somebody else who sees to the transport. -/
  others : (stepped.1.next?.any hasAttempt).toNat + stepped.2.isOpen.toNat ≤
    place.hasAttempt.toNat + wasOpen.toNat + entries.countP Reconnect.isGranted
  /-- To anybody else. -/
  attempt : (stepped.1.next?.any hasAttempt).toNat ≤
    place.hasAttempt.toNat + entries.countP Reconnect.isGranted

/-- A look pays for what it leaves, if an open transport was paid for. -/
theorem pays_check (agent : Agent τ φ η) {place : Reopening} {wasOpen : Bool}
    (paid : agent.isOpen.toNat ≤ place.hasAttempt.toNat + wasOpen.toNat) :
    Pays place wasOpen (checked agent n) (check agent n) := by
  have same : (check agent n).2.isOpen = agent.isOpen :=
    congrArg Transport.isOpen (transport_check agent n)
  have looks : Looks agent n (checked agent n) (check agent n) := looks_check
  generalize checked agent n = entries, check agent n = stepped at same looks ⊢
  cases looks with
  | @opened after isOpen =>
      have same : after.isOpen = agent.isOpen := same
      refine ⟨?_, ?_, Nat.zero_le _⟩
      · show 1 ≤ _ + List.countP Reconnect.isGranted []
        rw [isOpen] at paid
        exact paid
      · show 0 + after.isOpen.toNat ≤ _
        rw [Nat.zero_add, same]
        exact paid
  | @granted time after isClosed =>
      refine ⟨?_, ?_, Nat.le_add_left _ _⟩
      · show 0 + 1 + (true && after.isOpen).toNat ≤ _ + 1
        rw [isClosed]
        exact Nat.le_add_left _ _
      · show 1 + after.isOpen.toNat ≤ _ + 1
        rw [isClosed]
        exact Nat.le_add_left _ _
  | @fails entries error after =>
      have same : after.isOpen = agent.isOpen := same
      refine ⟨Nat.zero_le _, ?_, Nat.zero_le _⟩
      show 0 + after.isOpen.toNat ≤ _
      rw [Nat.zero_add, same]
      exact Nat.le_add_right_of_le paid

theorem reset_not_mem (place : Reopening) (m : Nat) : .reset m ∉ place.reconnects agent n := by
  have turn : Turn agent n place (place.reconnects agent n) (place.step agent n) := place.turn
  generalize place.reconnects agent n = entries, place.step agent n = stepped at turn ⊢
  cases turn with
  | waits => exact List.not_mem_nil
  | checks _ checks => cases checks <;> simp
  | opens checks => cases checks <;> simp

/-- **A reopening pays for what it leaves.** -/
theorem pays_step (place : Reopening) :
    Pays place agent.isOpen (place.reconnects agent n) (place.step agent n) := by
  have waits : ∀ {place next : Reopening} {after : Agent τ φ η},
      after.isOpen = agent.isOpen → next.hasAttempt = place.hasAttempt →
        Pays place agent.isOpen [] (.going next, after) := by
    intro place next after same attempt
    have left : next.hasAttempt.toNat + after.isOpen.toNat ≤
        place.hasAttempt.toNat + agent.isOpen.toNat := Nat.le_of_eq (by rw [same, attempt])
    refine ⟨?_, left, ?_⟩
    · show 0 + next.hasAttempt.toNat + (true && after.isOpen).toNat ≤ _
      rw [Nat.zero_add, Bool.true_and]
      exact left
    · show next.hasAttempt.toNat ≤ _
      rw [attempt]
      exact Nat.le_refl _
  cases place with
  | requesting =>
      unfold reconnects step
      dsimp only
      split
      · exact pays_check { agent with reconnecting := agent.reconnecting.request n }
          (Nat.le_add_left _ _)
      · exact waits rfl rfl
  | queued => exact pays_check agent (Nat.le_add_left _ _)
  | pausing time => exact waits rfl rfl
  | opening =>
      have pays : Pays opening agent.isOpen (checked agent.openTransport.2 n)
          (check agent.openTransport.2 n) :=
        pays_check _ (Nat.le_trans (Bool.toNat_le _) (Nat.le_add_right 1 _))
      exact ⟨pays.own, pays.others, pays.attempt⟩

end Reopening

/-! ## What a send answers -/

namespace Sending

theorem next_ne_error (link : Link τ) (frames : List Frame) (error : TransportError) :
    (next link frames).1 ≠ .done (.error error) := by
  cases frames <;> exact nofun

/-- A send by itself does not know of the limit, so it is the transport that names it. -/
theorem exists_of_reconnectLimit [Transport τ] {link : Link τ} {place : Sending} {count : Nat}
    (ended : (place.step link).1 = .done (.error (.reconnectLimit count))) :
    ∃ text, (Transport.send text link.transport).1 = .error (.reconnectLimit count) := by
  cases place with
  | acquiring payload since again =>
      unfold step acquire at ended
      dsimp only at ended
      split at ended
      · exact absurd ended (next_ne_error _ _ _)
      · split at ended <;> cases ended
  | transmitting frame rest =>
      have sent : (link.transmit frame).1 = (Transport.send frame.encode link.transport).1 := rfl
      unfold step transmit at ended
      dsimp only at ended
      split at ended
      · next error after failed =>
          cases ended
          rw [failed] at sent
          exact ⟨_, sent.symm⟩
      · split at ended
        · cases ended
        · exact absurd ended (next_ne_error _ _ _)
  | waiting rest deadline =>
      unfold step await at ended
      dsimp only at ended
      split at ended
      · exact absurd ended (next_ne_error _ _ _)
      · split at ended <;> cases ended

end Sending

/-! ## Deliveries of activities -/

/-- A delivery that goes on seeing to the transport. -/
theorem Delivery.step_of_waiting [Transport τ] {agent : Agent τ φ η} {n : Nat}
    {place next : Reopening} (text : String) (waits : (place.step agent n).1 = .going next) :
    ((reopening text place).step agent n).1 = .going (.reopening text next) := by
  unfold step
  dsimp only
  rcases stepped : place.step agent n with ⟨progress, after⟩
  rw [stepped] at waits
  cases waits
  rfl

/-- What the delivery that an activity is at, or begins, comes to with the next step. -/
def Task.deliveryStep? [Transport τ] (agent : Agent τ φ η) (n : Nat) (task : Task) :
    Option (Progress Delivery (Except TransportError Unit)) :=
  match task.delivery? with
  | some delivery => some (delivery.step agent n).1
  | none => (task.envelope? agent).map (Delivery.start agent)

/-- Who begins a delivery is not at one. -/
theorem Task.delivery?_of_envelope {agent : Agent τ φ η} {task : Task} {envelope : Json}
    (begins : task.envelope? agent = some envelope) : task.delivery? = none := by
  cases task with
  | writer place =>
      cases place with
      | delivering => cases begins
      | _ => rfl
  | deliver => cases begins
  | _ => rfl

namespace Service

variable {p : Service τ φ η} {event : Event τ φ η} {n m : Nat} {task : Task}
  {delivery next : Delivery}

/-- Where activity `n` goes on, unless it is to end. -/
def task? (p : Service τ φ η) (n : Nat) : Option Task :=
  match p.activity? n with
  | some ⟨_, task, false⟩ => some task
  | some ⟨_, _, true⟩ | none => none

/-- The delivery that activity `n` is at, unless it is to end. -/
def delivery? (p : Service τ φ η) (n : Nat) : Option Delivery := (p.task? n).bind Task.delivery?

/-- What the delivery that activity `n` is at, or begins, comes to with the next step. -/
def deliveryStep? [Transport τ] (p : Service τ φ η) (n : Nat) :
    Option (Progress Delivery (Except TransportError Unit)) :=
  (p.task? n).bind (Task.deliveryStep? p.agent n)

theorem task?_eq_some_iff (counts : p.Counts) :
    p.task? n = some task ↔ ⟨n, task, false⟩ ∈ p.activities := by
  unfold task?
  constructor
  · intro here
    split at here
    · next number other found =>
        cases here
        obtain ⟨mem, rfl⟩ := mem_of_activity? found
        exact mem
    · cases here
    · cases here
  · intro mem
    rw [activity?_of_mem counts mem]

theorem delivery?_eq_some_iff (counts : p.Counts) :
    p.delivery? n = some delivery ↔
      ∃ task, ⟨n, task, false⟩ ∈ p.activities ∧ task.delivery? = some delivery := by
  unfold delivery?
  rw [Option.bind_eq_some_iff]
  exact exists_congr fun task => and_congr_left' (task?_eq_some_iff counts)

theorem reopening?_of_delivery? (counts : p.Counts) (delivers : p.delivery? n = some delivery) :
    p.reopening? n = delivery.reopening? := by
  obtain ⟨task, mem, here⟩ := (delivery?_eq_some_iff counts).mp delivers
  rw [counts.reopening?_eq mem, Task.reopening?_of_delivery here]

section Steps

variable [Transport τ] [ObjectModel φ η]

/-- Nobody else has a part in a delivery. -/
theorem delivery?_of_ne (counts : p.Counts) (other : event ≠ .step n)
    (delivers : (p.act event).delivery? n = some delivery) : p.delivery? n = some delivery := by
  obtain ⟨task, mem, here⟩ := (delivery?_eq_some_iff (counts.act event)).mp delivers
  cases came mem with
  | stayed old => exact (delivery?_eq_some_iff counts).mpr ⟨task, old, here⟩
  | moved own => exact absurd own other
  | @called call _ _ begun =>
      rw [begun] at here
      cases call <;> cases here
  | @started m other _ _ _ starts =>
      rw [(other.plain_started p.agent m p.fresh task starts).1] at here
      cases here

/-- An activity that delivers goes on where its delivery does. -/
theorem deliveryStep_of_going (counts : p.Counts) (delivers : p.delivery? n = some delivery)
    (goesOn : (p.act (.step n)).delivery? n = some next) :
    (delivery.step p.agent n).1 = .going next := by
  obtain ⟨before, memBefore, at_⟩ := (delivery?_eq_some_iff counts).mp delivers
  obtain ⟨task, mem, here⟩ := (delivery?_eq_some_iff (counts.act _)).mp goesOn
  cases came mem with
  | stayed _ other => exact absurd rfl other
  | moved _ memOther going =>
      obtain rfl := counts.task_eq memBefore memOther
      refine Progress.next?_eq_some_iff.mp ?_
      rw [← (Task.step_of_delivery p.agent n p.fresh at_).2.1, ← here]
      unfold Effect.delivery?
      rw [going]
      rfl
  | called calls => cases calls
  | started _ _ fresh => exact absurd (counts.fresh _ memBefore) (Nat.not_lt.mpr fresh)

/-- An activity that begins a delivery sees to the transport first. -/
theorem delivery_of_begins (counts : p.Counts) {envelope : Json}
    (mem : ⟨n, task, false⟩ ∈ p.activities) (begins : task.envelope? p.agent = some envelope)
    (goesOn : (p.act (.step n)).delivery? n = some next) :
    next = .reopening (Codec.encode envelope) .requesting := by
  obtain ⟨after, memAfter, here⟩ := (delivery?_eq_some_iff (counts.act _)).mp goesOn
  cases came memAfter with
  | stayed _ other => exact absurd rfl other
  | moved _ memOther going =>
      obtain rfl := counts.task_eq mem memOther
      have start := (Task.step_of_envelope n p.fresh begins).2.2.1
      unfold Effect.delivery? at start
      rw [going] at start
      have start : after.delivery? = (Delivery.start p.agent envelope).next? := start
      rw [here] at start
      unfold Delivery.start at start
      split at start <;> cases start
      rfl
  | called calls => cases calls
  | started _ _ fresh => exact absurd (counts.fresh _ mem) (Nat.not_lt.mpr fresh)

theorem act_of_delivery (counts : p.Counts) (delivers : p.delivery? n = some delivery) :
    (p.act (.step n)).agent = (delivery.step p.agent n).2 := by
  obtain ⟨task, mem, here⟩ := (delivery?_eq_some_iff counts).mp delivers
  show (p.step n).agent = _
  rw [step_of_running (activity?_of_mem counts mem), agent_after,
    (Task.step_of_delivery p.agent n p.fresh here).1]

/-! ### Chances -/

/-- Whether somebody has an attempt to open the transport. -/
def attempting (p : Service τ φ η) : Bool :=
  p.activities.any fun activity =>
    !activity.aborted && activity.task.reopening?.any Reopening.hasAttempt

/-- Whether activity `n` sees to the transport for a delivery. -/
def isReopening (p : Service τ φ η) (n : Nat) : Bool :=
  ((p.delivery? n).bind Delivery.reopening?).isSome

/-- How many sends activity `n` can come to without another attempt. -/
def chances (p : Service τ φ η) (n : Nat) : Nat :=
  p.attempting.toNat + (p.isReopening n && p.agent.isOpen).toNat

/-- Whether activity `n` begins a send, having seen that the transport is open. -/
def beginsSend (p : Service τ φ η) (n : Nat) : Event τ φ η → Bool
  | .step m => decide (m = n) && ((p.delivery? n).bind Delivery.reopening?).any fun place =>
      Reopening.hasOpened (place.step p.agent n).1
  | .call _ | .abort _ | .halt | .channel _ | .time _ _ | .session _ => false

/-- Whether somebody opens the transport who sees to it. -/
def IsOpening (p : Service τ φ η) : Event τ φ η → Prop
  | .step m => p.reopening? m = some .opening
  | .call _ | .abort _ | .halt | .channel _ | .time _ _ | .session _ => False

instance : DecidablePred p.IsOpening
  | .step m => inferInstanceAs (Decidable (p.reopening? m = some .opening))
  | .call _ | .abort _ | .halt | .channel _ | .time _ _ | .session _ => .isFalse id

/-- A transport that is closed gets open only by who sees to it. -/
def OpensInLine (p : Service τ φ η) (event : Event τ φ η) : Prop :=
  p.agent.isOpen = false → (p.act event).agent.isOpen = true → p.IsOpening event

instance : DecidablePred p.OpensInLine := fun event =>
  inferInstanceAs
    (Decidable (p.agent.isOpen = false → (p.act event).agent.isOpen = true → p.IsOpening event))

omit [Transport τ] [ObjectModel φ η] in
theorem attempting_iff :
    p.attempting = true ↔ ∃ m task, ⟨m, task, false⟩ ∈ p.activities ∧
      task.reopening?.any Reopening.hasAttempt = true := by
  unfold attempting
  rw [List.any_eq_true]
  constructor
  · rintro ⟨⟨m, task, aborted⟩, mem, has⟩
    obtain ⟨running, has⟩ := Bool.and_eq_true_iff.mp has
    obtain rfl : aborted = false := by simpa using running
    exact ⟨m, task, mem, has⟩
  · rintro ⟨m, task, mem, has⟩
    exact ⟨_, mem, by simpa using has⟩

omit [ObjectModel φ η] in
theorem beginsSend_of_ne (other : event ≠ .step n) : p.beginsSend n event = false := by
  cases event with
  | step m => simp [beginsSend, show m ≠ n from fun same => other (congrArg Event.step same)]
  | _ => rfl

theorem isReopening_of_ne (counts : p.Counts) (other : event ≠ .step n)
    (reopens : (p.act event).isReopening n = true) : p.isReopening n = true := by
  unfold isReopening at reopens ⊢
  obtain ⟨place, here⟩ := Option.isSome_iff_exists.mp reopens
  obtain ⟨delivery, delivers, at_⟩ := Option.bind_eq_some_iff.mp here
  rw [delivery?_of_ne counts other delivers]
  exact Option.isSome_iff_exists.mpr ⟨place, at_⟩

/-- Who does not see to the transport brings nobody an attempt. -/
theorem attempting_of_idle (counts : p.Counts) (idle : ∀ m, event = .step m → p.reopening? m = none)
    (attempts : (p.act event).attempting = true) : p.attempting = true := by
  obtain ⟨m, task, mem, has⟩ := attempting_iff.mp attempts
  cases came mem with
  | stayed old => exact attempting_iff.mpr ⟨m, task, old, has⟩
  | @moved before own memBefore going =>
      have elsewhere := idle m own
      rw [counts.reopening?_eq memBefore] at elsewhere
      have none := Task.idle_step p.agent m p.fresh elsewhere
      unfold Effect.reopening? at none
      rw [going] at none
      have none : task.reopening?.any Reopening.hasAttempt = false := none
      rw [has] at none
      cases none
  | @called call _ _ begun =>
      rw [begun] at has
      cases call <;> cases has
  | @started k other _ _ _ starts =>
      rw [(other.plain_started p.agent k p.fresh task starts).2] at has
      cases has

namespace InOrder

variable {start : Connection} {log : List Reconnect}

/-- Who sees to the transport has an attempt instead of the one that it had. -/
theorem attempting_of_reopening (inOrder : p.InOrder start log) {place : Reopening}
    (here : p.reopening? m = some place) :
    (p.act (.step m)).attempting.toNat + place.hasAttempt.toNat ≤
      p.attempting.toNat + ((place.step p.agent m).1.next?.any Reopening.hasAttempt).toNat := by
  have counts : p.Counts := inOrder.tallies.counts
  obtain ⟨before, memBefore, at_⟩ := exists_of_reopening? here
  have mine : place.hasAttempt.toNat ≤ p.attempting.toNat := by
    cases has : place.hasAttempt with
    | false => exact Nat.zero_le _
    | true =>
        have attempts : p.attempting = true :=
          attempting_iff.mpr ⟨m, before, memBefore, by rw [at_]; exact has⟩
        exact Nat.le_of_eq (congrArg Bool.toNat attempts.symm)
  cases attempts : (p.act (.step m)).attempting with
  | false => exact Nat.le_trans (Nat.le_of_eq (Nat.zero_add _)) (Nat.le_add_right_of_le mine)
  | true =>
      obtain ⟨k, task, mem, has⟩ := attempting_iff.mp attempts
      cases came mem with
      | stayed old other =>
          have theirs : p.attempting = true := attempting_iff.mpr ⟨k, task, old, has⟩
          have none : place.hasAttempt = false := by
            by_contra mine
            rw [Bool.not_eq_false] at mine
            have same := inOrder.linesUp.attempt_unique old has memBefore (by rw [at_]; exact mine)
            exact other (congrArg Event.step same)
          rw [theirs, none]
          exact Nat.le_add_right _ _
      | moved own memOther going =>
          obtain rfl := Event.step.inj own
          obtain rfl := counts.task_eq memBefore memOther
          have reopens : Task.Reopens p.agent m place (Task.step p.agent m p.fresh _) :=
            Task.reopens_step at_
          have next := reopens.next
          unfold Effect.reopening? at next
          rw [going] at next
          have next : task.reopening? = (place.step p.agent m).1.next? := next
          rw [← next, has, Nat.add_comm]
          exact Nat.add_le_add_right mine 1
      | called calls => cases calls
      | @started k' other _ _ _ starts =>
          rw [(other.plain_started p.agent k' p.fresh task starts).2] at has
          cases has

/-- What a delivery is left with that takes a step of its reopening. -/
theorem chances_own (inOrder : p.InOrder start log) {text : String} {place : Reopening}
    (delivers : p.delivery? n = some (.reopening text place)) :
    (p.beginsSend n (.step n)).toNat + (p.act (.step n)).chances n ≤
      p.chances n + (p.reconnects (.step n)).countP Reconnect.isGranted := by
  have counts : p.Counts := inOrder.tallies.counts
  have here : p.reopening? n = some place := reopening?_of_delivery? counts delivers
  obtain ⟨entries, after⟩ := step_of_reopening here
  have begins : p.beginsSend n (.step n) = Reopening.hasOpened (place.step p.agent n).1 := by
    simp [beginsSend, delivers, Delivery.reopening?]
  have reopens : p.isReopening n = true := by simp [isReopening, delivers, Delivery.reopening?]
  have stays : ((p.act (.step n)).isReopening n && (p.act (.step n)).agent.isOpen).toNat ≤
      ((place.step p.agent n).1.next?.isSome && (place.step p.agent n).2.isOpen).toNat := by
    have after : (p.act (.step n)).agent = (place.step p.agent n).2 := after
    refine Bool.toNat_le_toNat fun left => ?_
    obtain ⟨goesOn, isOpen⟩ := Bool.and_eq_true_iff.mp left
    obtain ⟨next, goesOn⟩ := Option.isSome_iff_exists.mp goesOn
    obtain ⟨delivery, delivering, at_⟩ := Option.bind_eq_some_iff.mp goesOn
    have stepped := deliveryStep_of_going counts delivers delivering
    rw [← (Delivery.step_reopening p.agent n text place).2, stepped, ← after, isOpen, Bool.and_true]
    exact Option.isSome_iff_exists.mpr ⟨next, at_⟩
  have pays : Reopening.Pays place p.agent.isOpen (place.reconnects p.agent n)
      (place.step p.agent n) := place.pays_step
  have own := pays.own
  have attempts := inOrder.attempting_of_reopening here
  have entries : p.reconnects (.step n) = place.reconnects p.agent n := entries
  unfold chances
  rw [begins, reopens, Bool.true_and, entries]
  omega

/-- What a delivery is left with if another one takes a step of its reopening. -/
theorem chances_others (inOrder : p.InOrder start log) {place : Reopening} (other : m ≠ n)
    (here : p.reopening? m = some place) :
    (p.act (.step m)).chances n ≤
      p.chances n + (p.reconnects (.step m)).countP Reconnect.isGranted := by
  obtain ⟨entries, after⟩ := step_of_reopening here
  have pays : Reopening.Pays place p.agent.isOpen (place.reconnects p.agent m)
      (place.step p.agent m) := place.pays_step
  have attempts := inOrder.attempting_of_reopening here
  have entries : p.reconnects (.step m) = place.reconnects p.agent m := entries
  have after : (p.act (.step m)).agent = (place.step p.agent m).2 := after
  unfold chances
  rw [entries]
  cases reopens : (p.act (.step m)).isReopening n with
  | true =>
      have before := isReopening_of_ne inOrder.tallies.counts
        (fun same => other (Event.step.inj same)) reopens
      have others := pays.others
      rw [before, Bool.true_and, Bool.true_and, after]
      omega
  | false =>
      have attempt := pays.attempt
      rw [Bool.false_and, Bool.toNat_false]
      omega

/-- What a delivery is left with if nobody takes a step of a reopening. -/
theorem chances_idle (inOrder : p.InOrder start log) (delivers : p.delivery? n = some delivery)
    (idle : ∀ m, event = .step m → p.reopening? m = none) (inLine : p.OpensInLine event) :
    (p.act event).chances n ≤ p.chances n := by
  have counts : p.Counts := inOrder.tallies.counts
  have attempts : (p.act event).attempting.toNat ≤ p.attempting.toNat :=
    Bool.toNat_le_toNat (attempting_of_idle counts idle)
  refine Nat.add_le_add attempts (Bool.toNat_le_toNat fun left => ?_)
  obtain ⟨reopens, isOpen⟩ := Bool.and_eq_true_iff.mp left
  by_cases own : event = .step n
  · -- A send that has failed is tried again over a transport that is closed.
    exfalso
    subst own
    obtain ⟨place, goesOn⟩ := Option.isSome_iff_exists.mp reopens
    obtain ⟨next, delivering, at_⟩ := Option.bind_eq_some_iff.mp goesOn
    have stepped := deliveryStep_of_going counts delivers delivering
    rw [act_of_delivery counts delivers] at isOpen
    have elsewhere := idle n rfl
    rw [reopening?_of_delivery? counts delivers] at elsewhere
    cases delivery with
    | reopening => cases elsewhere
    | sending text sending =>
        have outcome : Delivery.Outcome p.agent n (.sending text sending)
            ((Delivery.sending text sending).step p.agent n) := Delivery.outcome _
        generalize (Delivery.sending text sending).step p.agent n = result at outcome stepped isOpen
        cases outcome with
        | sends =>
            cases stepped
            cases at_
        | sent => cases stepped
        | @retries _ _ link _ _ _ isClosed =>
            have isOpen : Transport.isOpen link.transport = true := isOpen
            rw [isClosed] at isOpen
            cases isOpen
        | fails => cases stepped
  · have wasOpen : p.agent.isOpen = true := by
      by_contra isClosed
      have opening := inLine (Bool.not_eq_true _ ▸ isClosed) isOpen
      cases event with
      | step m =>
          have here : p.reopening? m = some .opening := opening
          rw [idle m rfl] at here
          cases here
      | _ => cases opening
    rw [isReopening_of_ne counts own reopens, wasOpen]
    rfl

/-- **Sends are paid for**: what a delivery begins, and what it can come to afterwards, is paid for
by what it could come to before and by the attempts that are granted. -/
theorem chances_act (inOrder : p.InOrder start log) (delivers : p.delivery? n = some delivery)
    (inLine : p.OpensInLine event) :
    (p.beginsSend n event).toNat + (p.act event).chances n ≤
      p.chances n + (p.reconnects event).countP Reconnect.isGranted := by
  have counts : p.Counts := inOrder.tallies.counts
  by_cases idle : ∀ m, event = .step m → p.reopening? m = none
  · have begins : p.beginsSend n event = false := by
      cases event with
      | step m =>
          by_cases own : m = n
          · subst own
            have elsewhere := idle m rfl
            rw [reopening?_of_delivery? counts delivers] at elsewhere
            simp [beginsSend, delivers, elsewhere]
          · simp [beginsSend, own]
      | _ => rfl
    rw [begins, Bool.toNat_false, Nat.zero_add]
    exact Nat.le_add_right_of_le (inOrder.chances_idle delivers idle inLine)
  · push Not at idle
    obtain ⟨m, rfl, sees⟩ := idle
    obtain ⟨place, here⟩ := Option.ne_none_iff_exists'.mp sees
    by_cases own : m = n
    · subst own
      rw [reopening?_of_delivery? counts delivers] at here
      cases delivery with
      | reopening text other => exact inOrder.chances_own delivers
      | sending => cases here
    · rw [beginsSend_of_ne fun same => own (Event.step.inj same), Bool.toNat_false, Nat.zero_add]
      exact inOrder.chances_others own here

omit [ObjectModel φ η] in
/-- **When a delivery gets to look, nobody has an attempt**, for whoever has one has the lock. -/
theorem unattempted_of_looks (inOrder : p.InOrder start log) {text : String} {place : Reopening}
    (delivers : p.delivery? n = some (.reopening text place)) (idle : place.hasAttempt = false)
    (able : p.isReady n = true) :
    (place.step p.agent n).1 = .going .queued ∨ p.attempting = false := by
  have counts : p.Counts := inOrder.tallies.counts
  obtain ⟨task, mem, here⟩ := (delivery?_eq_some_iff counts).mp delivers
  have at_ : task.reopening? = some place := Task.reopening?_of_delivery here
  have alone : ∀ {lock : FairLock}, lock.isHeldBy n = true →
      (∀ m, p.agent.reconnecting.isHeldBy m = true → lock.isHeldBy m = true) →
        p.attempting = false := by
    intro lock held keeps
    by_contra attempts
    rw [Bool.not_eq_false] at attempts
    obtain ⟨m, other, memOther, has⟩ := attempting_iff.mp attempts
    have theirs := keeps m (inOrder.linesUp.holds _ memOther has)
    obtain rfl : m = n :=
      Option.some.inj ((of_decide_eq_true theirs).symm.trans (of_decide_eq_true held))
    rw [counts.task_eq mem memOther, at_] at has
    have has : place.hasAttempt = true := has
    rw [idle] at has
    cases has
  cases place with
  | requesting =>
      unfold Reopening.step
      dsimp only
      split
      · next held =>
          refine .inr (alone held fun m theirs => ?_)
          have holder : p.agent.reconnecting.holder = some m := of_decide_eq_true theirs
          unfold FairLock.request
          rw [holder]
          exact decide_eq_true rfl
      · exact .inl rfl
  | queued =>
      unfold isReady at able
      rw [activity?_of_mem counts mem] at able
      have held : p.agent.reconnecting.isHeldBy n = true :=
        (Task.isReady_of_reopening at_ n).symm.trans able
      exact .inr (alone held fun _ => id)
  | pausing => cases idle
  | opening => cases idle

end InOrder

/-! ### How sends end -/

/-- What a send of activity `n` ends with, if it ends. -/
def sendResult? (p : Service τ φ η) (n : Nat) : Event τ φ η → Option (Except TransportError Unit)
  | .step m =>
    if m = n then
      ((p.delivery? n).bind Delivery.sending?).bind fun place => (place.step p.agent.link).1.result?
    else none
  | .call _ | .abort _ | .halt | .channel _ | .time _ _ | .session _ => none

omit [ObjectModel φ η] in
theorem sendResult?_eq_some_iff {result : Except TransportError Unit} :
    p.sendResult? n event = some result ↔ event = .step n ∧ ∃ text place,
      p.delivery? n = some (.sending text place) ∧ (place.step p.agent.link).1 = .done result := by
  constructor
  · intro ended
    cases event with
    | step m =>
        by_cases own : m = n
        · subst own
          rw [sendResult?, if_pos rfl] at ended
          obtain ⟨place, sends, ended⟩ := Option.bind_eq_some_iff.mp ended
          obtain ⟨delivery, delivers, at_⟩ := Option.bind_eq_some_iff.mp sends
          cases delivery with
          | reopening => cases at_
          | sending text other =>
              cases at_
              refine ⟨rfl, text, place, delivers, ?_⟩
              cases progress : (place.step p.agent.link).1 with
              | going next =>
                  rw [progress] at ended
                  cases ended
              | done other =>
                  rw [progress] at ended
                  cases ended
                  rfl
        · rw [sendResult?, if_neg own] at ended
          cases ended
    | _ => cases ended
  · rintro ⟨rfl, text, place, delivers, ended⟩
    simp [sendResult?, delivers, Delivery.sending?, ended, Progress.result?]

omit [ObjectModel φ η] in
/-- The attempts are forgotten when a send succeeds. -/
theorem sendResult_of_reset (counts : p.Counts) (forgets : .reset n ∈ p.reconnects event) :
    p.sendResult? n event = some (.ok ()) := by
  cases event with
  | step m =>
      have forgets : .reset n ∈ p.stepReconnects m := forgets
      unfold stepReconnects at forgets
      split at forgets
      · next number task found =>
          obtain ⟨mem, rfl⟩ := mem_of_activity? found
          obtain rfl : number = n :=
            (Option.some.inj (task.number_reconnects p.agent number _ forgets)).symm
          cases delivers : task.delivery? with
          | none =>
              cases here : task.reopening? with
              | none =>
                  rw [Task.reconnects_of_plain delivers here] at forgets
                  cases forgets
              | some place =>
                  rw [Task.reconnects_of_reopening here] at forgets
                  exact absurd forgets (place.reset_not_mem number)
          | some delivery =>
              rw [Task.reconnects_of_delivery delivers] at forgets
              cases delivery with
              | reopening text place => exact absurd forgets (place.reset_not_mem number)
              | sending text place =>
                  refine sendResult?_eq_some_iff.mpr ⟨rfl, text, place, ?_, ?_⟩
                  · exact (delivery?_eq_some_iff counts).mpr ⟨task, mem, delivers⟩
                  · unfold Delivery.reconnects at forgets
                    dsimp only at forgets
                    split at forgets
                    · next sent => exact sent
                    · cases forgets
                    · cases forgets
      · cases forgets
      · cases forgets
  | halt => simp [reconnects] at forgets
  | _ => cases forgets

omit [ObjectModel φ η] in
theorem reconnects_of_sent (counts : p.Counts) (sent : p.sendResult? n event = some (.ok ())) :
    p.reconnects event = [.reset n] := by
  obtain ⟨rfl, text, place, delivers, ended⟩ := sendResult?_eq_some_iff.mp sent
  obtain ⟨task, mem, here⟩ := (delivery?_eq_some_iff counts).mp delivers
  show p.stepReconnects n = _
  rw [stepReconnects_of_running (activity?_of_mem counts mem), Task.reconnects_of_delivery here]
  unfold Delivery.reconnects
  dsimp only
  rw [ended]

/-- A send that succeeds is the last thing of a delivery. -/
theorem delivery?_of_sent (counts : p.Counts) (sent : p.sendResult? n event = some (.ok ())) :
    (p.act event).delivery? n = none := by
  obtain ⟨rfl, text, place, delivers, ended⟩ := sendResult?_eq_some_iff.mp sent
  by_contra goesOn
  obtain ⟨next, goesOn⟩ := Option.ne_none_iff_exists'.mp goesOn
  have going := deliveryStep_of_going counts delivers goesOn
  have outcome : Delivery.Outcome p.agent n (.sending text place)
      ((Delivery.sending text place).step p.agent n) := Delivery.outcome _
  generalize (Delivery.sending text place).step p.agent n = stepped at outcome going
  cases outcome with
  | sends stepped =>
      rw [stepped] at ended
      cases ended
  | sent => cases going
  | retries stepped =>
      rw [stepped] at ended
      cases ended
  | fails => cases going

/-- **How a delivery returns**: its send has ended with that result, or the connection is given up.
-/
theorem returns_cases (counts : p.Counts) {result : Except TransportError Unit}
    (returns : p.deliveryStep? n = some (.done result)) :
    p.sendResult? n (.step n) = some result ∨
      p.sendResult? n (.step n) = none ∧ result ≠ .ok () ∧
        (p.act (.step n)).agent.isHalted = true := by
  obtain ⟨task, running, returns⟩ := Option.bind_eq_some_iff.mp returns
  have mem := (task?_eq_some_iff counts).mp running
  unfold Task.deliveryStep? at returns
  cases delivers : task.delivery? with
  | none =>
      rw [delivers] at returns
      obtain ⟨envelope, begins, started⟩ := Option.map_eq_some_iff.mp returns
      have idle : p.delivery? n = none := by
        unfold delivery?
        rw [running]
        exact delivers
      unfold Delivery.start at started
      split at started
      · next halted =>
          cases started
          exact .inr ⟨by simp [sendResult?, idle], nofun, halted_act halted _⟩
      · cases started
  | some delivery =>
      rw [delivers] at returns
      have returns : (delivery.step p.agent n).1 = .done result := Option.some.inj returns
      have here : p.delivery? n = some delivery :=
        (delivery?_eq_some_iff counts).mpr ⟨task, mem, delivers⟩
      have after := act_of_delivery counts here
      have outcome : Delivery.Outcome p.agent n delivery (delivery.step p.agent n) :=
        Delivery.outcome _
      have sends : ∀ {text place}, delivery = .sending text place →
          (place.step p.agent.link).1 = .done result → p.sendResult? n (.step n) = some result :=
        fun same ended => sendResult?_eq_some_iff.mpr ⟨rfl, _, _, same ▸ here, ended⟩
      generalize delivery.step p.agent n = stepped at outcome after returns
      cases outcome with
      | reopens => cases returns
      | opened => cases returns
      | givenUp _ halted =>
          cases returns
          exact .inr ⟨by simp [sendResult?, here, Delivery.sending?], nofun, after ▸ halted⟩
      | sends => cases returns
      | sent stepped =>
          cases returns
          exact .inl (sends rfl (congrArg Prod.fst stepped))
      | retries => cases returns
      | fails stepped =>
          cases returns
          exact .inl (sends rfl (congrArg Prod.fst stepped))

/-! ## Runs of a delivery -/

/-- How many sends activity `n` has begun before event `k`. -/
def sendCount (p : Service τ φ η) (events : Nat → Event τ φ η) (n : Nat) : Nat → Nat
  | 0 => 0
  | k + 1 => sendCount p events n k + ((p.course events k).beginsSend n (events k)).toNat

/-- The delivery that activity `n` has begun with the first event is not over before event `k`. -/
def UnderWay (p : Service τ φ η) (events : Nat → Event τ φ η) (n k : Nat) : Prop :=
  ∀ j, 0 < j → j ≤ k → ((p.course events j).delivery? n).isSome = true

/-- The delivery of activity `n` returns a result with event `k`. -/
def ReturnsAt (p : Service τ φ η) (events : Nat → Event τ φ η) (n k : Nat)
    (result : Except TransportError Unit) : Prop :=
  p.UnderWay events n k ∧ events k = .step n ∧
    (p.course events k).deliveryStep? n = some (.done result)

/-- A run that activity `n` begins with a delivery, with at most as many attempts made as are
allowed and a limit that can be exceeded.  While the delivery is under way, a transport that is
closed gets open only by who sees to it, and no other send succeeds. -/
structure Undertakes (p : Service τ φ η) (events : Nat → Event τ φ η) (n : Nat) : Prop where
  /-- Nobody acts out of turn. -/
  able : ∀ k, (p.course events k).Able (events k)
  /-- The activity takes the first step. -/
  begins : events 0 = .step n
  /-- It begins a delivery with it. -/
  envelope : ∃ task envelope, ⟨n, task, false⟩ ∈ p.activities ∧
    task.envelope? p.agent = some envelope
  /-- No more attempts were made than are allowed. -/
  within : p.agent.connection.attempts ≤ p.agent.connection.limit
  /-- The limit can be exceeded. -/
  below : p.agent.connection.limit.toNat < UInt32.size - 1
  /-- The transport gets open only by who sees to it. -/
  inLine : ∀ k, p.UnderWay events n k → (p.course events k).OpensInLine (events k)
  /-- No other send succeeds. -/
  alone : ∀ k m, p.UnderWay events n k → .reset m ∈ (p.course events k).reconnects (events k) →
    m = n

/-- The same from a state in which everything is in order. -/
structure Delivers (start : Connection) (log : List Reconnect) (p : Service τ φ η)
    (events : Nat → Event τ φ η) (n : Nat) : Prop extends p.Undertakes events n where
  /-- Everything is in order at first. -/
  inOrder : p.InOrder start log

/-- How a delivery ends: without an error exactly if one of its sends has succeeded, and then the
attempts are forgotten; and for want of attempts only over a connection that is given up. -/
structure Concludes (p : Service τ φ η) (events : Nat → Event τ φ η) (n k : Nat)
    (result : Except TransportError Unit) : Prop where
  /-- There is no error exactly if a send has succeeded. -/
  ok_iff : result = .ok () ↔ ∃ j ≤ k, (p.course events j).sendResult? n (events j) = some (.ok ())
  /-- Then the attempts are forgotten. -/
  forgets : result = .ok () → (p.course events (k + 1)).agent.connection.attempts = 0
  /-- If the limit is exceeded, the connection is given up.  A delivery hands on what a send fails
  with, so it may return that error as well if the transport itself answers a send with it. -/
  limit : ∀ count, result = .error (.reconnectLimit count) →
    (p.course events (k + 1)).agent.isHalted = true ∨
      (p.course events k).sendResult? n (events k) = some result ∧
        ∃ text, (Transport.send text (p.course events k).agent.link.transport).1 = result

/-- The sends that activity `n` has begun before event `k` are paid for, or it has not got to look
at the transport yet. -/
def Paid (p : Service τ φ η) (events : Nat → Event τ φ η) (n k : Nat) : Prop :=
  p.sendCount events n k + (p.course events k).chances n ≤
      1 + (p.courseLog events k).countP Reconnect.isGranted ∨
    p.sendCount events n k = 0 ∧ ∀ delivery, (p.course events k).delivery? n = some delivery →
      ∃ text place, delivery = .reopening text place ∧ place.hasAttempt = false

theorem UnderWay.of_le {events : Nat → Event τ φ η} {k j : Nat} (underWay : p.UnderWay events n k)
    (earlier : j ≤ k) : p.UnderWay events n j := fun i past before =>
  underWay i past (Nat.le_trans before earlier)

theorem UnderWay.exists_delivery {events : Nat → Event τ φ η} {k : Nat}
    (underWay : p.UnderWay events n k) (past : 0 < k) :
    ∃ delivery, (p.course events k).delivery? n = some delivery :=
  Option.isSome_iff_exists.mp (underWay k past (Nat.le_refl k))

namespace Delivers

variable {start : Connection} {log : List Reconnect} {events : Nat → Event τ φ η} {k j : Nat}

theorem inOrder_course (delivers : p.Delivers start log events n) (k : Nat) :
    (p.course events k).InOrder start (log ++ p.courseLog events k) := by
  induction k with
  | zero =>
      rw [courseLog, List.append_nil]
      exact delivers.inOrder
  | succ k ih =>
      rw [courseLog, ← List.append_assoc]
      exact ih.act (delivers.able k)

theorem counts (delivers : p.Delivers start log events n) (k : Nat) :
    (p.course events k).Counts := (delivers.inOrder_course k).tallies.counts

theorem able_of_own (delivers : p.Delivers start log events n) (own : events k = .step m) :
    (p.course events k).isReady m = true := by
  have able := delivers.able k
  rw [own] at able
  exact able

/-- No send has succeeded while the delivery is under way. -/
theorem failing (delivers : p.Delivers start log events n) (underWay : p.UnderWay events n k)
    (m : Nat) : .reset m ∉ p.courseLog events k := by
  induction k with
  | zero => exact List.not_mem_nil
  | succ k ih =>
      have earlier := underWay.of_le (Nat.le_succ k)
      intro mem
      rcases List.mem_append.mp mem with old | new
      · exact ih earlier old
      · obtain rfl := delivers.alone k m earlier new
        have sent := sendResult_of_reset (delivers.counts k) new
        obtain ⟨delivery, here⟩ := underWay.exists_delivery (Nat.succ_pos k)
        rw [course, delivery?_of_sent (delivers.counts k) sent] at here
        cases here

theorem spends_of_failing (delivers : p.Delivers start log events n)
    (failing : ∀ m, .reset m ∉ p.courseLog events k) :
    Reconnect.Spends p.agent.connection (p.courseLog events k) := by
  have same : Reconnect.replay start log = p.agent.connection := delivers.inOrder.tallies.connection
  have spends := (delivers.inOrder_course k).tallies.lawful.spends (same ▸ delivers.within)
    (same ▸ delivers.below) failing
  exact same ▸ spends

/-- **What is spent while the delivery is under way**, up to the event that may end it with a
success. -/
theorem spends (delivers : p.Delivers start log events n) (underWay : p.UnderWay events n k) :
    p.agent.connection.attempts.toNat + (p.courseLog events (k + 1)).countP Reconnect.isAttempt ≤
        p.agent.connection.limit.toNat + 1 ∧
      p.agent.connection.attempts.toNat + (p.courseLog events (k + 1)).countP Reconnect.isGranted ≤
        p.agent.connection.limit.toNat := by
  by_cases forgets : ∃ m, .reset m ∈ (p.course events k).reconnects (events k)
  · obtain ⟨m, mem⟩ := forgets
    obtain rfl := delivers.alone k m underWay mem
    have spends := delivers.spends_of_failing (delivers.failing underWay)
    have sent := sendResult_of_reset (delivers.counts k) mem
    rw [courseLog, reconnects_of_sent (delivers.counts k) sent, List.countP_append,
      List.countP_append]
    exact ⟨spends.most, spends.granted⟩
  · have spends := delivers.spends_of_failing (k := k + 1) fun m mem => by
      rcases List.mem_append.mp mem with old | new
      · exact delivers.failing underWay m old
      · exact forgets ⟨m, new⟩
    exact ⟨spends.most, spends.granted⟩

/-- An activity that begins a delivery sees to the transport first. -/
theorem paid_one (delivers : p.Delivers start log events n) : p.Paid events n 1 := by
  obtain ⟨task, envelope, mem, begins⟩ := delivers.envelope
  have idle : p.delivery? n = none := by
    by_contra delivering
    obtain ⟨delivery, delivering⟩ := Option.ne_none_iff_exists'.mp delivering
    obtain ⟨other, memOther, here⟩ := (delivery?_eq_some_iff (delivers.counts 0)).mp delivering
    rw [(delivers.counts 0).task_eq mem memOther, Task.delivery?_of_envelope begins] at here
    cases here
  refine .inr ⟨?_, fun delivery here => ?_⟩
  · show 0 + (p.beginsSend n (events 0)).toNat = 0
    rw [delivers.begins]
    simp [beginsSend, idle]
  · have here : (p.act (events 0)).delivery? n = some delivery := here
    rw [delivers.begins] at here
    exact ⟨_, _, delivery_of_begins (delivers.counts 0) mem begins here, rfl⟩

/-- What an event does to the accounts while the delivery is under way. -/
theorem sendCount_add_chances_le (delivers : p.Delivers start log events n)
    (underWay : p.UnderWay events n k) (past : 0 < k) :
    p.sendCount events n (k + 1) + (p.course events (k + 1)).chances n +
        (p.courseLog events k).countP Reconnect.isGranted ≤
      p.sendCount events n k + (p.course events k).chances n +
        (p.courseLog events (k + 1)).countP Reconnect.isGranted := by
  obtain ⟨delivery, here⟩ := underWay.exists_delivery past
  have step := (delivers.inOrder_course k).chances_act here (delivers.inLine k underWay)
  rw [sendCount, course, countP_courseLog_succ]
  omega

/-- A delivery that has not got to look waits on, or it looks while nobody has an attempt. -/
theorem paid_of_waiting (delivers : p.Delivers start log events n)
    (underWay : p.UnderWay events n k) (past : 0 < k) (none : p.sendCount events n k = 0)
    {text : String} {place : Reopening} (idle : place.hasAttempt = false)
    (here : (p.course events k).delivery? n = some (.reopening text place)) :
    p.Paid events n (k + 1) := by
  have counts := delivers.counts k
  by_cases own : events k = .step n
  · rcases (delivers.inOrder_course k).unattempted_of_looks here idle
      (delivers.able_of_own own) with waits | unattempted
    · refine .inr ⟨?_, fun next goesOn => ?_⟩
      · rw [sendCount, none, own]
        simp [beginsSend, here, Delivery.reopening?, waits, Reopening.hasOpened]
      · have going := deliveryStep_of_going counts here (course_succ_of own ▸ goesOn)
        rw [Delivery.step_of_waiting text waits] at going
        cases going
        exact ⟨text, .queued, rfl, rfl⟩
    · have chance : (p.course events k).chances n ≤ 1 := by
        unfold chances
        rw [unattempted, Bool.toNat_false, Nat.zero_add]
        exact Bool.toNat_le _
      have accounts := delivers.sendCount_add_chances_le underWay past
      exact .inl (by omega)
  · refine .inr ⟨?_, fun next goesOn => ?_⟩
    · rw [sendCount, none, beginsSend_of_ne own]
      rfl
    · have before := delivery?_of_ne counts own goesOn
      rw [here] at before
      cases before
      exact ⟨text, place, rfl, idle⟩

/-- **Every send is paid for.** -/
theorem paid (delivers : p.Delivers start log events n) (underWay : p.UnderWay events n k) :
    p.Paid events n (k + 1) := by
  induction k with
  | zero => exact delivers.paid_one
  | succ k ih =>
      rcases ih (underWay.of_le (Nat.le_succ k)) with paid | ⟨none, waits⟩
      · have accounts := delivers.sendCount_add_chances_le underWay (Nat.succ_pos k)
        exact .inl (by omega)
      · obtain ⟨delivery, here⟩ := underWay.exists_delivery (Nat.succ_pos k)
        obtain ⟨text, place, rfl, idle⟩ := waits delivery here
        exact delivers.paid_of_waiting underWay (Nat.succ_pos k) none idle here

/-- **A delivery begins at most one send more than attempts are left.** -/
theorem sendCount_le (delivers : p.Delivers start log events n) (underWay : p.UnderWay events n k) :
    p.sendCount events n (k + 1) ≤
      p.agent.connection.limit.toNat - p.agent.connection.attempts.toNat + 1 := by
  have granted := (delivers.spends underWay).2
  rcases delivers.paid underWay with paid | ⟨none, -⟩
  · omega
  · rw [none]
    exact Nat.zero_le _

/-- **How a delivery ends**, if it does. -/
theorem concludes (delivers : p.Delivers start log events n) {result : Except TransportError Unit}
    (returns : p.ReturnsAt events n k result) : p.Concludes events n k result := by
  obtain ⟨underWay, own, returns⟩ := returns
  have counts := delivers.counts k
  have cases := returns_cases counts returns
  have after := course_succ_of (p := p) own
  rw [← own] at cases
  refine ⟨⟨?_, ?_⟩, ?_, ?_⟩
  · rintro rfl
    rcases cases with sent | ⟨-, failed, -⟩
    · exact ⟨k, Nat.le_refl k, sent⟩
    · exact absurd rfl failed
  · rintro ⟨j, before, sent⟩
    rcases Nat.lt_or_eq_of_le before with earlier | rfl
    · have ended : (p.course events (j + 1)).delivery? n = none :=
        delivery?_of_sent (delivers.counts j) sent
      obtain ⟨delivery, here⟩ := (underWay.of_le earlier).exists_delivery (Nat.succ_pos j)
      rw [ended] at here
      cases here
    · rcases cases with ended | ⟨none, -, -⟩
      · exact Option.some.inj (ended.symm.trans sent)
      · rw [none] at sent
        cases sent
  · rintro rfl
    rcases cases with sent | ⟨-, failed, -⟩
    · show ((p.course events k).act (events k)).agent.connection.attempts = 0
      rw [(delivers.inOrder_course k).connection_act, reconnects_of_sent counts sent]
      rfl
    · exact absurd rfl failed
  · rintro count rfl
    rcases cases with failed | ⟨-, -, halted⟩
    · obtain ⟨-, text, place, -, ended⟩ := sendResult?_eq_some_iff.mp failed
      exact .inr ⟨failed, Sending.exists_of_reconnectLimit ended⟩
    · rw [after]
      exact .inl (own ▸ halted)

end Delivers

end Steps

end Service

end RemoteAgent
