import Mathlib.Data.List.Induction
import RemoteAgent.Connection

/-!
# Coming back

Whoever needs an open transport may open it: the reader, the writer, any caller.  All of them count
their attempts on one counter, a send that succeeds sets it back, and the attempt beyond the limit
gives the connection up.  The counter alone does not say what was attempted, since it is set back
while others pause before they use their attempts.  So a log is kept beside the agent, of attempts,
of openings and of whatever else changes the counter.

This module is about logs.  One is *lawful* if nothing is in it that must not be there: an attempt
is granted only while the counter is below the limit and the connection is not given up, and who
opens the transport was granted an attempt as the last thing that it did.  In a lawful log the
counter is what it should be, and no more attempts are granted between two successes than are
allowed (`Reconnect.Lawful.granted_le`).  The limit must not be the greatest number there is: the
attempt beyond it has to be counted.

## Main definitions

* `Reconnect`, `Reconnect.replay`: the entries of the log, and what they do to the connection.
* `Reconnect.Lawful`: what a log may be.
* `Reconnect.attempts`: the attempts since the last success.
-/

namespace RemoteAgent

/-! ## The log -/

/-- Something that is done about coming back, by the activity of a number. -/
inductive Reconnect where
  /-- An attempt is recorded that is within the limit. -/
  | granted (n : Nat)
  /-- The attempt beyond the limit is recorded. -/
  | refused (n : Nat)
  /-- The transport is opened, or refuses to be. -/
  | opened (n : Nat)
  /-- A send has succeeded, and the attempts are forgotten. -/
  | reset (n : Nat)
  /-- The host halts the connection. -/
  | halted
  deriving DecidableEq

namespace Reconnect

/-- The number of the activity. -/
def number? : Reconnect → Option Nat
  | granted n | refused n | opened n | reset n => some n
  | halted => none

/-- Whether an attempt is recorded, be it the one too many. -/
def isAttempt : Reconnect → Bool
  | granted _ | refused _ => true
  | opened _ | reset _ | halted => false

/-- Whether an attempt is recorded that may lead to an opening. -/
def isGranted : Reconnect → Bool
  | granted _ => true
  | refused _ | opened _ | reset _ | halted => false

/-- Whether the connection is given up. -/
def givesUp : Reconnect → Bool
  | refused _ | halted => true
  | granted _ | opened _ | reset _ => false

/-- What an entry makes of the connection. -/
def apply (c : Connection) : Reconnect → Connection
  | granted _ => { c with attempts := c.attempts + 1 }
  | refused _ => { c with attempts := c.attempts + 1, halted := true }
  | opened _ => c
  | reset _ => c.reset
  | halted => c.halt

/-- What a log makes of the connection. -/
def replay (start : Connection) (log : List Reconnect) : Connection := log.foldl apply start

/-- What an entry makes of the number of attempts since the last success. -/
def count (attempts : Nat) : Reconnect → Nat
  | granted _ | refused _ => attempts + 1
  | opened _ | halted => attempts
  | reset _ => 0

/-- The attempts that were recorded since the last success. -/
def attempts (log : List Reconnect) : Nat := log.foldl count 0

/-- The last thing that an activity did. -/
def lastOf (n : Nat) (log : List Reconnect) : Option Reconnect :=
  (log.filter (·.number? = some n)).getLast?

/-- What must have gone before an entry. -/
def Allowed (start : Connection) (before : List Reconnect) : Reconnect → Prop
  | granted _ =>
    (replay start before).halted = false ∧
      (replay start before).attempts + 1 ≤ (replay start before).limit
  | refused _ =>
    (replay start before).halted = false ∧
      (replay start before).limit < (replay start before).attempts + 1
  | opened n => lastOf n before = some (granted n)
  | reset _ | halted => True

/-- Every entry of a log was allowed when it was made. -/
def Lawful (start : Connection) (log : List Reconnect) : Prop :=
  ∀ before entry after, log = before ++ entry :: after → Allowed start before entry

section Log

variable {start : Connection} {log before after window : List Reconnect} {entry : Reconnect}
  {n m : Nat}

theorem replay_append (start : Connection) (log more : List Reconnect) :
    replay start (log ++ more) = replay (replay start log) more :=
  List.foldl_append

theorem attempts_concat (log : List Reconnect) (entry : Reconnect) :
    attempts (log ++ [entry]) = count (attempts log) entry :=
  List.foldl_append

theorem lastOf_concat_self (own : entry.number? = some n) (log : List Reconnect) :
    lastOf n (log ++ [entry]) = some entry := by
  simp [lastOf, own]

/-- What others do is not the last thing that an activity did. -/
theorem lastOf_append_of_ne {more : List Reconnect}
    (others : ∀ entry ∈ more, entry.number? ≠ some n) (log : List Reconnect) :
    lastOf n (log ++ more) = lastOf n log := by
  have none : more.filter (·.number? = some n) = [] := by
    rw [List.filter_eq_nil_iff]
    intro entry mem
    simpa using others entry mem
  unfold lastOf
  rw [List.filter_append, none, List.append_nil]

/-- What an activity did last is in the log, and after it there is nothing of its own. -/
theorem exists_of_lastOf (last : lastOf n log = some entry) :
    ∃ earlier between, log = earlier ++ entry :: between ∧
      ∀ other ∈ between, other.number? ≠ some n := by
  induction log using List.reverseRecOn with
  | nil => cases last
  | append_singleton log newest ih =>
      by_cases own : newest.number? = some n
      · rw [lastOf_concat_self own] at last
        obtain rfl := Option.some.inj last
        exact ⟨log, [], rfl, nofun⟩
      · have others : ∀ other ∈ [newest], other.number? ≠ some n :=
          List.forall_mem_singleton.mpr own
        rw [lastOf_append_of_ne others] at last
        obtain ⟨earlier, between, rfl, silent⟩ := ih last
        refine ⟨earlier, between ++ [newest], by simp, fun other mem => ?_⟩
        rcases List.mem_append.mp mem with old | new
        · exact silent other old
        · exact others other new

/-- A connection that is given up stays so. -/
theorem halted_replay {c : Connection} (halted : c.halted = true) (log : List Reconnect) :
    (replay c log).halted = true := by
  induction log generalizing c with
  | nil => exact halted
  | cons entry rest ih =>
      have next : (apply c entry).halted = true := by
        cases entry with
        | refused n => rfl
        | halted => rfl
        | _ => exact halted
      exact ih next

/-- A connection is given up when an entry of the log says so, and not otherwise. -/
theorem halted_replay_iff {c : Connection} :
    (replay c log).halted = true ↔ c.halted = true ∨ ∃ entry ∈ log, entry.givesUp = true := by
  induction log generalizing c with
  | nil => simp [replay]
  | cons entry rest ih =>
      have next : (apply c entry).halted = true ↔ c.halted = true ∨ entry.givesUp = true := by
        cases entry <;> simp [apply, givesUp, Connection.reset, Connection.halt]
      show (replay (apply c entry) rest).halted = true ↔ _
      rw [ih, next, or_assoc]
      simp

namespace Lawful

theorem nil : Lawful start [] := by
  intro before entry after split
  simp at split

theorem concat (lawful : Lawful start log) (allowed : Allowed start log entry) :
    Lawful start (log ++ [entry]) := by
  intro before other after split
  rcases List.eq_nil_or_concat after with rfl | ⟨rest, last, rfl⟩
  · obtain ⟨rfl, same⟩ := List.append_inj' split rfl
    obtain rfl := List.head_eq_of_cons_eq same
    exact allowed
  · have split : log ++ [entry] = (before ++ other :: rest) ++ [last] := by simpa using split
    exact lawful before other rest (List.append_inj' split rfl).1

theorem of_append (lawful : Lawful start (log ++ after)) : Lawful start log := by
  intro before entry rest split
  exact lawful before entry (rest ++ after) (by simp [split])

theorem last (lawful : Lawful start (log ++ [entry])) : Allowed start log entry :=
  lawful log entry [] rfl

end Lawful

/-! ### What a lawful log makes of the connection -/

/-- The counter is what it says it is, and not beyond the limit unless the connection is given up.
-/
structure Keeps (start : Connection) (log : List Reconnect) : Prop where
  /-- The limit stays. -/
  limit : (replay start log).limit = start.limit
  /-- The counter counts the attempts since the last success. -/
  counter : (replay start log).attempts.toNat = attempts log
  /-- At most one attempt is beyond the limit. -/
  most : attempts log ≤ start.limit.toNat + 1
  /-- There is none while the connection is not given up. -/
  within : (replay start log).halted = false → attempts log ≤ start.limit.toNat

/-- A connection whose limit can be exceeded, and that nothing has happened to. -/
structure Fresh (start : Connection) : Prop where
  attempts : start.attempts = 0
  below : start.limit.toNat < UInt32.size - 1

theorem toNat_succ {k : UInt32} (below : k.toNat < UInt32.size - 1) :
    (k + 1).toNat = k.toNat + 1 := by
  have size : UInt32.size = 4294967296 := rfl
  have one : (1 : UInt32).toNat = 1 := rfl
  rw [UInt32.toNat_add, one]
  omega

namespace Keeps

theorem nil (fresh : Fresh start) : Keeps start [] where
  limit := rfl
  counter := congrArg UInt32.toNat fresh.attempts
  most := Nat.zero_le _
  within _ := Nat.zero_le _

/-- One more attempt is counted as one more, if the connection was not given up before. -/
theorem counter_succ (fresh : Fresh start) (keeps : Keeps start log)
    (running : (replay start log).halted = false) :
    ((replay start log).attempts + 1).toNat = attempts log + 1 := by
  have within := keeps.within running
  have below := fresh.below
  rw [toNat_succ, keeps.counter]
  rw [keeps.counter]
  omega

/-- **The step lemma**: an entry that is allowed keeps the counter right. -/
theorem concat (fresh : Fresh start) (keeps : Keeps start log) (allowed : Allowed start log entry) :
    Keeps start (log ++ [entry]) := by
  have same : replay start (log ++ [entry]) = apply (replay start log) entry :=
    replay_append start log [entry]
  constructor
  · rw [same]
    cases entry <;> exact keeps.limit
  · rw [same, attempts_concat]
    cases entry with
    | granted n => exact keeps.counter_succ fresh allowed.1
    | refused n => exact keeps.counter_succ fresh allowed.1
    | opened n => exact keeps.counter
    | reset n => rfl
    | halted => exact keeps.counter
  · rw [attempts_concat]
    cases entry with
    | granted n => exact Nat.succ_le_succ (keeps.within allowed.1)
    | refused n => exact Nat.succ_le_succ (keeps.within allowed.1)
    | opened n => exact keeps.most
    | reset n => exact Nat.zero_le _
    | halted => exact keeps.most
  · intro running
    rw [same] at running
    rw [attempts_concat]
    cases entry with
    | granted n =>
        have granted := UInt32.le_iff_toNat_le.mp allowed.2
        rwa [keeps.counter_succ fresh allowed.1, keeps.limit] at granted
    | refused n => cases running
    | opened n => exact keeps.within running
    | reset n => exact Nat.zero_le _
    | halted => cases running

end Keeps

/-- **A lawful log keeps the counter right.** -/
theorem Lawful.keeps (fresh : Fresh start) (lawful : Lawful start log) : Keeps start log := by
  induction log using List.reverseRecOn with
  | nil => exact .nil fresh
  | append_singleton log entry ih => exact (ih lawful.of_append).concat fresh lawful.last

/-- An attempt is refused when as many as are allowed were made since the last success. -/
theorem Lawful.attempts_of_refused (fresh : Fresh start)
    (lawful : Lawful start (before ++ refused n :: after)) :
    attempts before = start.limit.toNat := by
  have keeps : Keeps start before := lawful.of_append.keeps fresh
  have allowed : Allowed start before (refused n) := lawful before _ after rfl
  have within := keeps.within allowed.1
  have beyond := UInt32.lt_iff_toNat_lt.mp allowed.2
  rw [keeps.counter_succ fresh allowed.1, keeps.limit] at beyond
  omega

/-- The counter is beyond the limit only if an attempt was refused. -/
theorem Lawful.exists_refused (fresh : Fresh start) (lawful : Lawful start log)
    (exhausted : (replay start log).isExhausted = true) : ∃ n, refused n ∈ log := by
  by_contra none
  -- Without a refused attempt the counter never gets beyond the limit, halted or not.
  have within : ∀ {log : List Reconnect}, Lawful start log → (∀ n, refused n ∉ log) →
      attempts log ≤ start.limit.toNat := by
    intro log lawful none
    induction log using List.reverseRecOn with
    | nil => exact Nat.zero_le _
    | append_singleton log entry ih =>
        have before := ih lawful.of_append fun n mem => none n (List.mem_append_left _ mem)
        rw [attempts_concat]
        cases entry with
        | granted n =>
            have keeps : Keeps start log := lawful.of_append.keeps fresh
            have granted := UInt32.le_iff_toNat_le.mp lawful.last.2
            rwa [keeps.counter_succ fresh lawful.last.1, keeps.limit] at granted
        | refused n => exact absurd (List.mem_append_right _ (List.mem_singleton_self _)) (none n)
        | opened n => exact before
        | reset n => exact Nat.zero_le _
        | halted => exact before
  have keeps : Keeps start log := lawful.keeps fresh
  have beyond := UInt32.lt_iff_toNat_lt.mp (of_decide_eq_true exhausted)
  rw [keeps.limit, keeps.counter] at beyond
  have most := within lawful fun n mem => none ⟨n, mem⟩
  omega

/-- After a connection was given up no attempt is recorded. -/
theorem Lawful.silent (lawful : Lawful start (before ++ after))
    (halted : (replay start before).halted = true) :
    ∀ entry ∈ after, entry.isAttempt = false := by
  intro entry mem
  obtain ⟨earlier, later, rfl⟩ := List.append_of_mem mem
  have allowed : Allowed start (before ++ earlier) entry := lawful _ entry later (by simp)
  have given : (replay start (before ++ earlier)).halted = true := by
    rw [replay_append]
    exact halted_replay halted earlier
  cases entry with
  | granted n => exact absurd given (Bool.not_eq_true _ ▸ allowed.1)
  | refused n => exact absurd given (Bool.not_eq_true _ ▸ allowed.1)
  | opened n => rfl
  | reset n => rfl
  | halted => rfl

/-- **Between two successes no more attempts are granted than are allowed.** -/
theorem Lawful.granted_le (fresh : Fresh start) (lawful : Lawful start (before ++ window))
    (failing : ∀ n, reset n ∉ window) :
    window.countP isGranted ≤ attempts (before ++ window) ∧
      window.countP isGranted ≤ start.limit.toNat := by
  induction window using List.reverseRecOn with
  | nil => exact ⟨Nat.zero_le _, Nat.zero_le _⟩
  | append_singleton window entry ih =>
      rw [← List.append_assoc] at lawful
      obtain ⟨counted, within⟩ := ih lawful.of_append fun n mem =>
        failing n (List.mem_append_left _ mem)
      have keeps : Keeps start (before ++ window ++ [entry]) := lawful.keeps fresh
      rw [List.countP_append, ← List.append_assoc, attempts_concat]
      cases entry with
      | granted n =>
          have running : (replay start (before ++ window ++ [granted n])).halted = false := by
            rw [replay_append]
            exact lawful.last.1
          have most := keeps.within running
          rw [attempts_concat] at most
          exact ⟨Nat.succ_le_succ counted, Nat.le_trans (Nat.succ_le_succ counted) most⟩
      | refused n => exact ⟨Nat.le_succ_of_le counted, within⟩
      | opened n => exact ⟨counted, within⟩
      | reset n => exact absurd (List.mem_append_right _ (List.mem_singleton_self _)) (failing n)
      | halted => exact ⟨counted, within⟩

end Log

end Reconnect

end RemoteAgent
