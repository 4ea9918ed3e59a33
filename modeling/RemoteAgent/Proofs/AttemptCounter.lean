import Mathlib.Data.List.Induction
import RemoteAgent.Connection

/-!
# The counter of attempts

Whoever opens the transport again records an attempt, a send that succeeds forgets the attempts, and
anybody may halt the connection.  What a connection says after a run of such calls is meant to be a
matter of one number, the attempts since the last success: the counter shows it, the connection is
exhausted if it is beyond the limit, and the attempt that makes it so is refused and halts the
connection.

The counter has 32 bits, and nothing keeps it at its greatest value.  So a connection says all that,
but of the number modulo `2 ^ 32` (`Connection.shows_run`): after `2 ^ 32` attempts without a
success it says that there was none, and if no attempt below was beyond the limit, none ever is.  Up
to that many attempts it is right (`Connection.shows_attempts_iff`).

The induction is over the run from its end, and carries the counter alone
(`Connection.attempts_run`); everything else is read off the last call.

## Main definitions

* `Connection.Call`, `Connection.run`: the calls, and what a run of them makes of a connection.
* `Connection.Shows`: what a connection says of a number of attempts.

## Main results

* `Connection.counter_run`: what a connection says after any run, and how long it is right.
-/

namespace RemoteAgent.Connection

/-! ## Calls -/

/-- A call that changes a connection. -/
inductive Call where
  /-- An attempt is recorded. -/
  | attempt
  /-- The attempts are forgotten. -/
  | reset
  /-- The connection is given up. -/
  | halt
  deriving DecidableEq

/-- What a call makes of the number of attempts since the last reset. -/
def Call.count (n : Nat) : Call → Nat
  | attempt => n + 1
  | reset => 0
  | halt => n

/-- The attempts since the last reset, or since the beginning. -/
def Call.attempts (calls : List Call) : Nat := calls.foldl count 0

/-- A call that halts the connection, behind some others. -/
def Call.Halts (limit : UInt32) (before : List Call) : Call → Prop
  | attempt => limit.toNat < (attempts before + 1) % 4294967296
  | reset => False
  | halt => True

/-- The connection after a call. -/
def after (c : Connection) : Call → Connection
  | .attempt => c.recordAttempt.2
  | .reset => c.reset
  | .halt => c.halt

/-- The connection after some calls. -/
def run (c : Connection) (calls : List Call) : Connection := calls.foldl after c

/-- The answer to the attempt that is the `n`-th one. -/
def answer (limit : UInt32) (n : Nat) : Except TransportError Nat :=
  if n ≤ limit.toNat then .ok n else .error (.reconnectLimit limit.toNat)

/-- After some calls a connection is as if there had been `n` attempts since the last reset. -/
structure Shows (start : Connection) (calls : List Call) (n : Nat) : Prop where
  /-- The counter says so. -/
  attempts : (start.run calls).attempts.toNat = n
  /-- The connection is exhausted if that is beyond the limit. -/
  exhausted : (start.run calls).isExhausted = true ↔ start.limit.toNat < n
  /-- If the last call was an attempt, it was answered as the `n`-th one. -/
  answered : ∀ before, calls = before ++ [.attempt] →
    (start.run before).recordAttempt.1.map UInt32.toNat = answer start.limit n
  /-- If it was beyond the limit, the connection is halted. -/
  halted : ∀ before, calls = before ++ [.attempt] → start.limit.toNat < n →
    (start.run calls).halted = true

/-! ## One call -/

section Run

variable {c start : Connection} {calls : List Call}

/-- One more attempt, on a counter of 32 bits. -/
theorem toNat_attempts_succ (c : Connection) :
    (c.attempts + 1).toNat = (c.attempts.toNat + 1) % 4294967296 :=
  UInt32.toNat_add c.attempts 1

/-- What an attempt is answered depends on the counter behind it. -/
theorem recordAttempt_fst (c : Connection) :
    c.recordAttempt.1.map UInt32.toNat = answer c.limit (c.attempts + 1).toNat := by
  unfold recordAttempt answer
  by_cases beyond : c.limit < c.attempts + 1
  · rw [if_pos beyond, if_neg (Nat.not_le.mpr (UInt32.lt_iff_toNat_lt.mp beyond))]
    rfl
  · rw [if_neg beyond, if_pos (UInt32.le_iff_toNat_le.mp (UInt32.not_lt.mp beyond))]
    rfl

/-- An attempt is counted, and halts the connection if it is beyond the limit. -/
theorem recordAttempt_snd (c : Connection) :
    c.recordAttempt.2 =
      { c with
        attempts := c.attempts + 1
        halted := c.halted || decide (c.limit.toNat < (c.attempts + 1).toNat) } := by
  unfold recordAttempt
  by_cases beyond : c.limit < c.attempts + 1
  · rw [if_pos beyond, decide_eq_true (UInt32.lt_iff_toNat_lt.mp beyond), Bool.or_true]
    rfl
  · rw [if_neg beyond, decide_eq_false (mt UInt32.lt_iff_toNat_lt.mpr beyond), Bool.or_false]

theorem attempts_after (c : Connection) (call : Call) :
    (c.after call).attempts.toNat = call.count c.attempts.toNat % 4294967296 := by
  have small : c.attempts.toNat < 4294967296 := c.attempts.toNat_lt
  cases call with
  | attempt =>
      show c.recordAttempt.2.attempts.toNat = _
      rw [recordAttempt_snd]
      exact toNat_attempts_succ c
  | reset => rfl
  | halt => exact (Nat.mod_eq_of_lt small).symm

theorem limit_after (c : Connection) (call : Call) : (c.after call).limit = c.limit := by
  cases call with
  | attempt =>
      show c.recordAttempt.2.limit = c.limit
      rw [recordAttempt_snd]
  | reset => rfl
  | halt => rfl

theorem halted_after (halted : c.halted = true) (call : Call) : (c.after call).halted = true := by
  cases call with
  | attempt =>
      show c.recordAttempt.2.halted = true
      rw [recordAttempt_snd, halted]
      rfl
  | reset => exact halted
  | halt => rfl

/-! ## Runs -/

theorem run_concat (c : Connection) (calls : List Call) (call : Call) :
    c.run (calls ++ [call]) = (c.run calls).after call :=
  List.foldl_append

theorem Call.attempts_concat (calls : List Call) (call : Call) :
    attempts (calls ++ [call]) = call.count (attempts calls) :=
  List.foldl_append

theorem Call.attempts_replicate (n : Nat) : attempts (List.replicate n attempt) = n := by
  induction n with
  | zero => rfl
  | succ n ih => rw [List.replicate_succ', attempts_concat, ih, count]

theorem limit_run (c : Connection) (calls : List Call) : (c.run calls).limit = c.limit := by
  induction calls using List.reverseRecOn with
  | nil => rfl
  | append_singleton calls call ih => rw [run_concat, limit_after, ih]

/-- **The counter shows the attempts since the last reset, as far as 32 bits go.** -/
theorem attempts_run (fresh : start.attempts = 0) (calls : List Call) :
    (start.run calls).attempts.toNat = Call.attempts calls % 4294967296 := by
  induction calls using List.reverseRecOn with
  | nil => exact congrArg UInt32.toNat fresh
  | append_singleton calls call ih =>
      rw [run_concat, attempts_after, ih, Call.attempts_concat]
      cases call with
      | attempt => exact Nat.mod_add_mod _ _ _
      | reset => rfl
      | halt => exact Nat.mod_mod _ _

/-- **Once halted, a connection stays halted.** -/
theorem halted_run (halted : c.halted = true) (calls : List Call) :
    (c.run calls).halted = true := by
  induction calls using List.reverseRecOn with
  | nil => exact halted
  | append_singleton calls call ih =>
      rw [run_concat]
      exact halted_after ih call

/-- A connection is halted when somebody halts it, or when the counter shows an attempt beyond the
limit. -/
theorem halted_run_iff (fresh : start.attempts = 0) (running : start.halted = false)
    (calls : List Call) :
    (start.run calls).halted = true ↔
      ∃ before call, before ++ [call] <+: calls ∧ call.Halts start.limit before := by
  induction calls using List.reverseRecOn with
  | nil => simp [run, running]
  | append_singleton calls call ih =>
      have last : ((start.run calls).after call).halted = true ↔
          (start.run calls).halted = true ∨ call.Halts start.limit calls := by
        cases call with
        | attempt =>
            show (start.run calls).recordAttempt.2.halted = true ↔ _
            rw [recordAttempt_snd, Bool.or_eq_true, decide_eq_true_iff, limit_run,
              toNat_attempts_succ, attempts_run fresh, Nat.mod_add_mod]
            rfl
        | reset => exact (or_iff_left id).symm
        | halt => exact iff_of_true rfl (.inr trivial)
      rw [run_concat, last, ih]
      constructor
      · rintro (⟨before, other, isPrefix, halts⟩ | halts)
        · exact ⟨before, other, isPrefix.trans (List.prefix_append _ _), halts⟩
        · exact ⟨calls, call, List.prefix_rfl, halts⟩
      · rintro ⟨before, other, isPrefix, halts⟩
        rcases List.prefix_concat_iff.mp isPrefix with same | isPrefix
        · obtain ⟨rfl, rest⟩ := List.append_inj' same rfl
          cases rest
          exact .inr halts
        · exact .inl ⟨before, other, isPrefix, halts⟩

/-- **What a connection shows is the number of attempts modulo `2 ^ 32`.** -/
theorem shows_run (fresh : start.attempts = 0) (calls : List Call) :
    start.Shows calls (Call.attempts calls % 4294967296) where
  attempts := attempts_run fresh calls
  exhausted := by
    unfold isExhausted
    rw [decide_eq_true_iff, UInt32.lt_iff_toNat_lt, limit_run, attempts_run fresh]
  answered := by
    rintro before rfl
    rw [recordAttempt_fst, limit_run, toNat_attempts_succ, attempts_run fresh, Nat.mod_add_mod,
      Call.attempts_concat, Call.count]
  halted := by
    rintro before rfl beyond
    rw [run_concat]
    show (start.run before).recordAttempt.2.halted = true
    rw [recordAttempt_snd, Bool.or_eq_true, decide_eq_true_iff, limit_run, toNat_attempts_succ,
      attempts_run fresh, Nat.mod_add_mod]
    rw [Call.attempts_concat, Call.count] at beyond
    exact .inr beyond

/-- **A connection is right about the attempts as long as there are fewer than `2 ^ 32`.** -/
theorem shows_attempts_iff (fresh : start.attempts = 0) (calls : List Call) :
    start.Shows calls (Call.attempts calls) ↔ Call.attempts calls < 4294967296 := by
  constructor
  · intro shows
    rw [← shows.attempts]
    exact UInt32.toNat_lt _
  · intro small
    have shows := shows_run fresh calls
    rwa [Nat.mod_eq_of_lt small] at shows

end Run

/-! ## New connections -/

/-- **What a connection says after any run of calls.**  It shows the number of attempts since the
last reset modulo `2 ^ 32`: the counter, whether the limit is exceeded, and how an attempt is
answered.  It is halted exactly if somebody has halted it or an attempt was shown beyond the limit,
and it stays halted whatever is called then.  All of this is right about the attempts themselves, in
the whole run, exactly if there are never `2 ^ 32` of them without a reset. -/
theorem counter_run (url : String) (limit : UInt32) (reconnectId : String) (calls : List Call) :
    let start := new url limit reconnectId
    start.Shows calls (Call.attempts calls % 4294967296) ∧
      ((start.run calls).halted = true ↔
        ∃ before call, before ++ [call] <+: calls ∧ call.Halts limit before) ∧
      (∀ more, (start.run calls).halted = true → (start.run (calls ++ more)).halted = true) ∧
      ((∀ before, before <+: calls → start.Shows before (Call.attempts before)) ↔
        ∀ before, before <+: calls → Call.attempts before < 4294967296) := by
  intro start
  have fresh : start.attempts = 0 := rfl
  refine ⟨shows_run fresh calls, halted_run_iff fresh rfl calls, ?_, ?_⟩
  · intro more halted
    have same : start.run (calls ++ more) = (start.run calls).run more := List.foldl_append
    rw [same]
    exact halted_run halted more
  · exact forall₂_congr fun before _ => shows_attempts_iff fresh before

/-- With the greatest limit there is, the attempt of number `2 ^ 32` is answered as if it were none,
and afterwards the connection has no attempts, is not exhausted and goes on. -/
theorem not_shows_overflown :
    let start := new "tcp://h:1" 4294967295 "id"
    let before := List.replicate 4294967295 Call.attempt
    let calls := before ++ [.attempt]
    Call.attempts calls = 4294967296 ∧ ¬ start.Shows calls (Call.attempts calls) ∧
      (start.run before).recordAttempt.1.map UInt32.toNat = .ok 0 ∧
      (start.run calls).attempts = 0 ∧ (start.run calls).isExhausted = false ∧
      (start.run calls).halted = false := by
  intro start before calls
  have fresh : start.attempts = 0 := rfl
  have count : Call.attempts calls = 4294967296 := by
    rw [Call.attempts_concat, Call.attempts_replicate, Call.count]
  have shows := shows_run fresh calls
  rw [count] at shows
  refine ⟨count, ?_, shows.answered before rfl, UInt32.toNat_inj.mp shows.attempts, ?_, ?_⟩
  · rw [shows_attempts_iff fresh, count]
    exact Nat.lt_irrefl _
  · rw [← Bool.not_eq_true, shows.exhausted]
    exact Nat.not_lt_zero _
  · rw [← Bool.not_eq_true, halted_run_iff fresh rfl]
    rintro ⟨earlier, call, isPrefix, halts⟩
    have mem : call ∈ calls := isPrefix.subset (List.mem_append_right _ (List.mem_singleton_self _))
    have attempt : call = .attempt := by
      rcases List.mem_append.mp mem with old | new
      · exact List.eq_of_mem_replicate old
      · exact List.mem_singleton.mp new
    subst attempt
    -- No number modulo `2 ^ 32` is beyond the greatest limit.
    exact absurd (Nat.mod_lt (Call.attempts earlier + 1) (by decide : 0 < 4294967296))
      (Nat.not_lt.mpr (Nat.succ_le_of_lt halts))

end RemoteAgent.Connection
