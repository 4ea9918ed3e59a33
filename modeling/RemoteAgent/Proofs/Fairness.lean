import RemoteAgent.Proofs.Verdict

/-!
# Endless runs

That something happens at last is said of endless runs.  A run is *fair* if nobody is kept from its
step for ever: an activity that can take a step takes one, or cannot any more, and time goes on.
What a scheduler that lets activities take turns does is fair, and so is much else.

`Service.Fair.exists_step` is the one place where fairness is used.  Where a state is left by the
step of one activity alone, and that activity can take it from some time on, it takes it.

## Main definitions

* `Service.course`, `Service.courseLog`: an agent in an endless run, and the log of the run so far.
* `Service.Fair`: a fair run.
-/

namespace RemoteAgent

variable {τ φ η : Type}

namespace Service

section Course

variable [Transport τ] [ObjectModel φ η]

/-- The agent after the first `k` of endlessly many events. -/
def course (p : Service τ φ η) (events : Nat → Event τ φ η) : Nat → Service τ φ η
  | 0 => p
  | k + 1 => (course p events k).act (events k)

/-- The log of the first `k` events. -/
def courseLog (p : Service τ φ η) (events : Nat → Event τ φ η) : Nat → List Reconnect
  | 0 => []
  | k + 1 => courseLog p events k ++ (p.course events k).reconnects (events k)

/-- Nobody is kept from its step for ever, and time goes on. -/
structure Fair (p : Service τ φ η) (events : Nat → Event τ φ η) : Prop where
  /-- An activity that can take a step takes one, or cannot any more. -/
  steps : ∀ k n, (p.course events k).isReady n = true →
    ∃ j, k ≤ j ∧ (events j = .step n ∨ (p.course events j).isReady n = false)
  /-- Every moment passes for good. -/
  time : ∀ time, ∃ k, ∀ j, k ≤ j → time ≤ (p.course events j).agent.link.timer

variable {p : Service τ φ η} {events : Nat → Event τ φ η} {k j : Nat}

/-- What an event of the run makes of the agent. -/
theorem course_succ_of {event : Event τ φ η} (happens : events k = event) :
    p.course events (k + 1) = (p.course events k).act event := by
  rw [course, happens]

/-- The log grows by what an event is about. -/
theorem countP_courseLog_succ (p : Service τ φ η) (events : Nat → Event τ φ η) (k : Nat)
    (test : Reconnect → Bool) :
    (p.courseLog events (k + 1)).countP test = (p.courseLog events k).countP test +
      ((p.course events k).reconnects (events k)).countP test := List.countP_append

/-- A connection that is given up stays so. -/
theorem halted_course (halted : (p.course events k).agent.isHalted = true) (later : k ≤ j) :
    (p.course events j).agent.isHalted = true := by
  induction later with
  | refl => exact halted
  | step _ ih => exact halted_act ih _

/-- **What fairness is good for.**  If a state is left by a step of activity `n` alone, and that
activity can take a step from some time on, then it takes one in that state. -/
theorem Fair.exists_step (fair : p.Fair events) {State : Nat → Prop} {n time : Nat}
    (stays : ∀ j, k ≤ j → State j → events j ≠ .step n → State (j + 1))
    (ready : ∀ j, k ≤ j → State j → time ≤ (p.course events j).agent.link.timer →
      (p.course events j).isReady n = true) (here : State k) :
    ∃ j, k ≤ j ∧ State j ∧ events j = .step n := by
  by_contra never
  have remains : ∀ j, k ≤ j → State j := by
    intro j later
    induction later with
    | refl => exact here
    | @step i later ih => exact stays i later ih fun own => never ⟨i, later, ih, own⟩
  -- From that time on the activity can take a step, so it takes one.
  obtain ⟨i, passed⟩ := fair.time time
  have able : ∀ j, max k i ≤ j → (p.course events j).isReady n = true := by
    intro j later
    have after : k ≤ j := Nat.le_trans (Nat.le_max_left k i) later
    exact ready j after (remains j after) (passed j (Nat.le_trans (Nat.le_max_right k i) later))
  obtain ⟨j, later, own | unable⟩ := fair.steps (max k i) n (able _ (Nat.le_refl _))
  · have after : k ≤ j := Nat.le_trans (Nat.le_max_left k i) later
    exact never ⟨j, after, remains j after, own⟩
  · rw [able j later] at unable
    cases unable

/-- Where nobody is under way any more and only time goes on, the run is fair. -/
theorem fair_of_quiet (late : Nat) (nobody : (p.course events late).activities = [])
    (passes : ∀ k, late ≤ k → ∃ wall, events k = .time k wall) : p.Fair events := by
  have quiet : ∀ k, late ≤ k → (p.course events k).activities = [] := by
    intro k later
    induction later with
    | refl => exact nobody
    | @step k later ih =>
        obtain ⟨wall, event⟩ := passes k later
        rw [course, event]
        exact ih
  refine ⟨fun k n _ => ⟨max k late, Nat.le_max_left .., .inr ?_⟩,
    fun time => ⟨max time late + 1, ?_⟩⟩
  · unfold isReady activity?
    rw [quiet _ (Nat.le_max_right ..)]
    rfl
  · rintro (_ | k) later
    · cases later
    · have past : max time late ≤ k := Nat.le_of_succ_le_succ later
      obtain ⟨wall, event⟩ := passes k (Nat.le_trans (Nat.le_max_right ..) past)
      rw [course, event]
      exact Nat.le_trans (Nat.le_max_left ..) past

end Course

end Service

end RemoteAgent
