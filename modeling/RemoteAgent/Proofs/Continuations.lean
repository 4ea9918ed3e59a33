import Mathlib.Data.List.Basic
import Mathlib.Data.Nat.Find
import RemoteAgent.Deferred

/-!
# One continuation, once

A deferred value in the hands of code that binds and settles it as it likes: any number of times, in
any order, in the light of the answers it got, and also from within a continuation that is running.

`Deferred.bind` and `Deferred.settle` only say which run is due.  `Deferred.Machine` does the
running: it has a stack of code, and a run that a call makes due is put on top of what follows the
call, so it has ended before the call returns.  Code that is bound to the deferred value stands
inside its state, which is why the machine takes steps: there is nothing that a recursion over the
code could descend on.

The machine keeps a log of the calls, each with its answer and with the run that took place inside
of it.  `Deferred.Entry.Follows` says what all of this is in terms of the calls before: only the
first continuation that was bound and the first settlement count.  One lemma about the state that
they add up to (`Deferred.call_of_state_eq`) carries it from step to step, and the log alone tells
the rest.

## Main definitions

* `Deferred.Code`: what code does with a deferred value.
* `Deferred.Machine`: code at work on a deferred value, with a log.
* `Deferred.Machine.ExactlyOnce`: what such a log looks like.
* `Deferred.Machine.Returns`: what is on top is done, and nothing beneath it was touched.
-/

namespace RemoteAgent.Deferred

/-! ## Calls -/

section Calls

variable {κ : Type}

/-- A call of code that has a deferred value. -/
inductive Call (κ : Type) where
  /-- It binds a continuation. -/
  | bind (continuation : κ)
  /-- It resolves the deferred value, or rejects it. -/
  | settle (settlement : Settlement)

namespace Call

/-- The continuation, if the call is to bind one. -/
def continuation? : Call κ → Option κ
  | .bind continuation => some continuation
  | .settle _ => none

/-- The settlement, if the call is to settle. -/
def settlement? : Call κ → Option Settlement
  | .bind _ => none
  | .settle settlement => some settlement

/-- Why a call is turned down that was made before. -/
def refusal : Call κ → DeferredError
  | .bind _ => .alreadyBound
  | .settle _ => .alreadySettled

end Call

/-- Makes a call. -/
def call (d : Deferred κ) : Call κ → Except DeferredError (Deferred κ × Option (DueRun κ))
  | .bind continuation => d.bind continuation
  | .settle settlement => d.settle settlement

/-- The state that a continuation and a settlement add up to, where there are such. -/
def State.of : Option κ → Option Settlement → State κ
  | none, none => .fresh
  | some continuation, none => .waiting continuation
  | none, some settlement => .early settlement
  | some _, some _ => .finished

/-- The run that is due where there are both a continuation and a settlement. -/
def due? (continuation? : Option κ) (settlement? : Option Settlement) : Option (DueRun κ) :=
  continuation?.bind fun continuation => settlement?.map (DueRun.mk continuation)

/-- A call is new if there was no other call of its kind. -/
def Call.IsNew (call : Call κ) (continuation? : Option κ) (settlement? : Option Settlement) : Prop :=
  match call with
  | .bind _ => continuation? = none
  | .settle _ => settlement? = none

/-- **What a call does, by the continuation and the settlement that there are.**  A new call is
added to them, and what it meets there is due.  Any other call is turned down. -/
theorem call_of_state_eq {d : Deferred κ} {continuation? : Option κ}
    {settlement? : Option Settlement} (state : d.state = .of continuation? settlement?)
    (call : Call κ) :
    (call.IsNew continuation? settlement? ∧
        d.call call = .ok
          (⟨d.id, .of (continuation?.or call.continuation?) (settlement?.or call.settlement?)⟩,
            due? (continuation?.or call.continuation?)
              (settlement?.or call.settlement?))) ∨
      (¬ call.IsNew continuation? settlement? ∧ d.call call = .error call.refusal) := by
  cases call with
  | bind continuation =>
      cases continuation? <;> cases settlement? <;>
        simp_all [State.of, due?, Deferred.call, Deferred.bind, Call.IsNew, Call.refusal,
          Call.continuation?, Call.settlement?]
  | settle settlement =>
      cases continuation? <;> cases settlement? <;>
        simp_all [State.of, due?, Deferred.call, Deferred.settle, Call.IsNew, Call.refusal,
          Call.continuation?, Call.settlement?]

/-- How many calls can still succeed. -/
def State.rank : State κ → Nat
  | .fresh => 2
  | .waiting _ => 1
  | .early _ => 1
  | .finished => 0

/-- A call that succeeds uses one up. -/
theorem rank_lt_of_call {d after : Deferred κ} {due : Option (DueRun κ)} {call : Call κ}
    (answer : d.call call = .ok (after, due)) : after.state.rank < d.state.rank := by
  obtain ⟨id, state⟩ := d
  cases call <;> cases state <;> cases answer <;> simp [State.rank]

end Calls

/-! ## Code at work -/

/-- What code does with a deferred value, up to its end. -/
inductive Code where
  /-- Nothing more. -/
  | done
  /-- It binds a continuation, and goes on according to the answer. -/
  | bind (continuation : Settlement → Code) (next : Except DeferredError Unit → Code)
  /-- It settles the deferred value, and goes on according to the answer. -/
  | settle (settlement : Settlement) (next : Except DeferredError Unit → Code)

/-- What is bound to a deferred value: what is done with a value, and what is done with a message.
-/
abbrev Continuation := Settlement → Code

/-- A call in the log of a machine. -/
structure Entry where
  /-- The call. -/
  call : Call Continuation
  /-- The deferred value as the call finds it. -/
  before : Deferred Continuation
  /-- What the call returns. -/
  answer : Except DeferredError Unit
  /-- The deferred value as the call leaves it, before anything is run. -/
  after : Deferred Continuation
  /-- What is run inside the call. -/
  ran : Option (DueRun Continuation)

/-- Code at work on a deferred value. -/
structure Machine where
  /-- The deferred value. -/
  deferred : Deferred Continuation
  /-- What is still to be done; what is on top is done first. -/
  stack : List Code
  /-- The calls so far, the first one first. -/
  log : List Entry

namespace Machine

/-- Code that begins on a new deferred value. -/
def start (id : String) (code : Code) : Machine := ⟨.fresh id, [code], []⟩

/-- Makes a call, with `next` to go on from there.  A run that is due comes before that. -/
def perform (m : Machine) (call : Call Continuation) (next : Except DeferredError Unit → Code)
    (rest : List Code) : Machine :=
  match m.deferred.call call with
  | .ok (after, due) =>
    { deferred := after
      stack := (due.map fun run => run.continuation run.settlement).toList ++ next (.ok ()) :: rest
      log := m.log ++ [⟨call, m.deferred, .ok (), after, due⟩] }
  | .error error =>
    { m with
      stack := next (.error error) :: rest
      log := m.log ++ [⟨call, m.deferred, .error error, m.deferred, none⟩] }

/-- Does what is next. -/
def step (m : Machine) : Machine :=
  match m.stack with
  | [] => m
  | .done :: rest => { m with stack := rest }
  | .bind continuation next :: rest => m.perform (.bind continuation) next rest
  | .settle settlement next :: rest => m.perform (.settle settlement) next rest

/-- Does the next `n` things. -/
def run (m : Machine) : Nat → Machine
  | 0 => m
  | n + 1 => m.step.run n

end Machine

/-! ## What the log tells -/

/-- The continuation of the first call that was to bind one. -/
def bound? (log : List Entry) : Option Continuation :=
  log.findSome? fun entry => entry.call.continuation?

/-- The settlement of the first call that was to settle. -/
def settled? (log : List Entry) : Option Settlement :=
  log.findSome? fun entry => entry.call.settlement?

@[simp] theorem bound?_concat (log : List Entry) (entry : Entry) :
    bound? (log ++ [entry]) = (bound? log).or entry.call.continuation? := by
  simp [bound?, List.findSome?_append]

@[simp] theorem settled?_concat (log : List Entry) (entry : Entry) :
    settled? (log ++ [entry]) = (settled? log).or entry.call.settlement? := by
  simp [settled?, List.findSome?_append]

theorem Entry.filterMap_ran (entry : Entry) : [entry].filterMap Entry.ran = entry.ran.toList := by
  cases ran : entry.ran <;> simp [ran]

/-- The first call of a kind succeeds, and what it meets is run inside of it.  Any later call of the
kind is turned down, changes nothing and runs nothing. -/
structure Entry.Follows (earlier : List Entry) (entry : Entry) : Prop where
  /-- The first call that binds. -/
  firstBind : ∀ continuation, entry.call = .bind continuation → bound? earlier = none →
    entry.answer = .ok () ∧
      entry.ran = (settled? earlier).map fun settlement => ⟨continuation, settlement⟩
  /-- Any later call that binds. -/
  laterBind : ∀ continuation, entry.call = .bind continuation → bound? earlier ≠ none →
    entry.answer = .error .alreadyBound ∧ entry.after = entry.before ∧ entry.ran = none
  /-- The first call that settles. -/
  firstSettlement : ∀ settlement, entry.call = .settle settlement → settled? earlier = none →
    entry.answer = .ok () ∧
      entry.ran = (bound? earlier).map fun continuation => ⟨continuation, settlement⟩
  /-- Any later call that settles. -/
  laterSettlement : ∀ settlement, entry.call = .settle settlement → settled? earlier ≠ none →
    entry.answer = .error .alreadySettled ∧ entry.after = entry.before ∧ entry.ran = none

namespace Machine

/-- The runs that have begun, in their order. -/
def runs (m : Machine) : List (DueRun Continuation) := m.log.filterMap Entry.ran

/-- A deferred value is bound once and settled once, and one continuation is run once. -/
structure ExactlyOnce (m : Machine) : Prop where
  /-- Every call does what the calls before leave to be done. -/
  calls : ∀ earlier entry later, m.log = earlier ++ entry :: later → entry.Follows earlier
  /-- A call finds the deferred value as the call before has left it. -/
  continues : ∀ earlier previous entry later, m.log = earlier ++ previous :: entry :: later →
    entry.before = previous.after
  /-- What is run is the first continuation that was bound, on the first settlement. -/
  runs : m.runs = (due? (bound? m.log) (settled? m.log)).toList
  /-- Something is run exactly if a call that binds and a call that settles have succeeded. -/
  once : m.runs.length = 1 ↔
    (∃ entry ∈ m.log, entry.answer = .ok () ∧ entry.call.continuation?.isSome) ∧
      ∃ entry ∈ m.log, entry.answer = .ok () ∧ entry.call.settlement?.isSome

/-- An item of a list with one more item is the last one, or an item of the list. -/
theorem split_concat {α : Type} {items earlier later : List α} {last item : α}
    (split : items ++ [last] = earlier ++ item :: later) :
    (items = earlier ∧ last = item) ∨ ∃ front, items = earlier ++ item :: front := by
  rcases List.eq_nil_or_concat later with rfl | ⟨front, other, rfl⟩
  · obtain ⟨rfl, same⟩ := List.append_inj' split rfl
    exact .inl ⟨rfl, List.singleton_inj.mp same⟩
  · have split : items ++ [last] = (earlier ++ item :: front) ++ [other] := by
      rw [split]
      simp
    exact .inr ⟨front, (List.append_inj' split rfl).1⟩

/-- The calls of a log, if each of them does what the calls before leave to be done. -/
def Coherent (log : List Entry) : Prop :=
  ∀ earlier entry later, log = earlier ++ entry :: later → entry.Follows earlier

namespace Coherent

variable {log : List Entry}

/-- The first call that was to bind a continuation has succeeded. -/
theorem bound?_isSome_iff (coherent : Coherent log) :
    (bound? log).isSome ↔
      ∃ entry ∈ log, entry.answer = .ok () ∧ entry.call.continuation?.isSome := by
  constructor
  · intro some_
    obtain ⟨continuation, found⟩ := Option.isSome_iff_exists.mp some_
    obtain ⟨earlier, entry, later, split, call, first⟩ := List.findSome?_eq_some_iff.mp found
    have none : bound? earlier = none := List.findSome?_eq_none_iff.mpr first
    refine ⟨entry, by simp [split], ?_, by simp [call]⟩
    cases kind : entry.call with
    | bind other => exact ((coherent earlier entry later split).firstBind other kind none).1
    | settle => simp [kind, Call.continuation?] at call
  · rintro ⟨entry, mem, -, binds⟩
    exact List.findSome?_isSome_iff.mpr ⟨entry, mem, binds⟩

/-- The first call that was to settle has succeeded. -/
theorem settled?_isSome_iff (coherent : Coherent log) :
    (settled? log).isSome ↔
      ∃ entry ∈ log, entry.answer = .ok () ∧ entry.call.settlement?.isSome := by
  constructor
  · intro some_
    obtain ⟨settlement, found⟩ := Option.isSome_iff_exists.mp some_
    obtain ⟨earlier, entry, later, split, call, first⟩ := List.findSome?_eq_some_iff.mp found
    have none : settled? earlier = none := List.findSome?_eq_none_iff.mpr first
    refine ⟨entry, by simp [split], ?_, by simp [call]⟩
    cases kind : entry.call with
    | bind => simp [kind, Call.settlement?] at call
    | settle other =>
        exact ((coherent earlier entry later split).firstSettlement other kind none).1
  · rintro ⟨entry, mem, -, settles⟩
    exact List.findSome?_isSome_iff.mpr ⟨entry, mem, settles⟩

/-- What is due is one run exactly if calls of both kinds have succeeded. -/
theorem length_due?_eq_one_iff (coherent : Coherent log) :
    (due? (bound? log) (settled? log)).toList.length = 1 ↔
      (∃ entry ∈ log, entry.answer = .ok () ∧ entry.call.continuation?.isSome) ∧
        ∃ entry ∈ log, entry.answer = .ok () ∧ entry.call.settlement?.isSome := by
  rw [← coherent.bound?_isSome_iff, ← coherent.settled?_isSome_iff]
  cases bound? log <;> cases settled? log <;> simp [due?]

end Coherent

/-- The log tells how far the deferred value has come. -/
structure Told (m : Machine) : Prop extends m.ExactlyOnce where
  /-- The deferred value has the first continuation and the first settlement. -/
  state : m.deferred.state = .of (bound? m.log) (settled? m.log)
  /-- The last call has left it as it is. -/
  left : ∀ earlier entry, m.log = earlier ++ [entry] → m.deferred = entry.after

namespace Told

variable {m : Machine}

theorem start (id : String) (code : Code) : (Machine.start id code).Told where
  state := rfl
  left := by simp [Machine.start]
  calls := by simp [Machine.start]
  continues := by simp [Machine.start]
  runs := rfl
  once := by simp [Machine.start, Machine.runs]

/-- One more call is told, if it does what the log leaves to be done. -/
theorem concat (told : m.Told) {later : Machine} {entry : Entry}
    (log : later.log = m.log ++ [entry]) (follows : entry.Follows m.log)
    (before : entry.before = m.deferred) (after : later.deferred = entry.after)
    (state : later.deferred.state = .of (bound? later.log) (settled? later.log))
    (runs : later.runs = (due? (bound? later.log) (settled? later.log)).toList) :
    later.Told := by
  have calls : Coherent later.log := by
    intro earlier other rest split
    rw [log] at split
    obtain ⟨rfl, rfl⟩ | ⟨front, old⟩ := split_concat split
    · exact follows
    · exact told.calls earlier other front old
  refine ⟨⟨calls, fun earlier previous other rest split => ?_, runs, ?_⟩, state,
    fun earlier last split => ?_⟩
  · rw [log, List.append_cons earlier] at split
    obtain ⟨old, rfl⟩ | ⟨front, old⟩ := split_concat split
    · exact before.trans (told.left earlier previous old)
    · exact told.continues earlier previous other front (old.trans (List.append_cons ..).symm)
  · rw [runs]
    exact calls.length_due?_eq_one_iff
  · rw [log] at split
    rw [after, List.singleton_inj.mp (List.append_inj' split rfl).2]

/-- **The step lemma**: a call is told. -/
theorem perform (told : m.Told) (call : Call Continuation)
    (next : Except DeferredError Unit → Code) (rest : List Code) :
    (m.perform call next rest).Told := by
  obtain ⟨new, answer⟩ | ⟨old, answer⟩ := call_of_state_eq told.state call
  · have performed : (m.perform call next rest).log = m.log ++ [⟨call, m.deferred, .ok (),
        ⟨m.deferred.id, .of ((bound? m.log).or call.continuation?)
          ((settled? m.log).or call.settlement?)⟩,
        due? ((bound? m.log).or call.continuation?) ((settled? m.log).or call.settlement?)⟩] := by
      simp [Machine.perform, answer]
    have deferred : (m.perform call next rest).deferred = ⟨m.deferred.id,
        .of ((bound? m.log).or call.continuation?) ((settled? m.log).or call.settlement?)⟩ := by
      simp [Machine.perform, answer]
    -- Nothing was due before, or the call would not be new.
    have none : due? (bound? m.log) (settled? m.log) = none := by
      cases call with
      | bind => simp [due?, show bound? m.log = none from new]
      | settle => simp [due?, show settled? m.log = none from new]
    refine told.concat performed ?_ rfl deferred ?_ ?_
    · constructor
      · rintro continuation rfl first
        simp [due?, first, Call.continuation?, Call.settlement?]
      · rintro continuation rfl later
        exact absurd new later
      · rintro settlement rfl first
        refine ⟨rfl, ?_⟩
        cases bound? m.log <;> simp [due?, first, Call.continuation?, Call.settlement?]
      · rintro settlement rfl later
        exact absurd new later
    · rw [deferred, performed, bound?_concat, settled?_concat]
    · rw [Machine.runs, performed, List.filterMap_append, ← Machine.runs, told.runs, none,
        bound?_concat, settled?_concat, Entry.filterMap_ran]
      rfl
  · have performed : (m.perform call next rest).log =
        m.log ++ [⟨call, m.deferred, .error call.refusal, m.deferred, none⟩] := by
      simp [Machine.perform, answer]
    have deferred : (m.perform call next rest).deferred = m.deferred := by
      simp [Machine.perform, answer]
    -- The log has a call of this kind already, and that one counts.
    have bound : bound? (m.perform call next rest).log = bound? m.log := by
      rw [performed, bound?_concat]
      cases call with
      | bind =>
          obtain ⟨first, found⟩ := Option.ne_none_iff_exists'.mp old
          simp [found]
      | settle => simp [Call.continuation?]
    have settled : settled? (m.perform call next rest).log = settled? m.log := by
      rw [performed, settled?_concat]
      cases call with
      | bind => simp [Call.settlement?]
      | settle =>
          obtain ⟨first, found⟩ := Option.ne_none_iff_exists'.mp old
          simp [found]
    refine told.concat performed ?_ rfl deferred ?_ ?_
    · constructor
      · rintro continuation rfl first
        exact absurd first old
      · rintro continuation rfl -
        exact ⟨rfl, rfl, rfl⟩
      · rintro settlement rfl first
        exact absurd first old
      · rintro settlement rfl -
        exact ⟨rfl, rfl, rfl⟩
    · rw [deferred, bound, settled, told.state]
    · rw [bound, settled, ← told.runs, Machine.runs, performed]
      simp [Machine.runs]

theorem step (told : m.Told) : m.step.Told := by
  unfold Machine.step
  split
  · exact told
  · exact ⟨⟨told.calls, told.continues, told.runs, told.once⟩, told.state, told.left⟩
  · exact told.perform _ _ _
  · exact told.perform _ _ _

theorem run (told : m.Told) (n : Nat) : (m.run n).Told := by
  induction n generalizing m with
  | zero => exact told
  | succ n ih => exact ih told.step

end Told

/-! ## Coming to an end -/

/-- The machine comes to an end. -/
def Ends (m : Machine) : Prop := ∃ n, (m.run n).stack = []

theorem Ends.of_step {m : Machine} (ends : m.step.Ends) : m.Ends := by
  obtain ⟨n, empty⟩ := ends
  exact ⟨n + 1, empty⟩

/-- A call that fails leads into the code that follows it; one that succeeds brings up code from
anywhere, but there are two such calls at most. -/
theorem ends (m : Machine) : m.Ends := by
  induction rank : m.deferred.state.rank using Nat.strongRecOn generalizing m with
  | ind _ ends =>
    subst rank
    obtain ⟨deferred, stack, log⟩ := m
    have smaller (m : Machine) (less : m.deferred.state.rank < deferred.state.rank) : m.Ends :=
      ends _ less m rfl
    clear ends
    -- The two kinds of call lead on alike.
    have onward : ∀ (call : Call Continuation) next rest log,
        (∀ answer log, Ends ⟨deferred, next answer :: rest, log⟩) →
          (perform ⟨deferred, [], log⟩ call next rest).Ends := by
      intro call next rest log follows
      unfold perform
      split
      · next after due answer => exact smaller _ (rank_lt_of_call answer)
      · exact follows _ _
    induction stack generalizing log with
    | nil => exact ⟨0, rfl⟩
    | cons code rest ih =>
        induction code generalizing log with
        | done => exact .of_step (ih _)
        | bind continuation next _ follows =>
            exact .of_step (onward (.bind continuation) next rest log follows)
        | settle settlement next follows =>
            exact .of_step (onward (.settle settlement) next rest log follows)

/-- After `n` steps a machine is done with what was above `rest`; before, there was always something
above it. -/
structure Returns (m : Machine) (rest : List Code) (n : Nat) : Prop where
  /-- Nothing is left above the rest. -/
  back : (m.run n).stack = rest
  /-- The rest stays where it is until then. -/
  above : ∀ k < n, ∃ code inside, (m.run k).stack = code :: inside ++ rest

/-- A machine with more to do afterwards. -/
def onTopOf (m : Machine) (rest : List Code) : Machine := { m with stack := m.stack ++ rest }

/-- What is to be done afterwards does not show in a step. -/
theorem step_onTopOf (m : Machine) (rest : List Code) (busy : m.stack ≠ []) :
    (m.onTopOf rest).step = m.step.onTopOf rest := by
  obtain ⟨deferred, stack, log⟩ := m
  have perform_onTopOf (call : Call Continuation) next (onward : List Code) :
      perform ⟨deferred, stack ++ rest, log⟩ call next (onward ++ rest) =
        (perform ⟨deferred, stack, log⟩ call next onward).onTopOf rest := by
    cases answer : deferred.call call with
    | error error => simp [perform, answer, onTopOf]
    | ok after => simp [perform, answer, onTopOf]
  cases stack with
  | nil => exact absurd rfl busy
  | cons code onward =>
      cases code with
      | done => rfl
      | bind continuation next => exact perform_onTopOf (.bind continuation) next onward
      | settle settlement next => exact perform_onTopOf (.settle settlement) next onward

theorem run_onTopOf (m : Machine) (rest : List Code) (n : Nat)
    (busy : ∀ k < n, (m.run k).stack ≠ []) : (m.onTopOf rest).run n = (m.run n).onTopOf rest := by
  induction n generalizing m with
  | zero => rfl
  | succ n ih =>
      change (m.onTopOf rest).step.run n = _
      rw [step_onTopOf m rest (busy 0 n.succ_pos)]
      exact ih m.step fun k less => busy (k + 1) (Nat.succ_lt_succ less)

/-- Whatever is on top of the stack is done before anything beneath it is touched. -/
theorem exists_returns (m : Machine) {code : Code} {rest : List Code}
    (top : m.stack = code :: rest) : ∃ n, m.Returns rest n := by
  obtain ⟨deferred, stack, log⟩ := m
  subst top
  have ends := ends ⟨deferred, [code], log⟩
  classical
  have busy (k : Nat) (less : k < Nat.find ends) :
      (run ⟨deferred, [code], log⟩ k).stack ≠ [] := Nat.find_min ends less
  refine ⟨Nat.find ends, ?_, fun k less => ?_⟩
  · change (run (onTopOf ⟨deferred, [code], log⟩ rest) _).stack = rest
    rw [run_onTopOf _ rest _ busy]
    simp [onTopOf, Nat.find_spec ends]
  · change ∃ code' inside, (run (onTopOf ⟨deferred, [code], log⟩ rest) k).stack = _
    rw [run_onTopOf _ rest _ fun j earlier => busy j (Nat.lt_trans earlier less)]
    obtain ⟨first, inside, busy⟩ := List.exists_cons_of_ne_nil (busy k less)
    exact ⟨first, inside, by simp [onTopOf, busy]⟩

/-- **A deferred value is bound once, settled once, and runs one continuation once.**  Whatever code
does with it, at every moment the first call of each kind has succeeded and all others were turned
down without effect, and what was run is the first continuation on the first settlement, inside the
call that came second.  A run has come to its end before the code after the call goes on, and so
does everything in the end. -/
theorem exactlyOnce_run (id : String) (code : Code) (n : Nat) :
    ((start id code).run n).ExactlyOnce ∧
      ∀ top rest, ((start id code).run n).stack = top :: rest →
        ∃ k, ((start id code).run n).Returns rest k :=
  ⟨((Told.start id code).run n).toExactlyOnce, fun _ _ top => exists_returns _ top⟩

/-- A continuation that binds and settles again while it runs. -/
def again : Continuation := fun settlement =>
  .settle settlement fun _ => .bind (fun _ => .done) fun _ => .done

/-- Code that settles first, and then binds this continuation. -/
def late : Code := .settle (.rejected "late") fun _ => .bind again fun _ => .done

/-- The continuation runs inside the call that binds it.  It is turned down both times, and nothing
runs twice. -/
theorem exactlyOnce_run_late :
    (∃ k, ((start "d" late).run 2).Returns [.done] k) ∧
      ((start "d" late).run 9).log.map (fun entry => (entry.answer, entry.ran.map DueRun.settlement)) =
        [(.ok (), none), (.ok (), some (.rejected "late")), (.error .alreadySettled, none),
          (.error .alreadyBound, none)] :=
  ⟨(exactlyOnce_run "d" late 2).2 (again (.rejected "late")) [.done] rfl, rfl⟩

end Machine

end RemoteAgent.Deferred
