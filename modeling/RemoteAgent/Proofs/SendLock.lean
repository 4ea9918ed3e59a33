import Mathlib.Data.List.Nodup
import RemoteAgent.Link.Shared
import RemoteAgent.Proofs.Packet

/-!
# The send lock

What any number of sends on one link do to the wire, however they are interleaved and however they
end.  The transport is arbitrary here: it may refuse any frame at any moment.

The code keeps no record of what went over the wire, so the statements are about a history kept
beside it.  An `Attempt` is one hold of the lock, with the frames that the transport accepted during
it; `History` is the list of those that are over and the one that is not.  `History.record` reads
off a step what it adds, from the place the send was at, the answer of the transport and the end of
the step, and `History.Describes` says how history, framer and sends belong together:

* the flag of the framer is up exactly while an attempt is current, and then exactly one of the
  sends is at a place that holds the lock;
* what the current attempt has handed over and what its holder still has to do are the frames of its
  payload, in this order;
* an attempt that is over has handed over a part of the frames of its payload from the first one on,
  and all of them exactly when its send returned without an error.

The places are what makes this go through: a send that waits has a tail left, because a slice is
never the last frame (`Frame.IsTail.rest_of_more`), so an error can never come after the whole
payload was accepted.
-/

namespace RemoteAgent

variable {τ : Type}

/-! ## Activities with numbers -/

/-- The place that is gone on from, if an activity goes on. -/
def Progress.next? {α ρ : Type} : Progress α ρ → Option α
  | .going next => some next
  | .done _ => none

theorem Progress.next?_eq_some_iff {α ρ : Type} {progress : Progress α ρ} {next : α} :
    progress.next? = some next ↔ progress = .going next := by
  cases progress with
  | going => simp [next?]
  | done => simp [next?]

/-- The result, if an activity has ended. -/
def Progress.result? {α ρ : Type} : Progress α ρ → Option ρ
  | .going _ => none
  | .done result => some result

namespace Numbered

variable {α : Type} {items : List (Nat × α)} {n m : Nat} {item : α} {next : Option α}

/-- The items after one of them has moved to the end, or is gone. -/
def moved (items : List (Nat × α)) (n : Nat) (next : Option α) : List (Nat × α) :=
  items.filter (·.1 ≠ n) ++ (next.map (n, ·)).toList

theorem mem_moved :
    (m, item) ∈ moved items n next ↔ (m ≠ n ∧ (m, item) ∈ items) ∨ (m = n ∧ next = some item) := by
  cases next with
  | none => simp [moved, and_comm]
  | some other =>
      simp only [moved, List.mem_append, List.mem_filter, decide_eq_true_eq, Option.map_some,
        Option.toList_some, List.mem_singleton, Prod.mk.injEq, Option.some.injEq]
      constructor
      · rintro (⟨mem, different⟩ | ⟨rfl, rfl⟩)
        · exact .inl ⟨different, mem⟩
        · exact .inr ⟨rfl, rfl⟩
      · rintro (⟨different, mem⟩ | ⟨rfl, rfl⟩)
        · exact .inl ⟨mem, different⟩
        · exact .inr ⟨rfl, rfl⟩

/-- The item that has moved is what it moved to. -/
theorem eq_of_mem_moved (mem : (n, item) ∈ moved items n next) : next = some item := by
  rcases mem_moved.mp mem with ⟨different, -⟩ | ⟨-, here⟩
  · exact absurd rfl different
  · exact here

theorem nodup_moved (distinct : (items.map Prod.fst).Nodup) :
    ((moved items n next).map Prod.fst).Nodup := by
  have others : ((items.filter (·.1 ≠ n)).map Prod.fst).Nodup :=
    distinct.sublist (List.filter_sublist.map _)
  cases next with
  | none => simpa [moved] using others
  | some other =>
      simp only [moved, Option.map_some, Option.toList_some, List.map_append, List.map_cons,
        List.map_nil]
      refine others.append (List.nodup_singleton n) ?_
      simp

/-- Where a number is new, nothing is taken out. -/
theorem moved_of_fresh (fresh : n ∉ items.map Prod.fst) :
    moved items n next = items ++ (next.map (n, ·)).toList := by
  have others : items.filter (·.1 ≠ n) = items := by
    rw [List.filter_eq_self]
    intro item mem
    have different : item.1 ≠ n := by
      rintro rfl
      exact fresh (List.mem_map_of_mem mem)
    simpa using different
  rw [moved, others]

/-- A number belongs to one item only. -/
theorem unique (distinct : (items.map Prod.fst).Nodup) {other : α} (mem : (n, item) ∈ items)
    (otherMem : (n, other) ∈ items) : item = other := by
  have same := List.inj_on_of_nodup_map distinct mem otherMem rfl
  exact (Prod.mk.inj same).2

/-! ### The items of one number -/

theorem filter_of_fresh (fresh : n ∉ items.map Prod.fst) : items.filter (·.1 = n) = [] := by
  rw [List.filter_eq_nil_iff]
  intro item mem same
  exact fresh (of_decide_eq_true same ▸ List.mem_map_of_mem mem)

theorem filter_of_mem (distinct : (items.map Prod.fst).Nodup) (mem : (n, item) ∈ items) :
    items.filter (·.1 = n) = [(n, item)] := by
  induction items with
  | nil => cases mem
  | cons first rest ih =>
      obtain ⟨fresh, distinct⟩ := List.nodup_cons.mp distinct
      rcases List.mem_cons.mp mem with rfl | mem
      · rw [List.filter_cons_of_pos (by simp), filter_of_fresh fresh]
      · have inRest : n ∈ rest.map Prod.fst := List.mem_map_of_mem mem
        have different : first.1 ≠ n := by
          rintro same
          exact fresh (same ▸ inRest)
        rw [List.filter_cons_of_neg (by simpa using different), ih distinct mem]

/-- Moving an item makes a difference to its own number only. -/
theorem filter_moved (items : List (Nat × α)) (n : Nat) (next : Option α) (m : Nat) :
    (moved items n next).filter (·.1 = m) =
      if n = m then (next.map (n, ·)).toList else items.filter (·.1 = m) := by
  unfold moved
  rw [List.filter_append, List.filter_filter]
  by_cases same : n = m
  · have none : items.filter (fun item => decide (item.1 = m) && decide (item.1 ≠ n)) = [] := by
      rw [List.filter_eq_nil_iff]
      intro item mem
      simp [same]
    rw [none, if_pos same]
    cases next with
    | none => rfl
    | some other => simp [same]
  · have others : items.filter (fun item => decide (item.1 = m) && decide (item.1 ≠ n)) =
        items.filter (·.1 = m) := by
      refine List.filter_congr fun item mem => ?_
      by_cases here : item.1 = m
      · simp [here, Ne.symm same]
      · simp [here]
    rw [others, if_neg same]
    cases next with
    | none => simp
    | some other => simp [same]

end Numbered

/-! ## Attempts -/

/-- How a hold of the send lock ended. -/
inductive Ending where
  /-- The send ended with this result. -/
  | returned (result : Except TransportError Unit)
  /-- The send was given up from outside. -/
  | abandoned

/-- Whether the send has returned without an error. -/
def Ending.isOk : Ending → Bool
  | .returned (.ok ()) => true
  | _ => false

theorem Ending.isOk_iff (ending : Ending) : ending.isOk = true ↔ ending = .returned (.ok ()) := by
  match ending with
  | .returned (.ok ()) => simp [isOk]
  | .returned (.error _) => simp [isOk]
  | .abandoned => simp [isOk]

/-- One hold of the send lock. -/
structure Attempt where
  /-- The number of the send. -/
  number : Nat
  /-- What it is to send. -/
  payload : String
  /-- The frames that the transport has accepted, the first one first. -/
  handed : List Frame

/-- The transport has accepted one more frame. -/
def Attempt.hand (attempt : Attempt) (frame : Frame) : Attempt :=
  { attempt with handed := attempt.handed ++ [frame] }

/-- Every frame of the payload was accepted. -/
def Attempt.IsComplete (limit : Nat) (attempt : Attempt) : Prop :=
  attempt.handed = Frame.chunks limit attempt.payload

/-- The holds of the send lock, in the order in which the lock was taken. -/
structure History where
  /-- Those that are over, with their ends. -/
  past : List (Attempt × Ending)
  /-- The one that is not. -/
  current : Option Attempt

namespace History

/-- Nobody has had the lock. -/
def empty : History := ⟨[], none⟩

/-- All attempts in the order in which the lock was taken. -/
def attempts (history : History) : List Attempt :=
  history.past.map Prod.fst ++ history.current.toList

/-- The sends that have had the lock, in this order, each with its number and its payload. -/
def turns (history : History) : List (Nat × String) :=
  history.attempts.map fun attempt => (attempt.number, attempt.payload)

/-- The data frames that the transport has accepted, in their order. -/
def frames (history : History) : List Frame := history.attempts.flatMap Attempt.handed

/-- The payloads that sends of a number have handed over completely, in their order. -/
def completedBy (history : History) (n : Nat) : List String :=
  (history.past.filter fun entry => entry.1.number = n ∧ entry.2.isOk).map (·.1.payload)

/-- Send `n` takes the lock. -/
def begin (history : History) (n : Nat) (payload : String) : History :=
  { history with current := some ⟨n, payload, []⟩ }

/-- The transport accepts a frame. -/
def hand (history : History) (frame : Frame) : History :=
  { history with current := history.current.map (·.hand frame) }

/-- The hold of send `n` is over, if it has the lock. -/
def close (history : History) (n : Nat) (ending : Ending) : History :=
  match history.current with
  | some attempt =>
    if attempt.number = n then ⟨history.past ++ [(attempt, ending)], none⟩ else history
  | none => history

/-- What a send does with the lock and the transport in its next step, before the step may end it.
-/
def act [Transport τ] (history : History) (link : Link τ) (n : Nat) : Sending → History
  | .acquiring payload _ _ =>
    if link.framer.sending then history else history.begin n payload
  | .transmitting frame _ => if (link.transmit frame).1.isOk then history.hand frame else history
  | .waiting _ _ => history

/-- The history after a step of send `n` from a place. -/
def record [Transport τ] (history : History) (link : Link τ) (n : Nat) (place : Sending) :
    History :=
  match (place.step link).1 with
  | .going _ => history.act link n place
  | .done result => (history.act link n place).close n (.returned result)

@[simp] theorem attempts_close (history : History) (n : Nat) (ending : Ending) :
    (history.close n ending).attempts = history.attempts := by
  unfold close
  split
  · next attempt current =>
      split <;> simp [attempts, current]
  · rfl

/-- Giving a send up completes nothing. -/
theorem completedBy_close_abandoned (history : History) (n m : Nat) :
    (history.close n .abandoned).completedBy m = history.completedBy m := by
  unfold close
  split
  · split
    · simp [completedBy, Ending.isOk]
    · rfl
  · rfl

/-- Closing an attempt begins none. -/
theorem current_of_close {history : History} {n : Nat} {ending : Ending} {attempt : Attempt}
    (current : (history.close n ending).current = some attempt) :
    history.current = some attempt := by
  unfold close at current
  split at current
  · split at current
    · cases current
    · exact current
  · exact current

theorem close_of_ne {history : History} {n : Nat} (ending : Ending)
    (other : ∀ attempt, history.current = some attempt → attempt.number ≠ n) :
    history.close n ending = history := by
  unfold close
  split
  · next attempt current => simp [other attempt current]
  · rfl

end History

/-! ## What a step of a send does -/

namespace Framer

/-- Gets ready for handing over a frame: before a slice goes out, its acknowledgment is awaited. -/
def expect (p : Framer) (frame : Frame) : Framer :=
  if frame.kind = .more then { p with acknowledgment := .awaited } else p

/-- Takes the acknowledgment that has come. -/
def consume (p : Framer) : Framer := { p with acknowledgment := .none }

@[simp] theorem expect_sending (p : Framer) (frame : Frame) :
    (p.expect frame).sending = p.sending := by
  unfold expect
  split <;> rfl

@[simp] theorem expect_frameLimit (p : Framer) (frame : Frame) :
    (p.expect frame).frameLimit = p.frameLimit := by
  unfold expect
  split <;> rfl

@[simp] theorem expect_buffer (p : Framer) (frame : Frame) :
    (p.expect frame).buffer = p.buffer := by
  unfold expect
  split <;> rfl

end Framer

namespace Sending

/-- The frames that a send which holds the lock has not handed over. -/
def remaining : Sending → List Frame
  | .acquiring _ _ _ => []
  | .transmitting frame rest => frame :: rest
  | .waiting rest _ => rest

/-- The slot for the acknowledgment is in use while a slice is handed over or waited for, and only
then. -/
def Fits (slot : Acknowledgment) : Sending → Prop
  | .acquiring _ _ _ => True
  | .transmitting frame _ => slot ≠ .none ↔ frame.kind = .more
  | .waiting _ _ => slot ≠ .none

/-- Turning to the next frame of a tail. -/
theorem next_tail (link : Link τ) {frames : List Frame} (tail : Frame.IsTail frames) :
    ∃ frame rest, frames = frame :: rest ∧
      next link frames =
        (.going (.transmitting frame rest), { link with framer := link.framer.expect frame }) := by
  cases tail with
  | final slice => exact ⟨_, _, rfl, rfl⟩
  | more slice tail => exact ⟨_, _, rfl, rfl⟩

variable [Transport τ] {link : Link τ}

/-- A send that finds the lock free takes it, and turns to its first frame. -/
theorem step_acquiring_free (free : link.framer.sending = false) (payload : String) (since : Nat)
    (again : Option Nat) :
    ∃ frame rest, Frame.chunks link.framer.frameLimit payload = frame :: rest ∧
      (acquiring payload since again).step link =
        (.going (.transmitting frame rest),
          { link with framer := link.framer.lock.expect frame }) := by
  obtain ⟨frame, rest, frames, turned⟩ :=
    next_tail { link with framer := link.framer.lock }
      (Frame.isTail_chunks link.framer.frameLimit payload)
  refine ⟨frame, rest, frames, ?_⟩
  rw [← turned]
  simp [step, acquire, free, Framer.chunks]

/-- A send that finds the lock taken leaves everything as it is. -/
theorem step_acquiring_taken (taken : link.framer.sending = true) (payload : String)
    (since : Nat) (again : Option Nat) :
    (∃ later, (acquiring payload since again).step link =
        (.going (.acquiring payload since later), link)) ∨
      (acquiring payload since again).step link =
        (.done (.error (.lockTimeout link.framer.lockTimeout)), link) := by
  by_cases late : link.framer.lockTimeout.milliseconds ≤ link.wall - since
  · simp [step, acquire, taken, late]
  · simp [step, acquire, taken, late]

theorem step_transmitting_error {frame : Frame} {error : TransportError}
    (refused : (link.transmit frame).1 = .error error) (rest : List Frame) :
    (transmitting frame rest).step link =
      finish (link.transmit frame).2 (.error error) := by
  rcases handed : link.transmit frame with ⟨result, after⟩
  rw [handed] at refused
  cases refused
  simp [step, transmit, handed]

theorem step_transmitting_slice {frame : Frame} (more : frame.kind = .more)
    (accepted : (link.transmit frame).1 = .ok ()) (rest : List Frame) :
    (transmitting frame rest).step link =
      (.going (.waiting rest
          ((link.transmit frame).2.timer +
            (link.transmit frame).2.framer.ackTimeout.milliseconds)),
        (link.transmit frame).2) := by
  rcases handed : link.transmit frame with ⟨result, after⟩
  rw [handed] at accepted
  cases accepted
  simp [step, transmit, handed, more]

theorem step_transmitting_last {frame : Frame} (last : frame.kind ≠ .more)
    (accepted : (link.transmit frame).1 = .ok ()) :
    (transmitting frame []).step link = finish (link.transmit frame).2 (.ok ()) := by
  rcases handed : link.transmit frame with ⟨result, after⟩
  rw [handed] at accepted
  cases accepted
  simp [step, transmit, handed, last, next]

/-- A send whose acknowledgment has come turns to the next frame. -/
theorem step_waiting_arrived (arrived : link.framer.acknowledgment = .arrived)
    {rest : List Frame} (tail : Frame.IsTail rest) (deadline : Nat) :
    ∃ frame others, rest = frame :: others ∧
      (waiting rest deadline).step link =
        (.going (.transmitting frame others),
          { link with framer := link.framer.consume.expect frame }) := by
  obtain ⟨frame, others, frames, turned⟩ :=
    next_tail { link with framer := link.framer.consume } tail
  refine ⟨frame, others, frames, ?_⟩
  rw [← turned]
  simp [step, await, arrived, Framer.consume]

/-- A send whose acknowledgment is not there waits on, or gives up when its time has come. -/
theorem step_waiting_missing (missing : link.framer.acknowledgment ≠ .arrived)
    (rest : List Frame) (deadline : Nat) :
    (waiting rest deadline).step link = (.going (.waiting rest deadline), link) ∨
      (waiting rest deadline).step link =
        finish link (.error (.ackTimeout link.framer.ackTimeout)) := by
  by_cases late : deadline ≤ link.timer
  · simp [step, await, missing, late]
  · simp [step, await, missing, late]

end Sending

@[simp] theorem Link.transmit_framer [Transport τ] (link : Link τ) (frame : Frame) :
    (link.transmit frame).2.framer = link.framer := rfl

/-! ## History, framer and sends -/

/-- The holder of the lock is at a place from which it goes on with the attempt. -/
structure Sending.Continues (limit : Nat) (slot : Acknowledgment) (attempt : Attempt)
    (place : Sending) : Prop where
  /-- The place is one of those at which a send has the lock. -/
  holds : place.holdsLock = true
  /-- Something is left to do, and it ends with the final frame. -/
  tail : Frame.IsTail place.remaining
  /-- What is done and what is left are the frames of the payload. -/
  chunks : attempt.handed ++ place.remaining = Frame.chunks limit attempt.payload
  /-- The slot for the acknowledgment is in the state that the place needs. -/
  fits : place.Fits slot

/-- An attempt that goes on has handed over slices only, and not the whole payload. -/
theorem Sending.Continues.not_complete {limit : Nat} {slot : Acknowledgment} {attempt : Attempt}
    {place : Sending} (continues : place.Continues limit slot attempt) :
    ¬ attempt.IsComplete limit := by
  intro complete
  have nothing : place.remaining = [] := by
    simpa [complete.symm] using continues.chunks
  exact continues.tail.ne_nil nothing

theorem Sending.Continues.handed_prefix {limit : Nat} {slot : Acknowledgment} {attempt : Attempt}
    {place : Sending} (continues : place.Continues limit slot attempt) :
    attempt.handed <+: Frame.chunks limit attempt.payload :=
  ⟨place.remaining, continues.chunks⟩

/-- **The history tells what happened on the framer, up to where the sends are now.** -/
structure History.Describes (history : History) (framer : Framer) (sends : List (Nat × Sending)) :
    Prop where
  /-- No two sends have one number. -/
  distinct : (sends.map Prod.fst).Nodup
  /-- A frame holds something. -/
  positive : framer.frameLimit ≠ 0
  /-- An attempt that is over handed over the first frames of its payload, and all of them exactly
  when its send returned without an error. -/
  past : ∀ entry ∈ history.past,
    entry.1.handed <+: Frame.chunks framer.frameLimit entry.1.payload ∧
      (entry.1.IsComplete framer.frameLimit ↔ entry.2 = .returned (.ok ()))
  /-- Without a current attempt nobody has the lock, and nobody waits for an acknowledgment. -/
  free : history.current = none →
    framer.sending = false ∧ framer.acknowledgment = .none ∧
      ∀ send ∈ sends, send.2.holdsLock = false
  /-- The current attempt belongs to the one send that has the lock. -/
  held : ∀ attempt, history.current = some attempt →
    framer.sending = true ∧
      (∀ send ∈ sends, send.2.holdsLock = true → send.1 = attempt.number) ∧
      ∃ place, (attempt.number, place) ∈ sends ∧
        place.Continues framer.frameLimit framer.acknowledgment attempt

/-- The outcomes of a step of send `n`: where it starts, where it ends, and what it makes of the
history.  At the places that hold the lock the send has the current attempt. -/
inductive History.Outcome [Transport τ] (history : History) (link : Link τ) (n : Nat) :
    Sending → Sending.Step τ → History → Prop
  /-- The lock is taken, and is looked at again later. -/
  | polled {payload : String} {since : Nat} {again later : Option Nat}
      (other : ∀ attempt, history.current = some attempt → attempt.number ≠ n) :
      Outcome history link n (.acquiring payload since again)
        (.going (.acquiring payload since later), link) history
  /-- The lock was taken for too long. -/
  | lockTimeout {payload : String} {since : Nat} {again : Option Nat}
      (other : ∀ attempt, history.current = some attempt → attempt.number ≠ n) :
      Outcome history link n (.acquiring payload since again)
        (.done (.error (.lockTimeout link.framer.lockTimeout)), link) history
  /-- The lock is free, and an attempt begins. -/
  | locked {payload : String} {since : Nat} {again : Option Nat} {frame : Frame}
      {rest : List Frame} (free : link.framer.sending = false)
      (frames : Frame.chunks link.framer.frameLimit payload = frame :: rest)
      (none : history.current = none) :
      Outcome history link n (.acquiring payload since again)
        (.going (.transmitting frame rest),
          { link with framer := link.framer.lock.expect frame })
        { history with current := some ⟨n, payload, []⟩ }
  /-- The transport refuses the frame, and the attempt ends short of its payload. -/
  | refused {frame : Frame} {rest : List Frame} {error : TransportError} {attempt : Attempt}
      (current : history.current = some attempt) (number : attempt.number = n)
      (answer : (link.transmit frame).1 = .error error) :
      Outcome history link n (.transmitting frame rest)
        (Sending.finish (link.transmit frame).2 (.error error))
        ⟨history.past ++ [(attempt, .returned (.error error))], none⟩
  /-- The transport accepts a slice. -/
  | slice {frame : Frame} {rest : List Frame} {attempt : Attempt} {deadline : Nat}
      (current : history.current = some attempt) (number : attempt.number = n)
      (more : frame.kind = .more) (answer : (link.transmit frame).1 = .ok ()) :
      Outcome history link n (.transmitting frame rest)
        (.going (.waiting rest deadline), (link.transmit frame).2)
        { history with current := some (attempt.hand frame) }
  /-- The transport accepts the final frame, and the attempt is complete. -/
  | last {frame : Frame} {attempt : Attempt}
      (current : history.current = some attempt) (number : attempt.number = n)
      (more : frame.kind ≠ .more) (answer : (link.transmit frame).1 = .ok ()) :
      Outcome history link n (.transmitting frame [])
        (Sending.finish (link.transmit frame).2 (.ok ()))
        ⟨history.past ++ [(attempt.hand frame, .returned (.ok ()))], none⟩
  /-- The acknowledgment is there, and the next frame is up. -/
  | turned {frame : Frame} {rest : List Frame} {deadline : Nat} {attempt : Attempt}
      (current : history.current = some attempt) (number : attempt.number = n)
      (arrived : link.framer.acknowledgment = .arrived) :
      Outcome history link n (.waiting (frame :: rest) deadline)
        (.going (.transmitting frame rest),
          { link with framer := link.framer.consume.expect frame })
        history
  /-- The acknowledgment is not there, and there is still time. -/
  | waited {rest : List Frame} {deadline : Nat} {attempt : Attempt}
      (current : history.current = some attempt) (number : attempt.number = n)
      (missing : link.framer.acknowledgment ≠ .arrived) :
      Outcome history link n (.waiting rest deadline) (.going (.waiting rest deadline), link)
        history
  /-- The acknowledgment has not come in time. -/
  | ackTimeout {rest : List Frame} {deadline : Nat} {attempt : Attempt}
      (current : history.current = some attempt) (number : attempt.number = n)
      (missing : link.framer.acknowledgment ≠ .arrived) :
      Outcome history link n (.waiting rest deadline)
        (Sending.finish link (.error (.ackTimeout link.framer.ackTimeout)))
        ⟨history.past ++ [(attempt, .returned (.error (.ackTimeout link.framer.ackTimeout)))],
          none⟩

namespace History.Outcome

variable [Transport τ] {history recorded : History} {link : Link τ} {n : Nat} {place : Sending}
  {stepped : Sending.Step τ}

/-- A step completes an attempt exactly when it returns without an error, and then it is the
current one. -/
theorem completedBy_cases (outcome : history.Outcome link n place stepped recorded) (m : Nat) :
    (stepped.1 ≠ .done (.ok ()) ∧ recorded.completedBy m = history.completedBy m) ∨
      (stepped.1 = .done (.ok ()) ∧ ∃ attempt, history.current = some attempt ∧
        attempt.number = n ∧ recorded.completedBy m =
          history.completedBy m ++ if n = m then [attempt.payload] else []) := by
  cases outcome with
  | polled => exact .inl ⟨by simp, rfl⟩
  | lockTimeout => exact .inl ⟨by simp, rfl⟩
  | locked => exact .inl ⟨by simp, rfl⟩
  | refused => exact .inl ⟨by simp [Sending.finish], by simp [History.completedBy, Ending.isOk]⟩
  | slice => exact .inl ⟨by simp, rfl⟩
  | @last frame attempt current number =>
      refine .inr ⟨rfl, attempt, current, number, ?_⟩
      by_cases here : n = m
      · simp [History.completedBy, Ending.isOk, Attempt.hand, number, here]
      · simp [History.completedBy, Attempt.hand, number, here]
  | turned => exact .inl ⟨by simp, rfl⟩
  | waited => exact .inl ⟨by simp, rfl⟩
  | ackTimeout => exact .inl ⟨by simp [Sending.finish], by simp [History.completedBy, Ending.isOk]⟩

/-- The current attempt stays the same but for what it has handed over, unless a send takes the
lock. -/
theorem current_cases (outcome : history.Outcome link n place stepped recorded)
    {attempt : Attempt} (current : recorded.current = some attempt) :
    (∃ old, history.current = some old ∧ old.number = attempt.number ∧
        old.payload = attempt.payload) ∨
      (attempt.number = n ∧ ∃ since again, place = .acquiring attempt.payload since again) := by
  cases outcome with
  | polled => exact .inl ⟨attempt, current, rfl, rfl⟩
  | lockTimeout => exact .inl ⟨attempt, current, rfl, rfl⟩
  | locked =>
      cases current
      exact .inr ⟨rfl, _, _, rfl⟩
  | refused => cases current
  | slice old =>
      cases current
      exact .inl ⟨_, old, rfl, rfl⟩
  | last => cases current
  | turned => exact .inl ⟨attempt, current, rfl, rfl⟩
  | waited => exact .inl ⟨attempt, current, rfl, rfl⟩
  | ackTimeout => cases current

/-- Only handing over a frame touches the transport, and the history has the frames that it
accepted. -/
theorem transport_frames (outcome : history.Outcome link n place stepped recorded) :
    (stepped.2.transport = link.transport ∧ recorded.frames = history.frames) ∨
      ∃ frame rest, place = .transmitting frame rest ∧
        stepped.2.transport = (link.transmit frame).2.transport ∧
        recorded.frames =
          history.frames ++ if (link.transmit frame).1.isOk then [frame] else [] := by
  cases outcome with
  | polled => exact .inl ⟨rfl, rfl⟩
  | lockTimeout => exact .inl ⟨rfl, rfl⟩
  | locked free frames none =>
      refine .inl ⟨rfl, ?_⟩
      simp [History.frames, History.attempts, none]
  | refused current number answer =>
      refine .inr ⟨_, _, rfl, rfl, ?_⟩
      simp [History.frames, History.attempts, current, answer, Except.isOk, Except.toBool]
  | slice current number more answer =>
      refine .inr ⟨_, _, rfl, rfl, ?_⟩
      simp [History.frames, History.attempts, current, answer, Except.isOk, Except.toBool,
        Attempt.hand]
  | last current number more answer =>
      refine .inr ⟨_, _, rfl, rfl, ?_⟩
      simp [History.frames, History.attempts, current, answer, Except.isOk, Except.toBool,
        Attempt.hand]
  | turned => exact .inl ⟨rfl, rfl⟩
  | waited => exact .inl ⟨rfl, rfl⟩
  | ackTimeout current =>
      refine .inl ⟨rfl, ?_⟩
      simp [History.frames, History.attempts, current]

/-- The errors that a send can end with. -/
theorem error_cases (outcome : history.Outcome link n place stepped recorded)
    {error : TransportError} (failed : stepped.1 = .done (.error error)) :
    error = .lockTimeout link.framer.lockTimeout ∨ error = .ackTimeout link.framer.ackTimeout ∨
      ∃ frame, link.transmit frame = (.error error, { link with transport := stepped.2.transport })
    := by
  cases outcome with
  | polled => cases failed
  | lockTimeout =>
      cases failed
      exact .inl rfl
  | locked => cases failed
  | @refused frame _ _ _ _ _ answer =>
      cases failed
      refine .inr (.inr ⟨frame, ?_⟩)
      rw [← answer]
      rfl
  | slice => cases failed
  | last => cases failed
  | turned => cases failed
  | waited => cases failed
  | ackTimeout =>
      cases failed
      exact .inr (.inl rfl)

/-- What comes in is none of a send's business. -/
theorem buffer_eq (outcome : history.Outcome link n place stepped recorded) :
    stepped.2.framer.buffer = link.framer.buffer := by
  cases outcome with
  | locked => simp [Framer.lock]
  | turned => simp [Framer.consume]
  | _ => rfl

/-- An attempt that fails does so because the transport refused a frame, or because an
acknowledgment did not come. -/
theorem past_cases (outcome : history.Outcome link n place stepped recorded) :
    recorded.past = history.past ∨
      (∃ attempt, recorded.past = history.past ++ [(attempt, .returned (.ok ()))] ∧
        stepped.1 = .done (.ok ())) ∨
      ∃ attempt error, recorded.past = history.past ++ [(attempt, .returned (.error error))] ∧
        stepped.1 = .done (.error error) ∧
        ((∃ frame, (link.transmit frame).1 = .error error) ∨
          error = .ackTimeout link.framer.ackTimeout) := by
  cases outcome with
  | polled => exact .inl rfl
  | lockTimeout => exact .inl rfl
  | locked => exact .inl rfl
  | refused current number answer => exact .inr (.inr ⟨_, _, rfl, rfl, .inl ⟨_, answer⟩⟩)
  | slice => exact .inl rfl
  | last => exact .inr (.inl ⟨_, rfl, rfl⟩)
  | turned => exact .inl rfl
  | waited => exact .inl rfl
  | ackTimeout => exact .inr (.inr ⟨_, _, rfl, rfl, .inr rfl⟩)

/-- Over a transport that accepts every frame, no attempt fails unless an acknowledgment did not
come. -/
theorem whole (outcome : history.Outcome link n place stepped recorded)
    (accepts : ∀ frame, (link.transmit frame).1 = .ok ())
    (inTime : ∀ span, stepped.1 ≠ .done (.error (.ackTimeout span)))
    (before : ∀ entry ∈ history.past, entry.2 = .returned (.ok ())) :
    ∀ entry ∈ recorded.past, entry.2 = .returned (.ok ()) := by
  obtain same | ⟨attempt, past, -⟩ | ⟨attempt, error, -, failed, cause⟩ := outcome.past_cases
  · exact same ▸ before
  · intro entry mem
    rw [past] at mem
    rcases List.mem_append.mp mem with old | new
    · exact before entry old
    · rw [List.mem_singleton.mp new]
  · rcases cause with ⟨frame, refused⟩ | rfl
    · rw [accepts] at refused
      cases refused
    · exact absurd failed (inTime _)

/-- A send has its turn when it takes the lock, and at no other step. -/
theorem turns_cases (outcome : history.Outcome link n place stepped recorded) :
    (recorded.turns = history.turns ∧
        ∀ next, stepped.1.next? = some next → next.holdsLock = false →
          ∃ payload since again later, place = .acquiring payload since again ∧
            next = .acquiring payload since later) ∨
      ∃ payload since again, place = .acquiring payload since again ∧
        recorded.turns = history.turns ++ [(n, payload)] ∧
        ∀ next, stepped.1.next? = some next → next.holdsLock = true := by
  cases outcome with
  | polled =>
      refine .inl ⟨rfl, ?_⟩
      rintro _ ⟨⟩ -
      exact ⟨_, _, _, _, rfl, rfl⟩
  | lockTimeout =>
      refine .inl ⟨rfl, ?_⟩
      rintro _ ⟨⟩
  | locked free frames none =>
      refine .inr ⟨_, _, _, rfl, ?_, ?_⟩
      · simp [History.turns, History.attempts, none]
      · rintro _ ⟨⟩
        rfl
  | refused current =>
      refine .inl ⟨by simp [History.turns, History.attempts, current], ?_⟩
      rintro _ ⟨⟩
  | slice current =>
      refine .inl ⟨by simp [History.turns, History.attempts, current, Attempt.hand], ?_⟩
      rintro _ ⟨⟩ ⟨⟩
  | last current =>
      refine .inl ⟨by simp [History.turns, History.attempts, current, Attempt.hand], ?_⟩
      rintro _ ⟨⟩
  | turned =>
      refine .inl ⟨rfl, ?_⟩
      rintro _ ⟨⟩ ⟨⟩
  | waited =>
      refine .inl ⟨rfl, ?_⟩
      rintro _ ⟨⟩ ⟨⟩
  | ackTimeout current =>
      refine .inl ⟨by simp [History.turns, History.attempts, current], ?_⟩
      rintro _ ⟨⟩

end History.Outcome

namespace History.Describes

variable {history : History} {framer : Framer} {sends : List (Nat × Sending)} {n : Nat}
  {place : Sending}

/-- The place of the holder, found by its number. -/
theorem continues_of_mem (describes : history.Describes framer sends) {attempt : Attempt}
    (current : history.current = some attempt) (mem : (attempt.number, place) ∈ sends) :
    place.Continues framer.frameLimit framer.acknowledgment attempt := by
  obtain ⟨-, -, other, otherMem, continues⟩ := describes.held attempt current
  rwa [Numbered.unique describes.distinct mem otherMem]

/-- A send at a place that holds the lock has the current attempt. -/
theorem current_of_holds (describes : history.Describes framer sends) (mem : (n, place) ∈ sends)
    (holds : place.holdsLock = true) :
    ∃ attempt, history.current = some attempt ∧ attempt.number = n := by
  cases current : history.current with
  | none =>
      have idle := (describes.free current).2.2 _ mem
      simp [holds] at idle
  | some attempt => exact ⟨attempt, rfl, ((describes.held attempt current).2.1 _ mem holds).symm⟩

/-- A send that looks at the lock does not have the current attempt. -/
theorem number_ne_of_idle (describes : history.Describes framer sends) (mem : (n, place) ∈ sends)
    (idle : place.holdsLock = false) (attempt : Attempt)
    (current : history.current = some attempt) : attempt.number ≠ n := by
  rintro rfl
  have continues := describes.continues_of_mem current mem
  simp [continues.holds] at idle

/-! ### The ways in which a state can change

Each is stated once, for any framer that differs only in what the change is about; a step of a send
is one of them. -/

/-- A send that does not have the lock moves to another such place, or leaves. -/
theorem idle_moved (describes : history.Describes framer sends) {next : Option Sending}
    (stays : ∀ place, next = some place → place.holdsLock = false)
    (other : ∀ attempt, history.current = some attempt → attempt.number ≠ n) :
    history.Describes framer (Numbered.moved sends n next) := by
  -- Whoever has the lock afterwards is another send, which has not moved.
  have mem_moved : ∀ send ∈ Numbered.moved sends n next, send.2.holdsLock = true →
      send ∈ sends := by
    rintro ⟨m, place⟩ mem holds
    rcases Numbered.mem_moved.mp mem with ⟨-, old⟩ | ⟨-, here⟩
    · exact old
    · have idle := stays place here
      simp [holds] at idle
  refine ⟨Numbered.nodup_moved describes.distinct, describes.positive, describes.past,
    fun none => ?_, fun attempt current => ?_⟩
  · obtain ⟨down, slot, idle⟩ := describes.free none
    refine ⟨down, slot, fun send mem => ?_⟩
    by_contra holds
    rw [Bool.not_eq_false] at holds
    simp [idle send (mem_moved send mem holds)] at holds
  · obtain ⟨up, only, holder, mem, continues⟩ := describes.held attempt current
    refine ⟨up, fun send mem holds => only send (mem_moved send mem holds) holds, holder, ?_,
      continues⟩
    exact Numbered.mem_moved.mpr (.inl ⟨other attempt current, mem⟩)

/-- A send has the lock after the change, and nobody else had it before. -/
theorem holder_moved (describes : history.Describes framer sends) {next : Sending}
    {changed : Framer} {attempt : Attempt} (limit : changed.frameLimit = framer.frameLimit)
    (up : changed.sending = true) (number : attempt.number = n)
    (only : ∀ send ∈ sends, send.2.holdsLock = true → send.1 = n)
    (continues : next.Continues framer.frameLimit changed.acknowledgment attempt) :
    History.Describes { history with current := some attempt } changed
      (Numbered.moved sends n (some next)) := by
  refine ⟨Numbered.nodup_moved describes.distinct, limit ▸ describes.positive,
    by simpa [limit] using describes.past, by simp, ?_⟩
  rintro _ ⟨⟩
  refine ⟨up, ?_, next, Numbered.mem_moved.mpr (.inr ⟨number, rfl⟩), limit ▸ continues⟩
  rintro ⟨m, place⟩ mem holds
  rcases Numbered.mem_moved.mp mem with ⟨-, old⟩ | ⟨here, -⟩
  · exact (only _ old holds).trans number.symm
  · exact here.trans number.symm

/-- The holder of the lock leaves. -/
theorem holder_left (describes : history.Describes framer sends) {attempt : Attempt}
    {ending : Ending} (only : ∀ send ∈ sends, send.2.holdsLock = true → send.1 = n)
    (handed : attempt.handed <+: Frame.chunks framer.frameLimit attempt.payload)
    (complete : attempt.IsComplete framer.frameLimit ↔ ending = .returned (.ok ())) :
    History.Describes ⟨history.past ++ [(attempt, ending)], none⟩ framer.release
      (Numbered.moved sends n none) := by
  refine ⟨Numbered.nodup_moved describes.distinct, describes.positive, fun entry mem => ?_,
    fun _ => ⟨rfl, rfl, ?_⟩, by simp⟩
  · rcases List.mem_append.mp mem with mem | mem
    · exact describes.past entry mem
    · rw [List.mem_singleton.mp mem]
      exact ⟨handed, complete⟩
  · rintro ⟨m, place⟩ mem
    rcases Numbered.mem_moved.mp mem with ⟨different, old⟩ | ⟨-, ⟨⟩⟩
    by_contra holds
    rw [Bool.not_eq_false] at holds
    exact different (only _ old holds)

/-- Whatever the history is called, only what it holds counts. -/
theorem only_holder (describes : history.Describes framer sends) {attempt : Attempt}
    (current : history.current = some attempt) (number : attempt.number = n) :
    ∀ send ∈ sends, send.2.holdsLock = true → send.1 = n :=
  fun send mem holds => ((describes.held attempt current).2.1 send mem holds).trans number

/-- The lock is free exactly when there is no current attempt. -/
theorem current_eq_none (describes : history.Describes framer sends)
    (down : framer.sending = false) : history.current = none := by
  cases current : history.current with
  | none => rfl
  | some attempt =>
      have up := (describes.held attempt current).1
      simp [down] at up

/-! ### Steps -/

section Steps

variable [Transport τ] {link : Link τ}

theorem outcome_acquiring {payload : String} {since : Nat} {again : Option Nat}
    (describes : history.Describes link.framer sends)
    (mem : (n, .acquiring payload since again) ∈ sends) :
    history.Outcome link n (.acquiring payload since again)
      ((Sending.acquiring payload since again).step link)
      (history.record link n (.acquiring payload since again)) := by
  cases lock : link.framer.sending with
  | true =>
      have other := describes.number_ne_of_idle mem rfl
      obtain ⟨later, stepped⟩ | stepped := Sending.step_acquiring_taken lock payload since again
      · have recorded : history.record link n (.acquiring payload since again) = history := by
          simp [History.record, stepped, History.act, lock]
        rw [recorded, stepped]
        exact .polled other
      · have recorded : history.record link n (.acquiring payload since again) = history := by
          simp [History.record, stepped, History.act, lock, History.close_of_ne _ other]
        rw [recorded, stepped]
        exact .lockTimeout other
  | false =>
      obtain ⟨frame, rest, frames, stepped⟩ :=
        Sending.step_acquiring_free lock payload since again
      have recorded : history.record link n (.acquiring payload since again) =
          { history with current := some ⟨n, payload, []⟩ } := by
        simp [History.record, stepped, History.act, lock, History.begin]
      rw [recorded, stepped]
      exact .locked lock frames (describes.current_eq_none lock)

theorem outcome_transmitting {frame : Frame} {rest : List Frame}
    (describes : history.Describes link.framer sends)
    (mem : (n, .transmitting frame rest) ∈ sends) :
    history.Outcome link n (.transmitting frame rest)
      ((Sending.transmitting frame rest).step link)
      (history.record link n (.transmitting frame rest)) := by
  obtain ⟨attempt, current, rfl⟩ := describes.current_of_holds mem rfl
  have tail : Frame.IsTail (frame :: rest) := (describes.continues_of_mem current mem).tail
  cases answer : (link.transmit frame).1 with
  | error error =>
      have stepped := Sending.step_transmitting_error answer rest
      have recorded : history.record link attempt.number (.transmitting frame rest) =
          ⟨history.past ++ [(attempt, .returned (.error error))], none⟩ := by
        simp [History.record, stepped, Sending.finish, History.act, answer, Except.isOk,
          Except.toBool, History.close, current]
      rw [recorded, stepped]
      exact .refused current rfl answer
  | ok =>
      by_cases more : frame.kind = .more
      · have stepped := Sending.step_transmitting_slice more answer rest
        have recorded : history.record link attempt.number (.transmitting frame rest) =
            { history with current := some (attempt.hand frame) } := by
          simp [History.record, stepped, History.act, answer, Except.isOk, Except.toBool,
            History.hand, current]
        rw [recorded, stepped]
        exact .slice current rfl more answer
      · obtain rfl := tail.rest_eq_nil more
        have stepped := Sending.step_transmitting_last more answer
        have recorded : history.record link attempt.number (.transmitting frame []) =
            ⟨history.past ++ [(attempt.hand frame, .returned (.ok ()))], none⟩ := by
          simp [History.record, stepped, Sending.finish, History.act, answer, Except.isOk,
            Except.toBool, History.hand, Attempt.hand, History.close, current]
        rw [recorded, stepped]
        exact .last current rfl more answer

theorem outcome_waiting {rest : List Frame} {deadline : Nat}
    (describes : history.Describes link.framer sends)
    (mem : (n, .waiting rest deadline) ∈ sends) :
    history.Outcome link n (.waiting rest deadline) ((Sending.waiting rest deadline).step link)
      (history.record link n (.waiting rest deadline)) := by
  obtain ⟨attempt, current, rfl⟩ := describes.current_of_holds mem rfl
  by_cases arrived : link.framer.acknowledgment = .arrived
  · have tail : Frame.IsTail rest := (describes.continues_of_mem current mem).tail
    obtain ⟨frame, others, rfl, stepped⟩ := Sending.step_waiting_arrived arrived tail deadline
    have recorded :
        history.record link attempt.number (.waiting (frame :: others) deadline) = history := by
      simp [History.record, stepped, History.act]
    rw [recorded, stepped]
    exact .turned current rfl arrived
  · obtain stepped | stepped := Sending.step_waiting_missing arrived rest deadline
    · have recorded : history.record link attempt.number (.waiting rest deadline) = history := by
        simp [History.record, stepped, History.act]
      rw [recorded, stepped]
      exact .waited current rfl arrived
    · have recorded : history.record link attempt.number (.waiting rest deadline) =
          ⟨history.past ++ [(attempt, .returned (.error (.ackTimeout link.framer.ackTimeout)))],
            none⟩ := by
        simp [History.record, stepped, Sending.finish, History.act, History.close, current]
      rw [recorded, stepped]
      exact .ackTimeout current rfl arrived

/-- **What a step of a send can be.**  Everything below looks at a step through this case
distinction, and never into `Sending.step`. -/
theorem outcome (describes : history.Describes link.framer sends) (mem : (n, place) ∈ sends) :
    history.Outcome link n place (place.step link) (history.record link n place) := by
  cases place with
  | acquiring payload since again => exact describes.outcome_acquiring mem
  | transmitting frame rest => exact describes.outcome_transmitting mem
  | waiting rest deadline => exact describes.outcome_waiting mem

/-- **A step of any send, from any place, over any transport, keeps the history true.** -/
theorem step (describes : history.Describes link.framer sends) (mem : (n, place) ∈ sends) :
    (history.record link n place).Describes (place.step link).2.framer
      (Numbered.moved sends n (place.step link).1.next?) := by
  have outcome := describes.outcome mem
  generalize place.step link = stepped at outcome ⊢
  generalize history.record link n place = recorded at outcome ⊢
  -- Two of the outcomes leave the lock to others, four have a holder afterwards, and three free the lock.
  cases outcome with
  | polled other => exact describes.idle_moved (by rintro _ ⟨⟩; rfl) other
  | lockTimeout other => exact describes.idle_moved (by rintro _ ⟨⟩) other
  | @locked payload since again frame rest free frames none =>
      obtain ⟨-, slot, idle⟩ := describes.free none
      -- Nobody had the lock, so the new holder is the only one.
      have tail : Frame.IsTail (frame :: rest) := frames ▸ Frame.isTail_chunks ..
      refine describes.holder_moved (by simp [Framer.lock]) (by simp [Framer.lock]) rfl
        (fun send mem holds => ?_) ⟨rfl, tail, by simp [Sending.remaining, frames], ?_⟩
      · simp [idle send mem] at holds
      · by_cases more : frame.kind = .more
        · simp [Sending.Fits, Framer.expect, more]
        · simp [Sending.Fits, Framer.expect, more, Framer.lock, slot]
  | refused current number =>
      obtain rfl := number
      have continues := describes.continues_of_mem current mem
      refine describes.holder_left (describes.only_holder current rfl) continues.handed_prefix
        (iff_of_false continues.not_complete ?_)
      simp
  | slice current number more =>
      obtain rfl := number
      have continues := describes.continues_of_mem current mem
      exact describes.holder_moved rfl (describes.held _ current).1 rfl
        (describes.only_holder current rfl)
        ⟨rfl, continues.tail.rest_of_more more,
          by simpa [Attempt.hand, Sending.remaining] using continues.chunks,
          continues.fits.mpr more⟩
  | @last frame attempt current number more =>
      obtain rfl := number
      have handed : attempt.handed ++ [frame] =
          Frame.chunks link.framer.frameLimit attempt.payload :=
        (describes.continues_of_mem current mem).chunks
      exact describes.holder_left (describes.only_holder current rfl)
        (handed ▸ List.prefix_refl _) (iff_of_true handed rfl)
  | @turned frame rest deadline attempt current number arrived =>
      obtain rfl := number
      have continues := describes.continues_of_mem current mem
      -- The attempt has handed over nothing in this step, and is put back as it was.
      have same : { history with current := some attempt } = history := by
        simp [← current]
      rw [← same]
      refine describes.holder_moved (by simp [Framer.consume]) ?_ rfl
        (describes.only_holder current rfl) ⟨rfl, continues.tail, continues.chunks, ?_⟩
      · simpa [Framer.consume] using (describes.held _ current).1
      · by_cases more : frame.kind = .more
        · simp [Sending.Fits, Framer.expect, more]
        · simp [Sending.Fits, Framer.expect, more, Framer.consume]
  | @waited rest deadline attempt current number =>
      obtain rfl := number
      have same : { history with current := some attempt } = history := by
        simp [← current]
      rw [← same]
      exact describes.holder_moved rfl (describes.held _ current).1 rfl
        (describes.only_holder current rfl) (describes.continues_of_mem current mem)
  | ackTimeout current number =>
      obtain rfl := number
      have continues := describes.continues_of_mem current mem
      refine describes.holder_left (describes.only_holder current rfl) continues.handed_prefix
        (iff_of_false continues.not_complete ?_)
      simp

omit [Transport τ] in
/-- Giving a send up frees the lock if it had it, and nothing else. -/
theorem abandon (describes : history.Describes link.framer sends) (mem : (n, place) ∈ sends) :
    (history.close n .abandoned).Describes (place.abandon link).framer
      (Numbered.moved sends n none) := by
  cases holds : place.holdsLock with
  | false =>
      have other := describes.number_ne_of_idle mem holds
      rw [History.close_of_ne _ other, Sending.abandon, holds]
      exact describes.idle_moved (by simp) other
  | true =>
      obtain ⟨attempt, current, rfl⟩ := describes.current_of_holds mem holds
      have continues := describes.continues_of_mem current mem
      rw [Sending.abandon, holds]
      simp only [History.close, current, if_true]
      refine describes.holder_left (describes.only_holder current rfl) continues.handed_prefix
        (iff_of_false continues.not_complete ?_)
      simp

end Steps

/-! ### Everything else that happens on a link -/

/-- A new send looks at the lock first, so it changes nothing yet. -/
theorem begin (describes : history.Describes framer sends) (fresh : n ∉ sends.map Prod.fst)
    (payload : String) (since : Nat) (again : Option Nat) :
    history.Describes framer (sends ++ [(n, .acquiring payload since again)]) := by
  have stays : ∀ place, some (Sending.acquiring payload since again) = some place →
      place.holdsLock = false := by
    rintro _ ⟨⟩
    rfl
  have other : ∀ attempt, history.current = some attempt → attempt.number ≠ n := by
    rintro attempt current rfl
    obtain ⟨-, -, place, mem, -⟩ := describes.held attempt current
    exact fresh (List.mem_map_of_mem mem)
  have moved := describes.idle_moved stays other
  rwa [Numbered.moved_of_fresh fresh] at moved

/-- An incoming frame may fill the buffer or bring an acknowledgment; whoever has the lock keeps
it, and stays where it is. -/
theorem receive (describes : history.Describes framer sends) (text : String) :
    history.Describes (framer.receive text).2 sends := by
  -- A slot that is in use may be filled, but it stays in use.
  have unchanged : (framer.receive text).2.frameLimit = framer.frameLimit ∧
      (framer.receive text).2.sending = framer.sending ∧
      ((framer.receive text).2.acknowledgment ≠ .none ↔ framer.acknowledgment ≠ .none) := by
    unfold Framer.receive
    split
    · simp
    · simp
    · simp
    · split <;> simp_all
  obtain ⟨limit, lock, slot⟩ := unchanged
  refine ⟨describes.distinct, limit ▸ describes.positive, limit ▸ describes.past, fun none => ?_,
    fun attempt current => ?_⟩
  · obtain ⟨down, empty, idle⟩ := describes.free none
    exact ⟨lock ▸ down, by_contra fun filled => slot.mp filled empty, idle⟩
  · obtain ⟨up, only, place, mem, holds, tail, chunks, fits⟩ := describes.held attempt current
    refine ⟨lock ▸ up, only, place, mem, holds, tail, limit ▸ chunks, ?_⟩
    cases place with
    | acquiring => trivial
    | transmitting frame rest => exact slot.trans fits
    | waiting rest deadline => exact slot.mpr fits

end History.Describes

theorem Framer.frameLimit_new_ne_zero (limit : Nat) (lockTimeout lockPoll ackTimeout : Duration) :
    (Framer.new limit lockTimeout lockPoll ackTimeout).frameLimit ≠ 0 := by
  show max 1 limit ≠ 0
  omega

/-- How a framer is set up. -/
structure Setup where
  /-- How many characters fit into a frame. -/
  frameLimit : Nat
  /-- How long a send waits for the lock. -/
  lockTimeout : Duration
  /-- The time between two looks at the lock. -/
  lockPoll : Duration
  /-- How long a send waits for an acknowledgment. -/
  ackTimeout : Duration

/-- A new framer. -/
def Setup.framer (setup : Setup) : Framer :=
  .new setup.frameLimit setup.lockTimeout setup.lockPoll setup.ackTimeout

theorem Setup.frameLimit_framer_ne_zero (setup : Setup) : setup.framer.frameLimit ≠ 0 :=
  Framer.frameLimit_new_ne_zero setup.frameLimit setup.lockTimeout setup.lockPoll setup.ackTimeout

/-- An idle framer without sends has no history. -/
theorem History.describes_empty {framer : Framer} (positive : framer.frameLimit ≠ 0)
    (down : framer.sending = false) (slot : framer.acknowledgment = .none) :
    History.empty.Describes framer [] where
  distinct := List.nodup_nil
  positive := positive
  past := by simp [History.empty]
  free _ := ⟨down, slot, by simp⟩
  held := by simp [History.empty]

/-! ## What a receiver makes of the attempts -/

instance (limit : Nat) (attempt : Attempt) : Decidable (attempt.IsComplete limit) :=
  inferInstanceAs (Decidable (attempt.handed = Frame.chunks limit attempt.payload))

/-- An attempt that is not complete has handed over slices only. -/
theorem Attempt.kind_eq_more {limit : Nat} {attempt : Attempt}
    (handed : attempt.handed <+: Frame.chunks limit attempt.payload)
    (incomplete : ¬ attempt.IsComplete limit) {frame : Frame} (mem : frame ∈ attempt.handed) :
    frame.kind = .more := by
  obtain ⟨rest, chunks⟩ := handed
  -- If nothing were left of the payload, the attempt would be complete.
  have left : rest ≠ [] := by
    rintro rfl
    exact incomplete (by simpa [Attempt.IsComplete] using chunks)
  have tail : Frame.IsTail (attempt.handed ++ rest) := chunks ▸ Frame.isTail_chunks ..
  exact tail.kind_eq_more left mem

/-- What a receiver has after the frames of one more attempt: a complete attempt closes a packet,
and one that is not leaves its slices in the buffer. -/
def Assembly.attempt (limit : Nat) (assembly : Assembly) (attempt : Attempt) : Assembly :=
  if attempt.IsComplete limit then
    ⟨assembly.packets ++ [assembly.buffer ++ attempt.payload], ""⟩
  else { assembly with buffer := assembly.buffer ++ Frame.text attempt.handed }

namespace Assembly

/-- The frames of an attempt have the effect of the attempt. -/
theorem takeAll_handed (assembly : Assembly) {limit : Nat} {attempt : Attempt}
    (handed : attempt.handed <+: Frame.chunks limit attempt.payload) :
    assembly.takeAll attempt.handed = assembly.attempt limit attempt := by
  unfold Assembly.attempt
  split
  · next complete =>
      rw [complete, takeAll_tail _ (Frame.isTail_chunks ..), Frame.text_chunks]
  · next incomplete =>
      exact takeAll_slices _ fun frame mem => Attempt.kind_eq_more handed incomplete mem

theorem takeAll_flatMap_handed (assembly : Assembly) {limit : Nat} {attempts : List Attempt}
    (handed : ∀ attempt ∈ attempts, attempt.handed <+: Frame.chunks limit attempt.payload) :
    assembly.takeAll (attempts.flatMap Attempt.handed) =
      attempts.foldl (Assembly.attempt limit) assembly := by
  induction attempts generalizing assembly with
  | nil => rfl
  | cons attempt rest ih =>
      rw [List.flatMap_cons, takeAll_append, takeAll_handed _ (handed _ List.mem_cons_self),
        ih _ fun other mem => handed other (List.mem_cons_of_mem _ mem), List.foldl_cons]

/-- Complete attempts come in as their payloads. -/
theorem foldl_attempt_complete (packets : List String) {limit : Nat} {attempts : List Attempt}
    (complete : ∀ attempt ∈ attempts, attempt.IsComplete limit) :
    attempts.foldl (Assembly.attempt limit) ⟨packets, ""⟩ =
      ⟨packets ++ attempts.map Attempt.payload, ""⟩ := by
  induction attempts generalizing packets with
  | nil => simp
  | cons attempt rest ih =>
      rw [List.foldl_cons, Assembly.attempt, if_pos (complete _ List.mem_cons_self),
        ih _ fun other mem => complete other (List.mem_cons_of_mem _ mem)]
      simp

end Assembly

/-- The frames of a history are the first frames of its payloads. -/
theorem History.Describes.handed_prefix {history : History} {framer : Framer}
    {sends : List (Nat × Sending)} (describes : history.Describes framer sends)
    {attempt : Attempt} (mem : attempt ∈ history.attempts) :
    attempt.handed <+: Frame.chunks framer.frameLimit attempt.payload := by
  rcases List.mem_append.mp mem with past | current
  · obtain ⟨entry, memPast, rfl⟩ := List.mem_map.mp past
    exact (describes.past entry memPast).1
  · obtain ⟨-, -, place, -, continues⟩ := describes.held attempt (Option.mem_toList.mp current)
    exact continues.handed_prefix

/-- **What a receiver has after all frames of a history.** -/
theorem History.Describes.ofFrames_frames {history : History} {framer : Framer}
    {sends : List (Nat × Sending)} (describes : history.Describes framer sends) :
    Assembly.ofFrames history.frames =
      history.attempts.foldl (Assembly.attempt framer.frameLimit) .empty :=
  Assembly.takeAll_flatMap_handed _ fun _ mem => describes.handed_prefix mem

/-! ## Links with several sends -/

namespace SharedLink

variable {shared : SharedLink τ} {history : History} {n : Nat} {place : Sending}

@[simp] theorem move_link (link : Link τ) (progress : Progress Sending _) :
    (shared.move n link progress).link = link := by
  cases progress <;> rfl

@[simp] theorem move_sends (link : Link τ) (progress : Progress Sending _) :
    (shared.move n link progress).sends = Numbered.moved shared.sends n progress.next? := by
  cases progress <;> simp [move, Numbered.moved, Progress.next?]

theorem mem_of_send? (found : shared.send? n = some place) : (n, place) ∈ shared.sends := by
  obtain ⟨⟨number, _⟩, at?, rfl⟩ := Option.map_eq_some_iff.mp found
  have number_eq : number = n := by simpa using List.find?_some at?
  exact number_eq ▸ List.mem_of_find?_eq_some at?

/-- The history tells what happened on a link, up to where its sends are now. -/
def Follows (shared : SharedLink τ) (history : History) : Prop :=
  history.Describes shared.link.framer shared.sends

/-- The history after a step of send `n`. -/
def record [Transport τ] (shared : SharedLink τ) (history : History) (n : Nat) : History :=
  match shared.send? n with
  | some place => history.record shared.link n place
  | none => history

theorem Follows.step [Transport τ] (follows : shared.Follows history) (n : Nat) :
    (shared.step n).Follows (shared.record history n) := by
  unfold SharedLink.step record Follows
  cases found : shared.send? n with
  | none => exact follows
  | some place =>
      rw [move_link, move_sends]
      exact History.Describes.step follows (mem_of_send? found)

theorem Follows.begin (follows : shared.Follows history) (fresh : n ∉ shared.sends.map Prod.fst)
    (payload : String) : (shared.begin n payload).Follows history :=
  History.Describes.begin follows fresh ..

end SharedLink

end RemoteAgent
