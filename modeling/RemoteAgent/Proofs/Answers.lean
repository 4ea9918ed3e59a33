import RemoteAgent.Session

/-!
# Answers and deferred values

An answer is an envelope that carries the id of a request: its value, or its fault.  Answers are
sent by the message that asks, or later by the continuation of the deferred value that the message
was bound to.  This module is about the second way.

`World.Move` lists what code behind the agent can do to the world: it may rearrange what it likes
apart from deferred values, speak to the controller, issue deferred values, bind them to work of its
own, and settle them.  It cannot answer a request by itself.  A deferred value that a move settles
may make a continuation answer one, and the move is labelled with that answer and with the deferred
value that it came from.

For one deferred value only its `Course` counts: either its state stays what it was, as far as
requests can tell, and it sends nothing; or a request waited for it, it is finished now, and it has
sent one answer with the id of that request.  Every move takes each deferred value on such a course
(`World.Move.course`), and so does every stretch of moves (`World.Reaches.course`), because courses
compose.

## Main definitions

* `Envelope.answered?`: the id of the request that an envelope answers.
* `World.answers`: the answers sent so far.
* `World.Move`, `World.Reaches`: one move, and any number of them.
* `Deferred.Course`: what a stretch of time makes of one deferred value.
-/

namespace RemoteAgent

variable {φ η : Type}

/-! ## Answers -/

namespace Envelope

/-- The id of the request that an envelope answers, if it is an answer. -/
def answered? : Json → Option String
  | .array [.string "G", .string id, _] => some id
  | .array [.string "X", .string _, .string id] => some id
  | _ => none

@[simp] theorem answered?_reply (id : String) (value : Json) :
    answered? (reply id value) = some id := by
  simp [answered?, reply]

@[simp] theorem answered?_exception (text : String) (id : Option String) :
    answered? (exception text id) = id := by
  cases id with
  | none => simp [answered?, exception, Json.ofOption]
  | some id => simp [answered?, exception, Json.ofOption]

@[simp] theorem answered?_callback (id : String) (args : List Json) :
    answered? (callback id args) = none := by
  simp [answered?, callback]

/-- What is sent for a request: one answer to it, or nothing where there is no request. -/
inductive Settles : Option String → List Json → Prop where
  | none : Settles none []
  | some {id : String} {envelope : Json} :
      answered? envelope = some id → Settles (some id) [envelope]

end Envelope

/-- The answers among the envelopes sent so far. -/
def Outbox.answers (outbox : Outbox) : List Json :=
  outbox.sent.toList.filter fun envelope => (Envelope.answered? envelope).isSome

theorem Outbox.answers_emit (outbox : Outbox) (envelope : Json) :
    (outbox.emit envelope).answers =
      outbox.answers ++ if (Envelope.answered? envelope).isSome then [envelope] else [] := by
  unfold answers emit
  rw [Array.toList_push, List.filter_append, List.filter_cons, List.filter_nil]

namespace World

/-- The answers sent so far. -/
def answers (world : World φ η) : List Json := world.outbox.answers

/-- The connection is not halted. -/
def IsOpen (world : World φ η) : Prop := world.outbox.halted = false

/-- How many deferred values were issued. -/
def issued (world : World φ η) : Nat := world.heap.deferreds.size

/-- How far a deferred value has come. -/
def state? (world : World φ η) (h : Handle .deferred) : Option (Deferred.State Completion) :=
  (world.heap.deferred? h).map (·.state)

end World

/-- The id of the request that the rest of the work answers. -/
def Completion.answered? : Completion → Option String
  | .reply id _ => some id
  | .discard => none
  | .store _ => none

/-! ## What the operations on deferred values send -/

namespace World

section Effects

variable {world : World φ η}

theorem answers_report (opened : world.IsOpen) (text : String) (id : Option String) :
    (world.report text id).answers =
      world.answers ++ if id.isSome then [Envelope.exception text id] else [] := by
  unfold answers report Outbox.report
  rw [opened]
  exact (Outbox.answers_emit _ _).trans (by rw [Envelope.answered?_exception])

theorem isOpen_report (opened : world.IsOpen) (text : String) (id : Option String) :
    (world.report text id).IsOpen := by
  unfold IsOpen report Outbox.report
  rw [opened]
  exact opened

variable {h : Handle .deferred}

theorem state?_eq_some {deferred : Deferred Completion}
    (found : world.heap.deferred? h = some deferred) : world.state? h = some deferred.state := by
  unfold state?
  rw [found]
  rfl

theorem lt_issued {deferred : Deferred Completion}
    (found : world.heap.deferred? h = some deferred) : h.index < world.issued :=
  Store.lt_size_of_get? found

variable [HostObjects φ η]

theorem answers_sendReply (world : World φ η) (id : String) (value : Value) (depth : Int) :
    (world.sendReply id value depth).answers =
      world.answers ++ [Envelope.reply id (value.toJson world.heap depth)] := by
  unfold answers sendReply
  rw [Outbox.answers_emit, Envelope.answered?_reply]
  rfl

@[simp] theorem heap_complete (world : World φ η) (run : DueRun Completion) :
    (world.complete run).heap = world.heap := by
  obtain ⟨completion, settlement⟩ := run
  cases completion <;> cases settlement <;> rfl

theorem isOpen_complete (opened : world.IsOpen) (run : DueRun Completion) :
    (world.complete run).IsOpen := by
  obtain ⟨completion, settlement⟩ := run
  cases completion <;> cases settlement
  all_goals first | exact opened | exact isOpen_report opened _ _

/-- The rest of the work of a request sends one answer to it, whatever the deferred value came to.
The rest of the work of anything else sends none. -/
theorem answers_complete (opened : world.IsOpen) (run : DueRun Completion) :
    ∃ sent, (world.complete run).answers = world.answers ++ sent ∧
      Envelope.Settles run.continuation.answered? sent := by
  obtain ⟨completion, settlement⟩ := run
  cases completion with
  | discard =>
      refine ⟨[], ?_, .none⟩
      cases settlement with
      | resolved value => exact (List.append_nil _).symm
      | rejected text => exact answers_report opened text none
  | store id =>
      refine ⟨[], ?_, .none⟩
      cases settlement with
      | resolved value => exact (List.append_nil _).symm
      | rejected text => exact answers_report opened text none
  | reply id depth =>
      cases settlement with
      | resolved value =>
          exact ⟨_, answers_sendReply world id value depth, .some (Envelope.answered?_reply _ _)⟩
      | rejected text =>
          exact ⟨_, answers_report opened text (some id),
            .some (Envelope.answered?_exception _ _)⟩

/-! ### A new state -/

variable {next : Deferred Completion × Option (DueRun Completion)}

theorem heap_proceed (world : World φ η) (h : Handle .deferred)
    (next : Deferred Completion × Option (DueRun Completion)) :
    (world.proceed h next).heap = world.heap.setDeferred h next.1 := by
  unfold proceed
  cases next.2 with
  | none => rfl
  | some run => exact heap_complete _ run

theorem isOpen_proceed (opened : world.IsOpen) (h : Handle .deferred)
    (next : Deferred Completion × Option (DueRun Completion)) : (world.proceed h next).IsOpen := by
  obtain ⟨deferred, due⟩ := next
  cases due with
  | none => exact opened
  | some run =>
      have opened : IsOpen { world with heap := world.heap.setDeferred h deferred } := opened
      exact isOpen_complete opened run

@[simp] theorem issued_proceed (world : World φ η) (h : Handle .deferred)
    (next : Deferred Completion × Option (DueRun Completion)) :
    (world.proceed h next).issued = world.issued := by
  unfold issued
  rw [heap_proceed]
  exact Store.size_set _ _ _

theorem answers_proceed (opened : world.IsOpen) (h : Handle .deferred)
    (next : Deferred Completion × Option (DueRun Completion)) :
    ∃ sent, (world.proceed h next).answers = world.answers ++ sent ∧
      Envelope.Settles (next.2.bind fun run => run.continuation.answered?) sent := by
  obtain ⟨deferred, due⟩ := next
  cases due with
  | none => exact ⟨[], (List.append_nil _).symm, .none⟩
  | some run =>
      have opened : IsOpen { world with heap := world.heap.setDeferred h deferred } := opened
      exact answers_complete opened run

theorem state?_proceed_self (issued : h.index < world.issued) :
    (world.proceed h next).state? h = some next.1.state := by
  refine state?_eq_some ?_
  rw [heap_proceed]
  exact Store.get?_set_self issued _

theorem state?_proceed_of_ne {other : Handle .deferred} (ne : other ≠ h) :
    (world.proceed h next).state? other = world.state? other := by
  have apart : other.index ≠ h.index := fun same => ne (congrArg Handle.mk same)
  unfold state?
  rw [heap_proceed]
  exact congrArg _ (Store.get?_set_of_ne apart _ _)

end Effects

end World

/-! ## The course of a deferred value -/

namespace Deferred

/-- The request that waits for a deferred value in a state. -/
def State.asked? : State Completion → Option String
  | .waiting completion => completion.answered?
  | .fresh => none
  | .early _ => none
  | .finished => none

/-- What a stretch of time makes of one deferred value, and what it sends by it.  There need not be
such a deferred value at the start, or at all. -/
inductive Course : Option (State Completion) → List Json → Option (State Completion) → Prop where
  /-- The same request waits for it, if any. -/
  | kept {before after : Option (State Completion)} :
      after.bind State.asked? = before.bind State.asked? →
      (before = some .finished → after = some .finished) → Course before [] after
  /-- The request that waited for it was answered. -/
  | answered {before : Option (State Completion)} {id : String} {envelope : Json} :
      before.bind State.asked? = some id → Envelope.answered? envelope = some id →
      Course before [envelope] (some .finished)

namespace Course

theorem refl (state : Option (State Completion)) : Course state [] state :=
  .kept rfl fun finished => finished

/-- Courses compose: what is finished stays finished, and nobody waits for it any more. -/
theorem trans {before middle after : Option (State Completion)} {first second : List Json}
    (one : Course before first middle) (two : Course middle second after) :
    Course before (first ++ second) after := by
  cases one with
  | kept asked finished =>
      cases two with
      | kept asked' finished' => exact .kept (asked'.trans asked) (finished' ∘ finished)
      | answered waits tagged => exact .answered (asked.symm.trans waits) tagged
  | answered waits tagged =>
      cases two with
      | kept asked' finished' =>
          rw [finished' rfl]
          exact .answered waits tagged
      | answered waits' tagged' => cases waits'

/-- Nobody comes to wait for a deferred value on its course. -/
theorem unasked {before after : Option (State Completion)} {sent : List Json}
    (course : Course before sent after) (none : before.bind State.asked? = none) :
    sent = [] ∧ after.bind State.asked? = Option.none := by
  cases course with
  | kept asked finished => exact ⟨rfl, asked.trans none⟩
  | answered waits tagged =>
      rw [none] at waits
      cases waits

theorem finished {sent : List Json} {after : Option (State Completion)}
    (course : Course (some .finished) sent after) : sent = [] ∧ after = some .finished := by
  cases course with
  | kept asked finished => exact ⟨rfl, finished rfl⟩
  | answered waits tagged => cases waits

end Course

variable {d : Deferred Completion} {next : Deferred Completion × Option (DueRun Completion)}

/-- A settlement answers the request that waits for the deferred value, if there is one. -/
theorem course_settle {settlement : Settlement} {sent : List Json}
    (settled : d.settle settlement = .ok next)
    (answers : Envelope.Settles (next.2.bind fun run => run.continuation.answered?) sent) :
    Course (some d.state) sent (some next.1.state) := by
  unfold settle at settled
  split at settled
  case h_1 fresh =>
    cases settled
    cases answers
    rw [fresh]
    exact .kept rfl nofun
  case h_2 completion waiting =>
    cases settled
    change Envelope.Settles completion.answered? sent at answers
    rw [waiting]
    cases asked : completion.answered? with
    | none =>
        rw [asked] at answers
        cases answers
        exact .kept asked.symm nofun
    | some id =>
        rw [asked] at answers
        cases answers with
        | some tagged => exact .answered asked tagged
  case h_3 => cases settled
  case h_4 => cases settled

/-- Binding work that answers no request answers none. -/
theorem course_bind {completion : Completion} {sent : List Json}
    (silent : completion.answered? = none) (bound : d.bind completion = .ok next)
    (answers : Envelope.Settles (next.2.bind fun run => run.continuation.answered?) sent) :
    sent = [] ∧ Course (some d.state) [] (some next.1.state) := by
  unfold bind at bound
  split at bound
  case h_1 fresh =>
    cases bound
    cases answers
    rw [fresh]
    exact ⟨rfl, .kept silent nofun⟩
  case h_2 settlement early =>
    cases bound
    change Envelope.Settles completion.answered? sent at answers
    rw [silent] at answers
    cases answers
    rw [early]
    exact ⟨rfl, .kept rfl nofun⟩
  case h_3 => cases bound
  case h_4 => cases bound

end Deferred

/-! ## Moves -/

/-- Answers, each with the one that sent it. -/
abbrev Log (κ : Type) := List (κ × Json)

namespace Log

variable {κ : Type} [DecidableEq κ]

/-- What one of them sent. -/
def sentBy (log : Log κ) (sender : κ) : List Json := (log.filter (·.1 = sender)).map Prod.snd

theorem sentBy_append (one two : Log κ) (sender : κ) :
    sentBy (one ++ two) sender = one.sentBy sender ++ two.sentBy sender := by
  unfold sentBy
  rw [List.filter_append, List.map_append]

theorem sentBy_self (sender : κ) (sent : List Json) :
    sentBy (sent.map (sender, ·)) sender = sent := by
  unfold sentBy
  rw [List.filter_eq_self.mpr (by simp), List.map_map]
  exact List.map_id sent

theorem sentBy_eq_nil {log : Log κ} {sender : κ} (silent : ∀ entry ∈ log, entry.1 ≠ sender) :
    log.sentBy sender = [] := by
  unfold sentBy
  rw [List.filter_eq_nil_iff.mpr, List.map_nil]
  intro entry mem same
  exact silent entry mem (of_decide_eq_true same)

theorem sentBy_of_ne {sender other : κ} (ne : other ≠ sender) (sent : List Json) :
    sentBy (sent.map (sender, ·)) other = [] := by
  refine sentBy_eq_nil fun entry mem same => ?_
  obtain ⟨envelope, -, rfl⟩ := List.mem_map.mp mem
  exact ne same.symm

end Log

/-- Answers of continuations, each with the deferred value whose continuation sent it. -/
abbrev Trace := Log (Handle .deferred)

namespace World

/-- One thing that code behind the agent can do to the world, with the answers that continuations
send by it. -/
inductive Move [HostObjects φ η] : World φ η → Trace → World φ η → Prop where
  /-- Anything but deferred values and envelopes is changed. -/
  | arrange {world after : World φ η} :
      after.heap.deferreds = world.heap.deferreds → after.outbox = world.outbox →
      Move world [] after
  /-- An envelope that is no answer is emitted. -/
  | speak {world : World φ η} {envelope : Json} :
      Envelope.answered? envelope = none →
      Move world [] { world with outbox := world.outbox.emit envelope }
  /-- A deferred value is issued. -/
  | issue {world : World φ η} {deferred : Deferred Completion} :
      deferred.isBound = false →
      Move world [] { world with heap := (world.heap.newDeferred deferred).2 }
  /-- Work that answers no request is bound to a deferred value. -/
  | bind {world after : World φ η} {h : Handle .deferred} {completion : Completion} :
      completion.answered? = none → world.bindDeferred h completion = .ok after →
      Move world [] after
  /-- A deferred value is settled. -/
  | settle {world after : World φ η} {h : Handle .deferred} {settlement : Settlement}
      {sent : List Json} :
      world.settle h settlement = .ok after → after.answers = world.answers ++ sent →
      Move world (sent.map (h, ·)) after

/-- Any number of moves. -/
inductive Reaches [HostObjects φ η] (world : World φ η) : Trace → World φ η → Prop where
  | refl : Reaches world [] world
  | tail {middle after : World φ η} {trace more : Trace} :
      Reaches world trace middle → Move middle more after → Reaches world (trace ++ more) after

/-- What is left of a stretch of moves when only answers and deferred values are looked at. -/
structure Passage (world : World φ η) (trace : Trace) (after : World φ η) : Prop where
  /-- The connection is not halted. -/
  isOpen : after.IsOpen
  /-- The answers of the stretch come after those before it. -/
  answers : after.answers = world.answers ++ trace.map Prod.snd
  /-- Each deferred value runs its course. -/
  course : ∀ h, Deferred.Course (world.state? h) (trace.sentBy h) (after.state? h)

namespace Passage

theorem refl {world : World φ η} (opened : world.IsOpen) : Passage world [] world where
  isOpen := opened
  answers := (List.append_nil _).symm
  course _ := .refl _

theorem trans {world middle after : World φ η} {trace more : Trace}
    (one : Passage world trace middle) (two : Passage middle more after) :
    Passage world (trace ++ more) after where
  isOpen := two.isOpen
  answers := by
    rw [two.answers, one.answers, List.map_append, List.append_assoc]
  course h := by
    rw [Log.sentBy_append]
    exact (one.course h).trans (two.course h)

/-- A deferred value in a new state makes a passage, if it runs its course and the others are left
alone. -/
theorem proceed [HostObjects φ η] {world : World φ η} (opened : world.IsOpen)
    {h : Handle .deferred} {d : Deferred Completion}
    {next : Deferred Completion × Option (DueRun Completion)} {sent : List Json}
    (found : world.heap.deferred? h = some d)
    (answers : (world.proceed h next).answers = world.answers ++ sent)
    (course : Deferred.Course (some d.state) sent (some next.1.state)) :
    Passage world (sent.map (h, ·)) (world.proceed h next) where
  isOpen := isOpen_proceed opened h next
  answers := by
    rw [answers, List.map_map]
    exact congrArg _ (List.map_id sent).symm
  course other := by
    by_cases same : other = h
    · rw [same, Log.sentBy_self, state?_eq_some found, state?_proceed_self (lt_issued found)]
      exact course
    · rw [Log.sentBy_of_ne same, state?_proceed_of_ne same]
      exact .refl _

end Passage

theorem state?_congr {world after : World φ η}
    (same : after.heap.deferreds = world.heap.deferreds) (h : Handle .deferred) :
    after.state? h = world.state? h := by
  unfold state? Heap.deferred?
  rw [same]

/-- A deferred value that is issued starts without a request that waits for it. -/
theorem course_issue (world : World φ η) {deferred : Deferred Completion}
    (unbound : deferred.isBound = false) (h : Handle .deferred) :
    Deferred.Course (world.state? h) []
      (state? { world with heap := (world.heap.newDeferred deferred).2 } h) := by
  -- The handle is that of an old deferred value, of the new one, or of one that is still to come.
  rcases Nat.lt_trichotomy h.index world.issued with old | new | unknown
  · have same : state? { world with heap := (world.heap.newDeferred deferred).2 } h =
        world.state? h :=
      congrArg (Option.map _) (Store.get?_push_of_lt old deferred)
    rw [same]
    exact .refl _
  · have before : world.state? h = none := by
      unfold state? Heap.deferred? Store.get?
      rw [Array.getElem?_eq_none (Nat.le_of_eq new.symm)]
      rfl
    have after : state? { world with heap := (world.heap.newDeferred deferred).2 } h =
        some deferred.state := by
      refine state?_eq_some ?_
      unfold Heap.deferred?
      rw [new]
      exact Store.get?_push_size _ _
    rw [before, after]
    refine .kept ?_ nofun
    show deferred.state.asked? = none
    unfold Deferred.isBound at unbound
    cases state : deferred.state with
    | fresh => rfl
    | early settlement => rfl
    | waiting completion => rw [state] at unbound; cases unbound
    | finished => rfl
  · have before : world.state? h = none := by
      unfold state? Heap.deferred? Store.get?
      rw [Array.getElem?_eq_none (Nat.le_of_lt unknown)]
      rfl
    have after : state? { world with heap := (world.heap.newDeferred deferred).2 } h = none := by
      unfold state? Heap.deferred? Store.get? Heap.newDeferred Store.push
      rw [Array.getElem?_eq_none (by rw [Array.size_push]; exact unknown)]
      rfl
    rw [before, after]
    exact .refl _

variable [HostObjects φ η] {world after : World φ η}

/-- Settling does nothing to a deferred value that was never issued. -/
theorem settle_cases {h : Handle .deferred} {settlement : Settlement}
    (settled : world.settle h settlement = .ok after) :
    after = world ∨ ∃ d next, world.heap.deferred? h = some d ∧ d.settle settlement = .ok next ∧
      after = world.proceed h next := by
  unfold settle at settled
  split at settled
  case h_1 d found =>
    cases result : d.settle settlement with
    | error error =>
        rw [result] at settled
        cases settled
    | ok next =>
        rw [result] at settled
        cases settled
        exact .inr ⟨d, next, found, result, rfl⟩
  case h_2 =>
    cases settled
    exact .inl rfl

/-- Binding does nothing to a deferred value that was never issued. -/
theorem bindDeferred_cases {h : Handle .deferred} {completion : Completion}
    (bound : world.bindDeferred h completion = .ok after) :
    (world.heap.deferred? h = none ∧ after = world) ∨
      ∃ d next, world.heap.deferred? h = some d ∧ d.bind completion = .ok next ∧
        after = world.proceed h next := by
  unfold bindDeferred at bound
  split at bound
  case h_1 d found =>
    cases result : d.bind completion with
    | error error =>
        rw [result] at bound
        cases bound
    | ok next =>
        rw [result] at bound
        cases bound
        exact .inr ⟨d, next, found, result, rfl⟩
  case h_2 missing =>
    cases bound
    exact .inl ⟨missing, rfl⟩

/-- No deferred value is lost. -/
theorem Move.issued_le {trace : Trace} (move : Move world trace after) :
    world.issued ≤ after.issued := by
  cases move with
  | arrange deferreds outbox => exact Nat.le_of_eq (congrArg Store.size deferreds.symm)
  | speak silent => exact Nat.le_refl _
  | @issue deferred unbound =>
      show world.issued ≤ (world.heap.deferreds.push deferred).size
      rw [Store.size_push]
      exact Nat.le_succ _
  | bind silent bound =>
      rcases bindDeferred_cases bound with ⟨-, rfl⟩ | ⟨d, next, found, result, rfl⟩
      · exact Nat.le_refl _
      · exact Nat.le_of_eq (issued_proceed world _ next).symm
  | settle settled answers =>
      rcases settle_cases settled with rfl | ⟨d, next, found, result, rfl⟩
      · exact Nat.le_refl _
      · exact Nat.le_of_eq (issued_proceed world _ next).symm

/-- **Every move is a passage.** -/
theorem Move.passage {trace : Trace} (opened : world.IsOpen) (move : Move world trace after) :
    Passage world trace after := by
  cases move with
  | arrange deferreds outbox =>
      refine ⟨?_, ?_, fun h => ?_⟩
      · unfold IsOpen
        rw [outbox]
        exact opened
      · unfold answers
        rw [outbox]
        exact (List.append_nil _).symm
      · rw [state?_congr deferreds]
        exact .refl _
  | speak silent =>
      refine ⟨opened, ?_, fun h => .refl _⟩
      unfold answers
      rw [Outbox.answers_emit, silent]
      rfl
  | issue unbound => exact ⟨opened, (List.append_nil _).symm, course_issue world unbound⟩
  | bind silent bound =>
      rcases bindDeferred_cases bound with ⟨-, rfl⟩ | ⟨d, next, found, result, rfl⟩
      · exact .refl opened
      · obtain ⟨sent, answers, settles⟩ := answers_proceed opened _ next
        obtain ⟨none, course⟩ := Deferred.course_bind silent result settles
        rw [none] at answers
        exact .proceed opened found answers course
  | @settle _ h settlement sent settled answers =>
      rcases settle_cases settled with rfl | ⟨d, next, found, result, rfl⟩
      · have none : sent = [] := List.self_eq_append_right.mp answers
        rw [none]
        exact .refl opened
      · obtain ⟨sent', answers', settles⟩ := answers_proceed opened h next
        -- The label of the move is what the continuation has sent.
        have same : sent' = sent := List.append_cancel_left (answers'.symm.trans answers)
        rw [same] at settles
        exact .proceed opened found answers (Deferred.course_settle result settles)

namespace Reaches

variable {middle : World φ η} {trace more : Trace}

theorem single (move : Move world trace after) : Reaches world trace after :=
  .tail .refl move

theorem trans (one : Reaches world trace middle) (two : Reaches middle more after) :
    Reaches world (trace ++ more) after := by
  induction two with
  | refl =>
      rw [List.append_nil]
      exact one
  | tail _ move ih =>
      rw [← List.append_assoc]
      exact ih.tail move

theorem issued_le (reaches : Reaches world trace after) : world.issued ≤ after.issued := by
  induction reaches with
  | refl => exact Nat.le_refl _
  | tail _ move ih => exact Nat.le_trans ih move.issued_le

/-- **Every stretch of moves is a passage.** -/
theorem passage (opened : world.IsOpen) (reaches : Reaches world trace after) :
    Passage world trace after := by
  induction reaches with
  | refl => exact .refl opened
  | tail _ move ih => exact ih.trans (move.passage ih.isOpen)

end Reaches

end World

end RemoteAgent
