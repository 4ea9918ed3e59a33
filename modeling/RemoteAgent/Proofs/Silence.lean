import RemoteAgent.Proofs.Faults
import RemoteAgent.Proofs.Replay

/-!
# Halting silences reports, and nothing else

A connection that is halted is told of no fault.  The flag that says so is looked at where a fault
is reported, at the time when it is, and nowhere else.  So if a session is run twice and the flag is
set differently, the two runs have the same results and come to the same heap and cache, and they
send the same envelopes but for exceptions; and of the faults, which are the same too, each run
sends those during which its flag was off (`Session.halting_silences`).

Both runs are looked at side by side.  What they have in common at any time is said by
`World.Alike`, and `World.Abreast` is how two such worlds go on: what is done in one is done in the
other, and the flag of either may be set at any time.  In it a list is kept of what was to be
reported, with both flags at that moment (`Incident`).

Code of the application that is deterministic and does not look at the outbox goes abreast in alike
worlds (`Eval.Impartial`).  It may set the flag, or somebody else may while it runs.  This is a
discipline, so evaluation goes abreast if the application does.

## Main definitions

* `World.Alike`: worlds that differ only in the flag and in exceptions.
* `World.Abreast`: two worlds that go on side by side.
* `Eval.Impartial`: actions that do alike in alike worlds.
* `Session.Runs`: two runs of a session, side by side.
-/

namespace RemoteAgent

variable {φ η : Type}

/-! ## Alike worlds -/

namespace World

/-- The world with the connection halted, or not. -/
def withHalted (world : World φ η) (halted : Bool) : World φ η :=
  { world with outbox := { world.outbox with halted } }

/-- The envelopes sent so far that are no exceptions. -/
def regular (world : World φ η) : List Json :=
  world.outbox.sent.toList.filter fun envelope => !Envelope.isException envelope

/-- Two worlds that differ at most in whether the connection is halted, and in the exceptions that
were sent. -/
structure Alike (one two : World φ η) : Prop where
  heap : one.heap = two.heap
  cache : one.cache = two.cache
  regular : one.regular = two.regular

theorem regular_emit (world : World φ η) (envelope : Json) :
    regular { world with outbox := world.outbox.emit envelope } =
      world.regular ++ if Envelope.isException envelope then [] else [envelope] := by
  unfold regular Outbox.emit
  rw [Array.toList_push, List.filter_append, List.filter_cons, List.filter_nil]
  cases Envelope.isException envelope <;> rfl

@[simp] theorem regular_report (world : World φ η) (text : String) (id : Option String) :
    (world.report text id).regular = world.regular := by
  cases halted : world.outbox.halted with
  | true => simp [report, Outbox.report, halted]
  | false =>
      rw [report_of_isOpen halted, regular_emit, Envelope.isException_exception]
      exact List.append_nil _

namespace Alike

variable {one two : World φ η}

theorem refl (world : World φ η) : world.Alike world := ⟨rfl, rfl, rfl⟩

theorem withHalted (alike : one.Alike two) (first second : Bool) :
    (one.withHalted first).Alike (two.withHalted second) :=
  ⟨alike.heap, alike.cache, alike.regular⟩

theorem report (alike : one.Alike two) (text : String) (id : Option String) :
    (one.report text id).Alike (two.report text id) where
  heap := alike.heap
  cache := alike.cache
  regular := by
    rw [regular_report, regular_report]
    exact alike.regular

theorem emit (alike : one.Alike two) (envelope : Json) :
    Alike { one with outbox := one.outbox.emit envelope }
      { two with outbox := two.outbox.emit envelope } where
  heap := alike.heap
  cache := alike.cache
  regular := by
    rw [regular_emit, regular_emit, alike.regular]

theorem withHeap (alike : one.Alike two) (change : Heap φ η → Heap φ η) :
    Alike { one with heap := change one.heap } { two with heap := change two.heap } where
  heap := congrArg change alike.heap
  cache := alike.cache
  regular := alike.regular

theorem withCache (alike : one.Alike two) (change : Fields Value → Fields Value) :
    Alike { one with cache := change one.cache } { two with cache := change two.cache } where
  heap := alike.heap
  cache := congrArg change alike.cache
  regular := alike.regular

theorem state?_eq (alike : one.Alike two) (h : Handle .deferred) : one.state? h = two.state? h := by
  unfold state?
  rw [alike.heap]

theorem reports_eq (alike : one.Alike two) (deed : Deed) :
    deed.reports one = deed.reports two := by
  unfold Deed.reports rejection
  cases deed with
  | bind h completion => simp only [alike.state?_eq]
  | settle h settlement => simp only [alike.state?_eq]
  | _ => rfl

variable [HostObjects φ η]

theorem complete (alike : one.Alike two) (run : DueRun Completion) :
    (one.complete run).Alike (two.complete run) := by
  obtain ⟨completion, settlement⟩ := run
  cases settlement with
  | rejected text => cases completion <;> exact alike.report text _
  | resolved value =>
      cases completion with
      | discard => exact alike
      | store id => exact alike.withCache (Fields.insert id value)
      | reply id depth =>
          have same : value.toJson one.heap depth = value.toJson two.heap depth := by
            rw [alike.heap]
          show (one.sendReply id value depth).Alike (two.sendReply id value depth)
          unfold sendReply
          rw [same]
          exact alike.emit _

theorem proceed (alike : one.Alike two) (h : Handle .deferred)
    (next : Deferred Completion × Option (DueRun Completion)) :
    (one.proceed h next).Alike (two.proceed h next) := by
  obtain ⟨d, due⟩ := next
  have changed := alike.withHeap fun heap => heap.setDeferred h d
  cases due with
  | none => exact changed
  | some run => exact changed.complete run

end Alike

/-- Both fail, and alike, or both come to alike worlds. -/
inductive AlikeResults :
    Except DeferredError (World φ η) → Except DeferredError (World φ η) → Prop where
  | error (error : DeferredError) : AlikeResults (.error error) (.error error)
  | ok {one two : World φ η} : one.Alike two → AlikeResults (.ok one) (.ok two)

namespace Alike

variable [HostObjects φ η] {one two : World φ η}

theorem map_proceed (alike : one.Alike two) (h : Handle .deferred)
    (answer : Except DeferredError (Deferred Completion × Option (DueRun Completion))) :
    AlikeResults (answer.map (one.proceed h)) (answer.map (two.proceed h)) := by
  cases answer with
  | error error => exact .error error
  | ok next => exact .ok (alike.proceed h next)

theorem bindDeferred (alike : one.Alike two) (h : Handle .deferred) (completion : Completion) :
    AlikeResults (one.bindDeferred h completion) (two.bindDeferred h completion) := by
  unfold World.bindDeferred
  rw [alike.heap]
  cases two.heap.deferred? h with
  | none => exact .ok alike
  | some d => exact alike.map_proceed h _

theorem settle (alike : one.Alike two) (h : Handle .deferred) (settlement : Settlement) :
    AlikeResults (one.settle h settlement) (two.settle h settlement) := by
  unfold World.settle
  rw [alike.heap]
  cases two.heap.deferred? h with
  | none => exact .ok alike
  | some d => exact alike.map_proceed h _

end Alike

end World

/-! ## Two worlds side by side -/

/-- Something that is to be reported in two runs, and whether the connection was halted at that time
in the first and in the second one. -/
structure Incident where
  report : Json
  first : Bool
  second : Bool

namespace Incident

/-- What the first run sends of what is to be reported. -/
def heardFirst (log : List Incident) : List Json :=
  (log.filter fun entry => !entry.first).map report

/-- What the second run sends. -/
def heardSecond (log : List Incident) : List Json :=
  (log.filter fun entry => !entry.second).map report

/-- Reports that are due at one time in both runs. -/
def of (one two : World φ η) (reports : List Json) : List Incident :=
  reports.map fun report => ⟨report, one.outbox.halted, two.outbox.halted⟩

theorem heardFirst_append (log more : List Incident) :
    heardFirst (log ++ more) = heardFirst log ++ heardFirst more := by
  unfold heardFirst
  rw [List.filter_append, List.map_append]

theorem heardSecond_append (log more : List Incident) :
    heardSecond (log ++ more) = heardSecond log ++ heardSecond more := by
  unfold heardSecond
  rw [List.filter_append, List.map_append]

theorem heardFirst_of (one two : World φ η) (reports : List Json) :
    heardFirst (of one two reports) = one.heard reports := by
  unfold heardFirst of World.heard
  cases one.outbox.halted <;> simp [List.filter_map, Function.comp_def]

theorem heardSecond_of (one two : World φ η) (reports : List Json) :
    heardSecond (of one two reports) = two.heard reports := by
  unfold heardSecond of World.heard
  cases two.outbox.halted <;> simp [List.filter_map, Function.comp_def]

end Incident

namespace World

variable [HostObjects φ η] {one two nextOne nextTwo lastOne lastTwo : World φ η}
  {log more : List Incident}

/-- **Two worlds go on side by side**: what is done in one is done in the other, and in between the
connections are halted, or not any more.  What is to be reported is listed. -/
inductive Abreast (one two : World φ η) : List Incident → World φ η → World φ η → Prop where
  | refl : Abreast one two [] one two
  | halt {log : List Incident} {nextOne nextTwo : World φ η} (first second : Bool) :
      Abreast one two log nextOne nextTwo →
      Abreast one two log (nextOne.withHalted first) (nextTwo.withHalted second)
  | deed {log : List Incident} {nextOne nextTwo lastOne lastTwo : World φ η} {deed : Deed} :
      Abreast one two log nextOne nextTwo → deed.IsQuiet →
      nextOne.Does deed lastOne → nextTwo.Does deed lastTwo → lastOne.Alike lastTwo →
      Abreast one two (log ++ Incident.of nextOne nextTwo (deed.reports nextOne)) lastOne lastTwo

namespace Abreast

theorem single (deed : Deed) (quiet : deed.IsQuiet) (first : one.Does deed nextOne)
    (second : two.Does deed nextTwo) (alike : nextOne.Alike nextTwo) :
    ∃ log, one.Abreast two log nextOne nextTwo :=
  ⟨_, .deed .refl quiet first second alike⟩

theorem trans (abreast : one.Abreast two log nextOne nextTwo)
    (onwards : nextOne.Abreast nextTwo more lastOne lastTwo) :
    one.Abreast two (log ++ more) lastOne lastTwo := by
  induction onwards with
  | refl =>
      rw [List.append_nil]
      exact abreast
  | halt first second _ ih => exact ih.halt first second
  | deed _ quiet does does' alike ih =>
      rw [← List.append_assoc]
      exact ih.deed quiet does does' alike

theorem alike (abreast : one.Abreast two log nextOne nextTwo) (start : one.Alike two) :
    nextOne.Alike nextTwo := by
  induction abreast with
  | refl => exact start
  | halt first second _ ih => exact ih.withHalted first second
  | deed _ _ _ _ alike _ => exact alike

/-- **In either world that is heard of the incidents during which its flag was off.** -/
theorem exceptions (abreast : one.Abreast two log nextOne nextTwo) (start : one.Alike two) :
    nextOne.exceptions = one.exceptions ++ Incident.heardFirst log ∧
      nextTwo.exceptions = two.exceptions ++ Incident.heardSecond log := by
  induction abreast with
  | refl => exact ⟨(List.append_nil _).symm, (List.append_nil _).symm⟩
  | halt first second _ ih => exact ih
  | @deed log middleOne middleTwo _ _ deed before quiet first second _ ih =>
      obtain ⟨heardOne, heardTwo⟩ := ih
      constructor
      · rw [(first.exceptions quiet).1, heardOne, Incident.heardFirst_append,
          Incident.heardFirst_of, List.append_assoc]
      · rw [(second.exceptions quiet).1, heardTwo, Incident.heardSecond_append,
          Incident.heardSecond_of, (before.alike start).reports_eq, List.append_assoc]

end Abreast

end World

/-! ## Impartial actions -/

section Impartial

variable [HostObjects φ η]

/-- An action that has the same result in alike worlds, and takes them on side by side. -/
def Eval.Impartial {α : Type} (action : Eval φ η α) : Prop :=
  ∀ one two : World φ η, one.Alike two →
    (action.run one).1 = (action.run two).1 ∧
      ∃ log, one.Abreast two log (action.run one).2 (action.run two).2

namespace Eval.Impartial

variable {α β : Type}

/-- One action after another. -/
theorem bind {action : Eval φ η α} {next : α → Eval φ η β} (first : action.Impartial)
    (second : ∀ value, (next value).Impartial) : (action >>= next).Impartial := by
  intro one two alike
  obtain ⟨same, log, abreast⟩ := first one two alike
  have still := abreast.alike alike
  rw [run_bind, run_bind]
  rcases resultOne : action.run one with ⟨outcome, nextOne⟩
  rcases resultTwo : action.run two with ⟨outcome', nextTwo⟩
  rw [resultOne, resultTwo] at same abreast still
  obtain rfl : outcome = outcome' := same
  cases outcome with
  | error error => exact ⟨rfl, log, abreast⟩
  | ok value =>
      obtain ⟨same, more, onwards⟩ := second value nextOne nextTwo still
      exact ⟨same, log ++ more, abreast.trans onwards⟩

/-- **Doing alike in alike worlds is a discipline.** -/
theorem discipline : Discipline (fun {_ : Type} (action : Eval φ η _) => action.Impartial) where
  pure _ _ _ _ := ⟨rfl, [], .refl⟩
  throw _ _ _ _ := ⟨rfl, [], .refl⟩
  bind := bind
  heap {_ next} impartial one two alike := by
    show ((next one.heap).run one).1 = ((next two.heap).run two).1 ∧
      ∃ log, one.Abreast two log ((next one.heap).run one).2 ((next two.heap).run two).2
    rw [← alike.heap]
    exact impartial one.heap one two alike
  cache {_ next} impartial one two alike := by
    show ((next one.cache).run one).1 = ((next two.cache).run two).1 ∧
      ∃ log, one.Abreast two log ((next one.cache).run one).2 ((next two.cache).run two).2
    rw [← alike.cache]
    exact impartial one.cache one two alike
  allocate {_ make} deferreds one two alike := by
    refine ⟨?_, ?_⟩
    · show Except.ok (make one.heap).1 = Except.ok (make two.heap).1
      rw [alike.heap]
    · exact World.Abreast.single .arrange trivial (.arrange (deferreds _) rfl rfl)
        (.arrange (deferreds _) rfl rfl) (alike.withHeap fun heap => (make heap).2)
  modifyHeap {change} deferreds one two alike :=
    ⟨rfl, World.Abreast.single .arrange trivial (.arrange (deferreds _) rfl rfl)
      (.arrange (deferreds _) rfl rfl) (alike.withHeap change)⟩
  callback id args one two alike :=
    ⟨rfl, World.Abreast.single (.speak _) (Envelope.isException_callback id args) (.speak _)
      (.speak _) (alike.emit _)⟩
  issue id settlement? one two alike := by
    have same : two.issued = one.issued := congrArg (·.deferreds.size) alike.heap.symm
    have first : one.Does (.issue ⟨one.issued⟩ settlement?)
        (one.withDeferred ⟨id, .of none settlement?⟩) := .issue id settlement?
    have second : two.Does (.issue ⟨one.issued⟩ settlement?)
        (two.withDeferred ⟨id, .of none settlement?⟩) := same ▸ .issue id settlement?
    refine ⟨congrArg (fun count => Except.ok (Handle.mk count)) same.symm, ?_⟩
    exact World.Abreast.single (.issue ⟨one.issued⟩ settlement?) trivial first second
      (alike.withHeap fun heap => (heap.newDeferred _).2)

end Eval.Impartial

end Impartial

/-! ## Sessions side by side -/

/-- An application that does alike in alike worlds: it is deterministic, and does not look at the
outbox. -/
def ImpartialModel (φ η : Type) [ObjectModel φ η] : Prop :=
  Eval.Discipline.Model (fun {_ : Type} (action : Eval φ η _) => action.Impartial)

namespace Message

variable [HostObjects φ η] {one two : World φ η}

/-- Finishing a message does alike in alike worlds. -/
theorem alike_finish (alike : one.Alike two) (completion : Completion) (value : Value) :
    (finish one completion value).1 = (finish two completion value).1 ∧
      (finish one completion value).2.Alike (finish two completion value).2 := by
  cases value with
  | deferred h =>
      unfold finish
      dsimp only
      have results := alike.bindDeferred h completion
      generalize one.bindDeferred h completion = first at results
      generalize two.bindDeferred h completion = second at results
      cases results with
      | error error => exact ⟨rfl, alike⟩
      | ok after => exact ⟨rfl, after⟩
  | _ => exact ⟨rfl, alike.complete _⟩

end Message

namespace Message

variable [ObjectModel φ η] {one two : World φ η}

theorem abreast_evaluated (impartial : ImpartialModel φ η) (alike : one.Alike two)
    (context : Context) (message : Message) :
    ∃ log, one.Abreast two log (message.evaluated context one) (message.evaluated context two) := by
  unfold evaluated
  cases message.work? context with
  | none => exact ⟨[], .refl⟩
  | some work =>
      have evaluation := Eval.Impartial.discipline.evaluate impartial context work.1
      exact (evaluation one two alike).2

/-- Executing a message does alike in alike worlds. -/
theorem alike_execute (impartial : ImpartialModel φ η) (alike : one.Alike two) (context : Context)
    (message : Message) :
    (message.execute context one).1 = (message.execute context two).1 ∧
      (message.execute context one).2.Alike (message.execute context two).2 := by
  have ran : (message.run context one).1 = (message.run context two).1 ∧
      (message.run context one).2.Alike (message.run context two).2 := by
    unfold run
    cases message.work? context with
    | none =>
        cases message with
        | disconnect id => exact ⟨rfl, alike.withCache (Fields.erase id)⟩
        | _ => exact ⟨rfl, alike⟩
    | some work =>
        obtain ⟨command, completion⟩ := work
        have evaluation := Eval.Impartial.discipline.evaluate impartial context command
        obtain ⟨same, log, abreast⟩ := evaluation one two alike
        have still := abreast.alike alike
        dsimp only
        rcases resultOne : (command.evaluate context).run one with ⟨outcome, nextOne⟩
        rcases resultTwo : (command.evaluate context).run two with ⟨outcome', nextTwo⟩
        rw [resultOne, resultTwo] at same still
        obtain rfl : outcome = outcome' := same
        cases outcome with
        | error error => exact ⟨rfl, still⟩
        | ok bound => exact alike_finish still completion bound.value
  obtain ⟨same, still⟩ := ran
  unfold execute
  rcases resultOne : message.run context one with ⟨outcome, nextOne⟩
  rcases resultTwo : message.run context two with ⟨outcome', nextTwo⟩
  rw [resultOne, resultTwo] at same still
  obtain rfl : outcome = outcome' := same
  cases outcome with
  | error error => exact ⟨rfl, still.report _ _⟩
  | ok outcome => exact ⟨rfl, still⟩

end Message

namespace Session

/-- What comes of an event: the result of a message, or whether a deferred value could be settled.
-/
inductive Answer where
  | dispatched (result : Except AgentError Outcome)
  | settled (result : Except DeferredError Unit)

variable [ObjectModel φ η]

/-- What comes of an event. -/
def answer (context : Context) (world : World φ η) : Event → Answer
  | .dispatch json => .dispatched (Message.dispatch context json world).1
  | .settle h settlement => .settled ((world.settle h settlement).map fun _ => ())

/-- What an event reports, once its command was evaluated: that a message cannot be read, that it
has failed, or a rejection. -/
def reports (context : Context) (world : World φ η) : Event → List Json
  | .dispatch json =>
    match Message.parse json with
    | .error error => [Envelope.exception error.message none]
    | .ok message =>
      message.reports (message.evaluated context world) (message.execute context world).1
  | .settle h settlement => Deed.reports world (.settle h settlement)

omit [ObjectModel φ η] in
/-- An attempt to settle a deferred value adds what is heard of its rejection. -/
theorem exceptions_settled [HostObjects φ η] (world : World φ η) (h : Handle .deferred)
    (settlement : Settlement) :
    (settled world h settlement).exceptions =
      world.exceptions ++ world.heard (Deed.reports world (.settle h settlement)) := by
  unfold settled World.settle
  cases found : world.heap.deferred? h with
  | none =>
      have unknown : world.state? h = none := by
        unfold World.state?
        rw [found]
        rfl
      have silent : Deed.reports world (.settle h settlement) = [] := by
        cases settlement <;> simp [Deed.reports, unknown]
      rw [silent, World.heard_nil, List.append_nil]
  | some d =>
      dsimp only
      cases answer : d.settle settlement with
      | ok next =>
          rw [← World.reports_settle found answer]
          exact World.exceptions_proceed world h next
      | error error =>
          -- What cannot be settled does not wait.
          have silent : Deed.reports world (.settle h settlement) = [] := by
            cases settlement with
            | resolved value => rfl
            | rejected text =>
                rw [Deed.reports, World.state?_eq_some found]
                obtain ⟨id, state⟩ := d
                cases state <;> cases answer <;> rfl
          rw [silent, World.heard_nil, List.append_nil]
          rfl

/-- **An event adds what is heard of its reports.** -/
theorem exceptions_act (context : Context) (world : World φ η) (event : Event) :
    (act context world event).exceptions =
      (evaluated context world event).exceptions ++
        (evaluated context world event).heard (reports context world event) := by
  cases event with
  | dispatch json =>
      unfold act evaluated reports
      dsimp only
      cases read : Message.parse json with
      | error error =>
          rw [Message.dispatch_unread read]
          exact World.exceptions_report world _ _
      | ok message =>
          rw [Message.dispatch_eq_execute read]
          exact message.exceptions_execute context world
  | settle h settlement => exact exceptions_settled world h settlement

variable {one two : World φ η}

/-- **The step lemma**: an event does alike in alike worlds. -/
theorem alike_act (impartial : ImpartialModel φ η) (alike : one.Alike two) (context : Context)
    (event : Event) :
    answer context one event = answer context two event ∧
      (act context one event).Alike (act context two event) := by
  cases event with
  | dispatch json =>
      unfold answer act
      dsimp only
      cases read : Message.parse json with
      | error error =>
          unfold Message.dispatch Message.read
          rw [read]
          exact ⟨rfl, alike.report _ _⟩
      | ok message =>
          rw [Message.dispatch_eq_execute read, Message.dispatch_eq_execute read]
          obtain ⟨same, still⟩ := Message.alike_execute impartial alike context message
          exact ⟨congrArg _ same, still⟩
  | settle h settlement =>
      unfold answer act settled
      dsimp only
      have results := alike.settle h settlement
      generalize one.settle h settlement = first at results
      generalize two.settle h settlement = second at results
      cases results with
      | error error => exact ⟨rfl, alike⟩
      | ok after => exact ⟨rfl, after⟩

theorem abreast_evaluated (impartial : ImpartialModel φ η) (alike : one.Alike two)
    (context : Context) (event : Event) :
    ∃ log, one.Abreast two log (evaluated context one event) (evaluated context two event) := by
  cases event with
  | dispatch json =>
      unfold evaluated
      dsimp only
      cases Message.parse json with
      | error error => exact ⟨[], .refl⟩
      | ok message => exact Message.abreast_evaluated impartial alike context message
  | settle h settlement => exact ⟨[], .refl⟩

/-- In alike worlds an event is to report the same. -/
theorem reports_eq (impartial : ImpartialModel φ η) (alike : one.Alike two) (context : Context)
    (event : Event) : reports context one event = reports context two event := by
  cases event with
  | dispatch json =>
      unfold reports
      dsimp only
      cases Message.parse json with
      | error error => rfl
      | ok message =>
          obtain ⟨log, abreast⟩ := Message.abreast_evaluated impartial alike context message
          have still := abreast.alike alike
          dsimp only
          rw [(Message.alike_execute impartial alike context message).1]
          cases (message.execute context two).1 with
          | error error => rfl
          | ok outcome =>
              unfold Message.reports World.rejection
              cases outcome with
              | completed value => rfl
              | deferred h => simp only [still.state?_eq]
  | settle h settlement => exact alike.reports_eq _

/-- What is heard of an event in either world. -/
theorem exceptions_abreast (impartial : ImpartialModel φ η) (alike : one.Alike two)
    {context : Context} {event : Event} {during : List Incident}
    (abreast : one.Abreast two during (evaluated context one event)
      (evaluated context two event)) :
    let log := during ++ Incident.of (evaluated context one event) (evaluated context two event)
      (reports context one event)
    (act context one event).exceptions = one.exceptions ++ Incident.heardFirst log ∧
      (act context two event).exceptions = two.exceptions ++ Incident.heardSecond log := by
  intro log
  obtain ⟨heardOne, heardTwo⟩ := abreast.exceptions alike
  constructor
  · rw [exceptions_act, heardOne, Incident.heardFirst_append, Incident.heardFirst_of,
      List.append_assoc]
  · rw [exceptions_act, heardTwo, Incident.heardSecond_append, Incident.heardSecond_of,
      reports_eq impartial alike, List.append_assoc]

/-! ## Two schedules of one session -/

/-- The answers to the events of a session, where each event finds the connection halted, or not. -/
def answers (context : Context) : World φ η → List (Bool × Event) → List Answer
  | _, [] => []
  | world, (halted, event) :: rest =>
    let world := world.withHalted halted
    answer context world event :: answers context (act context world event) rest

/-- The world that such a session comes to. -/
def ended (context : Context) (world : World φ η) (events : List (Bool × Event)) : World φ η :=
  events.foldl (fun world entry => act context (world.withHalted entry.1) entry.2) world

/-- An event of two runs, with whether the connection is halted before it in the first and in the
second one. -/
structure Beat where
  event : Event
  first : Bool
  second : Bool

/-- The session as the first run finds it. -/
def Beat.inFirst (beat : Beat) : Bool × Event := (beat.first, beat.event)

/-- The session as the second run finds it. -/
def Beat.inSecond (beat : Beat) : Bool × Event := (beat.second, beat.event)

/-- **Two runs of a session, side by side**, with everything that is to be reported in them. -/
inductive Runs (context : Context) (one two : World φ η) :
    List Beat → List Incident → World φ η → World φ η → Prop where
  | nil : Runs context one two [] [] one two
  | next {beats : List Beat} {log during : List Incident} {nextOne nextTwo : World φ η}
      {event : Event} {first second : Bool} :
      Runs context one two beats log nextOne nextTwo →
      (nextOne.withHalted first).Abreast (nextTwo.withHalted second) during
        (evaluated context (nextOne.withHalted first) event)
        (evaluated context (nextTwo.withHalted second) event) →
      Runs context one two (beats ++ [⟨event, first, second⟩])
        (log ++ (during ++ Incident.of (evaluated context (nextOne.withHalted first) event)
          (evaluated context (nextTwo.withHalted second) event)
          (reports context (nextOne.withHalted first) event)))
        (act context (nextOne.withHalted first) event)
        (act context (nextTwo.withHalted second) event)

variable {context : Context} {nextOne nextTwo : World φ η} {beats : List Beat}
  {log : List Incident}

/-- The runs are those of the session under its two schedules. -/
theorem Runs.ended (runs : Runs context one two beats log nextOne nextTwo) :
    nextOne = Session.ended context one (beats.map Beat.inFirst) ∧
      nextTwo = Session.ended context two (beats.map Beat.inSecond) := by
  induction runs with
  | nil => exact ⟨rfl, rfl⟩
  | next _ _ ih =>
      obtain ⟨rfl, rfl⟩ := ih
      constructor
      · rw [List.map_append, Session.ended, Session.ended, List.foldl_append]
        rfl
      · rw [List.map_append, Session.ended, Session.ended, List.foldl_append]
        rfl

/-- **The run lemma**: the runs stay alike, and each sends what is to be reported while its flag is
off. -/
theorem Runs.exceptions (impartial : ImpartialModel φ η) (alike : one.Alike two)
    (runs : Runs context one two beats log nextOne nextTwo) :
    nextOne.Alike nextTwo ∧
      nextOne.exceptions = one.exceptions ++ Incident.heardFirst log ∧
      nextTwo.exceptions = two.exceptions ++ Incident.heardSecond log := by
  induction runs with
  | nil => exact ⟨alike, (List.append_nil _).symm, (List.append_nil _).symm⟩
  | @next beats log during nextOne nextTwo event first second _ abreast ih =>
      obtain ⟨still, heardOne, heardTwo⟩ := ih
      have flagged := still.withHalted first second
      obtain ⟨addedOne, addedTwo⟩ := exceptions_abreast impartial flagged abreast
      refine ⟨(alike_act impartial flagged context event).2, ?_, ?_⟩
      · refine addedOne.trans ?_
        show nextOne.exceptions ++ _ = _
        rw [heardOne, Incident.heardFirst_append log, List.append_assoc]
      · refine addedTwo.trans ?_
        show nextTwo.exceptions ++ _ = _
        rw [heardTwo, Incident.heardSecond_append log, List.append_assoc]

/-- Two runs can be looked at side by side. -/
theorem exists_runs (impartial : ImpartialModel φ η) (alike : one.Alike two) (context : Context)
    (beats : List Beat) :
    ∃ log nextOne nextTwo, Runs context one two beats log nextOne nextTwo := by
  induction beats using List.reverseRecOn with
  | nil => exact ⟨[], one, two, .nil⟩
  | append_singleton beats beat ih =>
      obtain ⟨log, nextOne, nextTwo, runs⟩ := ih
      obtain ⟨event, first, second⟩ := beat
      have flagged := (runs.exceptions impartial alike).1.withHalted first second
      obtain ⟨during, abreast⟩ := abreast_evaluated impartial flagged context event
      exact ⟨_, _, _, runs.next abreast⟩

/-- The flag has no influence on the answers. -/
theorem answers_eq (impartial : ImpartialModel φ η) (alike : one.Alike two) (context : Context)
    (beats : List Beat) :
    answers context one (beats.map Beat.inFirst) =
      answers context two (beats.map Beat.inSecond) := by
  induction beats generalizing one two with
  | nil => rfl
  | cons beat rest ih =>
      have flagged := alike.withHalted beat.first beat.second
      obtain ⟨same, still⟩ := alike_act impartial flagged context beat.event
      show answer context _ beat.event :: _ = answer context _ beat.event :: _
      rw [same]
      exact congrArg _ (ih still)

/-- **Halting silences reports, and nothing else.**  A session is run twice, and before each event
the flags of the two runs are set differently.  Both runs have the same answers, and they come to
worlds that are alike: with the same heap, in which every deferred value has come equally far, with
the same cache, and with the same envelopes sent but for exceptions.  They can be looked at side by
side, and however they are, each has sent the exceptions for those incidents during which its own
flag was off. -/
theorem halting_silences (impartial : ImpartialModel φ η) (context : Context) (start : World φ η)
    (beats : List Beat) :
    let first := ended context start (beats.map Beat.inFirst)
    let second := ended context start (beats.map Beat.inSecond)
    answers context start (beats.map Beat.inFirst) =
        answers context start (beats.map Beat.inSecond) ∧
      first.Alike second ∧
      (∃ log, Runs context start start beats log first second) ∧
      ∀ log one two, Runs context start start beats log one two →
        one = first ∧ two = second ∧
          first.exceptions = start.exceptions ++ Incident.heardFirst log ∧
          second.exceptions = start.exceptions ++ Incident.heardSecond log := by
  intro first second
  have alike := World.Alike.refl start
  obtain ⟨log, one, two, runs⟩ := exists_runs impartial alike context beats
  obtain ⟨rfl, rfl⟩ := runs.ended
  refine ⟨answers_eq impartial alike context beats, (runs.exceptions impartial alike).1,
    ⟨log, runs⟩, ?_⟩
  intro log one two runs
  obtain ⟨rfl, rfl⟩ := runs.ended
  exact ⟨rfl, rfl, (runs.exceptions impartial alike).2⟩

end Session

/-! ### A rejection that is heard, and one that is not -/

namespace Sample

theorem impartial : ImpartialModel Method Object := model Eval.Impartial.discipline

/-- A request is given a deferred value, another one fails, and then the deferred value is rejected.
The first connection is halted when the rejection comes, the second one until then. -/
def silenced : List Session.Beat :=
  [⟨request "late" "later", false, false⟩, ⟨request "bad" "broken", false, true⟩,
    ⟨.settle ⟨0⟩ (.rejected "no"), true, false⟩]

end Sample

open Sample in
/-- Either run has sent one of the two exceptions, and everything else is the same. -/
theorem Session.halting_silences_sample :
    let first := ended context start.2.2 (silenced.map Beat.inFirst)
    let second := ended context start.2.2 (silenced.map Beat.inSecond)
    answers context start.2.2 (silenced.map Beat.inFirst) =
        answers context start.2.2 (silenced.map Beat.inSecond) ∧
      first.Alike second ∧
      first.exceptions = [Envelope.exception "null" (some "bad")] ∧
      second.exceptions = [Envelope.exception "no" (some "late")] := by
  intro first second
  obtain ⟨same, alike, -, -⟩ := halting_silences impartial context start.2.2 silenced
  refine ⟨same, alike, ?_, ?_⟩
  · decide +kernel
  · decide +kernel

end RemoteAgent
