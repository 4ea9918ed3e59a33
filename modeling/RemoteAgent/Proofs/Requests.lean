import RemoteAgent.Proofs.SampleConduct

/-!
# Every request is answered once

A request can be answered on five ways: with a value, with the fault of its evaluation, with the
fault of a deferred value that is bound already, at once by a deferred value that was settled early,
and later by one that is settled in the end.  `Books.answered_once` says that over a session of any
length no request is answered on two of them, and that a request without an answer is bound to a
deferred value that was not settled yet.

Answers do not tell for whom they are sent: two requests may have one id, and code of the
application may settle any number of deferred values while a command is evaluated.  So the session
is written into `Books`, which enter every answer with its sender: the message itself, or the
deferred value whose continuation sent it.  `Books.Step` says what is entered for one event.  The
entries that a request has to answer for are then those of one sender, `Request.sender`.

The invariant is `Books.Balanced`.  Its core is that a deferred value is bound at most once, so that
no two requests have one sender, and that it waits with the work of a request exactly as long as
that request has no answer.

## Main definitions

* `Session.Event`, `Session.act`: what happens in a session, and what it does to the world.
* `Request`, `Books`: the requests of a session with their outcomes, and the answers with their
  senders.
* `Books.Run`: the books of a session.
-/

namespace RemoteAgent

variable {φ η : Type}

open Eval (Orderly)

/-! ## Executing a message -/

namespace Message

/-- The world that a message leaves when its command was evaluated. -/
def evaluated [ObjectModel φ η] (context : Context) (message : Message) (world : World φ η) :
    World φ η :=
  match message.work? context with
  | some (command, _) => ((command.evaluate context).run world).2
  | none => world

/-- What a message has come to after its command was evaluated: it failed, or it is done, or the
rest of its work is bound to a deferred value. -/
inductive Ran [HostObjects φ η] [Holds φ] [Holds η] (completion : Completion) (world : World φ η) :
    Except AgentError Outcome × World φ η → Prop where
  | failed (error : AgentError) : Ran completion world (.error error, world)
  | completed {value : Value} :
      value.Issued world.issued →
      Ran completion world (.ok (.completed value), world.complete ⟨completion, .resolved value⟩)
  | deferred {h : Handle .deferred} {after : World φ η} :
      h.index < world.issued → world.bindDeferred h completion = .ok after →
      Ran completion world (.ok (.deferred h), after)

theorem ran_finish [HostObjects φ η] [Holds φ] [Holds η] (completion : Completion)
    {world : World φ η} {value : Value} (issued : value.Issued world.issued) :
    Ran completion world (finish world completion value) := by
  cases value with
  | deferred h =>
      unfold finish
      dsimp only
      cases bound : world.bindDeferred h completion with
      | error error => exact .failed _
      | ok after => exact .deferred issued bound
  | _ => exact .completed issued

section Run

variable [ObjectModel φ η] [Holds φ] [Holds η] [LawfulModel φ η] {context : Context}
  {world : World φ η}

theorem evaluated_orderly (message : Message) (closed : world.Closed)
    (root : context.root.Issued world.issued) :
    (∃ trace, world.Reaches trace (message.evaluated context world)) ∧
      (message.evaluated context world).Closed := by
  unfold evaluated
  cases message.work? context with
  | none => exact ⟨⟨[], .refl⟩, closed⟩
  | some work =>
      have orderly := Command.evaluate_orderly context work.1 closed root
      exact ⟨orderly.reaches, orderly.closed⟩

theorem ran_run {message : Message} {command : Command} {completion : Completion}
    (work : message.work? context = some (command, completion)) (closed : world.Closed)
    (root : context.root.Issued world.issued) :
    Ran completion (message.evaluated context world) (message.run context world) := by
  have orderly := Command.evaluate_orderly context command closed root
  unfold evaluated run
  rw [work]
  dsimp only
  rcases result : (command.evaluate context).run world with ⟨error | bound, after⟩
  · exact .failed _
  · have issued := orderly.known bound (by rw [result])
    rw [result] at issued
    exact ran_finish completion issued.2

end Run

namespace Ran

variable [HostObjects φ η] [Holds φ] [Holds η] {completion : Completion} {world : World φ η}
  {result : Except AgentError Outcome × World φ η}

theorem closed (ran : Ran completion world result) (closed : world.Closed) : result.2.Closed := by
  cases ran with
  | failed error => exact closed
  | completed issued => exact closed.complete issued
  | deferred issued bound => exact closed.bindDeferred bound

theorem issued_eq (ran : Ran completion world result) : result.2.issued = world.issued := by
  cases ran with
  | failed error => rfl
  | completed issued =>
      show (World.complete _ _).heap.deferreds.size = _
      rw [World.heap_complete]
      rfl
  | deferred issued bound =>
      rcases World.bindDeferred_cases bound with ⟨-, rfl⟩ | ⟨d, next, -, -, rfl⟩
      · rfl
      · exact World.issued_proceed _ _ _

/-- Work that answers no request is done by a move, or left to a deferred value by one. -/
theorem reaches (ran : Ran completion world result) (silent : completion.answered? = none) :
    world.Reaches [] result.2 := by
  cases ran with
  | failed error => exact .refl
  | completed issued =>
      cases completion with
      | discard => exact .refl
      | reply id depth => cases silent
      | store id => exact .single (.arrange rfl rfl)
  | deferred issued bound => exact .single (.bind silent bound)

end Ran

/-- An exception without an id is no answer. -/
theorem reaches_report [HostObjects φ η] {world : World φ η} (opened : world.IsOpen)
    (text : String) : world.Reaches [] (world.report text none) := by
  have emitted : world.report text none =
      { world with outbox := world.outbox.emit (Envelope.exception text none) } := by
    unfold World.report Outbox.report
    rw [opened]
    rfl
  rw [emitted]
  exact .single (.speak (Envelope.answered?_exception text none))

section Dispatch

variable [ObjectModel φ η] {context : Context} {world : World φ η} {json : Json}
  {message : Message}

theorem dispatch_eq_execute (read : parse json = .ok message) :
    dispatch context json world = message.execute context world := by
  unfold dispatch Message.read
  rw [read]

theorem dispatch_unread {error : ParseError} (read : parse json = .error error) :
    (dispatch context json world).2 = world.report error.message none := by
  unfold dispatch Message.read
  rw [read]

/-- A message without a command does not fail, and sends nothing. -/
theorem reaches_of_idle (idle : message.work? context = none) :
    world.Reaches [] (message.execute context world).2 := by
  unfold execute run
  rw [idle]
  cases message with
  | disconnect cacheId => exact .single (.arrange rfl rfl)
  | keepAlive => exact .refl
  | exec command => cases idle
  | get replyId command depth => cases idle
  | connect cacheId command => cases idle

theorem closed_of_idle [Holds φ] [Holds η] (idle : message.work? context = none)
    (closed : world.Closed) : (message.execute context world).2.Closed := by
  unfold execute run
  rw [idle]
  cases message with
  | disconnect cacheId => exact ⟨closed.heap, closed.cache.erase cacheId⟩
  | keepAlive => exact closed
  | exec command => cases idle
  | get replyId command depth => cases idle
  | connect cacheId command => cases idle

/-- The work of a message answers the request that the message is. -/
theorem answered?_work {command : Command} {completion : Completion}
    (work : message.work? context = some (command, completion)) :
    completion.answered? = message.replyId? := by
  cases message with
  | exec command => cases work; rfl
  | get replyId command depth => cases work; rfl
  | connect cacheId command => cases work; rfl
  | disconnect cacheId => cases work
  | keepAlive => cases work

theorem execute_eq (context : Context) (message : Message) (world : World φ η) :
    (message.execute context world).1 = (message.run context world).1 ∧
      ((message.execute context world).2 = (message.run context world).2 ∨
        ∃ error, (message.run context world).1 = .error error ∧
          (message.execute context world).2 =
            (message.run context world).2.report error.message message.replyId?) := by
  unfold execute
  rcases message.run context world with ⟨error | outcome, after⟩
  · exact ⟨rfl, .inr ⟨error, rfl, rfl⟩⟩
  · exact ⟨rfl, .inl rfl⟩

variable [Holds φ] [Holds η] [LawfulModel φ η]

/-- A session goes on in a closed world. -/
theorem closed_dispatch (json : Json) (closed : world.Closed)
    (root : context.root.Issued world.issued) :
    (dispatch context json world).2.Closed ∧
      world.issued ≤ (dispatch context json world).2.issued := by
  cases read : parse json with
  | error error =>
      rw [dispatch_unread read]
      exact ⟨closed.report _ _, Nat.le_refl _⟩
  | ok message =>
      rw [dispatch_eq_execute read]
      cases work : message.work? context with
      | none => exact ⟨closed_of_idle work closed, (reaches_of_idle work).issued_le⟩
      | some work' =>
          obtain ⟨command, completion⟩ := work'
          obtain ⟨⟨trace, evaluation⟩, ended⟩ := evaluated_orderly message closed root
          have ran := ran_run work closed root
          have le : world.issued ≤ (message.run context world).2.issued :=
            ran.issued_eq ▸ evaluation.issued_le
          rcases (execute_eq context message world).2 with same | ⟨error, -, reported⟩
          · rw [same]
            exact ⟨ran.closed ended, le⟩
          · rw [reported]
            exact ⟨(ran.closed ended).report _ _, le⟩

/-- What is no request is answered by nobody: all that it does is done by moves. -/
theorem reaches_dispatch (opened : world.IsOpen) (closed : world.Closed)
    (root : context.root.Issued world.issued)
    (silent : ∀ message, parse json = .ok message → message.replyId? = none) :
    ∃ trace, world.Reaches trace (dispatch context json world).2 := by
  cases read : parse json with
  | error error =>
      rw [dispatch_unread read]
      exact ⟨[], reaches_report opened _⟩
  | ok message =>
      rw [dispatch_eq_execute read]
      have silent := silent message read
      cases work : message.work? context with
      | none => exact ⟨[], reaches_of_idle work⟩
      | some work' =>
          obtain ⟨command, completion⟩ := work'
          obtain ⟨⟨trace, evaluation⟩, -⟩ := evaluated_orderly message closed root
          have ran := ran_run work closed root
          have rest := ran.reaches ((answered?_work work).trans silent)
          have done := evaluation.trans rest
          rcases (execute_eq context message world).2 with same | ⟨error, -, reported⟩
          · rw [same]
            exact ⟨_, done⟩
          · rw [reported, silent]
            exact ⟨_, done.trans (reaches_report (done.passage opened).isOpen _)⟩

/-- A request ends in one of three ways: it failed and its fault was sent, it is done and its value
was sent, or its answer is left to a deferred value. -/
inductive Asked [HostObjects φ η] (id : String) (depth : Int) (world : World φ η) :
    Except AgentError Outcome × World φ η → Prop where
  | failed (error : AgentError) :
      Asked id depth world (.error error, world.report error.message (some id))
  | completed (value : Value) :
      Asked id depth world (.ok (.completed value), world.sendReply id value depth)
  | deferred {h : Handle .deferred} {after : World φ η} :
      h.index < world.issued → world.bindDeferred h (.reply id depth) = .ok after →
      Asked id depth world (.ok (.deferred h), after)

theorem asked_dispatch {id : String} {command : Command} {depth : Option Int}
    (read : parse json = .ok (.get id command depth)) (closed : world.Closed)
    (root : context.root.Issued world.issued) :
    Asked id (depth.getD context.defaultDepth)
      ((get id command depth).evaluated context world) (dispatch context json world) := by
  have ran : Ran (.reply id (depth.getD context.defaultDepth))
      ((get id command depth).evaluated context world)
      ((get id command depth).run context world) := ran_run rfl closed root
  rw [dispatch_eq_execute read]
  unfold execute
  generalize (get id command depth).run context world = result at ran
  cases ran with
  | failed error => exact .failed error
  | completed issued => exact .completed _
  | deferred issued bound => exact .deferred issued bound

omit [LawfulModel φ η] [Holds φ] [Holds η] in
theorem Asked.answers {id : String} {depth : Int}
    {ended : Except AgentError Outcome × World φ η} (opened : world.IsOpen)
    (asked : Asked id depth world ended) :
    ∃ own, ended.2.answers = world.answers ++ own := by
  cases asked with
  | failed error => exact ⟨_, World.answers_report opened _ _⟩
  | completed value => exact ⟨_, World.answers_sendReply world id value depth⟩
  | deferred issued bound =>
      rcases World.bindDeferred_cases bound with ⟨-, rfl⟩ | ⟨d, next, -, -, rfl⟩
      · exact ⟨[], (List.append_nil _).symm⟩
      · obtain ⟨sent, answers, -⟩ := World.answers_proceed opened _ next
        exact ⟨sent, answers⟩

end Dispatch

end Message

/-! ## Sessions -/

namespace Session

/-- What happens in a session: a message comes in, or a deferred value is settled. -/
inductive Event where
  | dispatch (json : Json)
  | settle (h : Handle .deferred) (settlement : Settlement)

/-- The world after an attempt to settle a deferred value. -/
def settled [HostObjects φ η] (world : World φ η) (h : Handle .deferred)
    (settlement : Settlement) : World φ η :=
  match world.settle h settlement with
  | .ok after => after
  | .error _ => world

/-- The world after an event. -/
def act [ObjectModel φ η] (context : Context) (world : World φ η) : Event → World φ η
  | .dispatch json => (Message.dispatch context json world).2
  | .settle h settlement => settled world h settlement

/-- Deferred values are settled with values that exist. -/
def Proper [ObjectModel φ η] (context : Context) (world : World φ η) : List Event → Prop
  | [] => True
  | .dispatch json :: rest => Proper context (act context world (.dispatch json)) rest
  | .settle h settlement :: rest =>
      settlement.Issued world.issued ∧ Proper context (act context world (.settle h settlement)) rest

/-- The id of the request that an event is, if it is one. -/
def Event.asks? : Event → Option String
  | .dispatch json => (Message.parse json).toOption.bind Message.replyId?
  | .settle _ _ => none

theorem Event.replyId?_eq_none {json : Json} {message : Message}
    (asks : (Event.dispatch json).asks? = none) (read : Message.parse json = .ok message) :
    message.replyId? = none := by
  change (Message.parse json).toOption.bind Message.replyId? = none at asks
  rw [read] at asks
  exact asks

theorem Event.parse_of_asks? {json : Json} {id : String}
    (asks : (Event.dispatch json).asks? = some id) :
    ∃ command depth, Message.parse json = .ok (.get id command depth) := by
  change (Message.parse json).toOption.bind Message.replyId? = some id at asks
  cases read : Message.parse json with
  | error error => rw [read] at asks; cases asks
  | ok message =>
      rw [read] at asks
      cases message with
      | get replyId command depth =>
          cases asks
          exact ⟨command, depth, rfl⟩
      | exec command => cases asks
      | connect cacheId command => cases asks
      | disconnect cacheId => cases asks
      | keepAlive => cases asks

/-- A session may begin: the connection is not halted, everything was issued, and nothing waits with
the work of a request. -/
structure Ready [Holds φ] [Holds η] (context : Context) (world : World φ η) : Prop where
  isOpen : world.IsOpen
  closed : world.Closed
  root : context.root.Issued world.issued
  idle : ∀ h, (world.state? h).bind Deferred.State.asked? = none

theorem reaches_settled [HostObjects φ η] {world : World φ η} (opened : world.IsOpen)
    (h : Handle .deferred) (settlement : Settlement) :
    ∃ sent, (settled world h settlement).answers = world.answers ++ sent ∧
      world.Reaches (sent.map (h, ·)) (settled world h settlement) := by
  unfold settled
  cases result : world.settle h settlement with
  | error error => exact ⟨[], (List.append_nil _).symm, .refl⟩
  | ok after =>
      have sent : ∃ sent, after.answers = world.answers ++ sent := by
        rcases World.settle_cases result with rfl | ⟨d, next, found, due, rfl⟩
        · exact ⟨[], (List.append_nil _).symm⟩
        · obtain ⟨sent, answers, -⟩ := World.answers_proceed opened h next
          exact ⟨sent, answers⟩
      obtain ⟨sent, answers⟩ := sent
      exact ⟨sent, answers, .single (.settle result answers)⟩

end Session

/-! ## Books -/

/-- A deferred value was issued, and not settled yet. -/
def World.isUnsettled (world : World φ η) (h : Handle .deferred) : Bool :=
  (world.heap.deferred? h).any fun d => !d.isSettled

theorem World.isUnsettled_of_asked {world : World φ η} {h : Handle .deferred} {id : String}
    (asked : (world.state? h).bind Deferred.State.asked? = some id) :
    world.isUnsettled h = true := by
  unfold isUnsettled
  unfold state? at asked
  cases found : world.heap.deferred? h with
  | none => rw [found] at asked; cases asked
  | some d =>
      rw [found] at asked
      change d.state.asked? = some id at asked
      rw [Option.any_some]
      unfold Deferred.isSettled
      cases standing : d.state with
      | fresh => rfl
      | waiting completion => rfl
      | early settlement => rw [standing] at asked; cases asked
      | finished => rw [standing] at asked; cases asked

theorem World.isUnsettled_of_finished {world : World φ η} {h : Handle .deferred}
    (finished : world.state? h = some .finished) : world.isUnsettled h = false := by
  unfold isUnsettled
  unfold state? at finished
  cases found : world.heap.deferred? h with
  | none => rfl
  | some d =>
      rw [found] at finished
      have state : d.state = .finished := Option.some.inj finished
      rw [Option.any_some]
      unfold Deferred.isSettled
      rw [state]
      rfl

/-- Who sends an answer: a message, given by how many requests there were before it, or the
continuation of a deferred value. -/
inductive Sender where
  | message (number : Nat)
  | deferred (h : Handle .deferred)
  deriving DecidableEq

/-- A message that asked for an answer. -/
structure Request where
  /-- How many requests there were before. -/
  number : Nat
  /-- The id to answer under. -/
  id : String
  /-- How the message ended. -/
  outcome : Except AgentError Outcome

namespace Request

/-- Who is to answer: the message, or the deferred value that the rest of its work is bound to. -/
def sender (request : Request) : Sender :=
  match request.outcome with
  | .ok (.deferred h) => .deferred h
  | .ok (.completed _) => .message request.number
  | .error _ => .message request.number

/-- The request is bound to a deferred value that was not settled yet. -/
def isWaiting (request : Request) (world : World φ η) : Bool :=
  match request.outcome with
  | .ok (.deferred h) => world.isUnsettled h
  | .ok (.completed _) => false
  | .error _ => false

end Request

/-- A session, written down. -/
structure Books (φ η : Type) where
  /-- The world. -/
  world : World φ η
  /-- The requests, in their order. -/
  requests : List Request
  /-- The answers, in their order, with those who sent them. -/
  log : Log Sender

namespace Books

/-- The books before a session. -/
def opening (world : World φ η) : Books φ η := ⟨world, [], []⟩

/-- What was sent on behalf of a request. -/
def answersTo (books : Books φ η) (request : Request) : List Json :=
  books.log.sentBy request.sender

/-- Enters a stretch of moves. -/
def pass (books : Books φ η) (trace : Trace) (after : World φ η) : Books φ η :=
  { books with
    world := after
    log := books.log ++ trace.map fun entry => (.deferred entry.1, entry.2) }

/-- A request as it is entered. -/
def next (books : Books φ η) (id : String) (outcome : Except AgentError Outcome) : Request :=
  ⟨books.requests.length, id, outcome⟩

/-- Enters a request, with the answers that were sent when it was executed. -/
def ask (books : Books φ η) (id : String) (ended : Except AgentError Outcome × World φ η)
    (own : List Json) : Books φ η :=
  { world := ended.2
    requests := books.requests ++ [books.next id ended.1]
    log := books.log ++ own.map ((books.next id ended.1).sender, ·) }

/-- What is entered for one event. -/
inductive Step [ObjectModel φ η] (context : Context) : Books φ η → Session.Event → Books φ η → Prop
    where
  /-- What is no request is a stretch of moves. -/
  | other {books : Books φ η} {json : Json} {trace : Trace} :
      (Session.Event.dispatch json).asks? = none →
      books.world.Reaches trace (Message.dispatch context json books.world).2 →
      Step context books (.dispatch json)
        (books.pass trace (Message.dispatch context json books.world).2)
  /-- A request is evaluated by a stretch of moves, and then ends. -/
  | request {books : Books φ η} {json : Json} {id : String} {command : Command}
      {depth : Option Int} {trace : Trace} {own : List Json} :
      Message.parse json = .ok (.get id command depth) →
      books.world.Reaches trace
        ((Message.get id command depth).evaluated context books.world) →
      (Message.dispatch context json books.world).2.answers =
        ((Message.get id command depth).evaluated context books.world).answers ++ own →
      Step context books (.dispatch json)
        ((books.pass trace ((Message.get id command depth).evaluated context books.world)).ask id
          (Message.dispatch context json books.world) own)
  /-- What is sent when a deferred value is settled is sent by its continuation. -/
  | settle {books : Books φ η} {h : Handle .deferred} {settlement : Settlement}
      {sent : List Json} :
      books.world.Reaches (sent.map (h, ·)) (Session.settled books.world h settlement) →
      Step context books (.settle h settlement)
        (books.pass (sent.map (h, ·)) (Session.settled books.world h settlement))

/-- What is entered for a session. -/
inductive Run [ObjectModel φ η] (context : Context) : Books φ η → List Session.Event → Books φ η → Prop
    where
  | nil {books : Books φ η} : Run context books [] books
  | cons {books middle after : Books φ η} {event : Session.Event} {events : List Session.Event} :
      Step context books event middle → Run context middle events after →
      Run context books (event :: events) after

/-! ### What is entered under a sender -/

section Entries

variable {books : Books φ η}

theorem sentBy_pass_message (trace : Trace) (after : World φ η) (number : Nat) :
    (books.pass trace after).log.sentBy (.message number) =
      books.log.sentBy (.message number) := by
  have silent : Log.sentBy (trace.map fun entry => (Sender.deferred entry.1, entry.2))
      (.message number) = [] := by
    refine Log.sentBy_eq_nil fun entry mem => ?_
    obtain ⟨entry, -, rfl⟩ := List.mem_map.mp mem
    exact nofun
  unfold pass
  rw [Log.sentBy_append, silent, List.append_nil]

theorem sentBy_pass_deferred (trace : Trace) (after : World φ η) (h : Handle .deferred) :
    (books.pass trace after).log.sentBy (.deferred h) =
      books.log.sentBy (.deferred h) ++ trace.sentBy h := by
  unfold pass
  rw [Log.sentBy_append]
  congr 1
  unfold Log.sentBy
  rw [List.filter_map, List.map_map]
  simp [Function.comp_def]

variable {id : String} {ended : Except AgentError Outcome × World φ η} {own : List Json}

theorem not_mem_ask {sender : Sender} :
    sender ∉ (books.ask id ended own).requests.map Request.sender ↔
      sender ∉ books.requests.map Request.sender ∧ sender ≠ (books.next id ended.1).sender := by
  show sender ∉ (books.requests ++ [books.next id ended.1]).map Request.sender ↔ _
  rw [List.map_append, List.mem_append, not_or, List.map_cons, List.map_nil, List.mem_singleton]

theorem sentBy_ask_self :
    (books.ask id ended own).log.sentBy (books.next id ended.1).sender =
      books.log.sentBy (books.next id ended.1).sender ++ own := by
  unfold ask
  rw [Log.sentBy_append]
  exact congrArg _ (Log.sentBy_self _ own)

theorem sentBy_ask_of_ne {sender : Sender} (ne : sender ≠ (books.next id ended.1).sender) :
    (books.ask id ended own).log.sentBy sender = books.log.sentBy sender := by
  unfold ask
  rw [Log.sentBy_append]
  exact (congrArg _ (Log.sentBy_of_ne ne own)).trans (List.append_nil _)

end Entries

end Books

/-! ### The invariant -/

/-- What a request has come to in a world, with the answers to it. -/
inductive Request.Fate (request : Request) (world : World φ η) : List Json → Prop where
  | failed {error : AgentError} :
      request.outcome = .error error →
      Fate request world [Envelope.exception error.message (some request.id)]
  | completed {value : Value} {json : Json} :
      request.outcome = .ok (.completed value) →
      Fate request world [Envelope.reply request.id json]
  /-- The deferred value waits with the work of the request. -/
  | waiting {h : Handle .deferred} :
      request.outcome = .ok (.deferred h) →
      (world.state? h).bind Deferred.State.asked? = some request.id → Fate request world []
  | settled {h : Handle .deferred} {envelope : Json} :
      request.outcome = .ok (.deferred h) → world.state? h = some .finished →
      Envelope.answered? envelope = some request.id → Fate request world [envelope]

namespace Request

variable {request : Request} {world after : World φ η} {sent : List Json}

theorem sender_of_deferred {h : Handle .deferred} (outcome : request.outcome = .ok (.deferred h)) :
    request.sender = .deferred h := by
  unfold sender
  rw [outcome]

theorem outcome_of_sender {h : Handle .deferred} (sender : request.sender = .deferred h) :
    request.outcome = .ok (.deferred h) := by
  unfold Request.sender at sender
  split at sender
  case h_1 own outcome =>
    cases sender
    exact outcome
  case h_2 => cases sender
  case h_3 => cases sender

theorem number_of_sender {number : Nat} (sender : request.sender = .message number) :
    request.number = number := by
  unfold Request.sender at sender
  split at sender
  case h_1 => cases sender
  case h_2 => exact Sender.message.inj sender
  case h_3 => exact Sender.message.inj sender

/-- What a deferred value does in a stretch of time, it does to the request that is bound to it. -/
theorem Fate.course {h : Handle .deferred} {more : List Json} (fate : request.Fate world sent)
    (outcome : request.outcome = .ok (.deferred h))
    (course : Deferred.Course (world.state? h) more (after.state? h)) :
    request.Fate after (sent ++ more) := by
  cases fate with
  | failed failed => rw [failed] at outcome; cases outcome
  | completed completed => rw [completed] at outcome; cases outcome
  | waiting own asked =>
      rw [own] at outcome
      cases outcome
      -- Either the request still waits, or it was answered on the way and nobody waits any more.
      generalize finished : after.state? h = state at course
      cases course with
      | kept same _ => exact .waiting own (finished ▸ same.trans asked)
      | answered asked' tagged =>
          rw [asked] at asked'
          cases asked'
          exact .settled own finished tagged
  | settled own finished tagged =>
      rw [own] at outcome
      cases outcome
      rw [finished] at course
      obtain ⟨rfl, still⟩ := course.finished
      exact .settled own still tagged

/-- The deferred value of a request is bound, whether it was settled or not. -/
theorem Fate.isBound {h : Handle .deferred} {d : Deferred Completion}
    (fate : request.Fate world sent) (outcome : request.outcome = .ok (.deferred h))
    (found : world.heap.deferred? h = some d) : d.isBound = true := by
  have state := World.state?_eq_some found
  unfold Deferred.isBound
  cases fate with
  | failed failed => rw [failed] at outcome; cases outcome
  | completed completed => rw [completed] at outcome; cases outcome
  | waiting own asked =>
      rw [own] at outcome
      cases outcome
      rw [state] at asked
      cases standing : d.state with
      | fresh => rw [standing] at asked; cases asked
      | early settlement => rw [standing] at asked; cases asked
      | waiting completion => rfl
      | finished => rfl
  | settled own finished tagged =>
      rw [own] at outcome
      cases outcome
      rw [state] at finished
      rw [Option.some.inj finished]

/-- There is one answer, unless the request is bound to a deferred value that was not settled. -/
theorem Fate.length_eq (fate : request.Fate world sent) :
    sent.length = if request.isWaiting world then 0 else 1 := by
  cases fate with
  | failed failed =>
      have waits : request.isWaiting world = false := by
        unfold isWaiting
        rw [failed]
      rw [waits]
      rfl
  | completed completed =>
      have waits : request.isWaiting world = false := by
        unfold isWaiting
        rw [completed]
      rw [waits]
      rfl
  | waiting own asked =>
      have waits : request.isWaiting world = true := by
        unfold isWaiting
        rw [own]
        exact World.isUnsettled_of_asked asked
      rw [waits]
      rfl
  | settled own finished tagged =>
      have waits : request.isWaiting world = false := by
        unfold isWaiting
        rw [own]
        exact World.isUnsettled_of_finished finished
      rw [waits]
      rfl

theorem Fate.answered?_eq (fate : request.Fate world sent) :
    ∀ envelope ∈ sent, Envelope.answered? envelope = some request.id := by
  intro envelope mem
  cases fate with
  | failed failed =>
      rw [List.mem_singleton.mp mem]
      exact Envelope.answered?_exception _ _
  | completed completed =>
      rw [List.mem_singleton.mp mem]
      exact Envelope.answered?_reply _ _
  | waiting own asked => cases mem
  | settled own finished tagged =>
      rw [List.mem_singleton.mp mem]
      exact tagged

/-- A request that failed has been told why. -/
theorem Fate.of_error {error : AgentError} (fate : request.Fate world sent)
    (outcome : request.outcome = .error error) :
    sent = [Envelope.exception error.message (some request.id)] := by
  cases fate with
  | failed failed =>
      rw [failed] at outcome
      cases outcome
      rfl
  | completed completed => rw [completed] at outcome; cases outcome
  | waiting own asked => rw [own] at outcome; cases outcome
  | settled own finished tagged => rw [own] at outcome; cases outcome

/-- A request that is bound to no deferred value has its answer for good. -/
theorem Fate.of_message {number : Nat} (fate : request.Fate world sent)
    (sender : request.sender = .message number) : request.Fate after sent := by
  cases fate with
  | failed failed => exact .failed failed
  | completed completed => exact .completed completed
  | waiting own _ => rw [sender_of_deferred own] at sender; cases sender
  | settled own _ _ => rw [sender_of_deferred own] at sender; cases sender

end Request

/-- The invariant of a session. -/
structure Books.Balanced (start : World φ η) (books : Books φ η) : Prop where
  isOpen : books.world.IsOpen
  /-- Every answer was entered. -/
  answers : books.world.answers = start.answers ++ books.log.map Prod.snd
  numbers : ∀ request ∈ books.requests, request.number < books.requests.length
  /-- No two requests have one sender. -/
  senders : (books.requests.map Request.sender).Nodup
  fates : ∀ request ∈ books.requests, request.Fate books.world (books.answersTo request)
  /-- Nobody else sends an answer, and no deferred value waits for anybody else. -/
  strangers : ∀ sender, sender ∉ books.requests.map Request.sender → books.log.sentBy sender = []
  unasked : ∀ h, .deferred h ∉ books.requests.map Request.sender →
    (books.world.state? h).bind Deferred.State.asked? = none

namespace Books.Balanced

variable {start : World φ η} {books : Books φ η}

/-- A stretch of moves keeps the books balanced. -/
theorem pass {trace : Trace} {after : World φ η} (balanced : books.Balanced start)
    (passage : books.world.Passage trace after) : (books.pass trace after).Balanced start where
  isOpen := passage.isOpen
  answers := by
    show after.answers = _ ++ (books.log ++ _).map Prod.snd
    rw [passage.answers, balanced.answers, List.map_append, List.map_map, List.append_assoc]
    rfl
  numbers := balanced.numbers
  senders := balanced.senders
  fates request mem := by
    have fate := balanced.fates request mem
    unfold answersTo at fate ⊢
    cases sender : request.sender with
    | message number =>
        rw [sender] at fate
        rw [sentBy_pass_message]
        exact fate.of_message sender
    | deferred h =>
        rw [sender] at fate
        rw [sentBy_pass_deferred]
        exact fate.course (Request.outcome_of_sender sender) (passage.course h)
  strangers sender stranger := by
    have silent := balanced.strangers sender stranger
    cases sender with
    | message number => rw [sentBy_pass_message, silent]
    | deferred h =>
        rw [sentBy_pass_deferred, silent]
        exact ((passage.course h).unasked (balanced.unasked h stranger)).1
  unasked h stranger := ((passage.course h).unasked (balanced.unasked h stranger)).2

section Ask

variable {id : String} {ended : Except AgentError Outcome × World φ η} {own : List Json}

/-- A request keeps the books balanced if its sender is new and its own deferred value is the only
one that it changes. -/
theorem ask (balanced : books.Balanced start) (opened : ended.2.IsOpen)
    (sent : ended.2.answers = books.world.answers ++ own)
    (new : (books.next id ended.1).sender ∉ books.requests.map Request.sender)
    (fate : (books.next id ended.1).Fate ended.2 own)
    (others : ∀ h, .deferred h ≠ (books.next id ended.1).sender →
      ended.2.state? h = books.world.state? h) :
    (books.ask id ended own).Balanced start where
  isOpen := opened
  answers := by
    show ended.2.answers = _ ++ (books.log ++ _).map Prod.snd
    rw [sent, balanced.answers, List.map_append, List.map_map, List.append_assoc]
    exact congrArg _ (congrArg _ (List.map_id own).symm)
  numbers request mem := by
    have length : (books.ask id ended own).requests.length = books.requests.length + 1 :=
      List.length_append
    rw [length]
    rcases List.mem_append.mp mem with old | new
    · exact Nat.lt_succ_of_lt (balanced.numbers request old)
    · rw [List.mem_singleton.mp new]
      exact Nat.lt_succ_self _
  senders := by
    show ((books.requests ++ [books.next id ended.1]).map Request.sender).Nodup
    rw [List.map_append]
    refine List.nodup_append.mpr ⟨balanced.senders, List.pairwise_singleton _ _, ?_⟩
    intro sender old other mem same
    rw [List.mem_singleton.mp mem] at same
    exact new (same ▸ old)
  fates request mem := by
    unfold answersTo
    rcases List.mem_append.mp mem with old | mem
    · -- The new request has another sender, and leaves the deferred value of an old one alone.
      have ne : request.sender ≠ (books.next id ended.1).sender :=
        fun same => new (same ▸ List.mem_map_of_mem old)
      rw [sentBy_ask_of_ne ne]
      have fate := balanced.fates request old
      cases sender : request.sender with
      | message number =>
          rw [← sender]
          exact fate.of_message sender
      | deferred h =>
          rw [sender] at ne
          have course : Deferred.Course (books.world.state? h) [] (ended.2.state? h) := by
            rw [others h ne]
            exact .refl _
          have after := fate.course (Request.outcome_of_sender sender) course
          rw [List.append_nil] at after
          rw [← sender]
          exact after
    · rw [List.mem_singleton.mp mem, sentBy_ask_self, balanced.strangers _ new]
      exact fate
  strangers sender stranger := by
    have apart := not_mem_ask.mp stranger
    rw [sentBy_ask_of_ne apart.2]
    exact balanced.strangers sender apart.1
  unasked h stranger := by
    have apart := not_mem_ask.mp stranger
    show (ended.2.state? h).bind Deferred.State.asked? = none
    rw [others h apart.2]
    exact balanced.unasked h apart.1

/-- The number of a request is new, so a message that answers itself is a new sender. -/
theorem new_message (balanced : books.Balanced start) :
    .message books.requests.length ∉ books.requests.map Request.sender := by
  intro mem
  obtain ⟨request, old, sender⟩ := List.mem_map.mp mem
  have less := balanced.numbers request old
  rw [Request.number_of_sender sender] at less
  exact Nat.lt_irrefl _ less

/-- A deferred value that can still be bound is bound to no request. -/
theorem new_deferred (balanced : books.Balanced start) {h : Handle .deferred}
    {d : Deferred Completion} (found : books.world.heap.deferred? h = some d)
    (unbound : d.isBound = false) : .deferred h ∉ books.requests.map Request.sender := by
  intro mem
  obtain ⟨request, old, sender⟩ := List.mem_map.mp mem
  have bound := (balanced.fates request old).isBound (Request.outcome_of_sender sender) found
  rw [unbound] at bound
  cases bound

/-- **However a request ends, the books stay balanced.** -/
theorem asked {depth : Int} [HostObjects φ η] (balanced : books.Balanced start)
    (asked : Message.Asked id depth books.world ended)
    (sent : ended.2.answers = books.world.answers ++ own) :
    (books.ask id ended own).Balanced start := by
  cases asked with
  | failed error =>
      have answer := World.answers_report balanced.isOpen error.message (some id)
      have own_eq := List.append_cancel_left (sent.symm.trans answer)
      rw [own_eq] at sent ⊢
      exact balanced.ask (World.isOpen_report balanced.isOpen _ _) sent balanced.new_message
        (.failed rfl) fun _ _ => rfl
  | completed value =>
      have answer := World.answers_sendReply books.world id value depth
      have own_eq := List.append_cancel_left (sent.symm.trans answer)
      rw [own_eq] at sent ⊢
      exact balanced.ask balanced.isOpen sent balanced.new_message (.completed rfl) fun _ _ => rfl
  | @deferred h after issued bound =>
      rcases World.bindDeferred_cases bound with ⟨missing, -⟩ | ⟨d, next, found, result, rfl⟩
      · -- A handle that was not issued does not come out of an evaluation.
        have beyond : books.world.issued ≤ h.index := Array.getElem?_eq_none_iff.mp missing
        exact absurd issued (Nat.not_lt.mpr beyond)
      · obtain ⟨sent', answers, settles⟩ := World.answers_proceed balanced.isOpen h next
        have own_eq := List.append_cancel_left (sent.symm.trans answers)
        rw [← own_eq] at settles
        -- The deferred value could be bound, so no request was bound to it before.
        have opened := World.isOpen_proceed balanced.isOpen h next
        have state : (books.world.proceed h next).state? h = some next.1.state :=
          World.state?_proceed_self issued
        have others : ∀ other, Sender.deferred other ≠ .deferred h →
            (books.world.proceed h next).state? other = books.world.state? other :=
          fun other ne => World.state?_proceed_of_ne fun same => ne (congrArg _ same)
        unfold Deferred.bind at result
        split at result
        case h_1 fresh =>
          have unbound : d.isBound = false := by
            unfold Deferred.isBound
            rw [fresh]
          cases result
          cases settles
          refine balanced.ask opened sent (balanced.new_deferred found unbound) ?_ others
          exact .waiting rfl (by rw [state]; rfl)
        case h_2 settlement early =>
          have unbound : d.isBound = false := by
            unfold Deferred.isBound
            rw [early]
          cases result
          cases settles with
          | some tagged =>
              refine balanced.ask opened sent (balanced.new_deferred found unbound) ?_ others
              exact .settled rfl state tagged
        case h_3 => cases result
        case h_4 => cases result

end Ask

end Books.Balanced

/-! ### Sessions of any length -/

section Run

variable [ObjectModel φ η] [Holds φ] [Holds η] [LawfulModel φ η] {context : Context}

/-- A session goes on in a closed world, and its root stays issued. -/
theorem Session.closed_act {world : World φ η} {event : Event} {rest : List Event}
    (closed : world.Closed) (root : context.root.Issued world.issued)
    (proper : Proper context world (event :: rest)) :
    (act context world event).Closed ∧ context.root.Issued (act context world event).issued ∧
      Proper context (act context world event) rest := by
  cases event with
  | dispatch json =>
      obtain ⟨closed', le⟩ := Message.closed_dispatch json closed root
      exact ⟨closed', root.later le, proper⟩
  | settle h settlement =>
      refine ⟨?_, ?_, proper.2⟩
      · show (settled world h settlement).Closed
        unfold settled
        cases result : world.settle h settlement with
        | error error => exact closed
        | ok after => exact closed.settle proper.1 result
      · show context.root.Issued (settled world h settlement).issued
        unfold settled
        cases result : world.settle h settlement with
        | error error => exact root
        | ok after =>
            rcases World.settle_cases result with rfl | ⟨d, next, -, -, rfl⟩
            · exact root
            · rw [World.issued_proceed]
              exact root

namespace Books

variable {start : World φ η} {books after : Books φ η} {event : Session.Event}
  {events : List Session.Event}

/-- An event is always entered. -/
theorem exists_step (opened : books.world.IsOpen) (closed : books.world.Closed)
    (root : context.root.Issued books.world.issued) (event : Session.Event) :
    ∃ after, Step context books event after := by
  cases event with
  | settle h settlement =>
      obtain ⟨sent, -, reaches⟩ := Session.reaches_settled opened h settlement
      exact ⟨_, .settle reaches⟩
  | dispatch json =>
      cases asks : (Session.Event.dispatch json).asks? with
      | none =>
          have silent : ∀ message, Message.parse json = .ok message → message.replyId? = none :=
            fun _ read => Session.Event.replyId?_eq_none asks read
          obtain ⟨trace, reaches⟩ := Message.reaches_dispatch opened closed root silent
          exact ⟨_, .other asks reaches⟩
      | some id =>
          obtain ⟨command, depth, read⟩ := Session.Event.parse_of_asks? asks
          obtain ⟨⟨trace, reaches⟩, -⟩ :=
            Message.evaluated_orderly (.get id command depth) closed root
          have asked := Message.asked_dispatch read closed root
          obtain ⟨own, sent⟩ := asked.answers (reaches.passage opened).isOpen
          exact ⟨_, .request read reaches sent⟩

/-- **An event keeps the books balanced.** -/
theorem Step.balanced (step : Step context books event after) (balanced : books.Balanced start)
    (closed : books.world.Closed) (root : context.root.Issued books.world.issued) :
    after.Balanced start := by
  cases step with
  | other asks reaches => exact balanced.pass (reaches.passage balanced.isOpen)
  | request read reaches sent =>
      have evaluated := balanced.pass (reaches.passage balanced.isOpen)
      exact evaluated.asked (Message.asked_dispatch read closed root) sent
  | settle reaches => exact balanced.pass (reaches.passage balanced.isOpen)

omit [Holds φ] [Holds η] [LawfulModel φ η] in
/-- The books follow the world, and no request is left out or made up. -/
theorem Step.follows (step : Step context books event after) :
    after.world = Session.act context books.world event ∧
      after.requests.map Request.id = books.requests.map Request.id ++ event.asks?.toList := by
  cases step with
  | other asks reaches =>
      rw [asks]
      exact ⟨rfl, (List.append_nil _).symm⟩
  | @request json id command depth trace own read reaches sent =>
      have asks : (Session.Event.dispatch json).asks? = some id := by
        show (Message.parse json).toOption.bind Message.replyId? = some id
        rw [read]
        rfl
      rw [asks]
      exact ⟨rfl, List.map_append⟩
  | settle reaches => exact ⟨rfl, (List.append_nil _).symm⟩

/-- A session is always entered. -/
theorem exists_run (balanced : books.Balanced start) (closed : books.world.Closed)
    (root : context.root.Issued books.world.issued)
    (proper : Session.Proper context books.world events) :
    ∃ after, Run context books events after := by
  induction events generalizing books with
  | nil => exact ⟨books, .nil⟩
  | cons event rest ih =>
      obtain ⟨middle, step⟩ := exists_step balanced.isOpen closed root event
      obtain ⟨closed', root', proper'⟩ := Session.closed_act closed root proper
      rw [← step.follows.1] at closed' root' proper'
      obtain ⟨after, run⟩ := ih (step.balanced balanced closed root) closed' root' proper'
      exact ⟨after, .cons step run⟩

theorem Run.balanced (run : Run context books events after) (balanced : books.Balanced start)
    (closed : books.world.Closed) (root : context.root.Issued books.world.issued)
    (proper : Session.Proper context books.world events) : after.Balanced start := by
  induction run with
  | nil => exact balanced
  | cons step _ ih =>
      obtain ⟨closed', root', proper'⟩ := Session.closed_act closed root proper
      rw [← step.follows.1] at closed' root' proper'
      exact ih (step.balanced balanced closed root) closed' root' proper'

omit [Holds φ] [Holds η] [LawfulModel φ η] in
theorem Run.follows (run : Run context books events after) :
    after.world = events.foldl (Session.act context) books.world ∧
      after.requests.map Request.id =
        books.requests.map Request.id ++ events.filterMap Session.Event.asks? := by
  induction run with
  | nil => exact ⟨rfl, (List.append_nil _).symm⟩
  | cons step _ ih =>
      obtain ⟨world, ids⟩ := step.follows
      rw [world, ids] at ih
      refine ⟨ih.1, ih.2.trans ?_⟩
      rw [List.append_assoc, List.filterMap_cons]
      cases Session.Event.asks? _ with
      | none => rfl
      | some id => rfl

omit [ObjectModel φ η] [LawfulModel φ η] in
theorem balanced_opening {world : World φ η} (ready : Session.Ready context world) :
    (opening world).Balanced world where
  isOpen := ready.isOpen
  answers := (List.append_nil _).symm
  numbers _ mem := absurd mem List.not_mem_nil
  senders := List.nodup_nil
  fates _ mem := absurd mem List.not_mem_nil
  strangers _ _ := rfl
  unasked h _ := ready.idle h

/-- **Every request is answered once.**  A session can be entered in books, and however it is, every
request has exactly one answer, with its id, unless it is bound to a deferred value that was not
settled yet; then it has none.  All answers are entered, and each of them is the answer to one
request. -/
theorem answered_once (ready : Session.Ready context start)
    (proper : Session.Proper context start events) :
    (∃ books, Run context (opening start) events books) ∧
      ∀ books, Run context (opening start) events books →
        books.world = events.foldl (Session.act context) start ∧
        books.requests.map Request.id = events.filterMap Session.Event.asks? ∧
        books.world.answers = start.answers ++ books.log.map Prod.snd ∧
        (books.requests.map Request.sender).Nodup ∧
        (∀ entry ∈ books.log, entry.1 ∈ books.requests.map Request.sender) ∧
        ∀ request ∈ books.requests,
          (books.answersTo request).length = (if request.isWaiting books.world then 0 else 1) ∧
          (∀ envelope ∈ books.answersTo request,
            Envelope.answered? envelope = some request.id) ∧
          ∀ error, request.outcome = .error error →
            books.answersTo request = [Envelope.exception error.message (some request.id)] := by
  have begun : (opening start).Balanced start := balanced_opening ready
  refine ⟨exists_run begun ready.closed ready.root proper, fun books run => ?_⟩
  have balanced := run.balanced begun ready.closed ready.root proper
  refine ⟨run.follows.1, run.follows.2, balanced.answers, balanced.senders, ?_, ?_⟩
  · intro entry mem
    refine Decidable.byContradiction fun stranger => ?_
    -- Who is nobody's sender has sent nothing.
    have silent := balanced.strangers entry.1 stranger
    have sent : entry.2 ∈ books.log.sentBy entry.1 :=
      List.mem_map_of_mem (List.mem_filter.mpr ⟨mem, decide_eq_true rfl⟩)
    rw [silent] at sent
    cases sent
  · intro request mem
    have fate := balanced.fates request mem
    exact ⟨fate.length_eq, fate.answered?_eq, fun _ outcome => fate.of_error outcome⟩

end Books

end Run

/-! ### A deferred value that two requests obtain -/

namespace Sample

/-- The context of the sample application. -/
def context : Context := ⟨start.1, 1⟩

/-- A request that calls a method of the root object. -/
def request (id method : String) : Session.Event :=
  .dispatch (.array [.string "G", .string id, .array [.string "C",
    .array [.string "G", .array [.string "R", .string "root"], .array [.string "L", .string method]],
    .array []]])

/-- A request is given a deferred value, a second one the same, and then it is settled. -/
def shared : List Session.Event :=
  [request "first" "later", request "second" "last", .settle ⟨0⟩ (.resolved (.bool true))]

theorem ready : Session.Ready context start.2.2 where
  isOpen := by
    unfold World.IsOpen
    decide +kernel
  closed := by decide +kernel
  root := by decide +kernel
  idle h := by
    have none : start.2.2.heap.deferreds.cells = #[] := by decide +kernel
    unfold World.state? Heap.deferred? Store.get?
    rw [none]
    rfl

end Sample

/-- The second request is told that the deferred value is bound already, and the first one is still
answered, once. -/
theorem Books.answered_once_shared :
    ∃ books, Run Sample.context (opening Sample.start.2.2) Sample.shared books ∧
      books.requests.map Request.id = ["first", "second"] ∧
      books.world.answers =
        [Envelope.exception (AgentError.deferred .alreadyBound).message (some "second"),
          Envelope.reply "first" (.bool true)] ∧
      ∀ request ∈ books.requests,
        (books.answersTo request).length = if request.isWaiting books.world then 0 else 1 := by
  have proper : Session.Proper Sample.context Sample.start.2.2 Sample.shared :=
    ⟨trivial, trivial⟩
  obtain ⟨⟨books, run⟩, once⟩ := answered_once Sample.ready proper
  obtain ⟨world, ids, -, -, -, answered⟩ := once books run
  refine ⟨books, run, ?_, ?_, fun request mem => (answered request mem).1⟩
  · rw [ids]
    decide +kernel
  · rw [world]
    decide +kernel

end RemoteAgent
