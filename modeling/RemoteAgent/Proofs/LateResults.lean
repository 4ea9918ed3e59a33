import RemoteAgent.Proofs.Replay

/-!
# A result that comes late

A message whose command comes to a deferred value is done when the value is there.  Three pieces of
code may do it: executing the message, if the command comes to something else than a deferred value;
binding, if the deferred value was resolved before; and resolving, if it is resolved later.  Here it
is shown that it does not matter which one does: the controller gets the same envelopes, and the
same is cached, as if the command had come to the value itself, at the moment at which it is
resolved (`Message.deferred_eq_direct`).

The moment is what the statement has to name with care.  Between binding and resolving other
messages are executed, code of the application runs, and values that are shared change; an answer
tells how a value is when it is sent, not how it was when it was asked for.  So later is any world
that a session and then any stretch of deeds come to, the middle of an evaluation included.  What
carries the work of the message to there is that a deferred value keeps what was bound to it until
it is settled (`World.HasBound.does`).

## Main definitions

* `Message.envelopes`, `Message.cached`: what a message is to send, and to cache.
* `Message.DoneWith`: a message has done what is to be done with a value.
* `World.withFinished`: the moment at which a deferred value is resolved.
-/

namespace RemoteAgent

variable {φ η : Type}

/-! ## What is to be done with a result -/

namespace Message

/-- A message with another command. -/
def withCommand (command : Command) : Message → Message
  | exec _ => exec command
  | get replyId _ depth => get replyId command depth
  | connect cacheId _ => connect cacheId command
  | disconnect cacheId => disconnect cacheId
  | keepAlive => keepAlive

/-- The envelopes that a message sends when its result is there. -/
def envelopes [HostObjects φ η] (context : Context) (heap : Heap φ η) (value : Value) :
    Message → List Json
  | get replyId _ depth =>
    [Envelope.reply replyId (value.toJson heap (depth.getD context.defaultDepth))]
  | _ => []

/-- The cache when a message has got its result. -/
def cached (cache : Fields Value) (value : Value) : Message → Fields Value
  | connect cacheId _ => Fields.insert cacheId value cache
  | _ => cache

/-- A result that is there is dealt with at once. -/
theorem finish_of_ready [HostObjects φ η] {value : Value} (ready : value.asDeferred? = none)
    (world : World φ η) (completion : Completion) :
    finish world completion value =
      (.ok (.completed value), world.complete ⟨completion, .resolved value⟩) := by
  cases value with
  | deferred h => cases ready
  | _ => rfl

section Done

variable [ObjectModel φ η] {context : Context} {message : Message} {command : Command}
  {completion : Completion} {value : Value}

/-- A message has done what is to be done with a value, at a moment, and nothing else: it has sent
its envelopes and cached what it caches.  And so it does if its command comes to the value itself at
that moment, whatever the command is. -/
structure DoneWith (context : Context) (message : Message) (value : Value)
    (moment after : World φ η) : Prop where
  heap : after.heap = moment.heap
  outbox : after.outbox =
    (message.envelopes context moment.heap value).foldl Outbox.emit moment.outbox
  cache : after.cache = message.cached moment.cache value
  direct : ∀ (command : Command) (origin : World φ η) (receiver : Value),
    (command.evaluate context).run origin = (.ok ⟨receiver, value⟩, moment) →
      (message.withCommand command).execute context origin = (.ok (.completed value), after)

theorem work?_withCommand (work : message.work? context = some (command, completion))
    (other : Command) : (message.withCommand other).work? context = some (other, completion) := by
  cases message with
  | exec => cases work; rfl
  | get => cases work; rfl
  | connect => cases work; rfl
  | disconnect => cases work
  | keepAlive => cases work

/-- Executing a message whose command is evaluated is finishing it. -/
theorem execute_of_evaluated (work : message.work? context = some (command, completion))
    {origin world : World φ η} {bound : Bound}
    (evaluated : (command.evaluate context).run origin = (.ok bound, world))
    {outcome : Outcome} {after : World φ η}
    (finished : finish world completion bound.value = (.ok outcome, after)) :
    message.execute context origin = (.ok outcome, after) := by
  unfold execute run
  rw [work]
  dsimp only
  rw [evaluated]
  dsimp only
  rw [finished]

/-- A message whose command comes to a value that is there is done at once. -/
theorem dispatch_of_ready {json : Json} (read : parse json = .ok message)
    (work : message.work? context = some (command, completion)) {world after : World φ η}
    {result : Bound} (evaluated : (command.evaluate context).run world = (.ok result, after))
    (ready : result.value.asDeferred? = none) :
    dispatch context json world =
      (.ok (.completed result.value), after.complete ⟨completion, .resolved result.value⟩) := by
  rw [dispatch_eq_execute read]
  exact execute_of_evaluated work evaluated (finish_of_ready ready after completion)

/-- **The rest of the work of a message does with a value what is to be done.** -/
theorem doneWith_complete (work : message.work? context = some (command, completion))
    (ready : value.asDeferred? = none) (moment : World φ η) :
    message.DoneWith context value moment
      (moment.complete ⟨completion, .resolved value⟩) where
  heap := World.heap_complete _ _
  outbox := by
    cases message with
    | exec => cases work; rfl
    | get => cases work; rfl
    | connect => cases work; rfl
    | disconnect => cases work
    | keepAlive => cases work
  cache := by
    cases message with
    | exec => cases work; rfl
    | get => cases work; rfl
    | connect => cases work; rfl
    | disconnect => cases work
    | keepAlive => cases work
  direct other _ _ evaluated :=
    execute_of_evaluated (work?_withCommand work other) evaluated (finish_of_ready ready _ _)

end Done

end Message

/-! ## The moment at which a deferred value is resolved -/

namespace World

/-- The world as it is, but for a deferred value that is bound and settled in it. -/
def withFinished (world : World φ η) (h : Handle .deferred) : World φ η :=
  match world.heap.deferred? h with
  | some d => { world with heap := world.heap.setDeferred h { d with state := .finished } }
  | none => world

section Runs

variable [HostObjects φ η] {world : World φ η} {h : Handle .deferred} {d : Deferred Completion}
  {completion : Completion}

/-- A run that is due when a deferred value is finished is done at that moment. -/
theorem proceed_eq_complete (found : world.heap.deferred? h = some d) (run : DueRun Completion) :
    world.proceed h ({ d with state := .finished }, some run) =
      (world.withFinished h).complete run := by
  unfold proceed withFinished
  rw [found]

/-- Binding a deferred value that is settled runs what is bound. -/
theorem bindDeferred_of_early (found : world.heap.deferred? h = some d) {settlement : Settlement}
    (early : d.state = .early settlement) :
    world.bindDeferred h completion =
      .ok ((world.withFinished h).complete ⟨completion, settlement⟩) := by
  unfold bindDeferred Deferred.bind
  rw [found]
  dsimp only
  rw [early]
  exact congrArg Except.ok (proceed_eq_complete found _)

/-- Settling a deferred value that waits runs what was bound. -/
theorem settle_of_waiting (found : world.heap.deferred? h = some d)
    (waits : d.state = .waiting completion) (settlement : Settlement) :
    world.settle h settlement =
      .ok ((world.withFinished h).complete ⟨completion, settlement⟩) := by
  unfold settle Deferred.settle
  rw [found]
  dsimp only
  rw [waits]
  exact congrArg Except.ok (proceed_eq_complete found _)

end Runs

/-! ## What was bound stays bound -/

/-- A completion was bound to a deferred value, and is there until it is settled. -/
inductive HasBound (world : World φ η) (h : Handle .deferred) (completion : Completion) : Prop where
  | waiting : world.state? h = some (.waiting completion) → HasBound world h completion
  | finished : world.state? h = some .finished → HasBound world h completion

namespace HasBound

variable {world after : World φ η} {h : Handle .deferred} {completion : Completion}

theorem congr (bound : world.HasBound h completion) (same : after.state? h = world.state? h) :
    after.HasBound h completion := by
  cases bound with
  | waiting state => exact .waiting (same.trans state)
  | finished state => exact .finished (same.trans state)

theorem exists_deferred (bound : world.HasBound h completion) :
    ∃ d, world.heap.deferred? h = some d ∧
      (d.state = .waiting completion ∨ d.state = .finished) := by
  cases bound with
  | waiting state =>
      obtain ⟨d, found, waits⟩ := Option.map_eq_some_iff.mp state
      exact ⟨d, found, .inl waits⟩
  | finished state =>
      obtain ⟨d, found, ended⟩ := Option.map_eq_some_iff.mp state
      exact ⟨d, found, .inr ended⟩

variable [HostObjects φ η]

/-- **The step lemma**: no deed takes away what was bound.  Binding again fails, and settling is the
end of it. -/
theorem does {deed : Deed} (bound : world.HasBound h completion) (does : world.Does deed after) :
    after.HasBound h completion := by
  obtain ⟨d, found, state⟩ := bound.exists_deferred
  have issued := lt_issued found
  cases does with
  | arrange deferreds cache outbox => exact bound.congr (state?_congr deferreds h)
  | speak envelope => exact bound.congr rfl
  | issue name settlement? => exact bound.congr (state?_withDeferred_of_lt _ _ issued)
  | @bind other _ d' next found' answer =>
      by_cases same : h = other
      · subst same
        obtain rfl : d = d' := Option.some.inj (found.symm.trans found')
        unfold Deferred.bind at answer
        rcases state with waits | ended
        · rw [waits] at answer
          cases answer
        · rw [ended] at answer
          cases answer
      · exact bound.congr (state?_proceed_of_ne same)
  | @settle other settlement d' next found' answer =>
      by_cases same : h = other
      · subst same
        obtain rfl : d = d' := Option.some.inj (found.symm.trans found')
        unfold Deferred.settle at answer
        rcases state with waits | ended
        · rw [waits] at answer
          cases answer
          exact .finished (state?_proceed_self issued)
        · rw [ended] at answer
          cases answer
      · exact bound.congr (state?_proceed_of_ne same)
  | store id value => exact bound.congr rfl
  | drop id => exact bound.congr rfl

/-- **The run lemma**: no stretch of deeds does. -/
theorem stretch {licence : Licence φ η} {deeds : List Deed} (bound : world.HasBound h completion)
    (stretch : world.Stretch licence deeds after) : after.HasBound h completion := by
  induction stretch with
  | refl => exact bound
  | tail _ _ does ih => exact ih.does does

/-- Settling a deferred value runs what was bound to it, if it was not settled before. -/
theorem settle_eq (bound : world.HasBound h completion) (unsettled : world.isUnsettled h = true)
    (settlement : Settlement) :
    world.settle h settlement =
      .ok ((world.withFinished h).complete ⟨completion, settlement⟩) := by
  cases bound with
  | waiting state =>
      obtain ⟨d, found, waits⟩ := Option.map_eq_some_iff.mp state
      exact settle_of_waiting found waits settlement
  | finished state =>
      rw [isUnsettled_of_finished state] at unsettled
      cases unsettled

end HasBound

end World

/-! ## A session is a stretch of deeds -/

/-- A licence for everything. -/
def Licence.any : Licence φ η := fun _ _ => True

theorem Licence.allowsPlain_any : (any : Licence φ η).AllowsPlain := fun _ _ _ => trivial

namespace World

variable [HostObjects φ η]

theorem Does.stretch {world after : World φ η} {deed : Deed} (does : world.Does deed after) :
    world.Stretch .any [deed] after :=
  .single trivial does

theorem exists_stretch_report (world : World φ η) (text : String) (id : Option String) :
    ∃ deeds, world.Stretch .any deeds (world.report text id) := by
  unfold report Outbox.report
  cases world.outbox.halted with
  | true => exact ⟨_, .refl⟩
  | false => exact ⟨_, Does.stretch (.speak _)⟩

theorem exists_stretch_complete (world : World φ η) (run : DueRun Completion) :
    ∃ deeds, world.Stretch .any deeds (world.complete run) := by
  obtain ⟨completion, settlement⟩ := run
  cases completion with
  | discard =>
      cases settlement with
      | resolved value => exact ⟨_, .refl⟩
      | rejected text => exact exists_stretch_report world text none
  | reply id depth =>
      cases settlement with
      | resolved value => exact ⟨_, Does.stretch (.speak _)⟩
      | rejected text => exact exists_stretch_report world text (some id)
  | store id =>
      cases settlement with
      | resolved value => exact ⟨_, Does.stretch (.store id value)⟩
      | rejected text => exact exists_stretch_report world text none

end World

namespace Message

/-- Finishing a message is a stretch of deeds. -/
theorem exists_stretch_finish [HostObjects φ η] (world : World φ η) (completion : Completion)
    (value : Value) : ∃ deeds, world.Stretch .any deeds (finish world completion value).2 := by
  cases ready : value.asDeferred? with
  | none =>
      rw [finish_of_ready ready]
      exact world.exists_stretch_complete _
  | some h =>
      obtain rfl : value = .deferred h := by
        cases value <;> cases ready
        rfl
      unfold finish
      dsimp only
      cases bound : world.bindDeferred h completion with
      | error error => exact ⟨_, .refl⟩
      | ok after =>
          rcases World.bindDeferred_cases bound with ⟨-, rfl⟩ | ⟨d, next, found, answer, rfl⟩
          · exact ⟨_, .refl⟩
          · exact ⟨_, World.Does.stretch (.bind found answer)⟩

/-- Executing a message is a stretch of deeds, once its command is evaluated. -/
theorem exists_stretch_execute [ObjectModel φ η] (context : Context) (message : Message)
    (world : World φ η) :
    ∃ deeds, (message.evaluated context world).Stretch .any deeds
      (message.execute context world).2 := by
  have ran : ∃ deeds, (message.evaluated context world).Stretch .any deeds
      (message.run context world).2 := by
    unfold evaluated run
    cases work : message.work? context with
    | none =>
        cases message with
        | disconnect id => exact ⟨_, World.Does.stretch (.drop id)⟩
        | keepAlive => exact ⟨_, .refl⟩
        | exec => cases work
        | get => cases work
        | connect => cases work
    | some work' =>
        obtain ⟨command, completion⟩ := work'
        dsimp only
        rcases (command.evaluate context).run world with ⟨error | bound, after⟩
        · exact ⟨_, .refl⟩
        · exact exists_stretch_finish after completion bound.value
  obtain ⟨-, unreported | ⟨error, -, reported⟩⟩ := execute_eq context message world
  · rw [unreported]
    exact ran
  · rw [reported]
    obtain ⟨deeds, stretch⟩ := ran
    obtain ⟨more, report⟩ :=
      (message.run context world).2.exists_stretch_report error.message message.replyId?
    exact ⟨_, stretch.trans report⟩

end Message

namespace Session

variable [ObjectModel φ η]

/-- What happens in a session is a stretch of deeds, if the application does nothing but deeds. -/
theorem exists_stretch_act [Licensed φ η (.any : Licence φ η)] (context : Context)
    (world : World φ η) (event : Event) :
    ∃ deeds, world.Stretch .any deeds (act context world event) := by
  obtain ⟨during, evaluating⟩ := exists_stretch .any context world event
  have rest : ∃ deeds, (evaluated context world event).Stretch .any deeds
      (act context world event) := by
    cases event with
    | dispatch json =>
        unfold evaluated act
        dsimp only
        cases read : Message.parse json with
        | error error =>
            rw [Message.dispatch_unread read]
            exact world.exists_stretch_report error.message none
        | ok message =>
            rw [Message.dispatch_eq_execute read]
            exact message.exists_stretch_execute context world
    | settle h settlement =>
        unfold evaluated act settled
        dsimp only
        cases result : world.settle h settlement with
        | error error => exact ⟨_, .refl⟩
        | ok after =>
            rcases World.settle_cases result with rfl | ⟨d, next, found, answer, rfl⟩
            · exact ⟨_, .refl⟩
            · exact ⟨_, World.Does.stretch (.settle found answer)⟩
  obtain ⟨more, onwards⟩ := rest
  exact ⟨_, evaluating.trans onwards⟩

theorem exists_stretch_acts [Licensed φ η (.any : Licence φ η)] (context : Context)
    (world : World φ η) (events : List Event) :
    ∃ deeds, world.Stretch .any deeds (events.foldl (act context) world) := by
  induction events generalizing world with
  | nil => exact ⟨[], .refl⟩
  | cons event rest ih =>
      obtain ⟨deeds, here⟩ := exists_stretch_act context world event
      obtain ⟨more, onwards⟩ := ih (act context world event)
      exact ⟨_, here.trans onwards⟩

end Session

/-! ## Late results -/

namespace Message

variable [ObjectModel φ η]

/-- **A result that comes late is as good as one that is there at once.**  If the command of a
message comes to a deferred value, the message does with what it is resolved with what it would have
done if its command had come to that at the moment at which it is resolved: it sends the same
envelopes and caches the same.  This is so if the deferred value was resolved before the message
binds it, and if it is resolved at any later point of the session, be it while a command is
evaluated; until then the message sends and caches nothing. -/
theorem deferred_eq_direct [Licensed φ η (.any : Licence φ η)] {context : Context}
    {message : Message} {command : Command} {completion : Completion} {origin world : World φ η}
    {receiver value : Value} {h : Handle .deferred} {d : Deferred Completion}
    (work : message.work? context = some (command, completion))
    (evaluated : (command.evaluate context).run origin = (.ok ⟨receiver, .deferred h⟩, world))
    (found : world.heap.deferred? h = some d) (ready : value.asDeferred? = none) :
    (d.state = .early (.resolved value) → ∃ after,
      message.execute context origin = (.ok (.deferred h), after) ∧
        message.DoneWith context value (world.withFinished h) after) ∧
      (d.state = .fresh → ∃ waiting,
        message.execute context origin = (.ok (.deferred h), waiting) ∧
          waiting.outbox = world.outbox ∧ waiting.cache = world.cache ∧
          ∀ (events : List Session.Event) (during : List Deed) (later : World φ η),
            (events.foldl (Session.act context) waiting).Stretch .any during later →
            later.isUnsettled h = true → ∃ after,
              later.settle h (.resolved value) = .ok after ∧
                message.DoneWith context value (later.withFinished h) after) := by
  refine ⟨fun early => ?_, fun fresh => ?_⟩
  · refine ⟨_, execute_of_evaluated work evaluated ?_, doneWith_complete work ready _⟩
    unfold finish
    dsimp only
    rw [World.bindDeferred_of_early found early]
  · obtain ⟨waiting, bound, state, outbox, cache⟩ : ∃ waiting,
        world.bindDeferred h completion = .ok waiting ∧
          waiting.state? h = some (.waiting completion) ∧
          waiting.outbox = world.outbox ∧ waiting.cache = world.cache := by
      refine ⟨world.proceed h ({ d with state := .waiting completion }, none), ?_,
        World.state?_proceed_self (World.lt_issued found), rfl, rfl⟩
      unfold World.bindDeferred Deferred.bind
      rw [found]
      dsimp only
      rw [fresh]
      rfl
    refine ⟨waiting, execute_of_evaluated work evaluated ?_, outbox, cache, ?_⟩
    · unfold finish
      dsimp only
      rw [bound]
    · intro events during later stretch unsettled
      obtain ⟨deeds, session⟩ := Session.exists_stretch_acts context waiting events
      have kept : later.HasBound h completion :=
        (World.HasBound.waiting state).stretch (session.trans stretch)
      exact ⟨_, kept.settle_eq unsettled _, doneWith_complete work ready _⟩

end Message

/-! ### A request and a reference -/

namespace Sample

instance : Licensed Method Object .any := licensed Licence.allowsPlain_any

/-- A command that calls a method of the root object. -/
def call (method : String) : Command :=
  .call (.get (.reference "root") (.literal (.string method))) []

/-- The world when a method of the root object was called. -/
def called (method : String) : SampleWorld := (((call method).evaluate context).run start.2.2).2

/-- What a method of the root object answers. -/
theorem evaluate_call {method : String} {value : Value}
    (answer : (((call method).evaluate context).run start.2.2).1 = .ok ⟨start.1, value⟩) :
    ((call method).evaluate context).run start.2.2 = (.ok ⟨start.1, value⟩, called method) := by
  rw [called, ← answer]
  exact (Prod.eta _).symm

end Sample

open Sample in
/-- A request is answered while it is executed, since its deferred value was resolved with null, and
a reference is cached when its deferred value is resolved. -/
theorem Message.deferred_eq_direct_of_sample :
    (∃ after : SampleWorld,
      (get "now" (call "ready") none).execute context start.2.2 = (.ok (.deferred ⟨0⟩), after) ∧
        after.outbox.sent = #[Envelope.reply "now" .null]) ∧
      ∃ waiting after : SampleWorld,
        (connect "slow" (call "later")).execute context start.2.2 =
            (.ok (.deferred ⟨0⟩), waiting) ∧
          Fields.find? "slow" waiting.cache = none ∧
          waiting.settle ⟨0⟩ (.resolved (.bool true)) = .ok after ∧
          Fields.find? "slow" after.cache = some (.bool true) := by
  have ready : ((call "ready").evaluate context).run start.2.2 =
      (.ok ⟨start.1, .deferred ⟨0⟩⟩, called "ready") :=
    evaluate_call (by decide +kernel)
  have later : ((call "later").evaluate context).run start.2.2 =
      (.ok ⟨start.1, .deferred ⟨0⟩⟩, called "later") :=
    evaluate_call (by decide +kernel)
  have settled : (called "ready").heap.deferred? ⟨0⟩ =
      some ⟨deferredName, .early (.resolved .null)⟩ := by
    decide +kernel
  have fresh : (called "later").heap.deferred? ⟨0⟩ = some ⟨deferredName, .fresh⟩ := by
    decide +kernel
  have request : (get "now" (call "ready") none).work? context =
      some (call "ready", .reply "now" 1) := rfl
  have reference : (connect "slow" (call "later")).work? context =
      some (call "later", .store "slow") := rfl
  have nullIsReady : Value.null.asDeferred? = none := rfl
  have trueIsReady : (Value.bool true).asDeferred? = none := rfl
  constructor
  · obtain ⟨after, executed, done⟩ := (deferred_eq_direct request ready settled nullIsReady).1 rfl
    refine ⟨after, executed, ?_⟩
    rw [done.outbox]
    decide +kernel
  · obtain ⟨waiting, executed, -, cache, onwards⟩ :=
      (deferred_eq_direct reference later fresh trueIsReady).2 rfl
    have unsettled :
        ((connect "slow" (call "later")).execute context start.2.2).2.isUnsettled ⟨0⟩ = true := by
      decide +kernel
    rw [executed] at unsettled
    obtain ⟨after, resolved, done⟩ := onwards [] [] waiting .refl unsettled
    refine ⟨waiting, after, executed, ?_, resolved, ?_⟩
    · rw [cache]
      decide +kernel
    · rw [done.cache]
      exact Fields.find?_insert_self _ _ _

end RemoteAgent
