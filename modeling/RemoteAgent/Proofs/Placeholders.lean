import RemoteAgent.Proofs.LateResults
import RemoteAgent.Proofs.SampleConduct

/-!
# Deferred values that are resolved with deferred values

A command that comes to a deferred value leaves its message waiting, whichever way the command came
to it.  What the deferred value is resolved with is not looked at in this way: whatever it is, the
message is finished with it.  So of a chain of deferred values, each of them resolved with the next
one, only the first link counts (`Message.first_link_decides`).  A message that waits for it is
answered when the first link is resolved, with what that is resolved with; it is over then, and what
becomes of the other links makes no difference, be they settled before or after.

The value at the end of the chain is what the message gets if the chain is a single link.  If there
is a second one, a request is sent the rendering of a deferred value and a reference is cached to
one, and only a request that would show the final value in the same way cannot tell
(`Message.Overlooks`).  `Session.placeholder_is_final` is a session in which the difference shows.

## Main definitions

* `Value.resolution`: what the first link of a chain is resolved with.
* `Message.Served`: a message has sent and cached what is to be sent and cached for a value.
* `Message.Overlooks`: a message that shows a value as if it were deferred.
* `Message.Ended`: how a message ends that waited for the first link of a chain.
-/

namespace RemoteAgent

variable {φ η : Type}

/-- What the first link of a chain is resolved with: the second link, or else the value at the end
of the chain. -/
def Value.resolution (rest : List (Handle .deferred)) (final : Value) : Value :=
  match rest with
  | next :: _ => .deferred next
  | [] => final

/-- How a deferred value is rendered. -/
def Json.placeholder (depth : Int) : Json := if depth ≤ 0 then .null else .object []

theorem Value.toJson_deferred [HostObjects φ η] (heap : Heap φ η) (depth : Int)
    (h : Handle .deferred) : (Value.deferred h).toJson heap depth = Json.placeholder depth := by
  unfold toJson Json.placeholder
  split
  case isTrue shallow =>
    rw [Int.toNat_of_nonpos shallow]
    rfl
  case isFalse deep =>
    obtain ⟨levels, same⟩ := Nat.exists_eq_succ_of_ne_zero
      (fun none => deep (Int.toNat_eq_zero.mp none) : depth.toNat ≠ 0)
    rw [same]
    rfl

/-! ## A deferred value that is finished -/

namespace World

variable [HostObjects φ η] {world after : World φ η} {h : Handle .deferred}

/-- **What is finished stays finished**, whatever is done. -/
theorem finished_stretch {licence : Licence φ η} {deeds : List Deed}
    (finished : world.state? h = some .finished) (stretch : world.Stretch licence deeds after) :
    after.state? h = some .finished := by
  -- A finished deferred value has any completion bound, so there is none that it could wait with.
  have one : after.HasBound h .discard := (HasBound.finished finished).stretch stretch
  have two : after.HasBound h (.store "") := (HasBound.finished finished).stretch stretch
  cases one with
  | finished state => exact state
  | waiting state =>
      cases two with
      | finished state => exact state
      | waiting other =>
          rw [state] at other
          cases other

/-- Nothing can be done with it any more. -/
theorem over_of_finished (finished : world.state? h = some .finished) (settlement : Settlement)
    (completion : Completion) :
    world.settle h settlement = .error .alreadySettled ∧
      world.bindDeferred h completion = .error .alreadyBound := by
  obtain ⟨d, found, ended⟩ := Option.map_eq_some_iff.mp finished
  constructor
  · unfold settle Deferred.settle
    rw [found]
    dsimp only
    rw [ended]
    rfl
  · unfold bindDeferred Deferred.bind
    rw [found]
    dsimp only
    rw [ended]
    rfl

/-- Binding a deferred value that is neither bound nor settled changes nothing else. -/
theorem exists_bindDeferred_of_fresh {d : Deferred Completion}
    (found : world.heap.deferred? h = some d) (fresh : d.state = .fresh)
    (completion : Completion) :
    ∃ waiting, world.bindDeferred h completion = .ok waiting ∧
      waiting.state? h = some (.waiting completion) ∧ waiting.outbox = world.outbox ∧
      waiting.cache = world.cache := by
  refine ⟨world.proceed h ({ d with state := .waiting completion }, none), ?_,
    state?_proceed_self (lt_issued found), rfl, rfl⟩
  unfold bindDeferred Deferred.bind
  rw [found]
  dsimp only
  rw [fresh]
  rfl

omit [HostObjects φ η] in
theorem outbox_withFinished (world : World φ η) (h : Handle .deferred) :
    (world.withFinished h).outbox = world.outbox := by
  unfold withFinished
  split
  · rfl
  · rfl

omit [HostObjects φ η] in
theorem state?_withFinished {d : Deferred Completion} (found : world.heap.deferred? h = some d) :
    (world.withFinished h).state? h = some .finished := by
  unfold withFinished
  rw [found]
  unfold state? Heap.deferred?
  exact congrArg (Option.map _) (Store.get?_set_self (lt_issued found) _)

end World

/-! ## What is done with a value, deferred or not -/

namespace Message

section Served

variable [HostObjects φ η] {context : Context} {message : Message} {command : Command}
  {completion : Completion} {value other final : Value} {moment after : World φ η}

/-- A message has sent, at a moment, the envelopes that are due for a value, has cached what it
caches, and has done nothing else. -/
structure Served (context : Context) (message : Message) (value : Value)
    (moment after : World φ η) : Prop where
  heap : after.heap = moment.heap
  outbox : after.outbox =
    (message.envelopes context moment.heap value).foldl Outbox.emit moment.outbox
  cache : after.cache = message.cached moment.cache value

/-- The rest of the work of a message is done with any value. -/
theorem served_complete (work : message.work? context = some (command, completion))
    (value : Value) (moment : World φ η) :
    message.Served context value moment (moment.complete ⟨completion, .resolved value⟩) where
  heap := World.heap_complete _ _
  outbox := by
    cases message with
    | exec => cases work; rfl
    | get => cases work; rfl
    | connect => cases work; rfl
    | disconnect => cases work
    | keepAlive => cases work
  cache := by
    cases message with
    | exec => cases work; rfl
    | get => cases work; rfl
    | connect => cases work; rfl
    | disconnect => cases work
    | keepAlive => cases work

/-- A message shows a value, if it shows it at all, as it shows a deferred value. -/
def Overlooks (context : Context) (heap : Heap φ η) (value : Value) : Message → Prop
  | get _ _ depth =>
    value.toJson heap (depth.getD context.defaultDepth) =
      Json.placeholder (depth.getD context.defaultDepth)
  | connect _ _ => False
  | _ => True

/-- A message that was served a deferred value was served another value only if it overlooks the
difference. -/
theorem served_iff_overlooks {h : Handle .deferred}
    (served : message.Served context (.deferred h) moment after)
    (ready : final.asDeferred? = none) :
    message.Served context final moment after ↔ message.Overlooks context moment.heap final := by
  have same : message.Served context final moment after ↔
      (message.envelopes context moment.heap final).foldl Outbox.emit moment.outbox =
          (message.envelopes context moment.heap (.deferred h)).foldl Outbox.emit moment.outbox ∧
        message.cached moment.cache final = message.cached moment.cache (.deferred h) := by
    constructor
    · intro other
      exact ⟨other.outbox.symm.trans served.outbox, other.cache.symm.trans served.cache⟩
    · rintro ⟨outbox, cache⟩
      exact ⟨served.heap, served.outbox.trans outbox.symm, served.cache.trans cache.symm⟩
  rw [same]
  cases message with
  | exec command => exact ⟨fun _ => trivial, fun _ => ⟨rfl, rfl⟩⟩
  | disconnect id => exact ⟨fun _ => trivial, fun _ => ⟨rfl, rfl⟩⟩
  | keepAlive => exact ⟨fun _ => trivial, fun _ => ⟨rfl, rfl⟩⟩
  | get id command depth =>
      show _ ↔ final.toJson moment.heap (depth.getD context.defaultDepth) = Json.placeholder _
      rw [← Value.toJson_deferred moment.heap _ h]
      constructor
      · rintro ⟨outbox, -⟩
        have sent := congrArg Outbox.sent outbox
        have envelope := (Array.push_eq_push.mp sent).1
        unfold Envelope.reply at envelope
        simpa using envelope
      · intro shown
        exact ⟨congrArg (fun json => moment.outbox.emit (Envelope.reply id json)) shown, rfl⟩
  | connect id command =>
      constructor
      · rintro ⟨-, cache⟩
        have found := congrArg (Fields.find? id) cache
        unfold cached at found
        dsimp only at found
        rw [Fields.find?_insert_self, Fields.find?_insert_self] at found
        cases found
        cases ready
      · exact False.elim

end Served

/-! ## Chains -/

section Chains

variable [ObjectModel φ η] {context : Context} {message : Message} {command : Command}
  {completion : Completion} {rest : List (Handle .deferred)} {final : Value}

/-- How a message ends that waited for the deferred value `h`, which is followed in its chain by
`rest` and at the end by `final`. -/
structure Ended (context : Context) (message : Message) (h : Handle .deferred)
    (rest : List (Handle .deferred)) (final : Value) (moment after : World φ η) : Prop where
  /-- It gets what the first link is resolved with. -/
  first : message.Served context (.resolution rest final) moment after
  /-- It gets the final value if there is no other link, or if it cannot tell. -/
  last : message.Served context final moment after ↔
    rest = [] ∨ message.Overlooks context moment.heap final
  /-- It gets nothing else: the first link is over, whatever happens to the others. -/
  nothingElse : ∀ (events : List Session.Event) (settlement : Settlement) (completion : Completion),
    (events.foldl (Session.act context) after).settle h settlement = .error .alreadySettled ∧
      (events.foldl (Session.act context) after).bindDeferred h completion = .error .alreadyBound

theorem served_final_iff {moment after : World φ η}
    (served : message.Served context (.resolution rest final) moment after)
    (ready : final.asDeferred? = none) :
    message.Served context final moment after ↔
      rest = [] ∨ message.Overlooks context moment.heap final := by
  cases rest with
  | nil => exact ⟨fun _ => .inl rfl, fun _ => served⟩
  | cons next more =>
      rw [served_iff_overlooks served ready]
      exact ⟨.inr, fun either => either.resolve_left (List.cons_ne_nil _ _)⟩

variable [Licensed φ η (.any : Licence φ η)]

/-- Finishing the work of a message with what the first link is resolved with is how it ends. -/
theorem ended_complete (work : message.work? context = some (command, completion))
    {h : Handle .deferred} {d : Deferred Completion} {world : World φ η}
    (found : world.heap.deferred? h = some d) (ready : final.asDeferred? = none) :
    message.Ended context h rest final (world.withFinished h)
      ((world.withFinished h).complete ⟨completion, .resolved (.resolution rest final)⟩) := by
  have served := served_complete work (.resolution rest final) (world.withFinished h)
  refine ⟨served, served_final_iff served ready, ?_⟩
  intro events settlement other
  have finished : ((world.withFinished h).complete
      ⟨completion, .resolved (.resolution rest final)⟩).state? h = some .finished :=
    (World.state?_congr (congrArg Heap.deferreds served.heap) h).trans
      (World.state?_withFinished found)
  obtain ⟨deeds, stretch⟩ := Session.exists_stretch_acts context
    ((world.withFinished h).complete ⟨completion, .resolved (.resolution rest final)⟩) events
  exact World.over_of_finished (World.finished_stretch finished stretch) settlement other

variable (rest) in
/-- **The first link decides.**  If the command of a message comes to the first of a chain of
deferred values, the message ends with what that one is resolved with, when it binds it or at any
later point of the session, be it while a command is evaluated; until then it sends and caches
nothing, and afterwards nothing more.  It ends with the value at the end of the chain exactly if
there is no second link or the message overlooks the difference. -/
theorem first_link_decides {origin world : World φ η} {receiver : Value} {h : Handle .deferred}
    {d : Deferred Completion} (work : message.work? context = some (command, completion))
    (evaluated : (command.evaluate context).run origin = (.ok ⟨receiver, .deferred h⟩, world))
    (found : world.heap.deferred? h = some d) (ready : final.asDeferred? = none) :
    (d.state = .early (.resolved (.resolution rest final)) → ∃ after,
      message.execute context origin = (.ok (.deferred h), after) ∧
        message.Ended context h rest final (world.withFinished h) after) ∧
      (d.state = .fresh → ∃ waiting,
        message.execute context origin = (.ok (.deferred h), waiting) ∧
          waiting.outbox = world.outbox ∧ waiting.cache = world.cache ∧
          ∀ (events : List Session.Event) (during : List Deed) (later : World φ η),
            (events.foldl (Session.act context) waiting).Stretch .any during later →
            later.isUnsettled h = true → ∃ after,
              later.settle h (.resolved (.resolution rest final)) = .ok after ∧
                message.Ended context h rest final (later.withFinished h) after) := by
  refine ⟨fun early => ?_, fun fresh => ?_⟩
  · refine ⟨_, execute_of_evaluated work evaluated ?_, ended_complete work found ready⟩
    unfold finish
    dsimp only
    rw [World.bindDeferred_of_early found early]
  · obtain ⟨waiting, bound, state, outbox, cache⟩ := World.exists_bindDeferred_of_fresh found fresh
      completion
    refine ⟨waiting, execute_of_evaluated work evaluated ?_, outbox, cache, ?_⟩
    · unfold finish
      dsimp only
      rw [bound]
    · intro events during later stretch unsettled
      obtain ⟨deeds, session⟩ := Session.exists_stretch_acts context waiting events
      have kept : later.HasBound h completion :=
        (World.HasBound.waiting state).stretch (session.trans stretch)
      obtain ⟨d, there, -⟩ := kept.exists_deferred
      exact ⟨_, kept.settle_eq unsettled _, ended_complete work there ready⟩

end Chains

end Message

/-! ### A request and a reference that wait for one deferred value each -/

namespace Sample

/-- A command that calls a method of the root object, as a message has it. -/
def calling (method : String) : Json :=
  .array [.string "C", .array [.string "G", .array [.string "R", .string "root"],
    .array [.string "L", .string method]], .array []]

/-- A third deferred value is put into an array, and no message waits for it. -/
def issuing : Session.Event :=
  .dispatch (.array [.string "E", .array [.string "SQ", .array [calling "later"]]])

/-- A request and a reference wait for a deferred value each, and both of these are resolved with a
third one, which is resolved in turn. -/
def chained : List Session.Event :=
  [request "now" "later",
    .dispatch (.array [.string "C", .string "slow", calling "later"]),
    issuing,
    .settle ⟨0⟩ (.resolved (.deferred ⟨2⟩)),
    .settle ⟨1⟩ (.resolved (.deferred ⟨2⟩)),
    .settle ⟨2⟩ (.resolved (.bool true))]

end Sample

open Sample in
/-- A request is resolved with the deferred value that another message has come to.  Whatever that
one is resolved with, the request has ended. -/
theorem Message.first_link_decides_of_sample :
    ∃ waiting after : SampleWorld,
      (get "now" (call "later") none).execute context start.2.2 = (.ok (.deferred ⟨0⟩), waiting) ∧
        World.settle ([issuing].foldl (Session.act context) waiting) ⟨0⟩
          (.resolved (.deferred ⟨1⟩)) = .ok after ∧
        after.outbox.sent = #[Envelope.reply "now" (.object [])] ∧
        Message.Ended context (get "now" (call "later") none) ⟨0⟩ [⟨1⟩] (.bool true)
          (World.withFinished ([issuing].foldl (Session.act context) waiting) ⟨0⟩) after := by
  have later : ((call "later").evaluate context).run start.2.2 =
      (.ok ⟨start.1, .deferred ⟨0⟩⟩, called "later") :=
    evaluate_call (by decide +kernel)
  have fresh : (called "later").heap.deferred? ⟨0⟩ = some ⟨deferredName, .fresh⟩ := by
    decide +kernel
  have work : (get "now" (call "later") none).work? context =
      some (call "later", .reply "now" 1) := rfl
  have trueIsReady : (Value.bool true).asDeferred? = none := rfl
  obtain ⟨waiting, executed, -, -, onwards⟩ :=
    (first_link_decides [⟨1⟩] work later fresh trueIsReady).2 rfl
  have unsettled : ([issuing].foldl (Session.act context)
      ((get "now" (call "later") none).execute context start.2.2).2).isUnsettled ⟨0⟩ = true := by
    decide +kernel
  have sent : ([issuing].foldl (Session.act context)
      ((get "now" (call "later") none).execute context start.2.2).2).outbox.sent = #[] := by
    decide +kernel
  rw [executed] at unsettled sent
  obtain ⟨after, resolved, ended⟩ := onwards [issuing] [] _ .refl unsettled
  refine ⟨waiting, after, executed, resolved, ?_, ended⟩
  rw [ended.first.outbox]
  show (World.withFinished _ _).outbox.sent.push (Envelope.reply "now" _) = _
  rw [World.outbox_withFinished, sent, Value.resolution, Value.toJson_deferred]
  rfl

open Sample in
/-- The request is answered with the rendering of a deferred value, the reference is a deferred
value, and both stay so when the chain has come to its end. -/
theorem Session.placeholder_is_final :
    (chained.foldl (Session.act context) start.2.2).outbox.sent =
        #[Envelope.reply "now" (.object [])] ∧
      Fields.find? "slow" (chained.foldl (Session.act context) start.2.2).cache =
        some (.deferred ⟨2⟩) ∧
      (chained.foldl (Session.act context) start.2.2).state? ⟨2⟩ =
        some (.early (.resolved (.bool true))) := by
  decide +kernel

end RemoteAgent
