import RemoteAgent.Proofs.LateResults

/-!
# How long a disconnected id stays unknown

DISCONNECT drops what is cached under an id, and does not look at who is still going to cache
something there.  A CONNECT that came before it may be waiting for a deferred value, and when that
is resolved the id is known again, without any new CONNECT.  So an id that was disconnected is
unknown until a CONNECT of it completes, and there are two kinds of these: those that are dispatched
afterwards, and those that waited already (`Session.missing_until_connected`).

The proof looks at one deed at a time, in two respects only: how far a deferred value has come, and
what is cached under the id.  `World.Does.course` and `World.Does.caches` say what a deed can do
there.  What is carried along the session is an account of the id (`Session.Account`): who waits to
cache something under it, with what the settled deferred values were settled, and why the id is
known, if it is.

## Main definitions

* `Deed.Course`: how far a deferred value comes by a deed.
* `Deed.Caches`: the deeds that cache a value under an id.
* `Session.Connects`: the CONNECTs of an id among some events, with their outcomes.
-/

namespace RemoteAgent

variable {φ η : Type}

/-! ## What one deed changes -/

/-- How far a deferred value comes by a deed. -/
inductive Deed.Course (h : Handle .deferred) (deed : Deed)
    (before : Option (Deferred.State Completion)) : Option (Deferred.State Completion) → Prop where
  | kept : Course h deed before before
  | issued : Course h deed before (some .fresh)
  | bound {completion : Completion} :
      deed = .bind h completion → Course h deed before (some (.waiting completion))
  | settled {settlement : Settlement} :
      deed.settlement? h = some settlement → Course h deed before (some (.early settlement))
  | finished : Course h deed before (some .finished)

/-- The deeds that cache a value under an id, in a world: the value is cached itself, or a deferred
value is resolved with it and the rest of a CONNECT is bound to it, in either order. -/
inductive Deed.Caches (world : World φ η) (id : String) (value : Value) : Deed → Prop where
  | stored : Caches world id value (.store id value)
  | bound {h : Handle .deferred} :
      world.state? h = some (.early (.resolved value)) → Caches world id value (.bind h (.store id))
  | settled {h : Handle .deferred} :
      world.state? h = some (.waiting (.store id)) →
      Caches world id value (.settle h (.resolved value))

namespace Deed.Course

variable {d : Deferred Completion} {next : Deferred Completion × Option (DueRun Completion)}

/-- Binding leaves a completion waiting, or runs it with what was there early. -/
theorem of_bind (h : Handle .deferred) {completion : Completion}
    (answer : d.bind completion = .ok next) :
    Course h (.bind h completion) (some d.state) (some next.1.state) := by
  unfold Deferred.bind at answer
  split at answer
  case h_1 =>
    cases answer
    exact .bound rfl
  case h_2 =>
    cases answer
    exact .finished
  case h_3 => cases answer
  case h_4 => cases answer

/-- Settling is early, or runs the completion that waits. -/
theorem of_settle (h : Handle .deferred) {settlement : Settlement}
    (answer : d.settle settlement = .ok next) :
    Course h (.settle h settlement) (some d.state) (some next.1.state) := by
  unfold Deferred.settle at answer
  split at answer
  case h_1 =>
    cases answer
    exact .settled (if_pos rfl)
  case h_2 =>
    cases answer
    exact .finished
  case h_3 => cases answer
  case h_4 => cases answer

end Deed.Course

/-- Only the rest of a CONNECT caches a value, and only when it is resolved. -/
theorem DueRun.eq_of_stored? {run : DueRun Completion} {id : String} {value : Value}
    (stored : run.stored? id = some value) : run = ⟨.store id, .resolved value⟩ := by
  obtain ⟨completion, settlement⟩ := run
  unfold stored? at stored
  split at stored
  case h_1 _ other found ready =>
    by_cases same : other = id
    · rw [if_pos same] at stored
      cases stored
      rw [ready, same]
    · rw [if_neg same] at stored
      cases stored
  case h_2 => cases stored

namespace World

theorem state?_eq_none {world : World φ η} {h : Handle .deferred}
    (beyond : world.issued ≤ h.index) : world.state? h = none := by
  unfold state? Heap.deferred? Store.get?
  rw [Array.getElem?_eq_none beyond]
  rfl

variable [HostObjects φ η] {world after : World φ η} {deed : Deed}

/-- **The step lemma for deferred values.** -/
theorem Does.course (does : world.Does deed after) (h : Handle .deferred) :
    deed.Course h (world.state? h) (after.state? h) := by
  cases does with
  | arrange deferreds cache outbox =>
      rw [state?_congr deferreds]
      exact .kept
  | speak envelope => exact .kept
  | store id value => exact .kept
  | drop id => exact .kept
  | issue name settlement? =>
      rcases Nat.lt_trichotomy h.index world.issued with old | new | unknown
      · rw [state?_withDeferred_of_lt _ _ old]
        exact .kept
      · obtain rfl : h = ⟨world.issued⟩ := congrArg Handle.mk new
        rw [state?_withDeferred_self]
        cases settlement? with
        | none => exact .issued
        | some settlement => exact .settled (if_pos rfl)
      · have beyond : (world.withDeferred ⟨name, .of none settlement?⟩).issued ≤ h.index := by
          rw [issued_withDeferred]
          exact unknown
        rw [state?_eq_none beyond, state?_eq_none (Nat.le_of_lt unknown)]
        exact .kept
  | @bind other completion d next found answer =>
      by_cases same : h = other
      · subst same
        rw [state?_eq_some found, state?_proceed_self (lt_issued found)]
        exact .of_bind h answer
      · rw [state?_proceed_of_ne same]
        exact .kept
  | @settle other settlement d next found answer =>
      by_cases same : h = other
      · subst same
        rw [state?_eq_some found, state?_proceed_self (lt_issued found)]
        exact .of_settle h answer
      · rw [state?_proceed_of_ne same]
        exact .kept

/-- **The step lemma for the cache**: what is cached was there before, or the deed has cached it. -/
theorem Does.caches (does : world.Does deed after) {id : String} {value : Value}
    (found : Fields.find? id after.cache = some value) :
    Fields.find? id world.cache = some value ∨ deed.Caches world id value := by
  cases does with
  | arrange deferreds cache outbox =>
      rw [cache] at found
      exact .inl found
  | speak envelope => exact .inl found
  | issue name settlement? => exact .inl found
  | @bind h completion d next issued answer =>
      rw [find?_cache_proceed] at found
      rcases Option.or_eq_some_iff.mp found with due | ⟨-, before⟩
      · obtain ⟨run, due, stored⟩ := Option.bind_eq_some_iff.mp due
        obtain rfl := DueRun.eq_of_stored? stored
        obtain ⟨rfl, early⟩ := Deferred.due_bind answer due
        refine .inr (.bound ?_)
        rw [state?_eq_some issued, early]
      · exact .inl before
  | @settle h settlement d next issued answer =>
      rw [find?_cache_proceed] at found
      rcases Option.or_eq_some_iff.mp found with due | ⟨-, before⟩
      · obtain ⟨run, due, stored⟩ := Option.bind_eq_some_iff.mp due
        obtain rfl := DueRun.eq_of_stored? stored
        obtain ⟨rfl, waiting⟩ := Deferred.due_settle answer due
        refine .inr (.settled ?_)
        rw [state?_eq_some issued, waiting]
      · exact .inl before
  | store other stored =>
      by_cases same : id = other
      · subst same
        rw [remember, Fields.find?_insert_self] at found
        cases found
        exact .inr .stored
      · rw [remember, Fields.find?_insert_of_ne same] at found
        exact .inl found
  | drop other =>
      by_cases same : id = other
      · subst same
        rw [forget, Fields.find?_erase_self] at found
        cases found
      · rw [forget, Fields.find?_erase_of_ne same] at found
        exact .inl found

/-- All deeds of a stretch were allowed. -/
theorem Stretch.allowed {licence : Licence φ η} {deeds : List Deed}
    (stretch : world.Stretch licence deeds after) (mem : deed ∈ deeds) :
    ∃ middle, licence middle deed := by
  induction stretch with
  | refl => cases mem
  | tail _ allowed _ ih =>
      rcases List.mem_cons.mp mem with rfl | earlier
      · exact ⟨_, allowed⟩
      · exact ih earlier

end World

/-! ## What a message does of its own -/

namespace Message

variable {context : Context} {message : Message} {world : World φ η}
  {result : Except AgentError Outcome} {id : String}

/-- What caches a value under an id of its own is a CONNECT of that id. -/
theorem connect_of_store {value : Value}
    (mem : .store id value ∈ message.deeds context world result) :
    (∃ command, message = .connect id command) ∧ result = .ok (.completed value) := by
  unfold deeds at mem
  split at mem
  · split at mem
    · cases List.mem_singleton.mp mem
      exact ⟨⟨_, rfl⟩, rfl⟩
    · cases List.mem_singleton.mp mem
    · cases mem
  · split at mem
    · split at mem
      · cases List.mem_singleton.mp mem
      · cases mem
    · cases mem
  · cases mem

/-- What leaves it to a deferred value to do so is one, too. -/
theorem connect_of_bind {h : Handle .deferred}
    (mem : .bind h (.store id) ∈ message.deeds context world result) :
    (∃ command, message = .connect id command) ∧ result = .ok (.deferred h) := by
  unfold deeds at mem
  split at mem
  · split at mem
    · cases List.mem_singleton.mp mem
    · cases List.mem_singleton.mp mem
    · cases mem
  · split at mem
    · rename_i work
      split at mem
      · cases List.mem_singleton.mp mem
        cases message <;> cases work
        exact ⟨⟨_, rfl⟩, rfl⟩
      · cases mem
    · cases mem
  · cases mem

/-- Finishing a message is a stretch of what it does of its own, but for what it sends. -/
theorem exists_stretch_deeds_finish [HostObjects φ η] {command : Command}
    {completion : Completion} (work : message.work? context = some (command, completion))
    (world : World φ η) (value : Value) :
    ∃ done,
      world.Stretch .any (message.deeds context world (finish world completion value).1) done ∧
        (finish world completion value).2.heap = done.heap ∧
        (finish world completion value).2.cache = done.cache := by
  cases ready : value.asDeferred? with
  | none =>
      rw [finish_of_ready ready]
      cases message with
      | exec => cases work; exact ⟨_, .refl, rfl, rfl⟩
      | get => cases work; exact ⟨_, .refl, rfl, rfl⟩
      | connect => cases work; exact ⟨_, World.Does.stretch (.store _ _), rfl, rfl⟩
      | disconnect => cases work
      | keepAlive => cases work
  | some h =>
      obtain rfl : value = .deferred h := by
        cases value <;> cases ready
        rfl
      unfold finish
      dsimp only
      cases bound : world.bindDeferred h completion with
      | error error => exact ⟨_, .refl, rfl, rfl⟩
      | ok after =>
          simp only [deeds, work]
          rcases World.bindDeferred_cases bound with ⟨missing, rfl⟩ | ⟨d, next, found, answer, rfl⟩
          · have beyond : ¬ h.index < after.issued :=
              Nat.not_lt.mpr (Array.getElem?_eq_none_iff.mp missing)
            rw [if_neg beyond]
            exact ⟨_, .refl, rfl, rfl⟩
          · rw [if_pos (World.lt_issued found)]
            exact ⟨_, World.Does.stretch (.bind found answer), rfl, rfl⟩

/-- And so is executing it, once its command is evaluated. -/
theorem exists_stretch_deeds [ObjectModel φ η] (context : Context) (message : Message)
    (world : World φ η) :
    ∃ done,
      (message.evaluated context world).Stretch .any
          (message.deeds context (message.evaluated context world)
            (message.execute context world).1) done ∧
        (message.execute context world).2.heap = done.heap ∧
        (message.execute context world).2.cache = done.cache := by
  have ran : ∃ done,
      (message.evaluated context world).Stretch .any
          (message.deeds context (message.evaluated context world)
            (message.run context world).1) done ∧
        (message.run context world).2.heap = done.heap ∧
        (message.run context world).2.cache = done.cache := by
    unfold evaluated run
    cases work : message.work? context with
    | none =>
        cases message with
        | disconnect id => exact ⟨_, World.Does.stretch (.drop id), rfl, rfl⟩
        | keepAlive => exact ⟨_, .refl, rfl, rfl⟩
        | exec => cases work
        | get => cases work
        | connect => cases work
    | some work' =>
        obtain ⟨command, completion⟩ := work'
        dsimp only
        rcases (command.evaluate context).run world with ⟨error | bound, after⟩
        · exact ⟨_, .refl, rfl, rfl⟩
        · exact exists_stretch_deeds_finish work after bound.value
  obtain ⟨same, unreported | ⟨error, -, reported⟩⟩ := execute_eq context message world
  · rw [same, unreported]
    exact ran
  · rw [same, reported]
    exact ran

end Message

/-! ## Who caches something under an id -/

/-- A deferred value was resolved, be it that it was issued so. -/
def Journal.Resolves (journal : Journal) (h : Handle .deferred) : Prop :=
  ∃ deed ∈ journal, ∃ value, deed.settlement? h = some (.resolved value)

/-- What a message came to when it was executed is there by now. -/
def Outcome.IsThere (journal : Journal) : Outcome → Prop
  | .completed _ => True
  | .deferred h => journal.Resolves h

theorem Journal.Resolves.later {journal : Journal} {h : Handle .deferred}
    (resolves : journal.Resolves h) (deeds : List Deed) :
    Journal.Resolves (deeds ++ journal) h := by
  obtain ⟨deed, mem, value, settled⟩ := resolves
  exact ⟨deed, List.mem_append_right _ mem, value, settled⟩

theorem Outcome.IsThere.later {journal : Journal} {outcome : Outcome}
    (there : outcome.IsThere journal) (deeds : List Deed) : outcome.IsThere (deeds ++ journal) := by
  cases outcome with
  | completed value => trivial
  | deferred h => exact Journal.Resolves.later there deeds

namespace Session

variable [ObjectModel φ η] {context : Context} {start gone world after : World φ η} {id : String}
  {events : List Event} {journal : RemoteAgent.Journal}

/-- Among the events there is a CONNECT of an id, and executing it had this outcome. -/
def Connects (context : Context) (start : World φ η) (events : List Event) (id : String)
    (outcome : Outcome) : Prop :=
  ∃ front json command rest, events = front ++ .dispatch json :: rest ∧
    Message.parse json = .ok (.connect id command) ∧
    (Message.dispatch context json (front.foldl (act context) start)).1 = .ok outcome

theorem Connects.append {outcome : Outcome} (connects : Connects context start events id outcome)
    (more : List Event) : Connects context start (events ++ more) id outcome := by
  obtain ⟨front, json, command, rest, rfl, read, executed⟩ := connects
  refine ⟨front, json, command, rest ++ more, ?_, read, executed⟩
  rw [List.append_assoc, List.cons_append]

/-- A CONNECT of an id has completed since the world was as it was: one that was dispatched since,
or one that waited then. -/
inductive Completed (context : Context) (gone : World φ η) (id : String) (events : List Event)
    (journal : RemoteAgent.Journal) : Prop where
  | dispatched {outcome : Outcome} :
      Connects context gone events id outcome → outcome.IsThere journal →
      Completed context gone id events journal
  | waiting {h : Handle .deferred} :
      gone.state? h = some (.waiting (.store id)) → journal.Resolves h →
      Completed context gone id events journal

theorem Completed.later (completed : Completed context gone id events journal)
    (more : List Event) (deeds : List Deed) :
    Completed context gone id (events ++ more) (deeds ++ journal) := by
  cases completed with
  | dispatched connects there => exact .dispatched (connects.append more) (there.later deeds)
  | waiting waits resolves => exact .waiting waits (resolves.later deeds)

/-- **An account of an id**, from a world on. -/
structure Account (context : Context) (gone : World φ η) (id : String) (events : List Event)
    (journal : RemoteAgent.Journal) (world : World φ η) : Prop where
  /-- Who waits to cache a value under the id has waited all the time, or is a CONNECT. -/
  waiting : ∀ h, world.state? h = some (.waiting (.store id)) →
    gone.state? h = some (.waiting (.store id)) ∨ Connects context gone events id (.deferred h)
  /-- What is settled early was settled by a deed in the journal. -/
  early : ∀ h settlement, world.state? h = some (.early settlement) →
    ∃ deed ∈ journal, deed.settlement? h = some settlement
  /-- If the id is known, it was known before, or a CONNECT has completed. -/
  cached : ∀ value, Fields.find? id world.cache = some value →
    (∃ value, Fields.find? id gone.cache = some value) ∨ Completed context gone id events journal

namespace Account

theorem congr (account : Account context gone id events journal world)
    (heap : after.heap = world.heap) (cache : after.cache = world.cache) :
    Account context gone id events journal after where
  waiting h waits := account.waiting h (by rwa [World.state?, heap] at waits)
  early h settlement settled := account.early h settlement (by rwa [World.state?, heap] at settled)
  cached value found := account.cached value (by rwa [cache] at found)

theorem append (account : Account context gone id events journal world) (more : List Event) :
    Account context gone id (events ++ more) journal world where
  waiting h waits := (account.waiting h waits).imp_right fun connects => connects.append more
  early := account.early
  cached value found :=
    (account.cached value found).imp_right fun completed => completed.later more []

/-- **The step lemma**: the account goes on with one more deed, if what caches something of its own
belongs to a CONNECT. -/
theorem does {deed : Deed} (account : Account context gone id events journal world)
    (does : world.Does deed after)
    (bound : ∀ h, deed = .bind h (.store id) → Connects context gone events id (.deferred h))
    (stored : ∀ value, deed = .store id value →
      Connects context gone events id (.completed value)) :
    Account context gone id events (deed :: journal) after where
  waiting h waits := by
    have course := does.course h
    rw [waits] at course
    generalize came : world.state? h = before at course
    cases course with
    | kept => exact account.waiting h came
    | bound binds => exact .inr (bound h binds)
  early h settlement settled := by
    have course := does.course h
    rw [settled] at course
    generalize came : world.state? h = before at course
    cases course with
    | kept =>
        obtain ⟨earlier, mem, settles⟩ := account.early h settlement came
        exact ⟨earlier, List.mem_cons_of_mem _ mem, settles⟩
    | settled settles => exact ⟨deed, List.mem_cons_self, settles⟩
  cached value found := by
    rcases does.caches found with before | caches
    · refine (account.cached value before).imp_right fun completed => ?_
      have later := completed.later [] [deed]
      rwa [List.append_nil] at later
    · refine .inr ?_
      cases caches with
      | stored => exact .dispatched (stored value rfl) trivial
      | @bound h early =>
          obtain ⟨earlier, mem, settles⟩ := account.early h _ early
          exact .dispatched (bound h rfl) ⟨earlier, List.mem_cons_of_mem _ mem, value, settles⟩
      | @settled h waits =>
          have resolves : RemoteAgent.Journal.Resolves (.settle h (.resolved value) :: journal) h :=
            ⟨_, List.mem_cons_self, value, if_pos rfl⟩
          rcases account.waiting h waits with waited | connects
          · exact .waiting waited resolves
          · exact .dispatched connects resolves

/-- **The run lemma for a stretch.** -/
theorem stretch {licence : Licence φ η} {deeds : List Deed}
    (account : Account context gone id events journal world)
    (stretch : world.Stretch licence deeds after)
    (bound : ∀ h, .bind h (.store id) ∈ deeds → Connects context gone events id (.deferred h))
    (stored : ∀ value, .store id value ∈ deeds →
      Connects context gone events id (.completed value)) :
    Account context gone id events (deeds ++ journal) after := by
  induction stretch with
  | refl => exact account
  | tail _ _ does ih =>
      have earlier := ih (fun h mem => bound h (List.mem_cons_of_mem _ mem))
        fun value mem => stored value (List.mem_cons_of_mem _ mem)
      refine earlier.does does ?_ ?_
      · rintro h rfl
        exact bound h List.mem_cons_self
      · rintro value rfl
        exact stored value List.mem_cons_self

/-- What is done during an evaluation belongs to no CONNECT, and caches nothing of its own. -/
theorem during {deeds : List Deed} (account : Account context gone id events journal world)
    (stretch : world.Stretch .uncached deeds after) :
    Account context gone id events (deeds ++ journal) after := by
  refine account.stretch stretch ?_ ?_
  · intro h mem
    obtain ⟨_, allowed⟩ := stretch.allowed mem
    exact allowed.elim
  · intro value mem
    obtain ⟨_, allowed⟩ := stretch.allowed mem
    exact allowed.elim

end Account

/-! ## Events -/

/-- What an attempt to settle a deferred value does is a stretch of its deeds: the one, if it comes
to that, or none. -/
theorem exists_stretch_settle (context : Context) (world : World φ η) (h : Handle .deferred)
    (settlement : Settlement) :
    ∃ done, world.Stretch .any (deeds context world (.settle h settlement)) done ∧
      (settled world h settlement).heap = done.heap ∧
      (settled world h settlement).cache = done.cache := by
  cases found : world.heap.deferred? h with
  | none =>
      have beyond : ¬ h.index < world.issued :=
        Nat.not_lt.mpr (Array.getElem?_eq_none_iff.mp found)
      have result : world.settle h settlement = .ok world := by simp [World.settle, found]
      have own : deeds context world (.settle h settlement) = [] :=
        if_neg fun both => beyond both.1
      rw [own, settled, result]
      exact ⟨world, .refl, rfl, rfl⟩
  | some d =>
      have result : world.settle h settlement = (d.settle settlement).map (world.proceed h) := by
        simp [World.settle, found]
      cases answer : d.settle settlement with
      | error error =>
          rw [answer] at result
          have own : deeds context world (.settle h settlement) = [] :=
            if_neg fun both => by
              rw [result] at both
              cases both.2
          rw [own, settled, result]
          exact ⟨world, .refl, rfl, rfl⟩
      | ok next =>
          rw [answer] at result
          have own : deeds context world (.settle h settlement) = [.settle h settlement] :=
            if_pos ⟨World.lt_issued found, by rw [result]; rfl⟩
          rw [own, settled, result]
          exact ⟨_, World.Does.stretch (.settle found answer), rfl, rfl⟩

/-- What an event does of its own is a stretch of deeds, but for what it sends. -/
theorem exists_stretch_deeds (context : Context) (world : World φ η) (event : Event) :
    ∃ done, (evaluated context world event).Stretch .any (deeds context world event) done ∧
      (act context world event).heap = done.heap ∧
      (act context world event).cache = done.cache := by
  cases event with
  | dispatch json =>
      unfold evaluated deeds act
      dsimp only
      cases read : Message.parse json with
      | error error =>
          rw [Message.dispatch_unread read]
          exact ⟨world, .refl, rfl, rfl⟩
      | ok message =>
          rw [Message.dispatch_eq_execute read]
          exact message.exists_stretch_deeds context world
  | settle h settlement => exact exists_stretch_settle context world h settlement

/-- What an event does of its own, if it is not a settlement, a message does. -/
theorem mem_deeds {event : Event} {deed : Deed} (mem : deed ∈ deeds context world event) :
    (∃ h settlement, deed = .settle h settlement) ∨
      ∃ json message, event = .dispatch json ∧ Message.parse json = .ok message ∧
        deed ∈ message.deeds context (message.evaluated context world)
          (Message.dispatch context json world).1 := by
  cases event with
  | settle h settlement =>
      simp only [deeds] at mem
      split at mem
      · exact .inl ⟨h, settlement, List.mem_singleton.mp mem⟩
      · cases mem
  | dispatch json =>
      simp only [deeds] at mem
      cases read : Message.parse json with
      | error error =>
          rw [read] at mem
          cases mem
      | ok message =>
          rw [read] at mem
          refine .inr ⟨json, message, rfl, read, ?_⟩
          rw [Message.dispatch_eq_execute read]
          exact mem

/-- An event that caches something of its own is a CONNECT. -/
theorem connects_of_store {event : Event} {value : Value}
    (mem : .store id value ∈ deeds context (events.foldl (act context) start) event) :
    Connects context start (events ++ [event]) id (.completed value) := by
  rcases mem_deeds mem with ⟨_, _, ⟨⟩⟩ | ⟨json, message, rfl, read, mem⟩
  obtain ⟨⟨command, rfl⟩, executed⟩ := Message.connect_of_store mem
  exact ⟨events, json, command, [], rfl, read, executed⟩

/-- And so is one that leaves it to a deferred value. -/
theorem connects_of_bind {event : Event} {h : Handle .deferred}
    (mem : .bind h (.store id) ∈ deeds context (events.foldl (act context) start) event) :
    Connects context start (events ++ [event]) id (.deferred h) := by
  rcases mem_deeds mem with ⟨_, _, ⟨⟩⟩ | ⟨json, message, rfl, read, mem⟩
  obtain ⟨⟨command, rfl⟩, executed⟩ := Message.connect_of_bind mem
  exact ⟨events, json, command, [], rfl, read, executed⟩

/-! ## Sessions -/

/-- **The run lemma**: a session can account for every id. -/
theorem Journal.account (written : Journal .uncached context gone events journal world) :
    Account context gone id events journal world := by
  induction written with
  | opening =>
      refine ⟨fun h waits => .inl waits, ?_, fun value found => .inl ⟨value, found⟩⟩
      intro h settlement settled
      obtain ⟨d, found, -⟩ := Option.map_eq_some_iff.mp settled
      have told := gone.settlement?_opening h
      rw [if_pos (World.lt_issued found), settled] at told
      exact List.exists_of_findSome?_eq_some told
  | @next events journal world event during written stretch ih =>
      obtain ⟨done, own, heap, cache⟩ := exists_stretch_deeds context world event
      have evaluated := (ih.during stretch).append [event]
      refine (evaluated.stretch own ?_ ?_).congr heap cache
      · intro h mem
        rw [written.world_eq] at mem
        exact connects_of_bind mem
      · intro value mem
        rw [written.world_eq] at mem
        exact connects_of_store mem

/-- Who waits to cache something under an id is a CONNECT of it, unless it has waited before the
session. -/
theorem connects_of_waiting [Licensed φ η (.uncached : Licence φ η)] {h : Handle .deferred}
    (idle : ∀ h id, start.state? h ≠ some (.waiting (.store id)))
    (waits : (events.foldl (act context) start).state? h = some (.waiting (.store id))) :
    Connects context start events id (.deferred h) := by
  obtain ⟨journal, written⟩ := exists_journal .uncached context start events
  rcases written.account.waiting h waits with waited | connects
  · exact absurd waited (idle h id)
  · exact connects

/-- A REFERENCE to an id that is unknown fails. -/
theorem run_reference (unknown : Fields.find? id world.cache = none) :
    ((Command.reference id).evaluate context).run world =
      (.error (.missingReference id), world) := by
  rw [Command.evaluate]
  have cached : ((Command.cached id : Eval φ η Value)).run world =
      (Eval.ofOption (.missingReference id) (Fields.find? id world.cache)).run world := rfl
  rw [unknown] at cached
  rw [Eval.run_bind, cached]
  rfl

/-- A DISCONNECT drops what is cached, and leaves deferred values alone. -/
theorem act_disconnect {json : Json} (read : Message.parse json = .ok (.disconnect id)) :
    act context world (.dispatch json) = world.forget id := by
  unfold act
  dsimp only
  rw [Message.dispatch_eq_execute read]
  rfl

/-- **A disconnected id is unknown until a CONNECT of it completes.**  An application leaves the
cache to the messages, and nothing waits to cache something when its session starts.  Whatever came
before a DISCONNECT of an id, and whatever is dispatched and settled afterwards, a REFERENCE to the
id fails, also in the middle of an evaluation, unless the result of a CONNECT of the id is there: of
one that was dispatched since, or of one that was dispatched before and waited for a deferred value
which has been resolved since. -/
theorem missing_until_connected [Licensed φ η (.uncached : Licence φ η)] (context : Context)
    {start : World φ η} (idle : ∀ h id, start.state? h ≠ some (.waiting (.store id)))
    (before : List Event) {json : Json} {id : String}
    (read : Message.parse json = .ok (.disconnect id)) (after : List Event) :
    let gone := (before ++ [Event.dispatch json]).foldl (act context) start
    (∃ journal world, Journal .uncached context gone after journal world) ∧
      ∀ journal world, Journal .uncached context gone after journal world →
        world = after.foldl (act context) gone ∧
          ∀ during later, world.Stretch .uncached during later →
            ((Command.reference id).evaluate context).run later =
                (.error (.missingReference id), later) ∨
              (∃ outcome, Connects context gone after id outcome ∧
                outcome.IsThere (during ++ journal)) ∨
              ∃ h, Connects context start before id (.deferred h) ∧
                gone.state? h = some (.waiting (.store id)) ∧
                RemoteAgent.Journal.Resolves (during ++ journal) h := by
  intro gone
  have gone_eq : gone = (before.foldl (act context) start).forget id := by
    show (before ++ [Event.dispatch json]).foldl (act context) start = _
    rw [List.foldl_append]
    exact act_disconnect read
  have unknown : Fields.find? id gone.cache = none := by
    rw [gone_eq]
    exact Fields.find?_erase_self _ _
  refine ⟨?_, fun journal world written => ⟨written.world_eq, fun during later stretch => ?_⟩⟩
  · obtain ⟨journal, written⟩ := exists_journal .uncached context gone after
    exact ⟨journal, _, written⟩
  · have account : Account context gone id after (during ++ journal) later :=
      written.account.during stretch
    cases found : Fields.find? id later.cache with
    | none => exact .inl (run_reference found)
    | some value =>
        rcases account.cached value found with ⟨_, known⟩ | ⟨connects, there⟩ | ⟨waits, resolves⟩
        · rw [unknown] at known
          cases known
        · exact .inr (.inl ⟨_, connects, there⟩)
        · refine .inr (.inr ⟨_, ?_, waits, resolves⟩)
          rw [gone_eq] at waits
          exact connects_of_waiting idle waits

/-! ### A CONNECT that waits -/

/-- Events without messages have no CONNECT among them. -/
theorem Connects.exists_dispatch {outcome : Outcome}
    (connects : Connects context start events id outcome) : ∃ json, .dispatch json ∈ events := by
  obtain ⟨front, json, command, rest, rfl, -⟩ := connects
  exact ⟨json, List.mem_append_right _ List.mem_cons_self⟩

end Session

namespace Sample

/-- A message that drops what is cached under an id. -/
def disconnect (id : String) : Json := .array [.string "D", .string id]

/-- What `later` has given out first is resolved. -/
def resolution : Session.Event := .settle ⟨0⟩ (.resolved (.bool true))

theorem not_connects_resolution {world : SampleWorld} {id : String} (outcome : Outcome) :
    ¬ Session.Connects context world [resolution] id outcome := by
  intro connects
  obtain ⟨json, mem⟩ := connects.exists_dispatch
  cases List.mem_singleton.mp mem

end Sample

open Sample in
/-- While one CONNECT waits, an id that was cached already is disconnected, and stays unknown when
the other one completes. -/
theorem Session.missing_until_connected_quick :
    let before := [connect "slow" "later", connect "quick" "nothing"]
    let gone := (before ++ [Session.Event.dispatch (disconnect "quick")]).foldl (act context)
      start.2.2
    let later := [resolution].foldl (act context) gone
    ((Command.reference "quick").evaluate context).run later =
      (.error (.missingReference "quick"), later) := by
  intro before gone later
  have idle : ∀ h id, start.2.2.state? h ≠ some (.waiting (.store id)) := by
    intro h id
    have none : start.2.2.issued = 0 := by decide +kernel
    rw [World.state?_eq_none (none ▸ Nat.zero_le _)]
    nofun
  have free : ∀ h, gone.state? h ≠ some (.waiting (.store "quick")) := by
    rintro ⟨index⟩
    have one : gone.issued = 1 := by decide +kernel
    cases index with
    | zero => decide +kernel
    | succ index =>
        rw [World.state?_eq_none (by rw [one]; exact Nat.succ_le_succ (Nat.zero_le index))]
        nofun
  have read : Message.parse (disconnect "quick") = .ok (.disconnect "quick") := rfl
  obtain ⟨⟨journal, world, written⟩, missing⟩ :=
    missing_until_connected context idle before read [resolution]
  obtain ⟨ended, missing⟩ := missing journal world written
  rcases missing [] world .refl with fails | ⟨outcome, connects, -⟩ | ⟨h, -, waits, -⟩
  · rw [ended] at fails
    exact fails
  · exact absurd connects (not_connects_resolution outcome)
  · exact absurd waits (free h)

open Sample in
/-- No message is needed for a disconnected id to be known again. -/
theorem Session.known_without_connect :
    let gone := [connect "slow" "later", .dispatch (disconnect "slow")].foldl (act context)
      start.2.2
    (((Command.reference "slow").evaluate context).run gone).1 =
        .error (.missingReference "slow") ∧
      (∀ outcome, ¬ Connects context gone [resolution] "slow" outcome) ∧
      (((Command.reference "slow").evaluate context).run (act context gone resolution)).1 =
        .ok ⟨start.1, .bool true⟩ := by
  intro gone
  refine ⟨?_, not_connects_resolution, ?_⟩
  · decide +kernel
  · decide +kernel

end RemoteAgent
