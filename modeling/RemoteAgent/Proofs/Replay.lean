import Mathlib.Data.List.Induction
import RemoteAgent.Proofs.Requests

/-!
# The cache replays what was completed

What is cached under an id is decided by messages that come in, by deferred values that are settled
later, and by code of the application that settles them while a command is evaluated.  All of this
is written into one journal of deeds, and from the journal alone, without a world, it can be read
what is cached: `Journal.cached?` goes back to the last deed that changed the entry.

Which deeds those are depends on deeds before them.  Settling a deferred value changes an entry if
the rest of a message that caches was bound to it before; binding such a rest changes an entry if
the deferred value was resolved before.  So the journal is also asked what was bound to a deferred
value and what it was settled with.  `Journal.Tells` says that a journal gives the right answers,
and `Journal.Tells.does` that it still does after one more deed.

The journal of a session (`Session.Journal`) holds what messages do of their own, once their command
was evaluated, and what was done during the evaluation.  An application may do there what it likes,
but it leaves the cache to the messages (`Licence.uncached`).

## Main definitions

* `Journal.cached?`: what is cached under an id, by a journal.
* `Session.Journal`: the journal of a session.
* `Session.Event.SparesCache`: what has nothing to cache.
-/

namespace RemoteAgent

variable {φ η : Type}

/-! ## Reading a journal -/

namespace Deed

/-- The work that a deed binds to a deferred value. -/
def completion? (h : Handle .deferred) : Deed → Option Completion
  | .bind other completion => if other = h then some completion else none
  | _ => none

/-- What a deed settles a deferred value with, be it that it was issued so. -/
def settlement? (h : Handle .deferred) : Deed → Option Settlement
  | .settle other settlement => if other = h then some settlement else none
  | .issue other settlement? => if other = h then settlement? else none
  | _ => none

end Deed

/-- What was done, the last deed first. -/
abbrev Journal := List Deed

namespace Journal

/-- The work that was bound to a deferred value. -/
def completion? (journal : Journal) (h : Handle .deferred) : Option Completion :=
  journal.findSome? (Deed.completion? h)

/-- What a deferred value was settled with. -/
def settlement? (journal : Journal) (h : Handle .deferred) : Option Settlement :=
  journal.findSome? (Deed.settlement? h)

/-- How a deed changes the entry of an id, if it does: what is cached now, or that nothing is. -/
def change? (id : String) (earlier : Journal) : Deed → Option (Option Value)
  | .store other value => if other = id then some (some value) else none
  | .drop other => if other = id then some none else none
  | .settle h (.resolved value) =>
    if earlier.completion? h = some (.store id) then some (some value) else none
  | .bind h (.store other) =>
    match earlier.settlement? h with
    | some (.resolved value) => if other = id then some (some value) else none
    | _ => none
  | _ => none

/-- What is cached under an id: what the last deed that changed the entry made of it. -/
def cached? (id : String) : Journal → Option Value
  | [] => none
  | deed :: earlier => (change? id earlier deed).getD (cached? id earlier)

/-- What looking an id up comes to. -/
def lookup (id : String) (journal : Journal) : Except EvalError Value :=
  match journal.cached? id with
  | some value => .ok value
  | none => .error (.missingReference id)

theorem completion?_cons (deed : Deed) (journal : Journal) (h : Handle .deferred) :
    Journal.completion? (deed :: journal) h = (deed.completion? h).or (journal.completion? h) := by
  unfold Journal.completion?
  rw [List.findSome?_cons]
  cases deed.completion? h <;> rfl

theorem settlement?_cons (deed : Deed) (journal : Journal) (h : Handle .deferred) :
    Journal.settlement? (deed :: journal) h = (deed.settlement? h).or (journal.settlement? h) := by
  unfold Journal.settlement?
  rw [List.findSome?_cons]
  cases deed.settlement? h <;> rfl

end Journal

/-! ## What a run that is due does to the cache -/

/-- The value that a run caches under an id. -/
def DueRun.stored? (id : String) : DueRun Completion → Option Value
  | ⟨.store other, .resolved value⟩ => if other = id then some value else none
  | _ => none

namespace DueRun

variable {run : DueRun Completion}

/-- A rejection caches nothing. -/
theorem stored?_of_rejected {text : String}
    (rejected : run.settlement = .rejected text) (id : String) : run.stored? id = none := by
  obtain ⟨completion, settlement⟩ := run
  cases rejected
  cases completion <;> rfl

/-- Work other than caching caches nothing. -/
theorem stored?_of_ne (other : ∀ id, run.continuation ≠ .store id)
    (id : String) : run.stored? id = none := by
  obtain ⟨completion, settlement⟩ := run
  cases completion with
  | store key => exact absurd rfl (other key)
  | _ => cases settlement <;> rfl

end DueRun

namespace World

variable [HostObjects φ η]

/-- A run that caches no value leaves the cache alone. -/
theorem cache_complete (world : World φ η) {run : DueRun Completion}
    (silent : ∀ id, run.stored? id = none) : (world.complete run).cache = world.cache := by
  obtain ⟨completion, settlement⟩ := run
  cases settlement with
  | rejected text => cases completion <;> rfl
  | resolved value =>
      cases completion with
      | discard => rfl
      | reply other depth => rfl
      | store other =>
          have stored := silent other
          simp [DueRun.stored?] at stored

theorem cache_proceed (world : World φ η) (h : Handle .deferred)
    {next : Deferred Completion × Option (DueRun Completion)}
    (silent : ∀ run, next.2 = some run → ∀ id, run.stored? id = none) :
    (world.proceed h next).cache = world.cache := by
  obtain ⟨d, due⟩ := next
  cases due with
  | none => rfl
  | some run => exact cache_complete _ (silent run rfl)

theorem find?_cache_complete (world : World φ η) (run : DueRun Completion) (id : String) :
    Fields.find? id (world.complete run).cache =
      (run.stored? id).or (Fields.find? id world.cache) := by
  obtain ⟨completion, settlement⟩ := run
  cases settlement with
  | rejected text => cases completion <;> rfl
  | resolved value =>
      cases completion with
      | discard => rfl
      | reply other depth => rfl
      | store other =>
          by_cases same : other = id
          · subst same
            simp [complete, remember, DueRun.stored?]
          · simp [complete, remember, DueRun.stored?, same,
              Fields.find?_insert_of_ne (Ne.symm same)]

theorem find?_cache_proceed (world : World φ η) (h : Handle .deferred)
    (next : Deferred Completion × Option (DueRun Completion)) (id : String) :
    Fields.find? id (world.proceed h next).cache =
      (next.2.bind (DueRun.stored? id)).or (Fields.find? id world.cache) := by
  obtain ⟨d, due⟩ := next
  cases due with
  | none => rfl
  | some run => exact find?_cache_complete _ run id

end World

/-! ## Calls as deeds -/

/-- A call of a deferred value as a deed. -/
def Deed.ofCall (h : Handle .deferred) : Deferred.Call Completion → Deed
  | .bind completion => .bind h completion
  | .settle settlement => .settle h settlement

section Calls

variable {h other : Handle .deferred} {call : Deferred.Call Completion}
  {completion? : Option Completion} {settlement? : Option Settlement}

theorem Deed.completion?_ofCall_self (h : Handle .deferred) (call : Deferred.Call Completion) :
    (Deed.ofCall h call).completion? h = call.continuation? := by
  cases call <;> simp [ofCall, Deed.completion?, Deferred.Call.continuation?]

theorem Deed.settlement?_ofCall_self (h : Handle .deferred) (call : Deferred.Call Completion) :
    (Deed.ofCall h call).settlement? h = call.settlement? := by
  cases call <;> simp [ofCall, Deed.settlement?, Deferred.Call.settlement?]

theorem Deed.completion?_ofCall_of_ne (ne : h ≠ other) :
    (Deed.ofCall h call).completion? other = none := by
  cases call <;> simp [ofCall, Deed.completion?, ne]

theorem Deed.settlement?_ofCall_of_ne (ne : h ≠ other) :
    (Deed.ofCall h call).settlement? other = none := by
  cases call <;> simp [ofCall, Deed.settlement?, ne]

/-- For a new call it makes no difference on which side it is added. -/
theorem Deferred.Call.or_comm (call : Deferred.Call Completion)
    (new : call.IsNew completion? settlement?) :
    call.continuation?.or completion? = completion?.or call.continuation? ∧
      call.settlement?.or settlement? = settlement?.or call.settlement? := by
  cases call with
  | bind completion =>
      obtain rfl : completion? = none := new
      simp [continuation?, Deferred.Call.settlement?]
  | settle settlement =>
      obtain rfl : settlement? = none := new
      simp [continuation?, Deferred.Call.settlement?]

/-- A new call changes an entry if a run is due by it that caches a value. -/
theorem Journal.change?_ofCall (id : String) {journal : Journal}
    (new : call.IsNew (journal.completion? h) (journal.settlement? h)) :
    change? id journal (.ofCall h call) =
      ((Deferred.due? ((journal.completion? h).or call.continuation?)
        ((journal.settlement? h).or call.settlement?)).bind (DueRun.stored? id)).map some := by
  cases call with
  | bind completion =>
      have none : journal.completion? h = none := new
      cases completion <;> rcases settled : journal.settlement? h with _ | ⟨_ | _⟩ <;>
        simp [change?, Deed.ofCall, Deferred.due?, DueRun.stored?, none, settled,
          Deferred.Call.continuation?, Deferred.Call.settlement?]
  | settle settlement =>
      have none : journal.settlement? h = none := new
      cases settlement <;> rcases bound : journal.completion? h with _ | ⟨_ | _ | _⟩ <;>
        simp [change?, Deed.ofCall, Deferred.due?, DueRun.stored?, none, bound,
          Deferred.Call.continuation?, Deferred.Call.settlement?]

end Calls

/-! ## A journal tells a world -/

/-- A journal tells how far each deferred value has come, and what is cached. -/
structure Journal.Tells (journal : Journal) (world : World φ η) : Prop where
  /-- The state of a deferred value comes of what was bound to it and what it was settled with. -/
  state : ∀ h : Handle .deferred, h.index < world.issued →
    world.state? h = some (.of (journal.completion? h) (journal.settlement? h))
  /-- A deferred value that was not issued is not in the journal. -/
  unknown : ∀ h : Handle .deferred, world.issued ≤ h.index →
    journal.completion? h = none ∧ journal.settlement? h = none
  /-- What is cached is what the journal says. -/
  cache : ∀ id, Fields.find? id world.cache = journal.cached? id

namespace Journal.Tells

variable {journal : Journal} {world after : World φ η}

/-- What a journal tells does not depend on anything else in the world. -/
theorem congr (tells : journal.Tells world)
    (deferreds : after.heap.deferreds = world.heap.deferreds) (cache : after.cache = world.cache) :
    journal.Tells after where
  state h issued := by
    rw [World.state?_congr deferreds]
    exact tells.state h (by rwa [World.issued, deferreds] at issued)
  unknown h beyond := tells.unknown h (by rwa [World.issued, deferreds] at beyond)
  cache id := by
    rw [cache]
    exact tells.cache id

/-- A deed that has nothing to do with deferred values and the cache is told by being there. -/
theorem cons_of_silent (tells : journal.Tells world) {deed : Deed}
    (completion : ∀ h, deed.completion? h = none) (settlement : ∀ h, deed.settlement? h = none)
    (change : ∀ id, change? id journal deed = none) : Journal.Tells (deed :: journal) world where
  state h issued := by
    rw [completion?_cons, settlement?_cons, completion h, settlement h]
    exact tells.state h issued
  unknown h beyond := by
    rw [completion?_cons, settlement?_cons, completion h, settlement h]
    exact tells.unknown h beyond
  cache id := by
    rw [cached?, change id]
    exact tells.cache id

/-- A deferred value that is issued is bound to nothing, and settled as the deed says. -/
theorem issue (tells : journal.Tells world) (name : String) (settlement? : Option Settlement) :
    Journal.Tells (.issue ⟨world.issued⟩ settlement? :: journal)
      (world.withDeferred ⟨name, .of none settlement?⟩) := by
  refine ⟨fun h issued => ?_, fun h beyond => ?_, tells.cache⟩
  · rw [World.issued_withDeferred] at issued
    rw [completion?_cons, settlement?_cons]
    -- The handle is that of an old deferred value, or of the new one.
    rcases Nat.lt_or_eq_of_le (Nat.le_of_lt_succ issued) with old | new
    · have other : (⟨world.issued⟩ : Handle .deferred) ≠ h := by
        rintro rfl
        exact Nat.lt_irrefl _ old
      rw [World.state?_withDeferred_of_lt _ _ old, tells.state h old]
      simp [Deed.completion?, Deed.settlement?, other]
    · obtain rfl : h = ⟨world.issued⟩ := congrArg Handle.mk new
      obtain ⟨unbound, unsettled⟩ := tells.unknown ⟨world.issued⟩ (Nat.le_refl _)
      rw [World.state?_withDeferred_self, unbound, unsettled]
      simp [Deed.completion?, Deed.settlement?]
  · rw [World.issued_withDeferred] at beyond
    have other : (⟨world.issued⟩ : Handle .deferred) ≠ h := by
      rintro rfl
      exact Nat.not_succ_le_self _ beyond
    obtain ⟨unbound, unsettled⟩ := tells.unknown h (Nat.le_of_succ_le beyond)
    rw [completion?_cons, settlement?_cons, unbound, unsettled]
    simp [Deed.completion?, Deed.settlement?, other]

/-- Looking an id up comes to what the journal says. -/
theorem run_cached (tells : journal.Tells world) (id : String) :
    (Command.cached id).run world = (journal.lookup id, world) := by
  have cached : (Command.cached id).run world = (Eval.ofOption (.missingReference id)
      (Fields.find? id world.cache) : Eval φ η Value).run world := rfl
  rw [cached, tells.cache id, Journal.lookup]
  cases journal.cached? id <;> rfl

variable [HostObjects φ η]

/-- A call of a deferred value is told as the deed that it is: a run that is due caches what the
journal says. -/
theorem proceed (tells : journal.Tells world) {h : Handle .deferred} {d : Deferred Completion}
    {call : Deferred.Call Completion} {next : Deferred Completion × Option (DueRun Completion)}
    (found : world.heap.deferred? h = some d) (answer : d.call call = .ok next) :
    Journal.Tells (.ofCall h call :: journal) (world.proceed h next) := by
  have issued := World.lt_issued found
  have state : d.state = .of (journal.completion? h) (journal.settlement? h) := by
    have told := tells.state h issued
    rw [World.state?_eq_some found] at told
    exact Option.some.inj told
  obtain ⟨new, result⟩ | ⟨-, result⟩ := Deferred.call_of_state_eq state call
  · rw [answer] at result
    obtain rfl := Except.ok.inj result
    obtain ⟨completion, settlement⟩ := call.or_comm new
    refine ⟨fun other known => ?_, fun other beyond => ?_, fun id => ?_⟩
    · rw [completion?_cons, settlement?_cons]
      by_cases same : other = h
      · subst same
        rw [World.state?_proceed_self issued, Deed.completion?_ofCall_self,
          Deed.settlement?_ofCall_self, completion, settlement]
      · rw [World.issued_proceed] at known
        rw [World.state?_proceed_of_ne same, tells.state other known,
          Deed.completion?_ofCall_of_ne (Ne.symm same),
          Deed.settlement?_ofCall_of_ne (Ne.symm same)]
        rfl
    · rw [World.issued_proceed] at beyond
      have apart : h ≠ other := by
        rintro rfl
        exact Nat.not_lt.mpr beyond issued
      rw [completion?_cons, settlement?_cons, Deed.completion?_ofCall_of_ne apart,
        Deed.settlement?_ofCall_of_ne apart]
      exact tells.unknown other beyond
    · rw [World.find?_cache_proceed, tells.cache id, cached?, change?_ofCall id new]
      cases Option.bind _ (DueRun.stored? id) <;> rfl
  · rw [answer] at result
    cases result

/-- **The step lemma**: one more deed is told by one more line in the journal. -/
theorem does {deed : Deed} (tells : journal.Tells world) (does : world.Does deed after) :
    Journal.Tells (deed :: journal) after := by
  cases does with
  | arrange deferreds cache outbox =>
      refine (tells.congr deferreds cache).cons_of_silent ?_ ?_ ?_ <;> exact fun _ => rfl
  | speak envelope =>
      have same : journal.Tells { world with outbox := world.outbox.emit envelope } :=
        tells.congr rfl rfl
      refine same.cons_of_silent ?_ ?_ ?_ <;> exact fun _ => rfl
  | issue name settlement? => exact tells.issue name settlement?
  | @bind h completion d next found answer =>
      have called : d.call (.bind completion) = .ok next := answer
      exact tells.proceed found called
  | @settle h settlement d next found answer =>
      have called : d.call (.settle settlement) = .ok next := answer
      exact tells.proceed found called
  | store other value =>
      refine ⟨tells.state, tells.unknown, fun id => ?_⟩
      by_cases same : other = id
      · subst same
        simp [World.remember, cached?, change?]
      · simp [World.remember, cached?, change?, same, Fields.find?_insert_of_ne (Ne.symm same),
          tells.cache]
  | drop other =>
      refine ⟨tells.state, tells.unknown, fun id => ?_⟩
      by_cases same : other = id
      · subst same
        simp [World.forget, cached?, change?]
      · simp [World.forget, cached?, change?, same, Fields.find?_erase_of_ne (Ne.symm same),
          tells.cache]

theorem stretch {licence : Licence φ η} {deeds : List Deed} (tells : journal.Tells world)
    (stretch : world.Stretch licence deeds after) : Journal.Tells (deeds ++ journal) after := by
  induction stretch with
  | refl => exact tells
  | tail _ _ does ih => exact ih.does does

end Journal.Tells

/-! ## What was there before a session -/

/-- The settlement that waits to be bound. -/
def Deferred.State.settlement? {κ : Type} : Deferred.State κ → Option Settlement
  | .early settlement => some settlement
  | _ => none

/-- A world as a journal: its deferred values were issued, and then what it has cached was cached.
-/
def World.opening (world : World φ η) : Journal :=
  world.cache.map (fun entry => .store entry.1 entry.2) ++
    (List.range world.issued).map fun index =>
      .issue ⟨index⟩ ((world.state? ⟨index⟩).bind Deferred.State.settlement?)

namespace World

variable (world : World φ η)

theorem completion?_opening (h : Handle .deferred) : world.opening.completion? h = none := by
  refine List.findSome?_eq_none_iff.mpr fun deed mem => ?_
  rcases List.mem_append.mp mem with store | issue
  · obtain ⟨entry, -, rfl⟩ := List.mem_map.mp store
    rfl
  · obtain ⟨index, -, rfl⟩ := List.mem_map.mp issue
    rfl

theorem settlement?_opening (h : Handle .deferred) :
    world.opening.settlement? h =
      if h.index < world.issued then (world.state? h).bind Deferred.State.settlement? else none := by
  have stores : (world.cache.map fun entry => Deed.store entry.1 entry.2).findSome?
      (Deed.settlement? h) = none := by
    refine List.findSome?_eq_none_iff.mpr fun deed mem => ?_
    obtain ⟨entry, -, rfl⟩ := List.mem_map.mp mem
    rfl
  -- Of all deferred values only the one in question counts.
  have issues : ∀ count, ((List.range count).map fun index => Deed.issue ⟨index⟩
      ((world.state? ⟨index⟩).bind Deferred.State.settlement?)).findSome? (Deed.settlement? h) =
        if h.index < count then (world.state? h).bind Deferred.State.settlement? else none := by
    intro count
    induction count with
    | zero => rfl
    | succ count ih =>
        rw [List.range_succ, List.map_append, List.findSome?_append, ih]
        rcases Nat.lt_trichotomy h.index count with less | rfl | greater
        · rw [if_pos less, if_pos (Nat.lt_succ_of_lt less)]
          have other : (⟨count⟩ : Handle .deferred) ≠ h := by
            rintro rfl
            exact Nat.lt_irrefl _ less
          simp [Deed.settlement?, other]
        · rw [if_neg (Nat.lt_irrefl _), if_pos (Nat.lt_succ_self _)]
          simp [Deed.settlement?]
        · rw [if_neg (Nat.not_lt.mpr (Nat.le_of_lt greater)), if_neg (Nat.not_lt.mpr greater)]
          have other : (⟨count⟩ : Handle .deferred) ≠ h := by
            rintro rfl
            exact Nat.lt_irrefl _ greater
          simp [Deed.settlement?, other]
  rw [Journal.settlement?, opening, List.findSome?_append, stores, Option.none_or, issues]

theorem cached?_opening (id : String) : world.opening.cached? id = Fields.find? id world.cache := by
  have issues : ∀ indices : List Nat, Journal.cached? id (indices.map fun index => .issue ⟨index⟩
      ((world.state? ⟨index⟩).bind Deferred.State.settlement?)) = none := by
    intro indices
    induction indices with
    | nil => rfl
    | cons index rest ih => exact ih
  unfold opening
  induction world.cache with
  | nil => exact issues _
  | cons entry rest ih =>
      obtain ⟨key, value⟩ := entry
      by_cases same : key = id
      · simp [Journal.cached?, Journal.change?, Fields.find?, same]
      · simpa [Journal.cached?, Journal.change?, Fields.find?, same] using ih

/-- Where nothing is bound, the opening tells everything. -/
theorem tells_opening (unbound : world.heap.deferreds.All fun d => d.isBound = false) :
    world.opening.Tells world where
  state h issued := by
    obtain ⟨d, found⟩ : ∃ d, world.heap.deferred? h = some d :=
      Store.exists_get?_of_lt issued
    have free : d.isBound = false := unbound.get? found
    rw [completion?_opening, settlement?_opening, if_pos issued, state?_eq_some found]
    obtain ⟨name, state⟩ := d
    cases state with
    | fresh => rfl
    | early settlement => rfl
    | waiting completion => cases free
    | finished => cases free
  unknown h beyond := by
    rw [completion?_opening, settlement?_opening, if_neg (Nat.not_lt.mpr beyond)]
    exact ⟨rfl, rfl⟩
  cache id := (world.cached?_opening id).symm

end World

/-! ## What a message does of its own -/

namespace Message

/-- What a message does of its own, once its command was evaluated: it caches a value or drops one,
or binds the rest of its work to a deferred value. -/
def deeds (context : Context) (message : Message) (world : World φ η) :
    Except AgentError Outcome → List Deed
  | .ok (.completed value) =>
    match message with
    | .connect id _ => [.store id value]
    | .disconnect id => [.drop id]
    | _ => []
  | .ok (.deferred h) =>
    match message.work? context with
    | some (_, completion) => if h.index < world.issued then [.bind h completion] else []
    | none => []
  | .error _ => []

section Finish

variable [HostObjects φ η] {context : Context} {message : Message} {world : World φ η}
  {journal : Journal}

/-- Finishing a message is told by what the message does of its own. -/
theorem tells_finish {command : Command} {completion : Completion}
    (work : message.work? context = some (command, completion)) (tells : journal.Tells world)
    (value : Value) :
    Journal.Tells (message.deeds context world (finish world completion value).1 ++ journal)
      (finish world completion value).2 := by
  cases value with
  | deferred h =>
      unfold finish
      dsimp only
      cases bound : world.bindDeferred h completion with
      | error error => exact tells
      | ok after =>
          rcases World.bindDeferred_cases bound with ⟨missing, rfl⟩ | ⟨d, next, found, answer, rfl⟩
          · have beyond : ¬ h.index < after.issued :=
              Nat.not_lt.mpr (Array.getElem?_eq_none_iff.mp missing)
            simpa [deeds, work, beyond] using tells
          · have issued := World.lt_issued found
            simpa [deeds, work, issued] using tells.does (.bind found answer)
  | _ =>
      cases message with
      | exec => cases work; exact tells
      | get => cases work; exact tells.congr rfl rfl
      | connect => cases work; exact tells.does (.store _ _)
      | disconnect => cases work
      | keepAlive => cases work

end Finish

/-- What is reported has nothing to do with the journal. -/
theorem tells_execute [ObjectModel φ η] {context : Context} {message : Message} {world : World φ η}
    {journal : Journal}
    (tells : journal.Tells (message.evaluated context world)) :
    Journal.Tells
      (message.deeds context (message.evaluated context world)
        (message.execute context world).1 ++ journal)
      (message.execute context world).2 := by
  have ran : Journal.Tells
      (message.deeds context (message.evaluated context world) (message.run context world).1 ++
        journal)
      (message.run context world).2 := by
    unfold evaluated at tells ⊢
    unfold run
    cases work : message.work? context with
    | none =>
        rw [work] at tells
        cases message with
        | disconnect id => exact tells.does (.drop id)
        | keepAlive => exact tells
        | exec => cases work
        | get => cases work
        | connect => cases work
    | some work' =>
        obtain ⟨command, completion⟩ := work'
        rw [work] at tells
        dsimp only at tells ⊢
        rcases result : (command.evaluate context).run world with ⟨error | bound, after⟩
        all_goals rw [result] at tells
        · exact tells
        · exact tells_finish work tells bound.value
  obtain ⟨same, unreported | ⟨error, -, reported⟩⟩ := execute_eq context message world
  · rw [same, unreported]
    exact ran
  · rw [same, reported]
    exact ran.congr rfl rfl

section Cache

variable [ObjectModel φ η] {context : Context} {message : Message} {world : World φ η}

/-- Finishing a message leaves the cache alone if it fails, if it is not to cache anything, or if
its deferred value was rejected. -/
theorem cache_finish {completion : Completion} {value : Value}
    (spares : (∃ error, (finish world completion value).1 = .error error) ∨
      (∀ id, completion ≠ .store id) ∨
      ∃ h text, (finish world completion value).1 = .ok (.deferred h) ∧
        world.state? h = some (.early (.rejected text))) :
    (finish world completion value).2.cache = world.cache := by
  cases value with
  | deferred h =>
      unfold finish at spares ⊢
      dsimp only at spares ⊢
      cases bound : world.bindDeferred h completion with
      | error error => rfl
      | ok after =>
          rw [bound] at spares
          rcases World.bindDeferred_cases bound with ⟨-, rfl⟩ | ⟨d, next, found, answer, rfl⟩
          · rfl
          · refine World.cache_proceed _ _ fun run due => ?_
            obtain ⟨continuation, early⟩ := Deferred.due_bind answer due
            rcases spares with ⟨_, ⟨⟩⟩ | other | ⟨_, text, ⟨⟩, rejected⟩
            · exact DueRun.stored?_of_ne fun id => continuation ▸ other id
            · rw [World.state?_eq_some found, early] at rejected
              exact DueRun.stored?_of_rejected (Deferred.State.early.inj (Option.some.inj rejected))
  | _ =>
      rcases spares with ⟨_, ⟨⟩⟩ | other | ⟨_, _, ⟨⟩, -⟩
      exact World.cache_complete _ (DueRun.stored?_of_ne other)

theorem cache_run
    (spares : (∃ error, (message.run context world).1 = .error error) ∨
      message.tag ∉ [Tag.connect, Tag.disconnect] ∨
      ∃ h text, (message.run context world).1 = .ok (.deferred h) ∧
        (message.evaluated context world).state? h = some (.early (.rejected text))) :
    (message.run context world).2.cache = (message.evaluated context world).cache := by
  unfold run evaluated at *
  cases work : message.work? context with
  | none =>
      rw [work] at spares
      cases message with
      | disconnect id =>
          rcases spares with ⟨_, ⟨⟩⟩ | other | ⟨_, _, ⟨⟩, -⟩
          exact absurd (by simp [tag]) other
      | keepAlive => rfl
      | exec => cases work
      | get => cases work
      | connect => cases work
  | some work' =>
      obtain ⟨command, completion⟩ := work'
      rw [work] at spares
      dsimp only at spares ⊢
      rcases result : (command.evaluate context).run world with ⟨error | bound, after⟩
      · rfl
      · rw [result] at spares
        refine cache_finish ?_
        rcases spares with failed | other | rejected
        · exact .inl failed
        · refine .inr (.inl ?_)
          rintro id rfl
          cases message <;> cases work
          exact absurd (by simp [tag]) other
        · exact .inr (.inr rejected)

theorem cache_execute :
    (message.execute context world).2.cache = (message.run context world).2.cache := by
  obtain ⟨-, unreported | ⟨error, -, reported⟩⟩ := execute_eq context message world
  · rw [unreported]
  · rw [reported]
    rfl

end Cache

end Message

/-! ## Sessions -/

/-- A licence for everything but the cache.  It is left to messages to cache values and to drop
them, also where a deferred value is to do so when it is settled. -/
def Licence.uncached : Licence φ η := fun _ deed =>
  match deed with
  | .store _ _ => False
  | .drop _ => False
  | .bind _ (.store _) => False
  | _ => True

section Uncached

variable [HostObjects φ η] {world after : World φ η}

/-- What settles nothing leaves the cache alone: the run that binding may make due is none that
caches. -/
theorem World.Does.cache_eq {deed : Deed} (does : world.Does deed after)
    (allowed : Licence.uncached world deed)
    (unsettled : ∀ h settlement, deed ≠ .settle h settlement) : after.cache = world.cache := by
  cases does with
  | arrange deferreds cache outbox => exact cache
  | speak envelope => rfl
  | issue name settlement? => rfl
  | @bind h completion d next found answer =>
      refine World.cache_proceed _ _ fun run due => DueRun.stored?_of_ne fun id stores => ?_
      rw [(Deferred.due_bind answer due).1] at stores
      subst stores
      exact allowed
  | settle => exact absurd rfl (unsettled _ _)
  | store => exact allowed.elim
  | drop => exact allowed.elim

theorem World.Stretch.cache_eq {deeds : List Deed} (stretch : world.Stretch .uncached deeds after)
    (unsettled : ∀ h settlement, .settle h settlement ∉ deeds) : after.cache = world.cache := by
  induction stretch with
  | refl => rfl
  | tail _ allowed does ih =>
      have here := does.cache_eq allowed fun h settlement same =>
        unsettled h settlement (same ▸ List.mem_cons_self)
      have before := ih fun h settlement mem =>
        unsettled h settlement (List.mem_cons_of_mem _ mem)
      exact here.trans before

end Uncached

theorem Licence.allowsPlain_uncached : (uncached : Licence φ η).AllowsPlain := by
  rintro world deed (_ | _ | _) <;> trivial

namespace Session

variable [ObjectModel φ η]

/-- The world that an event finds when its command, if it has one, was evaluated. -/
def evaluated (context : Context) (world : World φ η) : Event → World φ η
  | .dispatch json =>
    match Message.parse json with
    | .ok message => message.evaluated context world
    | .error _ => world
  | .settle _ _ => world

/-- What an event does after that. -/
def deeds (context : Context) (world : World φ η) : Event → List Deed
  | .dispatch json =>
    match Message.parse json with
    | .ok message =>
      message.deeds context (message.evaluated context world) (message.execute context world).1
    | .error _ => []
  | .settle h settlement =>
    if h.index < world.issued ∧ (world.settle h settlement).isOk then [.settle h settlement] else []

/-- **The journal of a session**, with the world that the session has come to.  An event is entered
with what was done while its command was evaluated, and then with what it does of its own. -/
inductive Journal (licence : Licence φ η) (context : Context) (start : World φ η) :
    List Event → RemoteAgent.Journal → World φ η → Prop where
  | opening : Journal licence context start [] start.opening start
  | next {events : List Event} {journal : RemoteAgent.Journal} {world : World φ η} {event : Event}
      {during : List Deed} :
      Journal licence context start events journal world →
      world.Stretch licence during (evaluated context world event) →
      Journal licence context start (events ++ [event])
        (deeds context world event ++ (during ++ journal)) (act context world event)

variable {context : Context} {start world : World φ η} {licence : Licence φ η}
  {journal : RemoteAgent.Journal}

/-- Evaluation is a stretch that the licence of the application allows. -/
theorem exists_stretch (licence : Licence φ η) [Licensed φ η licence] (context : Context)
    (world : World φ η) (event : Event) :
    ∃ during, world.Stretch licence during (evaluated context world event) := by
  cases event with
  | settle h settlement => exact ⟨[], .refl⟩
  | dispatch json =>
      unfold evaluated
      dsimp only
      cases Message.parse json with
      | error error => exact ⟨[], .refl⟩
      | ok message =>
          dsimp only
          unfold Message.evaluated
          cases message.work? context with
          | none => exact ⟨[], .refl⟩
          | some work => exact Command.evaluate_keeps context work.1 world

theorem tells_act {event : Event} (tells : journal.Tells (evaluated context world event)) :
    Journal.Tells (deeds context world event ++ journal) (act context world event) := by
  cases event with
  | dispatch json =>
      unfold evaluated at tells
      unfold deeds act
      dsimp only at tells ⊢
      cases read : Message.parse json with
      | error error =>
          rw [read] at tells
          rw [Message.dispatch_unread read]
          exact tells.congr rfl rfl
      | ok message =>
          rw [read] at tells
          rw [Message.dispatch_eq_execute read]
          exact Message.tells_execute tells
  | settle h settlement =>
      change journal.Tells world at tells
      unfold deeds act settled World.settle
      dsimp only
      cases found : world.heap.deferred? h with
      | none =>
          have beyond : ¬ h.index < world.issued :=
            Nat.not_lt.mpr (Array.getElem?_eq_none_iff.mp found)
          simpa [beyond] using tells
      | some d =>
          have issued := World.lt_issued found
          cases answer : d.settle settlement with
          | error error => simpa [answer, Except.map, Except.isOk, Except.toBool] using tells
          | ok next =>
              simpa [answer, Except.map, Except.isOk, Except.toBool, issued] using
                tells.does (.settle found answer)

variable {events : List Event}

/-- **The run lemma**: the journal of a session tells its world. -/
theorem Journal.tells (unbound : start.heap.deferreds.All fun d => d.isBound = false)
    (written : Journal licence context start events journal world) : journal.Tells world := by
  induction written with
  | opening => exact start.tells_opening unbound
  | next _ stretch ih => exact tells_act (ih.stretch stretch)

theorem Journal.world_eq
    (written : Journal licence context start events journal world) :
    world = events.foldl (act context) start := by
  induction written with
  | opening => rfl
  | next _ _ ih =>
      rw [List.foldl_append, ← ih]
      rfl

/-- A session can be written down, if its application keeps to the licence. -/
theorem exists_journal (licence : Licence φ η) [Licensed φ η licence] (context : Context)
    (start : World φ η) (events : List Event) :
    ∃ journal, Journal licence context start events journal (events.foldl (act context) start) := by
  induction events using List.reverseRecOn with
  | nil => exact ⟨_, .opening⟩
  | append_singleton events event ih =>
      obtain ⟨journal, written⟩ := ih
      obtain ⟨during, stretch⟩ :=
        exists_stretch licence context (events.foldl (act context) start) event
      rw [List.foldl_append]
      exact ⟨_, written.next stretch⟩

/-! ### What leaves the cache alone -/

/-- An event that has nothing to cache: what is no message, or a message that fails; a message of
another kind; one that obtains a deferred value which was rejected; and a rejection. -/
def Event.SparesCache (context : Context) (world : World φ η) : Event → Prop
  | .dispatch json =>
    (∃ error, (Message.dispatch context json world).1 = .error error) ∨
      (∃ message, Message.parse json = .ok message ∧
        message.tag ∉ [Message.Tag.connect, Message.Tag.disconnect]) ∨
      ∃ h text, (Message.dispatch context json world).1 = .ok (.deferred h) ∧
        (evaluated context world (.dispatch json)).state? h = some (.early (.rejected text))
  | .settle _ settlement => ∃ text, settlement = .rejected text

/-- **What has nothing to cache leaves the cache as evaluation has left it.** -/
theorem cache_act {event : Event} (spares : event.SparesCache context world) :
    (act context world event).cache = (evaluated context world event).cache := by
  cases event with
  | settle h settlement =>
      obtain ⟨text, rfl⟩ := spares
      unfold act settled
      dsimp only
      cases result : world.settle h (.rejected text) with
      | error error => rfl
      | ok after =>
          rcases World.settle_cases result with rfl | ⟨d, next, found, answer, rfl⟩
          · rfl
          · exact World.cache_proceed _ _ fun run due =>
              DueRun.stored?_of_rejected (Deferred.due_settle answer due).1
  | dispatch json =>
      unfold Event.SparesCache at spares
      unfold evaluated act at *
      dsimp only at spares ⊢
      cases read : Message.parse json with
      | error error =>
          rw [Message.dispatch_unread read]
          rfl
      | ok message =>
          rw [Message.dispatch_eq_execute read] at spares ⊢
          rw [read] at spares
          dsimp only at spares ⊢
          rw [Message.cache_execute, (Message.execute_eq context message world).1] at *
          refine Message.cache_run ?_
          rcases spares with failed | ⟨_, ⟨⟩, other⟩ | rejected
          · exact .inl failed
          · exact .inr (.inl other)
          · exact .inr (.inr rejected)

/-- **The cache is the replay of what was completed.**  A session whose application leaves the cache
to the messages can be written down, and however it is, at its end and at every point of an
evaluation that follows, an id is looked up with the value that the last deed on this id in the
journal has left, or not found if there is none or it was dropped.  And whatever has nothing to
cache leaves the cache alone, but for what the application settles while a command is evaluated. -/
theorem cached_eq_replayed [Licensed φ η (.uncached : Licence φ η)] (context : Context)
    {start : World φ η} (unbound : start.heap.deferreds.All fun d => d.isBound = false)
    (events : List Event) :
    (∃ journal world, Journal .uncached context start events journal world) ∧
      (∀ journal world, Journal .uncached context start events journal world →
        world = events.foldl (act context) start ∧
          ∀ during later, world.Stretch .uncached during later → ∀ id,
            (Command.cached id).run later =
              (RemoteAgent.Journal.lookup id (during ++ journal), later)) ∧
      ∀ (world : World φ η) (event : Event), event.SparesCache context world →
        (act context world event).cache = (evaluated context world event).cache ∧
          ∀ during, world.Stretch .uncached during (evaluated context world event) →
            (∀ h settlement, .settle h settlement ∉ during) →
            (act context world event).cache = world.cache := by
  refine ⟨?_, fun journal world written => ⟨written.world_eq, ?_⟩, fun world event spares => ?_⟩
  · obtain ⟨journal, written⟩ := exists_journal .uncached context start events
    exact ⟨journal, _, written⟩
  · intro during later stretch id
    exact ((written.tells unbound).stretch stretch).run_cached id
  · refine ⟨cache_act spares, fun during stretch unsettled => ?_⟩
    rw [cache_act spares, stretch.cache_eq unsettled]

end Session

/-! ### A reference that comes late -/

namespace Sample

instance : Licensed Method Object .uncached := licensed Licence.allowsPlain_uncached

/-- A message that caches what a method of the root object answers. -/
def connect (id method : String) : Session.Event :=
  .dispatch (.array [.string "C", .string id, .array [.string "C",
    .array [.string "G", .array [.string "R", .string "root"],
      .array [.string "L", .string method]],
    .array []]])

/-- A reference is dropped before it is there, and then comes; another one stays dropped. -/
def overtaken : List Session.Event :=
  [connect "slow" "later", connect "quick" "nothing",
    .dispatch (.array [.string "D", .string "slow"]),
    .dispatch (.array [.string "D", .string "quick"]),
    .settle ⟨0⟩ (.resolved (.bool true))]

end Sample

/-- What resolves a deferred value counts when it happens, not when it was asked for. -/
theorem Session.cached_eq_replayed_overtaken :
    ∃ journal world,
      Journal .uncached Sample.context Sample.start.2.2 Sample.overtaken journal world ∧
        RemoteAgent.Journal.lookup "slow" journal = .ok (.bool true) ∧
        RemoteAgent.Journal.lookup "quick" journal = .error (.missingReference "quick") := by
  have unbound : Sample.start.2.2.heap.deferreds.All fun d => d.isBound = false := by
    decide +kernel
  obtain ⟨⟨journal, world, written⟩, replayed, -⟩ :=
    cached_eq_replayed Sample.context unbound Sample.overtaken
  obtain ⟨ended, looked⟩ := replayed journal world written
  have read : ∀ id, RemoteAgent.Journal.lookup id journal = ((Command.cached id).run world).1 := by
    intro id
    rw [looked [] world .refl id]
    rfl
  refine ⟨journal, world, written, ?_, ?_⟩
  · rw [read, ended]
    decide +kernel
  · rw [read, ended]
    decide +kernel

end RemoteAgent
