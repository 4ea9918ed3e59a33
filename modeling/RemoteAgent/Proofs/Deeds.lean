import RemoteAgent.Proofs.Discipline

/-!
# What code behind the agent does

Evaluating a command runs code of the application, and what holds of a session depends on what this
code does and leaves undone.  A `Deed` is one thing that it can do to the world that somebody else
might notice; `World.Does` says what a deed makes of a world.  Whatever nobody notices, new arrays
or another property of an object, is one kind of deed (`Deed.arrange`).

A `Licence` tells which deeds are allowed in which worlds, and a `World.Stretch` is a stretch of
allowed deeds, with the journal of what was done.  Different statements need different licences, so
everything here is about all of them: an application that keeps to a licence (`Licensed`) makes
every evaluation a stretch of allowed deeds, if only the licence allows what evaluation does by
itself (`Command.evaluate_keeps`).

Unlike the moves of `World.Move`, deeds are told apart by what they do to the cache, and they have
names, so that a journal can be read.  Journals grow at the front: the last deed comes first.

## Main definitions

* `Deed`, `World.Does`: what can be done, and what it comes to.
* `Licence`, `World.Stretch`: what is allowed, and any number of allowed deeds.
* `Licence.onwards`: a licence that counts from a world onwards.
* `Licensed`: applications that keep to a licence.
-/

namespace RemoteAgent

variable {φ η : Type}

/-! ## Deeds -/

/-- One thing that is done to a world. -/
inductive Deed where
  /-- Something that has to do with neither deferred values, nor the cache, nor the controller. -/
  | arrange
  /-- An envelope is sent to the controller. -/
  | speak (envelope : Json)
  /-- A deferred value is issued, settled or not. -/
  | issue (h : Handle .deferred) (settlement? : Option Settlement)
  /-- The rest of some work is bound to a deferred value. -/
  | bind (h : Handle .deferred) (completion : Completion)
  /-- A deferred value is settled. -/
  | settle (h : Handle .deferred) (settlement : Settlement)
  /-- A value is cached. -/
  | store (id : String) (value : Value)
  /-- A cached value is dropped. -/
  | drop (id : String)

namespace World

/-- A world with one more deferred value. -/
def withDeferred (world : World φ η) (d : Deferred Completion) : World φ η :=
  { world with heap := (world.heap.newDeferred d).2 }

section WithDeferred

variable (world : World φ η) (d : Deferred Completion)

@[simp] theorem issued_withDeferred : (world.withDeferred d).issued = world.issued + 1 :=
  Store.size_push _ d

theorem state?_withDeferred_of_lt {h : Handle .deferred} (old : h.index < world.issued) :
    (world.withDeferred d).state? h = world.state? h :=
  congrArg (Option.map _) (Store.get?_push_of_lt old d)

theorem state?_withDeferred_self :
    (world.withDeferred d).state? ⟨world.issued⟩ = some d.state := by
  refine state?_eq_some ?_
  unfold Heap.deferred?
  exact Store.get?_push_size _ _

end WithDeferred

/-- **What a deed makes of a world.**  Binding and settling are deeds only where they succeed; a
continuation that is due by it is part of the deed. -/
inductive Does [HostObjects φ η] (world : World φ η) : Deed → World φ η → Prop where
  | arrange {after : World φ η} :
      after.heap.deferreds = world.heap.deferreds → after.cache = world.cache →
      after.outbox = world.outbox → Does world .arrange after
  | speak (envelope : Json) :
      Does world (.speak envelope) { world with outbox := world.outbox.emit envelope }
  | issue (id : String) (settlement? : Option Settlement) :
      Does world (.issue ⟨world.issued⟩ settlement?)
        (world.withDeferred ⟨id, .of none settlement?⟩)
  | bind {h : Handle .deferred} {completion : Completion} {d : Deferred Completion}
      {next : Deferred Completion × Option (DueRun Completion)} :
      world.heap.deferred? h = some d → d.bind completion = .ok next →
      Does world (.bind h completion) (world.proceed h next)
  | settle {h : Handle .deferred} {settlement : Settlement} {d : Deferred Completion}
      {next : Deferred Completion × Option (DueRun Completion)} :
      world.heap.deferred? h = some d → d.settle settlement = .ok next →
      Does world (.settle h settlement) (world.proceed h next)
  | store (id : String) (value : Value) : Does world (.store id value) (world.remember id value)
  | drop (id : String) : Does world (.drop id) (world.forget id)

end World

/-! ### Runs that are due -/

namespace Deferred

variable {κ : Type} {d : Deferred κ} {next : Deferred κ × Option (DueRun κ)} {run : DueRun κ}

/-- What is bound is run on a settlement that was there before. -/
theorem due_bind {continuation : κ} (bound : d.bind continuation = .ok next)
    (due : next.2 = some run) :
    run.continuation = continuation ∧ d.state = .early run.settlement := by
  obtain ⟨id, state⟩ := d
  cases state <;> cases bound <;> cases due
  exact ⟨rfl, rfl⟩

/-- What was bound before is run on the settlement. -/
theorem due_settle {settlement : Settlement} (settled : d.settle settlement = .ok next)
    (due : next.2 = some run) :
    run.settlement = settlement ∧ d.state = .waiting run.continuation := by
  obtain ⟨id, state⟩ := d
  cases state <;> cases settled <;> cases due
  exact ⟨rfl, rfl⟩

end Deferred

/-- Which deeds are allowed in a world. -/
abbrev Licence (φ η : Type) := World φ η → Deed → Prop

/-- What evaluation does by itself: it makes cells and sends callbacks.  Issuing a deferred value is
no more than that. -/
inductive Deed.IsPlain : Deed → Prop where
  | arrange : IsPlain .arrange
  | callback (id : String) (args : List Json) : IsPlain (.speak (Envelope.callback id args))
  | issue (h : Handle .deferred) (settlement? : Option Settlement) : IsPlain (.issue h settlement?)

/-- A licence that allows plain deeds, whatever else. -/
def Licence.AllowsPlain (licence : Licence φ η) : Prop :=
  ∀ world deed, Deed.IsPlain deed → licence world deed

/-! ## Stretches -/

section Stretches

variable [HostObjects φ η] {licence : Licence φ η} {world middle after : World φ η}
  {deed : Deed} {deeds more : List Deed}

/-- Any number of allowed deeds, with their journal. -/
inductive World.Stretch (licence : Licence φ η) (world : World φ η) :
    List Deed → World φ η → Prop where
  | refl : Stretch licence world [] world
  | tail {middle after : World φ η} {deed : Deed} {deeds : List Deed} :
      Stretch licence world deeds middle → licence middle deed → middle.Does deed after →
      Stretch licence world (deed :: deeds) after

namespace World.Stretch

theorem single (allowed : licence world deed) (does : world.Does deed after) :
    world.Stretch licence [deed] after :=
  .tail .refl allowed does

theorem trans (one : world.Stretch licence deeds middle)
    (two : middle.Stretch licence more after) : world.Stretch licence (more ++ deeds) after := by
  induction two with
  | refl => exact one
  | tail _ allowed does ih => exact ih.tail allowed does

end World.Stretch

/-- A licence that counts from a world onwards.  What is done in worlds that cannot be come to from
there does not matter. -/
def Licence.onwards (licence : Licence φ η) (origin : World φ η) : Licence φ η :=
  fun world deed => (∃ deeds, origin.Stretch licence deeds world) → licence world deed

theorem Licence.AllowsPlain.onwards (plain : licence.AllowsPlain) (origin : World φ η) :
    (licence.onwards origin).AllowsPlain :=
  fun world deed isPlain _ => plain world deed isPlain

/-- An action that is a stretch of allowed deeds wherever it is taken. -/
def Eval.Keeps {α : Type} (licence : Licence φ η) (action : Eval φ η α) : Prop :=
  ∀ world : World φ η, ∃ deeds, world.Stretch licence deeds (action.run world).2

namespace Eval.Keeps

variable {α β : Type}

theorem pure (value : α) : Keeps licence (Pure.pure value : Eval φ η α) := fun _ => ⟨[], .refl⟩

theorem throw (error : EvalError) : Keeps licence (MonadExcept.throw error : Eval φ η α) :=
  fun _ => ⟨[], .refl⟩

/-- One action after another.  If the first one fails, there is no second. -/
theorem bind {action : Eval φ η α} {next : α → Eval φ η β} (first : action.Keeps licence)
    (second : ∀ value, (next value).Keeps licence) : (action >>= next).Keeps licence := by
  intro world
  obtain ⟨deeds, stretch⟩ := first world
  rw [run_bind]
  rcases result : action.run world with ⟨error | value, middle⟩
  all_goals rw [result] at stretch
  · exact ⟨deeds, stretch⟩
  · obtain ⟨more, onwards⟩ := second value middle
    exact ⟨more ++ deeds, stretch.trans onwards⟩

/-- What keeps to a licence that allows plain deeds is a discipline: what evaluation does by itself
is one plain deed, or none. -/
theorem discipline (plain : licence.AllowsPlain) :
    Discipline (fun {_ : Type} (action : Eval φ η _) => action.Keeps licence) where
  pure := pure
  throw := throw
  bind := bind
  heap keeps world := keeps world.heap world
  cache keeps world := keeps world.cache world
  allocate deferreds _ := ⟨_, .single (plain _ _ .arrange) (.arrange (deferreds _) rfl rfl)⟩
  modifyHeap deferreds _ := ⟨_, .single (plain _ _ .arrange) (.arrange (deferreds _) rfl rfl)⟩
  callback id args _ := ⟨_, .single (plain _ _ (.callback id args)) (.speak _)⟩
  issue id settlement? _ := ⟨_, .single (plain _ _ (.issue _ settlement?)) (.issue id settlement?)⟩

end Eval.Keeps

end Stretches

/-! ## Licensed applications -/

/-- Host objects that keep to a licence. -/
class LicensedHosts (φ η : Type) [HostObjects φ η] (licence : Licence φ η) : Prop where
  /-- The licence allows what evaluation does by itself. -/
  plain : licence.AllowsPlain
  get (code : η) (key : PropertyKey) : Eval.Keeps licence (HostObjects.get code key)
  set (code : η) (key : PropertyKey) (value : Value) :
    Eval.Keeps licence (HostObjects.set code key value)

/-- An application that keeps to a licence. -/
class Licensed (φ η : Type) [ObjectModel φ η] (licence : Licence φ η) : Prop
    extends LicensedHosts φ η licence where
  call (code : φ) (receiver : Value) (args : List Value) :
    Eval.Keeps licence (ObjectModel.call code receiver args)

/-! ## Evaluation keeps to the licence -/

section Evaluation

variable [ObjectModel φ η] {licence : Licence φ η}

theorem Licensed.model (licensed : Licensed φ η licence) :
    Eval.Discipline.Model (fun {_ : Type} (action : Eval φ η _) => action.Keeps licence) where
  get := licensed.get
  set := licensed.set
  call := licensed.call

/-- **Evaluation keeps to the licence of the application.** -/
theorem Command.evaluate_keeps [licensed : Licensed φ η licence] (context : Context)
    (command : Command) : Eval.Keeps licence (command.evaluate context : Eval φ η Bound) :=
  (Eval.Keeps.discipline licensed.plain).evaluate licensed.model context command

end Evaluation

end RemoteAgent
