import RemoteAgent.Proofs.Answers

/-!
# Evaluation keeps to the moves

A command runs code of the application, and that code may do anything.  So whatever is to hold of
all sessions needs to be told what the application keeps to: `LawfulHosts` and `LawfulModel` ask
that its code changes the world by moves (`World.Move`), and that the values it comes up with have
deferred values behind them that were issued.

The second half is what makes the first useful.  A handle of a deferred value is a number, and a
number that was not given out yet would name a deferred value of the future.  A world is *closed* if
every handle that can be read out of it was issued; evaluation keeps a closed world closed, and its
result was issued too.  What the code of the application itself holds is told by `Holds`.

Evaluation is followed by `Eval.Orderly`, one lemma for each operation and `Orderly.bind` to chain
them.  The theorem of this module is `Command.evaluate_orderly`.
-/

namespace RemoteAgent

/-! ## Issued values -/

/-- The deferred values that a code of the application holds. -/
class Holds (α : Type) where
  /-- Their handles. -/
  deferreds : α → List (Handle .deferred)

/-- A code holds only deferred values that are among the first so many. -/
def Holds.Issued {α : Type} [Holds α] (n : Nat) (code : α) : Prop :=
  ∀ h ∈ Holds.deferreds code, h.index < n

/-- A value is no deferred value that is not among the first so many. -/
def Value.Issued (n : Nat) : Value → Prop
  | .deferred h => h.index < n
  | _ => True

/-- Fields whose values were issued. -/
def Fields.Issued (n : Nat) (fields : Fields Value) : Prop :=
  ∀ entry ∈ fields, entry.2.Issued n

namespace Fields

variable {α : Type} {n : Nat} {fields : Fields Value}

theorem mem_of_find? {key : String} {value : α} {fields : Fields α}
    (found : find? key fields = some value) : (key, value) ∈ fields := by
  induction fields with
  | nil => cases found
  | cons entry rest ih =>
      obtain ⟨k, v⟩ := entry
      unfold find? at found
      split at found
      case isTrue same =>
        cases found
        rw [same]
        exact List.mem_cons_self
      case isFalse => exact List.mem_cons_of_mem _ (ih found)

theorem Issued.find? (issued : Issued n fields) (key : String) :
    ((Fields.find? key fields).getD .null).Issued n := by
  cases found : Fields.find? key fields with
  | none => trivial
  | some value => exact issued _ (mem_of_find? found)

theorem Issued.insert {value : Value} (issued : Issued n fields) (key : String)
    (known : value.Issued n) : Issued n (Fields.insert key value fields) := by
  intro entry mem
  rcases mem_of_mem_insert mem with rfl | old
  · exact known
  · exact issued entry old

theorem Issued.erase (issued : Issued n fields) (key : String) :
    Issued n (Fields.erase key fields) :=
  fun entry mem => issued entry (mem_of_mem_erase mem)

theorem Issued.ofList {entries : List (String × Value)}
    (issued : ∀ entry ∈ entries, entry.2.Issued n) : Issued n (Fields.ofList entries) :=
  fun entry mem => issued entry (mem_of_mem_ofList mem)

end Fields

/-- A function whose code holds only deferred values that were issued. -/
def Function.Issued {φ : Type} [Holds φ] (n : Nat) (function : Function φ) : Prop :=
  match function.body with
  | .native code => Holds.Issued n code
  | .callback _ _ => True

/-- A host object that holds only deferred values that were issued. -/
def HostObject.Issued {η : Type} [Holds η] (n : Nat) : HostObject η → Prop
  | .bag _ properties => properties.Issued n
  | .custom code => Holds.Issued n code

/-! Whether something was issued can be looked up. -/

section Decidable

variable {φ η : Type} [Holds φ] [Holds η] {n : Nat}

instance {α : Type} [Holds α] (code : α) : Decidable (Holds.Issued n code) :=
  inferInstanceAs (Decidable (∀ h ∈ Holds.deferreds code, h.index < n))

instance : DecidablePred (Value.Issued n)
  | .deferred h => inferInstanceAs (Decidable (h.index < n))
  | .null | .bool _ | .number _ | .text _ | .bytes _ => .isTrue trivial
  | .array _ | .object _ | .function _ | .host _ => .isTrue trivial

instance (fields : Fields Value) : Decidable (fields.Issued n) :=
  inferInstanceAs (Decidable (∀ entry ∈ fields, entry.2.Issued n))

instance : DecidablePred (Function.Issued n : Function φ → Prop)
  | ⟨_, .native code⟩ => inferInstanceAs (Decidable (Holds.Issued n code))
  | ⟨_, .callback _ _⟩ => .isTrue trivial

instance : DecidablePred (HostObject.Issued n : HostObject η → Prop)
  | .bag _ properties => inferInstanceAs (Decidable (properties.Issued n))
  | .custom code => inferInstanceAs (Decidable (Holds.Issued n code))

end Decidable

/-- A settlement that is no deferred value that was not issued. -/
def Settlement.Issued (n : Nat) : Settlement → Prop
  | .resolved value => value.Issued n
  | .rejected _ => True

/-- A deferred value that waits to be bound with an issued value, if with any. -/
def Deferred.Issued (n : Nat) (d : Deferred Completion) : Prop :=
  match d.state with
  | .early settlement => settlement.Issued n
  | _ => True

instance {n : Nat} : DecidablePred (Settlement.Issued n)
  | .resolved value => inferInstanceAs (Decidable (value.Issued n))
  | .rejected _ => .isTrue trivial

instance {n : Nat} : DecidablePred (Deferred.Issued n)
  | ⟨_, .early settlement⟩ => inferInstanceAs (Decidable (settlement.Issued n))
  | ⟨_, .fresh⟩ | ⟨_, .waiting _⟩ | ⟨_, .finished⟩ => .isTrue trivial

/-! Nothing that was issued is ever taken back. -/

section Later

variable {n m : Nat} (le : n ≤ m)

include le

theorem Holds.Issued.later {α : Type} [Holds α] {code : α} (issued : Holds.Issued n code) :
    Holds.Issued m code :=
  fun h mem => Nat.lt_of_lt_of_le (issued h mem) le

theorem Value.Issued.later {value : Value} (issued : value.Issued n) : value.Issued m := by
  cases value with
  | deferred h => exact Nat.lt_of_lt_of_le issued le
  | _ => trivial

theorem Fields.Issued.later {fields : Fields Value} (issued : fields.Issued n) :
    fields.Issued m :=
  fun entry mem => (issued entry mem).later le

theorem Function.Issued.later {φ : Type} [Holds φ] {function : Function φ}
    (issued : function.Issued n) : function.Issued m := by
  obtain ⟨name, body⟩ := function
  cases body with
  | native code => exact Holds.Issued.later le issued
  | callback id depth => trivial

theorem HostObject.Issued.later {η : Type} [Holds η] {host : HostObject η}
    (issued : host.Issued n) : host.Issued m := by
  cases host with
  | bag label properties => exact Fields.Issued.later le issued
  | custom code => exact Holds.Issued.later le issued

theorem Settlement.Issued.later {settlement : Settlement} (issued : settlement.Issued n) :
    settlement.Issued m := by
  cases settlement with
  | resolved value => exact Value.Issued.later le issued
  | rejected text => trivial

theorem Deferred.Issued.later {d : Deferred Completion} (issued : d.Issued n) : d.Issued m := by
  obtain ⟨id, state⟩ := d
  cases state with
  | early settlement => exact Settlement.Issued.later le issued
  | _ => trivial

end Later

/-! ## Closed worlds -/

/-- All cells of a store have a property. -/
def Store.All {α : Type} (p : α → Prop) (store : Store α) : Prop := ∀ cell ∈ store.cells, p cell

instance {α : Type} {p : α → Prop} [DecidablePred p] (store : Store α) :
    Decidable (store.All p) :=
  inferInstanceAs (Decidable (∀ cell ∈ store.cells, p cell))

namespace Store.All

variable {α : Type} {p q : α → Prop} {store : Store α}

theorem imp (all : store.All p) (step : ∀ cell, p cell → q cell) : store.All q :=
  fun cell mem => step cell (all cell mem)

theorem push {cell : α} (all : store.All p) (new : p cell) : (store.push cell).All p := by
  intro other mem
  rcases Array.mem_push.mp mem with old | rfl
  · exact all other old
  · exact new

theorem set {cell : α} (all : store.All p) (index : Nat) (new : p cell) :
    (store.set index cell).All p := by
  intro other mem
  rcases Array.mem_or_eq_of_mem_setIfInBounds mem with old | rfl
  · exact all other old
  · exact new

theorem get? {index : Nat} {cell : α} (all : store.All p) (found : store.get? index = some cell) :
    p cell :=
  all cell (Array.mem_of_getElem? found)

end Store.All

section Closed

variable {φ η : Type} [Holds φ] [Holds η]

/-- Every deferred value that a heap leads to is among the first so many. -/
structure Heap.Closed (n : Nat) (heap : Heap φ η) : Prop where
  arrays : heap.arrays.All fun items => ∀ item ∈ items, item.Issued n
  objects : heap.objects.All (Fields.Issued n)
  functions : heap.functions.All (Function.Issued n)
  hosts : heap.hosts.All (HostObject.Issued n)
  deferreds : heap.deferreds.All (Deferred.Issued n)

instance (n : Nat) (heap : Heap φ η) : Decidable (heap.Closed n) :=
  decidable_of_iff
    ((heap.arrays.All fun items => ∀ item ∈ items, item.Issued n) ∧
      heap.objects.All (Fields.Issued n) ∧ heap.functions.All (Function.Issued n) ∧
      heap.hosts.All (HostObject.Issued n) ∧ heap.deferreds.All (Deferred.Issued n))
    ⟨fun ⟨arrays, objects, functions, hosts, deferreds⟩ =>
      ⟨arrays, objects, functions, hosts, deferreds⟩,
    fun closed =>
      ⟨closed.arrays, closed.objects, closed.functions, closed.hosts, closed.deferreds⟩⟩

/-- Every deferred value that a world leads to was issued. -/
structure World.Closed (world : World φ η) : Prop where
  heap : world.heap.Closed world.issued
  cache : world.cache.Issued world.issued

instance (world : World φ η) : Decidable world.Closed :=
  decidable_of_iff (world.heap.Closed world.issued ∧ world.cache.Issued world.issued)
    ⟨fun ⟨heap, cache⟩ => ⟨heap, cache⟩, fun closed => ⟨closed.heap, closed.cache⟩⟩

namespace Heap

variable {n m : Nat} {heap : Heap φ η}

theorem Closed.later (le : n ≤ m) (closed : heap.Closed n) : heap.Closed m where
  arrays := closed.arrays.imp fun _ issued item mem => (issued item mem).later le
  objects := closed.objects.imp fun _ => Fields.Issued.later le
  functions := closed.functions.imp fun _ => Function.Issued.later le
  hosts := closed.hosts.imp fun _ => HostObject.Issued.later le
  deferreds := closed.deferreds.imp fun _ => Deferred.Issued.later le

theorem Closed.items (closed : heap.Closed n) (h : Handle .array) :
    ∀ item ∈ heap.items h, item.Issued n := by
  unfold Heap.items
  cases found : heap.arrays.get? h.index with
  | none => exact fun item mem => absurd mem List.not_mem_nil
  | some items => exact closed.arrays.get? found

theorem Closed.fields (closed : heap.Closed n) (h : Handle .object) :
    (heap.fields h).Issued n := by
  unfold Heap.fields
  cases found : heap.objects.get? h.index with
  | none => exact fun item mem => absurd mem List.not_mem_nil
  | some fields => exact closed.objects.get? found

/-- Cells were made of issued values: no deferred value is touched, the heap stays closed, and what
comes of it was issued. -/
structure Makes {α : Type} (n : Nat) (known : Nat → α → Prop) (heap : Heap φ η)
    (made : α × Heap φ η) : Prop where
  deferreds : made.2.deferreds = heap.deferreds
  closed : made.2.Closed n
  known : known n made.1

theorem Closed.newArray (closed : heap.Closed n) {items : List Value}
    (issued : ∀ item ∈ items, item.Issued n) : heap.Makes n Value.Issued (heap.newArray items) :=
  ⟨rfl, { closed with arrays := closed.arrays.push issued }, trivial⟩

theorem Closed.newObject (closed : heap.Closed n) {entries : List (String × Value)}
    (issued : ∀ entry ∈ entries, entry.2.Issued n) :
    heap.Makes n Value.Issued (heap.newObject entries) :=
  ⟨rfl, { closed with objects := closed.objects.push (Fields.Issued.ofList issued) }, trivial⟩

theorem Closed.newFunction (closed : heap.Closed n) {function : Function φ}
    (issued : function.Issued n) : heap.Makes n Value.Issued (heap.newFunction function) :=
  ⟨rfl, { closed with functions := closed.functions.push issued }, trivial⟩

end Heap

mutual

/-- What comes from JSON has no deferred values in it. -/
theorem Value.makes_ofJson {n : Nat} :
    ∀ (json : Json) {heap : Heap φ η}, heap.Closed n →
      heap.Makes n Value.Issued (Value.ofJson json heap)
  | .null, _, closed => ⟨rfl, closed, trivial⟩
  | .bool _, _, closed => ⟨rfl, closed, trivial⟩
  | .number _, _, closed => ⟨rfl, closed, trivial⟩
  | .string _, _, closed => ⟨rfl, closed, trivial⟩
  | .array items, heap, closed => by
      have inner := makes_ofJsonItems items closed
      have outer := inner.closed.newArray inner.known
      exact ⟨outer.deferreds.trans inner.deferreds, outer.closed, outer.known⟩
  | .object fields, heap, closed => by
      have inner := makes_ofJsonFields fields closed
      have outer := inner.closed.newObject inner.known
      exact ⟨outer.deferreds.trans inner.deferreds, outer.closed, outer.known⟩

theorem Value.makes_ofJsonItems {n : Nat} :
    ∀ (items : List Json) {heap : Heap φ η}, heap.Closed n →
      heap.Makes n (fun n values => ∀ value ∈ values, value.Issued n)
        (Value.ofJsonItems items heap)
  | [], _, closed => ⟨rfl, closed, fun _ mem => absurd mem List.not_mem_nil⟩
  | item :: rest, heap, closed => by
      have first := makes_ofJson item closed
      have others := makes_ofJsonItems rest first.closed
      refine ⟨others.deferreds.trans first.deferreds, others.closed, ?_⟩
      exact List.forall_mem_cons.mpr ⟨first.known, others.known⟩

theorem Value.makes_ofJsonFields {n : Nat} :
    ∀ (fields : List (String × Json)) {heap : Heap φ η}, heap.Closed n →
      heap.Makes n (fun n entries => ∀ entry ∈ entries, entry.2.Issued n)
        (Value.ofJsonFields fields heap)
  | [], _, closed => ⟨rfl, closed, fun _ mem => absurd mem List.not_mem_nil⟩
  | (key, item) :: rest, heap, closed => by
      have first := makes_ofJson item closed
      have others := makes_ofJsonFields rest first.closed
      refine ⟨others.deferreds.trans first.deferreds, others.closed, ?_⟩
      exact List.forall_mem_cons.mpr ⟨first.known, others.known⟩

end

end Closed

/-! ## Orderly actions -/

/-- An action that changes a world by moves, leaves it closed, and results in issued values. -/
structure Eval.Orderly {φ η α : Type} [HostObjects φ η] [Holds φ] [Holds η]
    (known : Nat → α → Prop) (world : World φ η) (action : Eval φ η α) : Prop where
  reaches : ∃ trace, world.Reaches trace (action.run world).2
  closed : (action.run world).2.Closed
  known : ∀ value, (action.run world).1 = .ok value → known (action.run world).2.issued value

section Orderly

variable {φ η α β : Type} [HostObjects φ η] [Holds φ] [Holds η]
  {world : World φ η} {known : Nat → α → Prop} {known' : Nat → β → Prop}

namespace Eval

omit [HostObjects φ η] [Holds φ] [Holds η] in
theorem run_bind (action : Eval φ η α) (next : α → Eval φ η β) (world : World φ η) :
    (action >>= next).run world =
      match action.run world with
      | (.ok value, after) => (next value).run after
      | (.error error, after) => (.error error, after) := by
  show (let (result, after) := action.run world
    ExceptT.bindCont next result after) = _
  rcases action.run world with ⟨error | value, after⟩
  · rfl
  · rfl

namespace Orderly

/-- Only what an action does to the world and what it results in counts. -/
theorem of_run_eq {action other : Eval φ η α} (same : other.run world = action.run world)
    (orderly : Orderly known world action) : Orderly known world other := by
  obtain ⟨reaches, closed, issued⟩ := orderly
  rw [← same] at reaches closed issued
  exact ⟨reaches, closed, issued⟩

theorem pure {value : α} (closed : world.Closed) (issued : known world.issued value) :
    Orderly known world (Pure.pure value) where
  reaches := ⟨[], .refl⟩
  closed := closed
  known _ result := by
    cases result
    exact issued

theorem throw {error : EvalError} (closed : world.Closed) :
    Orderly known world (MonadExcept.throw error : Eval φ η α) where
  reaches := ⟨[], .refl⟩
  closed := closed
  known _ result := nomatch result

/-- One orderly action after another. What was issued for the first is issued for the second. -/
theorem bind {action : Eval φ η α} {next : α → Eval φ η β} (first : Orderly known world action)
    (second : ∀ value after, after.Closed → world.issued ≤ after.issued →
      known after.issued value → Orderly known' after (next value)) :
    Orderly known' world (action >>= next) := by
  obtain ⟨⟨trace, reaches⟩, closed, issued⟩ := first
  rcases result : action.run world with ⟨error | value, after⟩
  all_goals rw [result] at reaches closed issued
  · -- An error ends the evaluation, and what was done before it stays done.
    have run : (action >>= next).run world = (.error error, after) := by
      rw [run_bind, result]
    refine ⟨⟨trace, ?_⟩, ?_, ?_⟩
    · rw [run]
      exact reaches
    · rw [run]
      exact closed
    · rw [run]
      exact nofun
  · have run : (action >>= next).run world = (next value).run after := by
      rw [run_bind, result]
    obtain ⟨⟨more, onwards⟩, closed', issued'⟩ :=
      second value after closed reaches.issued_le (issued value rfl)
    refine ⟨⟨trace ++ more, ?_⟩, ?_, ?_⟩
    · rw [run]
      exact reaches.trans onwards
    · rw [run]
      exact closed'
    · rw [run]
      exact issued'

/-- Looking at the heap changes nothing. -/
theorem heap {next : Heap φ η → Eval φ η α} (orderly : Orderly known world (next world.heap)) :
    Orderly known world (Eval.heap >>= next) := by
  refine of_run_eq ?_ orderly
  rfl

theorem cache {next : Fields Value → Eval φ η α}
    (orderly : Orderly known world (next world.cache)) :
    Orderly known world (Eval.cache >>= next) := by
  refine of_run_eq ?_ orderly
  rfl

theorem ofExcept {result : Except EvalError α} (closed : world.Closed)
    (issued : ∀ value, result = .ok value → known world.issued value) :
    Orderly known world (Eval.ofExcept result) := by
  cases result with
  | error error => exact throw closed
  | ok value => exact pure closed (issued value rfl)

theorem ofOption {error : EvalError} {result : Option α} (closed : world.Closed)
    (issued : ∀ value, result = some value → known world.issued value) :
    Orderly known world (Eval.ofOption error result) := by
  cases result with
  | none => exact throw closed
  | some value => exact pure closed (issued value rfl)

/-- Changes of the heap that leave deferred values alone. -/
theorem allocate {make : Heap φ η → α × Heap φ η} (closed : world.Closed)
    (makes : world.heap.Makes world.issued known (make world.heap)) :
    Orderly known world (Eval.allocate make) := by
  have same : World.issued { world with heap := (make world.heap).2 } = world.issued :=
    congrArg Store.size makes.deferreds
  refine ⟨⟨[], .single (.arrange makes.deferreds rfl)⟩, ⟨?_, ?_⟩, ?_⟩
  · show (make world.heap).2.Closed (World.issued { world with heap := (make world.heap).2 })
    rw [same]
    exact makes.closed
  · show world.cache.Issued (World.issued { world with heap := (make world.heap).2 })
    rw [same]
    exact closed.cache
  · intro value result
    cases result
    show known (World.issued { world with heap := (make world.heap).2 }) _
    rw [same]
    exact makes.known

theorem modifyHeap {change : Heap φ η → Heap φ η} (closed : world.Closed)
    (deferreds : (change world.heap).deferreds = world.heap.deferreds)
    (changed : (change world.heap).Closed world.issued) :
    Orderly (fun _ _ => True) world (Eval.modifyHeap change) := by
  have same : World.issued { world with heap := change world.heap } = world.issued :=
    congrArg Store.size deferreds
  refine ⟨⟨[], .single (.arrange deferreds rfl)⟩, ⟨?_, ?_⟩, fun _ _ => trivial⟩
  · show (change world.heap).Closed (World.issued { world with heap := change world.heap })
    rw [same]
    exact changed
  · show world.cache.Issued (World.issued { world with heap := change world.heap })
    rw [same]
    exact closed.cache

theorem newArray {items : List Value} (closed : world.Closed)
    (issued : ∀ item ∈ items, item.Issued world.issued) :
    Orderly Value.Issued world (Eval.allocate (·.newArray items)) :=
  allocate closed (closed.heap.newArray issued)

theorem newObject {entries : List (String × Value)} (closed : world.Closed)
    (issued : ∀ entry ∈ entries, entry.2.Issued world.issued) :
    Orderly Value.Issued world (Eval.allocate (·.newObject entries)) :=
  allocate closed (closed.heap.newObject issued)

theorem appendItem {item : Value} (closed : world.Closed) (h : Handle .array)
    (issued : item.Issued world.issued) :
    Orderly (fun _ _ => True) world (Eval.modifyHeap (·.appendItem h item)) := by
  refine modifyHeap closed rfl { closed.heap with arrays := closed.heap.arrays.set _ ?_ }
  intro other mem
  rcases List.mem_append.mp mem with old | new
  · exact closed.heap.items h other old
  · rw [List.mem_singleton.mp new]
    exact issued

/-- Envelopes that answer nothing may be emitted. -/
theorem emit {envelope : Json} (closed : world.Closed)
    (silent : Envelope.answered? envelope = none) :
    Orderly (fun _ _ => True) world (Eval.emit envelope) :=
  ⟨⟨[], .single (.speak silent)⟩, ⟨closed.heap, closed.cache⟩, fun _ _ => trivial⟩

/-- A new deferred value is issued to whoever makes it. -/
theorem newDeferred {deferred : Deferred Completion} (closed : world.Closed)
    (unbound : deferred.isBound = false) (issued : deferred.Issued world.issued) :
    Orderly (fun n (h : Handle .deferred) => h.index < n) world
      (Eval.allocate (·.newDeferred deferred)) := by
  have size : World.issued { world with heap := (world.heap.newDeferred deferred).2 } =
      world.issued + 1 := Store.size_push _ deferred
  have le := Nat.le_succ world.issued
  -- What was issued before is issued still, and so is the new deferred value.
  have grown : (world.heap.newDeferred deferred).2.Closed (world.issued + 1) :=
    { closed.heap.later le with
      deferreds := (closed.heap.later le).deferreds.push (issued.later le) }
  refine ⟨⟨[], .single (.issue unbound)⟩, ⟨?_, ?_⟩, ?_⟩
  · show (world.heap.newDeferred deferred).2.Closed
      (World.issued { world with heap := (world.heap.newDeferred deferred).2 })
    rw [size]
    exact grown
  · show world.cache.Issued
      (World.issued { world with heap := (world.heap.newDeferred deferred).2 })
    rw [size]
    exact closed.cache.later le
  · intro h result
    cases result
    show world.issued < World.issued { world with heap := (world.heap.newDeferred deferred).2 }
    rw [size]
    exact Nat.lt_succ_self _

end Orderly

end Eval

end Orderly

/-! ## Lawful applications -/

/-- Host objects that keep to the moves. -/
class LawfulHosts (φ η : Type) [HostObjects φ η] [Holds φ] [Holds η] : Prop where
  get {world : World φ η} {code : η} (key : PropertyKey) :
    world.Closed → Holds.Issued world.issued code →
    Eval.Orderly Value.Issued world (HostObjects.get code key)
  set {world : World φ η} {code : η} {value : Value} (key : PropertyKey) :
    world.Closed → Holds.Issued world.issued code → value.Issued world.issued →
    Eval.Orderly (fun _ _ => True) world (HostObjects.set code key value)

/-- An application that keeps to the moves. -/
class LawfulModel (φ η : Type) [ObjectModel φ η] [Holds φ] [Holds η] : Prop
    extends LawfulHosts φ η where
  call {world : World φ η} {code : φ} {receiver : Value} {args : List Value} :
    world.Closed → Holds.Issued world.issued code → receiver.Issued world.issued →
    (∀ arg ∈ args, arg.Issued world.issued) →
    Eval.Orderly Value.Issued world (ObjectModel.call code receiver args)

open Eval (Orderly)

namespace Value

variable {φ η : Type} [Holds φ] [Holds η] {n : Nat}

theorem issued_ofInt (i : Int) : (ofInt i).Issued n := trivial

theorem issued_ofBinary64? (x : Option Binary64) : (ofBinary64? x).Issued n := by
  cases x with
  | none => trivial
  | some x => trivial

/-! ### Properties and calls -/

section Properties

variable [HostObjects φ η] {world : World φ η}

theorem issued_sequenceProperty {items : List Value} (issued : ∀ item ∈ items, item.Issued n)
    (key : PropertyKey) : (sequenceProperty items key).Issued n := by
  unfold sequenceProperty
  split
  · trivial
  · cases found : key.asIndex?.bind fun position => items[position]? with
    | none => trivial
    | some item =>
        obtain ⟨position, -, there⟩ := Option.bind_eq_some_iff.mp found
        exact issued item (List.mem_of_getElem? there)

theorem issued_assignItem {items after : List Value} {key : PropertyKey} {value : Value}
    (issued : ∀ item ∈ items, item.Issued n) (known : value.Issued n)
    (assigned : assignItem items key value = .ok after) : ∀ item ∈ after, item.Issued n := by
  unfold assignItem at assigned
  split at assigned
  case h_1 => cases assigned
  case h_2 position _ =>
    split at assigned
    case isTrue =>
      cases assigned
      intro item mem
      rcases List.mem_or_eq_of_mem_set mem with old | rfl
      · exact issued item old
      · exact known
    case isFalse =>
      split at assigned
      case isTrue => cases assigned
      case isFalse =>
        cases assigned
        intro item mem
        rcases List.mem_append.mp mem with before | new
        · rcases List.mem_append.mp before with old | gap
          · exact issued item old
          · rw [List.eq_of_mem_replicate gap]
            trivial
        · rw [List.mem_singleton.mp new]
          exact known

variable [LawfulHosts φ η]

theorem orderly_hostProperty (closed : world.Closed) (h : Handle .host) (key : PropertyKey) :
    Orderly Issued world (hostProperty h key) := by
  refine .heap ?_
  cases found : world.heap.host? h with
  | none => exact .pure closed trivial
  | some host =>
      have issued := closed.heap.hosts.get? found
      cases host with
      | bag label properties => exact .pure closed (Fields.Issued.find? issued _)
      | custom code => exact LawfulHosts.get key closed issued

theorem orderly_setHostProperty (closed : world.Closed) (h : Handle .host) (key : PropertyKey)
    {value : Value} (known : value.Issued world.issued) :
    Orderly (fun _ _ => True) world (setHostProperty h key value) := by
  refine .heap ?_
  cases found : world.heap.host? h with
  | none => exact .pure closed trivial
  | some host =>
      have issued := closed.heap.hosts.get? found
      cases host with
      | bag label properties =>
          refine .modifyHeap closed rfl ?_
          have stored : HostObject.Issued world.issued
              (.bag label (Fields.insert key.asName value properties) : HostObject η) :=
            Fields.Issued.insert issued _ known
          exact { closed.heap with hosts := closed.heap.hosts.set _ stored }
      | custom code => exact LawfulHosts.set key closed issued known

theorem orderly_getIndex {target : Value} (closed : world.Closed) (index : Value) :
    Orderly Issued world (target.getIndex index) := by
  have named : Orderly (fun _ _ => True) world (Eval.ofExcept (index.toKey world.heap)) :=
    .ofExcept closed fun _ _ => trivial
  refine .heap (named.bind fun key after closed' le _ => ?_)
  cases target with
  | array h =>
      refine .pure closed' (issued_sequenceProperty (fun item mem => ?_) key)
      exact (closed.heap.items h item mem).later le
  | object h => exact .pure closed' (((closed.heap.fields h).find? key.asName).later le)
  | text content =>
      refine .pure closed' (issued_sequenceProperty (fun item mem => ?_) key)
      obtain ⟨c, -, rfl⟩ := List.mem_map.mp mem
      trivial
  | bytes content =>
      refine .pure closed' (issued_sequenceProperty (fun item mem => ?_) key)
      obtain ⟨byte, -, rfl⟩ := List.mem_map.mp mem
      trivial
  | host h => exact orderly_hostProperty closed' h key
  | _ => exact .throw closed'

theorem orderly_setIndex {target value : Value} (closed : world.Closed) (index : Value)
    (known : value.Issued world.issued) :
    Orderly (fun _ _ => True) world (target.setIndex index value) := by
  have named : Orderly (fun _ _ => True) world (Eval.ofExcept (index.toKey world.heap)) :=
    .ofExcept closed fun _ _ => trivial
  refine .heap (named.bind fun key after closed' le _ => ?_)
  have known' := known.later le
  cases target with
  | array h =>
      have assigned : Orderly (fun n items => ∀ item ∈ items, Issued n item) after
          (Eval.ofExcept (assignItem (world.heap.items h) key value)) :=
        .ofExcept closed' fun items assigned => issued_assignItem
          (fun item mem => (closed.heap.items h item mem).later le) known' assigned
      refine assigned.bind fun items last closed'' le' issued => ?_
      exact .modifyHeap closed'' rfl
        { closed''.heap with arrays := closed''.heap.arrays.set _ issued }
  | object h =>
      have issued := ((closed.heap.fields h).later le).insert key.asName known'
      exact .modifyHeap closed' rfl
        { closed'.heap with objects := closed'.heap.objects.set _ issued }
  | host h => exact orderly_setHostProperty closed' h key known'
  | _ => exact .throw closed'

end Properties

section Calls

variable {world : World φ η} {callee receiver : Value} {args : List Value}

/-- A callback speaks to the controller, but what it says is no answer. -/
theorem orderly_callBack [HostObjects φ η] (closed : world.Closed) (id : String) (depth : Int)
    (args : List Value) : Orderly Issued world (callBack id depth args) := by
  refine .heap ?_
  have spoken : Orderly (fun _ _ => True) world
      (Eval.emit (Envelope.callback id (args.map (toJson world.heap depth)))) :=
    .emit closed (Envelope.answered?_callback _ _)
  refine spoken.bind fun _ after closed' le _ => ?_
  exact .allocate closed' (makes_ofJson _ closed'.heap)

theorem orderly_callWith [HostObjects φ η] {native : φ → Value → List Value → Eval φ η Value}
    (closed : world.Closed)
    (lawful : ∀ code, Holds.Issued world.issued code →
      Orderly Issued world (native code receiver args)) :
    Orderly Issued world (callWith native callee receiver args) := by
  refine .heap ?_
  cases callee with
  | function h =>
      dsimp only
      cases found : world.heap.function? h with
      | none =>
          exact .pure closed trivial
      | some function =>
          have issued := closed.heap.functions.get? found
          obtain ⟨name, body⟩ := function
          cases body with
          | native code =>
              exact lawful code issued
          | callback id depth =>
              exact orderly_callBack closed id depth args
  | _ => exact .throw closed

theorem orderly_call [ObjectModel φ η] [LawfulModel φ η] (closed : world.Closed)
    (receiver_issued : receiver.Issued world.issued)
    (args_issued : ∀ arg ∈ args, arg.Issued world.issued) :
    Orderly Issued world (callee.call receiver args) :=
  orderly_callWith closed fun _ issued =>
    LawfulModel.call closed issued receiver_issued args_issued

end Calls

end Value

/-! ### Commands -/

/-- Both parts of a bound value were issued. -/
def Bound.Issued (n : Nat) (bound : Bound) : Prop :=
  bound.receiver.Issued n ∧ bound.value.Issued n

theorem Bound.Issued.later {n m : Nat} (le : n ≤ m) {bound : Bound} (issued : bound.Issued n) :
    bound.Issued m :=
  ⟨issued.1.later le, issued.2.later le⟩

namespace Command

variable {φ η : Type} [Holds φ] [Holds η] {world : World φ η} {context : Context}

theorem orderly_require [HostObjects φ η] (closed : world.Closed) (position : Position)
    {result : Bound} (issued : result.Issued world.issued) :
    Orderly Bound.Issued world (require position result) := by
  refine .heap ?_
  split
  case isTrue => exact .pure closed issued
  case isFalse => exact .throw closed

/-- A value that belongs to no object is bound to the root, which was issued before. -/
theorem orderly_unbound [HostObjects φ η] {action : Eval φ η Value}
    (root : context.root.Issued world.issued) (orderly : Orderly Value.Issued world action) :
    Orderly Bound.Issued world (return context.unbound (← action)) :=
  orderly.bind fun _ _ closed le issued => .pure closed ⟨root.later le, issued⟩

section Evaluate

variable [ObjectModel φ η]

mutual

/-- **Evaluation is orderly**: it changes a closed world by moves, leaves it closed, and results in
issued values. -/
theorem evaluate_orderly [LawfulModel φ η] (context : Context) :
    ∀ (command : Command) {world : World φ η}, world.Closed → context.root.Issued world.issued →
      Orderly Bound.Issued world (command.evaluate context)
  | .literal value, world, closed, root => by
      rw [evaluate]
      exact orderly_unbound root (.allocate closed (Value.makes_ofJson value closed.heap))
  | .bytes hex, world, closed, root => by
      rw [evaluate]
      refine orderly_unbound root (.ofExcept closed fun value decoded => ?_)
      unfold decodeBytes at decoded
      split at decoded
      · cases decoded
        trivial
      · cases decoded
  | .map entries, world, closed, root => by
      rw [evaluate]
      refine (evaluateFields_orderly context entries closed root).bind ?_
      intro values after closed le issued
      exact orderly_unbound (root.later le) (.newObject closed issued)
  | .sequence items, world, closed, root => by
      rw [evaluate]
      refine (evaluateItems_orderly context items closed root).bind ?_
      intro values after closed le issued
      exact orderly_unbound (root.later le) (.newArray closed issued)
  | .reference id, world, closed, root => by
      rw [evaluate]
      refine orderly_unbound root (.cache (.ofOption closed fun value found => ?_))
      exact closed.cache _ (Fields.mem_of_find? found)
  | .get target index, world, closed, root => by
      rw [evaluate]
      refine (evaluate_orderly context target closed root).bind ?_
      intro target after₁ closed le₁ issued
      refine (orderly_require closed .target issued).bind ?_
      intro target after₂ closed le₂ issued
      refine (evaluate_orderly context index closed (root.later (Nat.le_trans le₁ le₂))).bind ?_
      intro index after₃ closed le₃ _
      refine (Value.orderly_getIndex closed index.value).bind ?_
      intro value after₄ closed le₄ known
      exact .pure closed ⟨issued.2.later (Nat.le_trans le₃ le₄), known⟩
  | .call callable args, world, closed, root => by
      rw [evaluate]
      refine (evaluate_orderly context callable closed root).bind ?_
      intro callable after₁ closed le₁ issued
      refine (orderly_require closed .callable issued).bind ?_
      intro callable after₂ closed le₂ issued
      have root := root.later (Nat.le_trans le₁ le₂)
      refine (evaluateItems_orderly context args closed root).bind ?_
      intro args after₃ closed le₃ known
      refine (Value.orderly_call closed (issued.1.later le₃) known).bind ?_
      intro value after₄ closed le₄ known
      exact .pure closed ⟨root.later (Nat.le_trans le₃ le₄), known⟩
  | .callback id depth, world, closed, root => by
      rw [evaluate]
      exact orderly_unbound root (.allocate closed (closed.heap.newFunction trivial))
  | .set target index value, world, closed, root => by
      rw [evaluate]
      refine (evaluate_orderly context target closed root).bind ?_
      intro target after₁ closed le₁ issued
      refine (orderly_require closed .target issued).bind ?_
      intro target after₂ closed le₂ issued
      have root := root.later (Nat.le_trans le₁ le₂)
      refine (evaluate_orderly context index closed root).bind ?_
      intro index after₃ closed le₃ _
      refine (evaluate_orderly context value closed (root.later le₃)).bind ?_
      intro value after₄ closed le₄ known
      refine (Value.orderly_setIndex closed index.value known.2).bind ?_
      intro _ after₅ closed le₅ _
      exact .pure closed (issued.later (Nat.le_trans (Nat.le_trans le₃ le₄) le₅))

theorem evaluateItems_orderly [LawfulModel φ η] (context : Context) :
    ∀ (items : List Command) {world : World φ η}, world.Closed →
      context.root.Issued world.issued →
      Orderly (fun n values => ∀ value ∈ values, value.Issued n) world
        (evaluateItems context items)
  | [], world, closed, root => by
      rw [evaluateItems]
      exact .pure closed fun _ mem => absurd mem List.not_mem_nil
  | item :: rest, world, closed, root => by
      rw [evaluateItems]
      refine (evaluate_orderly context item closed root).bind ?_
      intro item after₁ closed le₁ issued
      refine (evaluateItems_orderly context rest closed (root.later le₁)).bind ?_
      intro values after₂ closed le₂ others
      exact .pure closed (List.forall_mem_cons.mpr ⟨issued.2.later le₂, others⟩)

theorem evaluateFields_orderly [LawfulModel φ η] (context : Context) :
    ∀ (entries : List (String × Command)) {world : World φ η}, world.Closed →
      context.root.Issued world.issued →
      Orderly (fun n entries => ∀ entry ∈ entries, entry.2.Issued n) world
        (evaluateFields context entries)
  | [], world, closed, root => by
      rw [evaluateFields]
      exact .pure closed fun _ mem => absurd mem List.not_mem_nil
  | (name, node) :: rest, world, closed, root => by
      rw [evaluateFields]
      refine (evaluate_orderly context node closed root).bind ?_
      intro node after₁ closed le₁ issued
      refine (evaluateFields_orderly context rest closed (root.later le₁)).bind ?_
      intro entries after₂ closed le₂ others
      exact .pure closed (List.forall_mem_cons.mpr ⟨issued.2.later le₂, others⟩)

end

end Evaluate

end Command

/-! ## Sessions keep worlds closed -/

namespace Deferred

variable {n : Nat} {d : Deferred Completion}
  {next : Deferred Completion × Option (DueRun Completion)}

/-- The state and the run that an operation leads to are made of issued values. -/
def Issues (n : Nat) (next : Deferred Completion × Option (DueRun Completion)) : Prop :=
  next.1.Issued n ∧ ∀ run, next.2 = some run → run.settlement.Issued n

theorem issues_settle {settlement : Settlement} (issued : settlement.Issued n)
    (settled : d.settle settlement = .ok next) : Issues n next := by
  unfold settle at settled
  split at settled
  case h_1 =>
    cases settled
    exact ⟨issued, nofun⟩
  case h_2 =>
    cases settled
    refine ⟨trivial, fun run due => ?_⟩
    cases due
    exact issued
  case h_3 => cases settled
  case h_4 => cases settled

theorem issues_bind {completion : Completion} (issued : d.Issued n)
    (bound : d.bind completion = .ok next) : Issues n next := by
  unfold bind at bound
  split at bound
  case h_1 =>
    cases bound
    exact ⟨trivial, nofun⟩
  case h_2 settlement early =>
    cases bound
    refine ⟨trivial, fun run due => ?_⟩
    cases due
    unfold Deferred.Issued at issued
    rw [early] at issued
    exact issued
  case h_3 => cases bound
  case h_4 => cases bound

end Deferred

namespace World.Closed

variable {φ η : Type} [Holds φ] [Holds η] {world after : World φ η}

theorem report (closed : world.Closed) (text : String) (id : Option String) :
    (world.report text id).Closed :=
  ⟨closed.heap, closed.cache⟩

variable [HostObjects φ η]

theorem complete {run : DueRun Completion} (closed : world.Closed)
    (issued : run.settlement.Issued world.issued) : (world.complete run).Closed := by
  obtain ⟨completion, settlement⟩ := run
  cases settlement with
  | rejected text => cases completion <;> exact closed.report text _
  | resolved value =>
      cases completion with
      | discard => exact closed
      | reply id depth => exact ⟨closed.heap, closed.cache⟩
      | store id => exact ⟨closed.heap, closed.cache.insert id issued⟩

theorem proceed {h : Handle .deferred}
    {next : Deferred Completion × Option (DueRun Completion)} (closed : world.Closed)
    (issues : Deferred.Issues world.issued next) : (world.proceed h next).Closed := by
  obtain ⟨d, due⟩ := next
  have same : issued { world with heap := world.heap.setDeferred h d } = world.issued :=
    Store.size_set _ _ _
  -- The state is replaced before the run that is due, so the run finds a closed world.
  have put : Closed { world with heap := world.heap.setDeferred h d } := by
    constructor
    · rw [same]
      exact { closed.heap with deferreds := closed.heap.deferreds.set _ issues.1 }
    · rw [same]
      exact closed.cache
  cases due with
  | none => exact put
  | some run => exact put.complete (by rw [same]; exact issues.2 run rfl)

theorem settle {h : Handle .deferred} {settlement : Settlement} (closed : world.Closed)
    (issued : settlement.Issued world.issued) (settled : world.settle h settlement = .ok after) :
    after.Closed := by
  rcases settle_cases settled with rfl | ⟨d, next, found, result, rfl⟩
  · exact closed
  · exact closed.proceed (Deferred.issues_settle issued result)

theorem bindDeferred {h : Handle .deferred} {completion : Completion} (closed : world.Closed)
    (bound : world.bindDeferred h completion = .ok after) : after.Closed := by
  rcases bindDeferred_cases bound with ⟨-, rfl⟩ | ⟨d, next, found, result, rfl⟩
  · exact closed
  · exact closed.proceed (Deferred.issues_bind (closed.heap.deferreds.get? found) result)

end World.Closed

end RemoteAgent
