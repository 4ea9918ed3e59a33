import Mathlib.Data.List.Basic
import RemoteAgent.Proofs.Conduct
import RemoteAgent.Sample

/-!
# Assignments

An assignment names a target, a key and a value.  The target may be an array, an object or a bag of
properties, the key any scalar, and several keys name one slot: `5`, `5.0`, `"5"` and `"+5"` are one
position of an array, but the last is another property of an object than the first three.  The value
may be the target itself.  Here it is shown what an assignment comes to, whatever is in the heap
(`Value.setIndex_lawful`): the slot reads as the value, every other slot reads as before, no other
cell is touched, and an assignment that fails touches none at all.

A target is looked at by what it holds, items in a row or entries under names (`Contents`), so that
the law of reading after writing is proved once for the two shapes and once for the cells that have
them.  An array is the shape with an exception: its length is read under a key that is no slot, and
an assignment behind the end changes it.

A handle is all there is to an alias.  So a value that is reached in another way and turns out to be
the target reads what the target reads.

## Main definitions

* `Contents`: what a target of assignments holds.
* `Contents.SameSlot`: two keys name one slot.
* `Heap.SameBut`: two heaps that differ in what one target holds.
* `Value.Assigned`: what an assignment has done to a world.
-/

namespace RemoteAgent

variable {φ η : Type}

/-! ## Keys -/

/-- The key `length` is no position. -/
theorem PropertyKey.asIndex?_of_isLength {key : PropertyKey} (length : key.isLength = true) :
    key.asIndex? = none := by
  cases key with
  | index position => cases length
  | name text =>
      have same : text = "length" := of_decide_eq_true length
      subst same
      decide

namespace Value

variable [HostObjects φ η]

/-- Which key a value names does not depend on the heap. -/
theorem toKey_of_ok {heap : Heap φ η} {index : Value} {key : PropertyKey}
    (named : index.toKey heap = .ok key) (other : Heap φ η) : index.toKey other = .ok key := by
  cases index with
  | text content => exact named
  | number value => exact named
  | bool flag => exact named
  | null => exact named
  | _ => cases named

/-- Whether a value names a key does not depend on the heap, and one that names none is reported
as an invalid key. -/
theorem toKey_of_error {heap : Heap φ η} {index : Value} {error : EvalError}
    (unnamed : index.toKey heap = .error error) (other : Heap φ η) :
    index.toKey other = .error (.invalidKey (index.describe other)) := by
  cases index with
  | text content => cases unnamed
  | number value => cases unnamed
  | bool flag => cases unnamed
  | null => cases unnamed
  | _ => rfl

end Value

/-! ## Items in a row -/

namespace Value

/-- The item at a position; what is not there reads as null. -/
def itemAt (items : List Value) (position : Nat) : Value := items[position]?.getD .null

theorem sequenceProperty_of_asIndex? {items : List Value} {key : PropertyKey} {position : Nat}
    (pointsAt : key.asIndex? = some position) :
    sequenceProperty items key = itemAt items position := by
  have other : ¬ key.isLength = true := by
    intro length
    rw [PropertyKey.asIndex?_of_isLength length] at pointsAt
    cases pointsAt
  unfold sequenceProperty
  rw [if_neg other, pointsAt]
  rfl

theorem sequenceProperty_of_isLength {items : List Value} {key : PropertyKey}
    (length : key.isLength = true) : sequenceProperty items key = .ofNat items.length := by
  unfold sequenceProperty
  rw [if_pos length]

/-- A key that is neither a position nor the length reads as null. -/
theorem sequenceProperty_of_none {items : List Value} {key : PropertyKey}
    (nowhere : key.asIndex? = none) (other : ¬ key.isLength = true) :
    sequenceProperty items key = .null := by
  unfold sequenceProperty
  rw [if_neg other, nowhere]
  rfl

/-- Items before and after a value was put at a position. -/
structure Placed (items : List Value) (position : Nat) (value : Value) (after : List Value) :
    Prop where
  self : itemAt after position = value
  others : ∀ other, other ≠ position → itemAt after other = itemAt items other
  length : after.length = max items.length (position + 1)
  /-- The gap is bounded, and the item comes on top of it. -/
  growth : after.length ≤ items.length + (greatestGap + 1)

/-- An item is replaced. -/
theorem placed_set {items : List Value} {position : Nat} (inside : position < items.length)
    (value : Value) : Placed items position value (items.set position value) where
  self := by simp [itemAt, inside]
  others other ne := by
    unfold itemAt
    rw [List.getElem?_set_ne ne.symm]
  length := by
    rw [List.length_set]
    omega
  growth := by
    rw [List.length_set]
    omega

/-- An item is put behind the end, and nulls before it. -/
theorem placed_append {items : List Value} {position : Nat} (outside : items.length ≤ position)
    (near : position - items.length ≤ greatestGap) (value : Value) :
    Placed items position value
      (items ++ List.replicate (position - items.length) .null ++ [value]) where
  self := by
    have padded : (items ++ List.replicate (position - items.length) Value.null).length =
        position := by
      rw [List.length_append, List.length_replicate]
      omega
    unfold itemAt
    rw [List.getElem?_append_right (Nat.le_of_eq padded), padded, Nat.sub_self]
    rfl
  others other ne := by
    -- A position is that of an old item, in the gap, or behind the new end.
    unfold itemAt
    rcases Nat.lt_or_ge other items.length with old | new
    · rw [List.append_assoc, List.getElem?_append_left old]
    · rw [List.getElem?_eq_none new, List.append_assoc, List.getElem?_append_right new]
      rcases Nat.lt_or_ge other position with gap | behind
      · have within : other - items.length < position - items.length := by omega
        rw [List.getElem?_append_left (by rw [List.length_replicate]; exact within),
          List.getElem?_replicate_of_lt within]
        rfl
      · rw [List.getElem?_eq_none]
        rw [List.length_append, List.length_replicate, List.length_singleton]
        omega
  length := by
    rw [List.length_append, List.length_append, List.length_replicate, List.length_singleton]
    omega
  growth := by
    rw [List.length_append, List.length_append, List.length_replicate, List.length_singleton]
    omega

/-- An assignment to an array that succeeds puts the value at the position that the key names. -/
theorem placed_of_assignItem {items after : List Value} {key : PropertyKey} {value : Value}
    (done : assignItem items key value = .ok after) :
    ∃ position, key.asIndex? = some position ∧ Placed items position value after := by
  unfold assignItem at done
  split at done
  case h_1 => cases done
  case h_2 position pointsAt =>
    refine ⟨position, pointsAt, ?_⟩
    split at done
    case isTrue inside =>
      cases done
      exact placed_set inside value
    case isFalse outside =>
      split at done
      case isTrue => cases done
      case isFalse near =>
        cases done
        exact placed_append (Nat.le_of_not_lt outside) (Nat.le_of_not_lt near) value

end Value

/-! ## Contents -/

/-- What a target of assignments holds. -/
inductive Contents where
  /-- Items in a row. -/
  | sequence (items : List Value)
  /-- Entries under names. -/
  | record (entries : Fields Value)
  deriving DecidableEq

namespace Contents

/-- What is read under a key. -/
def read : Contents → PropertyKey → Value
  | sequence items, key => Value.sequenceProperty items key
  | record entries, key => (Fields.find? key.asName entries).getD .null

/-- The contents after an assignment. -/
def write : Contents → PropertyKey → Value → Except EvalError Contents
  | sequence items, key, value => (Value.assignItem items key value).map sequence
  | record entries, key, value => .ok (record (Fields.insert key.asName value entries))

/-- Two keys name one slot: a position of a sequence, or a name in a record. -/
def SameSlot : Contents → PropertyKey → PropertyKey → Prop
  | sequence _, key, other => ∃ position, key.asIndex? = some position ∧
      other.asIndex? = some position
  | record _, key, other => key.asName = other.asName

/-- A key asks for the length. A record has none but what is stored under that name. -/
def AsksLength : Contents → PropertyKey → Prop
  | sequence _, key => key.isLength = true
  | record _, _ => False

variable {contents after : Contents} {key : PropertyKey} {value : Value}

/-- What a sequence holds after an assignment. -/
theorem placed_of_write {items : List Value}
    (done : (sequence items).write key value = .ok after) :
    ∃ position others, key.asIndex? = some position ∧ after = sequence others ∧
      Value.Placed items position value others := by
  change (Value.assignItem items key value).map sequence = .ok after at done
  cases assigned : Value.assignItem items key value with
  | error error =>
      rw [assigned] at done
      cases done
  | ok others =>
      rw [assigned] at done
      cases done
      obtain ⟨position, pointsAt, placed⟩ := Value.placed_of_assignItem assigned
      exact ⟨position, others, pointsAt, rfl, placed⟩

/-- A key that was assigned to names a slot. -/
theorem sameSlot_of_write (done : contents.write key value = .ok after) :
    contents.SameSlot key key := by
  cases contents with
  | sequence items =>
      obtain ⟨position, _, pointsAt, -⟩ := placed_of_write done
      exact ⟨position, pointsAt, pointsAt⟩
  | record entries => rfl

/-- What was assigned is read under every key that names the slot. -/
theorem read_write_of_same {other : PropertyKey} (done : contents.write key value = .ok after)
    (same : contents.SameSlot key other) : after.read other = value := by
  cases contents with
  | sequence items =>
      obtain ⟨position, others, pointsAt, rfl, placed⟩ := placed_of_write done
      obtain ⟨slot, named, again⟩ := same
      rw [pointsAt] at named
      cases named
      exact (Value.sequenceProperty_of_asIndex? again).trans placed.self
  | record entries =>
      cases done
      have same : key.asName = other.asName := same
      unfold read
      dsimp only
      rw [← same, Fields.find?_insert_self]
      rfl

/-- Every other slot is read as before. -/
theorem read_write_of_not_same {other : PropertyKey}
    (done : contents.write key value = .ok after) (apart : ¬ contents.SameSlot key other)
    (noLength : ¬ contents.AsksLength other) : after.read other = contents.read other := by
  cases contents with
  | sequence items =>
      obtain ⟨position, others, pointsAt, rfl, placed⟩ := placed_of_write done
      show Value.sequenceProperty others other = Value.sequenceProperty items other
      cases named : other.asIndex? with
      | none =>
          rw [Value.sequenceProperty_of_none named noLength,
            Value.sequenceProperty_of_none named noLength]
      | some slot =>
          have ne : slot ≠ position := by
            rintro rfl
            exact apart ⟨slot, pointsAt, named⟩
          rw [Value.sequenceProperty_of_asIndex? named, Value.sequenceProperty_of_asIndex? named,
            placed.others slot ne]
  | record entries =>
      cases done
      have ne : other.asName ≠ key.asName := fun same => apart same.symm
      unfold read
      dsimp only
      rw [Fields.find?_insert_of_ne ne]

end Contents

/-! ## Cells -/

namespace Heap

/-- A value is an array, object or bag of a heap, and this is what it holds. -/
inductive Contains (heap : Heap φ η) : Value → Contents → Prop where
  | array {h : Handle .array} {items : List Value}
      (cell : heap.arrays.get? h.index = some items) :
      Contains heap (.array h) (.sequence items)
  | object {h : Handle .object} {entries : Fields Value}
      (cell : heap.objects.get? h.index = some entries) :
      Contains heap (.object h) (.record entries)
  | bag {h : Handle .host} {label : String} {properties : Fields Value}
      (cell : heap.host? h = some (.bag label properties)) :
      Contains heap (.host h) (.record properties)

/-- Two heaps with the same cells, but for what one target holds.  Bags keep their labels. -/
structure SameBut (target : Value) (heap after : Heap φ η) : Prop where
  arrays : ∀ h, .array h ≠ target → after.arrays.get? h.index = heap.arrays.get? h.index
  objects : ∀ h, .object h ≠ target → after.objects.get? h.index = heap.objects.get? h.index
  hosts : ∀ h, .host h ≠ target → after.host? h = heap.host? h
  functions : after.functions = heap.functions
  deferreds : after.deferreds = heap.deferreds
  labels : ∀ h label properties, heap.host? h = some (.bag label properties) →
    ∃ others, after.host? h = some (.bag label others)

variable {heap : Heap φ η}

theorem items_of_cell {h : Handle .array} {items : List Value}
    (cell : heap.arrays.get? h.index = some items) : heap.items h = items := by
  rw [Heap.items, cell]
  rfl

theorem fields_of_cell {h : Handle .object} {entries : Fields Value}
    (cell : heap.objects.get? h.index = some entries) : heap.fields h = entries := by
  rw [Heap.fields, cell]
  rfl

/-- A cell that is there is the one that an update replaces. -/
theorem get?_set_of_cell {α : Type} {store : Store α} {index : Nat} {cell : α}
    (here : store.get? index = some cell) (other : α) :
    (store.set index other).get? index = some other :=
  Store.get?_set_self (Store.lt_size_of_get? here) other

theorem sameBut_setItems (h : Handle .array) (items : List Value) :
    SameBut (.array h) heap (heap.setItems h items) where
  arrays other ne := by
    refine Store.get?_set_of_ne ?_ heap.arrays items
    intro same
    exact ne (congrArg (fun index => Value.array ⟨index⟩) same)
  objects _ _ := rfl
  hosts _ _ := rfl
  functions := rfl
  deferreds := rfl
  labels _ _ properties found := ⟨properties, found⟩

theorem sameBut_setFields (h : Handle .object) (entries : Fields Value) :
    SameBut (.object h) heap (heap.setFields h entries) where
  arrays _ _ := rfl
  objects other ne := by
    refine Store.get?_set_of_ne ?_ heap.objects entries
    intro same
    exact ne (congrArg (fun index => Value.object ⟨index⟩) same)
  hosts _ _ := rfl
  functions := rfl
  deferreds := rfl
  labels _ _ properties found := ⟨properties, found⟩

theorem sameBut_setHost {h : Handle .host} {label : String} {properties : Fields Value}
    (here : heap.host? h = some (.bag label properties)) (others : Fields Value) :
    SameBut (.host h) heap (heap.setHost h (.bag label others)) := by
  have apart : ∀ other : Handle .host, .host other ≠ Value.host h →
      (heap.setHost h (.bag label others)).host? other = heap.host? other := by
    intro other ne
    refine Store.get?_set_of_ne ?_ heap.hosts _
    intro same
    exact ne (congrArg (fun index => Value.host ⟨index⟩) same)
  refine ⟨fun _ _ => rfl, fun _ _ => rfl, apart, rfl, rfl, ?_⟩
  intro other name entries found
  by_cases same : .host other = Value.host h
  · cases same
    rw [here] at found
    cases found
    exact ⟨others, get?_set_of_cell here _⟩
  · exact ⟨entries, (apart other same).trans found⟩

end Heap

/-! ## Reading and assigning -/

/-- An object that says nothing about assignments: it refuses them all. -/
def HostObjects.RefusesAll (φ : Type) {η : Type} [HostObjects φ η] (code : η) : Prop :=
  ∀ key value, (HostObjects.set code key value : Eval φ η Unit) = do
    throw (.notAssignable (.hostProperty (HostObjects.describe (← Eval.heap) code) key))

/-- What an action results in, with the world that it leaves. -/
theorem Eval.run_of_fst {α : Type} {action : Eval φ η α} {world : World φ η}
    {result : Except EvalError α} (first : (action.run world).1 = result) :
    action.run world = (result, (action.run world).2) := by
  rw [← first]
  exact (Prod.eta _).symm

namespace Value

variable [HostObjects φ η] {α : Type} {target index value : Value} {world after : World φ η}
  {contents : Contents} {key : PropertyKey}

/-- The key is looked at first. -/
theorem run_keyed (index : Value) (next : Heap φ η → PropertyKey → Eval φ η α)
    (world : World φ η) :
    (Eval.heap >>= fun heap => Eval.ofExcept (index.toKey heap) >>= next heap).run world =
      match index.toKey world.heap with
      | .ok key => (next world.heap key).run world
      | .error error => (.error error, world) := by
  show (Eval.ofExcept (index.toKey world.heap) >>= next world.heap).run world = _
  rw [Eval.run_bind]
  cases index.toKey world.heap with
  | error error => rfl
  | ok key => rfl

/-- Reading a property of a host object, by what the object is. -/
theorem run_hostProperty (h : Handle .host) (key : PropertyKey) (world : World φ η) :
    (hostProperty h key).run world =
      match world.heap.host? h with
      | some (.bag _ properties) =>
        (.ok ((Fields.find? key.asName properties).getD .null), world)
      | some (.custom code) => (HostObjects.get code key).run world
      | none => (.ok .null, world) := by
  show (match world.heap.host? h with
    | some (.bag _ properties) => return (Fields.find? key.asName properties).getD .null
    | some (.custom code) => HostObjects.get code key
    | none => return .null : Eval φ η Value).run world = _
  cases world.heap.host? h with
  | none => rfl
  | some host =>
      cases host with
      | bag label properties => rfl
      | custom code => rfl

theorem run_hostProperty_of_bag {h : Handle .host} {label : String} {properties : Fields Value}
    (cell : world.heap.host? h = some (.bag label properties)) (key : PropertyKey) :
    (hostProperty h key).run world =
      (.ok ((Fields.find? key.asName properties).getD .null), world) := by
  rw [run_hostProperty, cell]

/-- Assigning a property of a host object, by what the object is. -/
theorem run_setHostProperty (h : Handle .host) (key : PropertyKey) (value : Value)
    (world : World φ η) :
    (setHostProperty h key value).run world =
      match world.heap.host? h with
      | some (.bag label properties) =>
        (.ok (), { world with
          heap := world.heap.setHost h (.bag label (Fields.insert key.asName value properties)) })
      | some (.custom code) => (HostObjects.set code key value).run world
      | none => (.ok (), world) := by
  show (match world.heap.host? h with
    | some (.bag label properties) =>
      Eval.modifyHeap (·.setHost h (.bag label (Fields.insert key.asName value properties)))
    | some (.custom code) => HostObjects.set code key value
    | none => return : Eval φ η Unit).run world = _
  cases world.heap.host? h with
  | none => rfl
  | some host =>
      cases host with
      | bag label properties => rfl
      | custom code => rfl

/-- Reading shows what a target holds. -/
theorem run_getIndex (here : world.heap.Contains target contents)
    (named : index.toKey world.heap = .ok key) :
    (target.getIndex index).run world = (.ok (contents.read key), world) := by
  refine (run_keyed index _ world).trans ?_
  rw [named]
  cases here with
  | array cell =>
      rw [← Heap.items_of_cell cell]
      rfl
  | object cell =>
      rw [← Heap.fields_of_cell cell]
      rfl
  | bag cell => exact run_hostProperty_of_bag cell key

section Targets

variable (named : index.toKey world.heap = .ok key)

include named

theorem run_setIndex_array (h : Handle .array) (value : Value) :
    ((array h).setIndex index value).run world =
      match assignItem (world.heap.items h) key value with
      | .ok items => (.ok (), { world with heap := world.heap.setItems h items })
      | .error error => (.error error, world) := by
  refine (run_keyed index _ world).trans ?_
  rw [named]
  refine (Eval.run_bind _ _ _).trans ?_
  cases assignItem (world.heap.items h) key value with
  | ok items => rfl
  | error error => rfl

theorem run_setIndex_object (h : Handle .object) (value : Value) :
    ((object h).setIndex index value).run world =
      (.ok (), { world with
        heap := world.heap.setFields h
          (Fields.insert key.asName value (world.heap.fields h)) }) := by
  refine (run_keyed index _ world).trans ?_
  rw [named]
  rfl

theorem run_setIndex_host (h : Handle .host) (value : Value) :
    ((host h).setIndex index value).run world = (setHostProperty h key value).run world := by
  refine (run_keyed index _ world).trans ?_
  rw [named]

end Targets

/-- An assignment that fails has not touched anything, unless code of the application did: the
target is a host object with its own way of taking assignments. -/
theorem world_of_setIndex_error {error : EvalError}
    (refuses : ∀ h code, target = .host h → world.heap.host? h = some (.custom code) →
      HostObjects.RefusesAll φ code)
    (failed : (target.setIndex index value).run world = (.error error, after)) :
    after = world := by
  cases named : index.toKey world.heap with
  | error invalid =>
      have run := failed.symm.trans (run_keyed index _ world)
      rw [named] at run
      exact congrArg Prod.snd run
  | ok key =>
      cases target with
      | array h =>
          rw [run_setIndex_array named] at failed
          split at failed
          case h_1 => cases failed
          case h_2 =>
            cases failed
            rfl
      | object h =>
          rw [run_setIndex_object named] at failed
          cases failed
      | host h =>
          rw [run_setIndex_host named, run_setHostProperty] at failed
          split at failed
          case h_1 => cases failed
          case h_2 code found =>
            rw [refuses h code rfl found] at failed
            exact (congrArg Prod.snd failed).symm
          case h_3 => cases failed
      | _ =>
          have run := failed.symm.trans (run_keyed index _ world)
          rw [named] at run
          exact congrArg Prod.snd run

/-- An assignment that succeeds has written to what the target holds, and to nothing else. -/
theorem written_of_setIndex (here : world.heap.Contains target contents)
    (done : (target.setIndex index value).run world = (.ok (), after)) :
    ∃ key written heap, index.toKey world.heap = .ok key ∧
      contents.write key value = .ok written ∧ heap.Contains target written ∧
      world.heap.SameBut target heap ∧ after = { world with heap } := by
  cases named : index.toKey world.heap with
  | error invalid =>
      have run := done.symm.trans (run_keyed index _ world)
      rw [named] at run
      cases run
  | ok key =>
      refine ⟨key, ?_⟩
      cases here with
      | @array h items cell =>
          rw [run_setIndex_array named, Heap.items_of_cell cell] at done
          split at done
          case h_1 others assigned =>
            cases done
            refine ⟨.sequence others, _, rfl, ?_, .array (Heap.get?_set_of_cell cell _),
              Heap.sameBut_setItems h others, rfl⟩
            show (assignItem items key value).map Contents.sequence = _
            rw [assigned]
            rfl
          case h_2 => cases done
      | @object h entries cell =>
          rw [run_setIndex_object named, Heap.fields_of_cell cell] at done
          cases done
          exact ⟨.record _, _, rfl, rfl, .object (Heap.get?_set_of_cell cell _),
            Heap.sameBut_setFields h _, rfl⟩
      | @bag h label properties cell =>
          rw [run_setIndex_host named, run_setHostProperty, cell] at done
          cases done
          let others := Fields.insert key.asName value properties
          have there : (world.heap.setHost h (.bag label others)).host? h =
              some (.bag label others) := Heap.get?_set_of_cell cell _
          exact ⟨.record others, _, rfl, rfl, .bag there, Heap.sameBut_setHost cell others, rfl⟩

/-! ## The law -/

/-- What an assignment has done to a world, when its target held `contents` and its index names
`key`. -/
structure Assigned (target index value : Value) (contents : Contents) (key : PropertyKey)
    (world after : World φ η) : Prop where
  /-- The slot reads as the value, however the target is reached. -/
  self : ∀ reach : Eval φ η Value, reach.run after = (.ok target, after) →
    (reach >>= fun target => target.getIndex index).run after = (.ok value, after)
  /-- It does so under all of its names. -/
  same : ∀ other name, other.toKey world.heap = .ok name → contents.SameSlot key name →
    (target.getIndex other).run after = (.ok value, after)
  /-- Every other slot reads as before. -/
  apart : ∀ other name, other.toKey world.heap = .ok name → ¬ contents.SameSlot key name →
    ¬ contents.AsksLength name →
    ∃ read, (target.getIndex other).run world = (.ok read, world) ∧
      (target.getIndex other).run after = (.ok read, after)
  /-- What names no slot is no key before and after. -/
  unnamed : ∀ other error, other.toKey world.heap = .error error →
    (target.getIndex other).run world = (.error (.invalidKey (other.describe world.heap)), world) ∧
    (target.getIndex other).run after = (.error (.invalidKey (other.describe after.heap)), after)
  /-- An array is as long as the position demands. -/
  length : ∀ items, contents = .sequence items → ∃ position length,
    key.asIndex? = some position ∧ length = max items.length (position + 1) ∧
    length ≤ items.length + 65537 ∧
    ∀ other name, other.toKey world.heap = .ok name → contents.AsksLength name →
      (target.getIndex other).run world = (.ok (.ofNat items.length), world) ∧
      (target.getIndex other).run after = (.ok (.ofNat length), after)
  /-- No other cell has changed. -/
  cells : world.heap.SameBut target after.heap
  cache : after.cache = world.cache
  outbox : after.outbox = world.outbox

theorem assigned_of_setIndex (here : world.heap.Contains target contents)
    (done : (target.setIndex index value).run world = (.ok (), after)) :
    ∃ key, index.toKey world.heap = .ok key ∧
      Assigned target index value contents key world after := by
  obtain ⟨key, written, heap, named, write, there, cells, rfl⟩ := written_of_setIndex here done
  have reads : ∀ {other name}, other.toKey world.heap = .ok name →
      (target.getIndex other).run { world with heap } =
        (.ok (written.read name), { world with heap }) :=
    fun named => run_getIndex there (toKey_of_ok named heap)
  have invalid : ∀ {other error} (some : World φ η), other.toKey world.heap = .error error →
      (target.getIndex other).run some =
        (.error (.invalidKey (other.describe some.heap)), some) := by
    intro other error some unnamed
    refine (run_keyed other _ some).trans ?_
    rw [toKey_of_error unnamed some.heap]
  refine ⟨key, named, ⟨?_, ?_, ?_, ?_, ?_, cells, rfl, rfl⟩⟩
  case refine_1 =>
    intro reach reached
    rw [Eval.run_bind, reached]
    dsimp only
    rw [reads named, Contents.read_write_of_same write (Contents.sameSlot_of_write write)]
  case refine_2 =>
    intro other name names same
    rw [reads names, Contents.read_write_of_same write same]
  case refine_3 =>
    intro other name names apart noLength
    refine ⟨_, run_getIndex here names, ?_⟩
    rw [reads names, Contents.read_write_of_not_same write apart noLength]
  case refine_4 =>
    intro other error unnamed
    exact ⟨invalid world unnamed, invalid _ unnamed⟩
  case refine_5 =>
    rintro items rfl
    obtain ⟨position, others, pointsAt, rfl, placed⟩ := Contents.placed_of_write write
    refine ⟨position, others.length, pointsAt, placed.length, placed.growth, ?_⟩
    intro other name names length
    have before := run_getIndex here names
    have now := reads names
    rw [Contents.read, sequenceProperty_of_isLength length] at before now
    exact ⟨before, now⟩

/-- **The law of assignments.**  If an assignment to an array, an object or a bag succeeds, then
what was assigned is what is read under its key, all else reads as before, and no other cell has
changed.  If it fails, whatever its target and its key, the world is as it was. -/
theorem setIndex_lawful (target index value : Value) (world after : World φ η) :
    (∀ contents, world.heap.Contains target contents →
      (target.setIndex index value).run world = (.ok (), after) →
      ∃ key, index.toKey world.heap = .ok key ∧
        Assigned target index value contents key world after) ∧
    (∀ error, (∀ h code, target = .host h → world.heap.host? h = some (.custom code) →
        HostObjects.RefusesAll φ code) →
      (target.setIndex index value).run world = (.error error, after) → after = world) :=
  ⟨fun _ here done => assigned_of_setIndex here done,
    fun _ refuses failed => world_of_setIndex_error refuses failed⟩

/-- An array of three items gets itself as its sixth, and a host object takes no assignment. -/
theorem setIndex_lawful_self :
    (∃ after key,
      ((array ⟨2⟩).setIndex (.text "+5") (array ⟨2⟩)).run Sample.start.2.2 = (.ok (), after) ∧
        Assigned (array ⟨2⟩) (.text "+5") (array ⟨2⟩)
          (.sequence [.ofNat 10, .ofNat 20, .ofNat 30]) key Sample.start.2.2 after) ∧
    ((host ⟨1⟩).setIndex (.text "n") (array ⟨2⟩)).run Sample.start.2.2 =
      (.error (.notAssignable (.hostProperty "host object" (.name "n"))), Sample.start.2.2) := by
  constructor
  · have done : (((array ⟨2⟩).setIndex (.text "+5") (array ⟨2⟩)).run Sample.start.2.2).1 =
        .ok () := by decide +kernel
    have here : Sample.start.2.2.heap.Contains (array ⟨2⟩)
        (.sequence [.ofNat 10, .ofNat 20, .ofNat 30]) := .array (by decide +kernel)
    obtain ⟨key, -, assigned⟩ :=
      (setIndex_lawful (array ⟨2⟩) (.text "+5") (array ⟨2⟩) Sample.start.2.2 _).1 _ here
        (Eval.run_of_fst done)
    exact ⟨_, key, Eval.run_of_fst done, assigned⟩
  · have failed : (((host ⟨1⟩).setIndex (.text "n") (array ⟨2⟩)).run Sample.start.2.2).1 =
        .error (.notAssignable (.hostProperty "host object" (.name "n"))) := by decide +kernel
    have same := (setIndex_lawful (host ⟨1⟩) (.text "n") (array ⟨2⟩) Sample.start.2.2 _).2 _
      (fun _ _ _ _ _ _ => rfl) (Eval.run_of_fst failed)
    rw [Eval.run_of_fst failed, same]

end Value

end RemoteAgent
