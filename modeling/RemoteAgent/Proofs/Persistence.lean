import RemoteAgent.Value.Rendering

/-!
# What stays as it was

Much of what an agent does is to look at values and to make new ones of them.  A world *persists* in
a later one if all its cells are still there as they were, of whatever kind, and the cache and the
outbox are the same; only new cells may have come up.  This is what it means that something was done
without an effect.

## Main definitions

* `Store.Persists`, `Heap.Persists`: every cell is still there, unchanged.
* `World.Persists`: nothing but new cells has come up.
-/

namespace RemoteAgent

/-! ## Stores -/

/-- Every cell of a store is still there, unchanged, in a later one. -/
def Store.Persists {α : Type} (store later : Store α) : Prop :=
  ∀ index cell, store.get? index = some cell → later.get? index = some cell

namespace Store

variable {α : Type} {store middle later : Store α}

namespace Persists

theorem refl (store : Store α) : store.Persists store := fun _ _ here => here

theorem trans (one : store.Persists middle) (two : middle.Persists later) :
    store.Persists later :=
  fun index cell here => two index cell (one index cell here)

theorem push (store : Store α) (cell : α) : store.Persists (store.push cell) := by
  intro index old here
  rw [get?_push_of_lt (lt_size_of_get? here)]
  exact here

theorem get?_eq (persists : store.Persists later) {index : Nat} (inside : index < store.size) :
    later.get? index = store.get? index := by
  obtain ⟨cell, here⟩ := exists_get?_of_lt inside
  rw [here]
  exact persists index cell here

theorem size_le (persists : store.Persists later) : store.size ≤ later.size := by
  -- Otherwise the first position behind the later store would have a cell in the earlier one.
  refine Nat.le_of_not_lt fun less => ?_
  obtain ⟨cell, here⟩ := exists_get?_of_lt less
  exact absurd (lt_size_of_get? (persists _ cell here)) (Nat.lt_irrefl _)

end Persists

end Store

/-! ## Heaps -/

variable {φ η : Type}

/-- Every cell of a heap is still there, unchanged, in a later one. -/
structure Heap.Persists (heap later : Heap φ η) : Prop where
  arrays : heap.arrays.Persists later.arrays
  objects : heap.objects.Persists later.objects
  functions : heap.functions.Persists later.functions
  hosts : heap.hosts.Persists later.hosts
  deferreds : heap.deferreds.Persists later.deferreds

namespace Heap.Persists

variable {heap middle later : Heap φ η}

theorem refl (heap : Heap φ η) : heap.Persists heap :=
  ⟨.refl _, .refl _, .refl _, .refl _, .refl _⟩

theorem trans (one : heap.Persists middle) (two : middle.Persists later) :
    heap.Persists later where
  arrays := one.arrays.trans two.arrays
  objects := one.objects.trans two.objects
  functions := one.functions.trans two.functions
  hosts := one.hosts.trans two.hosts
  deferreds := one.deferreds.trans two.deferreds

theorem newArray (heap : Heap φ η) (items : List Value) :
    heap.Persists (heap.newArray items).2 :=
  { refl heap with arrays := .push heap.arrays items }

theorem newObject (heap : Heap φ η) (entries : List (String × Value)) :
    heap.Persists (heap.newObject entries).2 :=
  { refl heap with objects := .push heap.objects (Fields.ofList entries) }

theorem newFunction (heap : Heap φ η) (function : Function φ) :
    heap.Persists (heap.newFunction function).2 :=
  { refl heap with functions := .push heap.functions function }

end Heap.Persists

namespace Value

mutual

/-- Making values of JSON touches no cell that is there. -/
theorem persists_ofJson :
    ∀ (json : Json) (heap : Heap φ η), heap.Persists (ofJson json heap).2
  | .null, heap => .refl heap
  | .bool _, heap => .refl heap
  | .number _, heap => .refl heap
  | .string _, heap => .refl heap
  | .array items, heap => (persists_ofJsonItems items heap).trans (.newArray _ _)
  | .object fields, heap => (persists_ofJsonFields fields heap).trans (.newObject _ _)

theorem persists_ofJsonItems :
    ∀ (items : List Json) (heap : Heap φ η), heap.Persists (ofJsonItems items heap).2
  | [], heap => .refl heap
  | item :: rest, heap => (persists_ofJson item heap).trans (persists_ofJsonItems rest _)

theorem persists_ofJsonFields :
    ∀ (fields : List (String × Json)) (heap : Heap φ η),
      heap.Persists (ofJsonFields fields heap).2
  | [], heap => .refl heap
  | (_, item) :: rest, heap => (persists_ofJson item heap).trans (persists_ofJsonFields rest _)

end

end Value

/-! ## Worlds -/

/-- Nothing has happened to a world but that new cells have come up. -/
structure World.Persists (world later : World φ η) : Prop where
  heap : world.heap.Persists later.heap
  cache : later.cache = world.cache
  outbox : later.outbox = world.outbox

namespace World.Persists

variable {world middle later : World φ η}

theorem refl (world : World φ η) : world.Persists world := ⟨.refl _, rfl, rfl⟩

theorem trans (one : world.Persists middle) (two : middle.Persists later) :
    world.Persists later where
  heap := one.heap.trans two.heap
  cache := two.cache.trans one.cache
  outbox := two.outbox.trans one.outbox

theorem withHeap {heap : Heap φ η} (persists : world.heap.Persists heap) :
    world.Persists { world with heap } :=
  ⟨persists, rfl, rfl⟩

end World.Persists

end RemoteAgent
