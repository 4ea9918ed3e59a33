import RemoteAgent.Deferred
import RemoteAgent.Fields

/-!
# The heap

Shared values live in the heap, in one store for each kind of cell. A store only grows: a handle
that was given out stays good, and nothing but an update through that handle changes its cell.

Functions and host objects belong to the application behind the agent. What a native function does
is named by a code of type `φ`, and a host object that is more than a bag of properties by a code
of type `η`; `RemoteAgent.ObjectModel` says what the codes mean.
-/

namespace RemoteAgent

/-- The cells of one kind, in the order in which they were made. -/
structure Store (α : Type) where
  /-- The cells. -/
  cells : Array α

namespace Store

variable {α : Type}

/-- A store without cells. -/
def empty : Store α := ⟨#[]⟩

/-- The count of cells. -/
def size (store : Store α) : Nat := store.cells.size

/-- The cell at a position. -/
def get? (store : Store α) (index : Nat) : Option α := store.cells[index]?

/-- Adds a cell, at the position `store.size`. -/
def push (store : Store α) (cell : α) : Store α := ⟨store.cells.push cell⟩

/-- Replaces a cell. -/
def set (store : Store α) (index : Nat) (cell : α) : Store α :=
  ⟨store.cells.setIfInBounds index cell⟩

theorem lt_size_of_get? {store : Store α} {index : Nat} {cell : α}
    (here : store.get? index = some cell) : index < store.size :=
  (Array.getElem?_eq_some_iff.mp here).1

theorem exists_get?_of_lt {store : Store α} {index : Nat} (inside : index < store.size) :
    ∃ cell, store.get? index = some cell :=
  ⟨store.cells[index], Array.getElem?_eq_getElem inside⟩

@[simp] theorem size_push (store : Store α) (cell : α) :
    (store.push cell).size = store.size + 1 := by
  simp [size, push]

@[simp] theorem size_set (store : Store α) (index : Nat) (cell : α) :
    (store.set index cell).size = store.size := by
  simp [size, set]

@[simp] theorem get?_push_size (store : Store α) (cell : α) :
    (store.push cell).get? store.size = some cell := by
  simp [get?, push, size]

theorem get?_push_of_lt {store : Store α} {index : Nat} (h : index < store.size) (cell : α) :
    (store.push cell).get? index = store.get? index := by
  simp only [get?, push, size] at *
  rw [Array.getElem?_push]
  simp [Nat.ne_of_lt h]

theorem get?_set_self {store : Store α} {index : Nat} (h : index < store.size) (cell : α) :
    (store.set index cell).get? index = some cell := by
  simp only [get?, set, size] at *
  simp [h]

theorem get?_set_of_ne {index other : Nat} (ne : other ≠ index) (store : Store α) (cell : α) :
    (store.set index cell).get? other = store.get? other := by
  simp only [get?, set]
  rw [Array.getElem?_setIfInBounds]
  simp [Ne.symm ne]

/-- Different cells may be replaced in either order. -/
theorem set_comm {index other : Nat} (ne : index ≠ other) (store : Store α) (cell second : α) :
    (store.set index cell).set other second = (store.set other second).set index cell := by
  simp only [set, Array.setIfInBounds_comm _ _ ne]

end Store

/-! ## Cells -/

/-- What a function does when it is called. -/
inductive FunctionBody (φ : Type) where
  /-- It runs code of the application. -/
  | native (code : φ)
  /-- It sends its arguments to the controller, rendered down to a depth, under an id. -/
  | callback (id : String) (depth : Int)
  deriving DecidableEq

/-- A function. -/
structure Function (φ : Type) where
  /-- The name that diagnostics show. -/
  name : String
  /-- What it does. -/
  body : FunctionBody φ
  deriving DecidableEq

/-- An object of the application behind the agent. -/
inductive HostObject (η : Type) where
  /-- A bag of named properties, with a label for diagnostics. -/
  | bag (label : String) (properties : Fields Value)
  /-- An object with rules of its own. -/
  | custom (code : η)
  deriving DecidableEq

/-- What a message is still to do with a deferred result. -/
inductive Completion where
  /-- Drop it. -/
  | discard
  /-- Answer the controller under an id, rendering down to a depth. -/
  | reply (id : String) (depth : Int)
  /-- Cache it under an id. -/
  | store (id : String)
  deriving DecidableEq

/-- All shared values. -/
structure Heap (φ η : Type) where
  /-- The arrays. -/
  arrays : Store (List Value)
  /-- The objects. -/
  objects : Store (Fields Value)
  /-- The functions. -/
  functions : Store (Function φ)
  /-- The host objects. -/
  hosts : Store (HostObject η)
  /-- The deferred values. -/
  deferreds : Store (Deferred Completion)

namespace Heap

variable {φ η : Type}

/-- A heap without cells. -/
def empty : Heap φ η := ⟨.empty, .empty, .empty, .empty, .empty⟩

/-! ## Reading a cell -/

/-- The items of an array. -/
def items (heap : Heap φ η) (h : Handle .array) : List Value :=
  (heap.arrays.get? h.index).getD []

/-- The entries of an object. -/
def fields (heap : Heap φ η) (h : Handle .object) : Fields Value :=
  (heap.objects.get? h.index).getD []

/-- The function behind a handle. -/
def function? (heap : Heap φ η) (h : Handle .function) : Option (Function φ) :=
  heap.functions.get? h.index

/-- The host object behind a handle. -/
def host? (heap : Heap φ η) (h : Handle .host) : Option (HostObject η) :=
  heap.hosts.get? h.index

/-- The deferred value behind a handle. -/
def deferred? (heap : Heap φ η) (h : Handle .deferred) : Option (Deferred Completion) :=
  heap.deferreds.get? h.index

/-! ## Making a cell -/

/-- A new array. -/
def newArray (heap : Heap φ η) (items : List Value) : Value × Heap φ η :=
  (.array ⟨heap.arrays.size⟩, { heap with arrays := heap.arrays.push items })

/-- A new object. -/
def newObject (heap : Heap φ η) (entries : List (String × Value)) : Value × Heap φ η :=
  (.object ⟨heap.objects.size⟩, { heap with objects := heap.objects.push (Fields.ofList entries) })

/-- A new function. -/
def newFunction (heap : Heap φ η) (function : Function φ) : Value × Heap φ η :=
  (.function ⟨heap.functions.size⟩, { heap with functions := heap.functions.push function })

/-- A new host object. -/
def newHost (heap : Heap φ η) (host : HostObject η) : Value × Heap φ η :=
  (.host ⟨heap.hosts.size⟩, { heap with hosts := heap.hosts.push host })

/-- A new deferred value. -/
def newDeferred (heap : Heap φ η) (deferred : Deferred Completion) :
    Handle .deferred × Heap φ η :=
  (⟨heap.deferreds.size⟩, { heap with deferreds := heap.deferreds.push deferred })

/-! ## Replacing a cell -/

/-- Replaces the items of an array. -/
def setItems (heap : Heap φ η) (h : Handle .array) (items : List Value) : Heap φ η :=
  { heap with arrays := heap.arrays.set h.index items }

/-- Replaces the entries of an object. -/
def setFields (heap : Heap φ η) (h : Handle .object) (fields : Fields Value) : Heap φ η :=
  { heap with objects := heap.objects.set h.index fields }

/-- Replaces a host object. -/
def setHost (heap : Heap φ η) (h : Handle .host) (host : HostObject η) : Heap φ η :=
  { heap with hosts := heap.hosts.set h.index host }

/-- Replaces a deferred value. -/
def setDeferred (heap : Heap φ η) (h : Handle .deferred) (deferred : Deferred Completion) :
    Heap φ η :=
  { heap with deferreds := heap.deferreds.set h.index deferred }

/-- Appends an item to an array. -/
def appendItem (heap : Heap φ η) (h : Handle .array) (item : Value) : Heap φ η :=
  heap.setItems h (heap.items h ++ [item])

/-- How many arrays and objects there are: no chain of them that never meets one twice is longer. -/
def compositeCount (heap : Heap φ η) : Nat := heap.arrays.size + heap.objects.size

end Heap

end RemoteAgent
