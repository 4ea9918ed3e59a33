import RemoteAgent.Proofs.Persistence

/-!
# Rendering to a depth

The heap of an agent may be cyclic, so a value has no rendering of its own, only one for each depth.
The renderings of one value fit together all the same: each of them is every deeper one with its
lower levels cut off (`Value.truncate_toJson`).  Cutting off is an operation on JSON values,
`Json.truncate`, which knows nothing of a heap.

A rendering can be made a value again.  The copy shares nothing with the original, and however its
heap grows afterwards, rendering it is cutting off what it was made from (`Value.toJson_ofJson`).
Both together are the law of `Value.toJson_ofJson_toJson`: of two depths that a value goes through,
the smaller one counts.

## Main definitions

* `Json.truncate`: a JSON value cut off below a depth.
* `Json.nesting`: how many levels a JSON value has.
* `Heap.Grows`: a heap that still has the arrays and objects of an earlier one.
-/

namespace RemoteAgent

/-! ## Levels of JSON values -/

namespace Json

/-- A JSON value with at most `depth` levels of arrays and objects.  Null stands for what is cut
off. -/
def truncate : Nat → Json → Json
  | 0, .array _ => .null
  | 0, .object _ => .null
  | depth + 1, .array items => .array (items.map (truncate depth))
  | depth + 1, .object fields =>
    ofEntries (fields.map fun entry => (entry.1, truncate depth entry.2))
  | _, scalar => scalar

mutual

/-- How many levels of arrays and objects a JSON value has. -/
def nesting : Json → Nat
  | .array items => nestingItems items + 1
  | .object fields => nestingFields fields + 1
  | _ => 0

/-- The greatest nesting of some JSON values. -/
def nestingItems : List Json → Nat
  | [] => 0
  | item :: rest => max (nesting item) (nestingItems rest)

/-- The greatest nesting of the values of some fields. -/
def nestingFields : List (String × Json) → Nat
  | [] => 0
  | (_, item) :: rest => max (nesting item) (nestingFields rest)

end

variable {n : Nat}

theorem nestingItems_le_iff {items : List Json} :
    nestingItems items ≤ n ↔ ∀ item ∈ items, item.nesting ≤ n := by
  induction items with
  | nil => simp [nestingItems]
  | cons item rest ih => rw [nestingItems, Nat.max_le, ih, List.forall_mem_cons]

theorem nestingFields_le_iff {fields : List (String × Json)} :
    nestingFields fields ≤ n ↔ ∀ entry ∈ fields, entry.2.nesting ≤ n := by
  induction fields with
  | nil => simp [nestingFields]
  | cons entry rest ih =>
      obtain ⟨key, item⟩ := entry
      rw [nestingFields, Nat.max_le, ih, List.forall_mem_cons]

/-- Collecting entries adds one level to theirs. -/
theorem nesting_ofEntries_le {entries : List (String × Json)}
    (below : ∀ entry ∈ entries, entry.2.nesting ≤ n) : (ofEntries entries).nesting ≤ n + 1 := by
  rw [ofEntries, nesting, Nat.add_le_add_iff_right, nestingFields_le_iff]
  exact fun entry mem => below entry (Fields.mem_of_mem_ofList mem)

end Json

/-! ## A heap that grows -/

variable {φ η : Type}

/-- The arrays and objects of a heap are still there, unchanged, in a later one. -/
structure Heap.Grows (heap later : Heap φ η) : Prop where
  /-- No array is lost. -/
  arrays_le : heap.arrays.size ≤ later.arrays.size
  /-- No object is lost. -/
  objects_le : heap.objects.size ≤ later.objects.size
  /-- The arrays are what they were. -/
  items : ∀ h : Handle .array, h.index < heap.arrays.size → later.items h = heap.items h
  /-- The objects are what they were. -/
  fields : ∀ h : Handle .object, h.index < heap.objects.size → later.fields h = heap.fields h

namespace Heap

variable {heap middle later : Heap φ η}

namespace Grows

theorem refl (heap : Heap φ η) : heap.Grows heap where
  arrays_le := Nat.le_refl _
  objects_le := Nat.le_refl _
  items _ _ := rfl
  fields _ _ := rfl

theorem trans (one : heap.Grows middle) (two : middle.Grows later) : heap.Grows later where
  arrays_le := Nat.le_trans one.arrays_le two.arrays_le
  objects_le := Nat.le_trans one.objects_le two.objects_le
  items h old := (two.items h (Nat.lt_of_lt_of_le old one.arrays_le)).trans (one.items h old)
  fields h old := (two.fields h (Nat.lt_of_lt_of_le old one.objects_le)).trans (one.fields h old)

end Grows

/-- A new array has its items, as long as the heap only grows. -/
theorem items_newArray {items : List Value} (grows : (heap.newArray items).2.Grows later) :
    later.items ⟨heap.arrays.size⟩ = items := by
  rw [grows.items _ (by simp [Heap.newArray])]
  simp [Heap.items, Heap.newArray]

/-- A new object has its entries, as long as the heap only grows. -/
theorem fields_newObject {entries : List (String × Value)}
    (grows : (heap.newObject entries).2.Grows later) :
    later.fields ⟨heap.objects.size⟩ = Fields.ofList entries := by
  rw [grows.fields _ (by simp [Heap.newObject])]
  simp [Heap.fields, Heap.newObject]

end Heap

/-- A heap that persists has its arrays and objects still. -/
theorem Heap.Persists.grows {heap later : Heap φ η} (persists : heap.Persists later) :
    heap.Grows later where
  arrays_le := persists.arrays.size_le
  objects_le := persists.objects.size_le
  items _ old := congrArg (Option.getD · []) (persists.arrays.get?_eq old)
  fields _ old := congrArg (Option.getD · []) (persists.objects.get?_eq old)

namespace Value

variable [HostObjects φ η]

/-! ## Rendering what was made of JSON -/

mutual

/-- **A copy is rendered by cutting off what it was made from**, however the heap has grown since.
-/
theorem toJsonWithin_ofJson (depth : Nat) :
    ∀ (json : Json) {heap later : Heap φ η}, (ofJson json heap).2.Grows later →
      (ofJson json heap).1.toJsonWithin later depth = json.truncate depth
  | .null, _, _, _ => by cases depth <;> rfl
  | .bool _, _, _, _ => by cases depth <;> rfl
  | .number _, _, _, _ => by cases depth <;> rfl
  | .string _, _, _, _ => by cases depth <;> rfl
  | .array items, heap, later, grows => by
      cases depth with
      | zero => rfl
      | succ depth =>
          have made :=
            toJsonWithin_ofJsonItems depth items ((Heap.Persists.newArray _ _).grows.trans grows)
          show Json.array ((later.items _).map (toJsonWithin later depth)) = _
          rw [Heap.items_newArray grows, made, Json.truncate]
  | .object fields, heap, later, grows => by
      cases depth with
      | zero => rfl
      | succ depth =>
          have made :=
            toJsonWithin_ofJsonFields depth fields ((Heap.Persists.newObject _ _).grows.trans grows)
          show Json.ofEntries ((later.fields _).map fun entry =>
            (entry.1, toJsonWithin later depth entry.2)) = _
          rw [Heap.fields_newObject grows, Json.ofEntries, Fields.ofList_map_ofList, made,
            Json.truncate, Json.ofEntries]

theorem toJsonWithin_ofJsonItems (depth : Nat) :
    ∀ (items : List Json) {heap later : Heap φ η}, (ofJsonItems items heap).2.Grows later →
      (ofJsonItems items heap).1.map (toJsonWithin later depth) = items.map (Json.truncate depth)
  | [], _, _, _ => rfl
  | item :: rest, heap, later, grows => by
      have first := toJsonWithin_ofJson depth item ((persists_ofJsonItems rest _).grows.trans grows)
      have others := toJsonWithin_ofJsonItems depth rest grows
      show toJsonWithin later depth (ofJson item heap).1 :: _ = _
      rw [first, others, List.map_cons]

theorem toJsonWithin_ofJsonFields (depth : Nat) :
    ∀ (fields : List (String × Json)) {heap later : Heap φ η},
      (ofJsonFields fields heap).2.Grows later →
        (ofJsonFields fields heap).1.map (fun entry =>
            (entry.1, toJsonWithin later depth entry.2)) =
          fields.map fun entry => (entry.1, entry.2.truncate depth)
  | [], _, _, _ => rfl
  | (key, item) :: rest, heap, later, grows => by
      have first := toJsonWithin_ofJson depth item ((persists_ofJsonFields rest _).grows.trans grows)
      have others := toJsonWithin_ofJsonFields depth rest grows
      show (key, toJsonWithin later depth (ofJson item heap).1) :: _ = _
      rw [first, others, List.map_cons]

end

/-- The same for a depth that may be negative. -/
theorem toJson_ofJson {json : Json} {heap later : Heap φ η}
    (grows : (ofJson json heap).2.Grows later) (depth : Int) :
    (ofJson json heap).1.toJson later depth = json.truncate depth.toNat :=
  toJsonWithin_ofJson depth.toNat json grows

/-! ## Renderings of one value -/

section Depths

variable (heap : Heap φ η)

/-- **A rendering cut off is the rendering to the smaller depth.** -/
theorem truncate_toJsonWithin (a b : Nat) (value : Value) :
    (value.toJsonWithin heap a).truncate b = value.toJsonWithin heap (min a b) := by
  induction a generalizing b value with
  | zero =>
      rw [Nat.zero_min]
      cases value <;> cases b <;> rfl
  | succ a ih =>
      -- Scalars pass at any depth; of the rest nothing passes at depth zero.
      cases b with
      | zero => cases value <;> rfl
      | succ b =>
          rw [Nat.succ_min_succ]
          have entries : ∀ entries : List (String × Value),
              (Json.ofEntries (entries.map fun entry =>
                  (entry.1, toJsonWithin heap a entry.2))).truncate (b + 1) =
                Json.ofEntries (entries.map fun entry =>
                  (entry.1, toJsonWithin heap (min a b) entry.2)) := by
            intro entries
            rw [Json.ofEntries, Json.truncate, Json.ofEntries, Fields.ofList_map_ofList,
              List.map_map, Json.ofEntries]
            congr 2
            exact List.map_congr_left fun entry _ => congrArg (Prod.mk entry.1) (ih b entry.2)
          cases value with
          | array h =>
              rw [toJsonWithin, Json.truncate, List.map_map, toJsonWithin]
              congr 1
              exact List.map_congr_left fun item _ => ih b item
          | object h => exact entries _
          | host h => exact entries _
          | _ => rfl

theorem truncate_toJson (a b : Int) (value : Value) :
    (value.toJson heap a).truncate b.toNat = value.toJson heap (min a b) := by
  have depth : (min a b).toNat = min a.toNat b.toNat := by omega
  rw [toJson, truncate_toJsonWithin, toJson, depth]

/-- A rendering has at most as many levels as it was given. -/
theorem nesting_toJsonWithin_le (depth : Nat) (value : Value) :
    (value.toJsonWithin heap depth).nesting ≤ depth := by
  induction depth generalizing value with
  | zero => cases value <;> exact Nat.le_refl 0
  | succ depth ih =>
      have entries : ∀ entries : List (String × Value),
          (Json.ofEntries (entries.map fun entry =>
            (entry.1, toJsonWithin heap depth entry.2))).nesting ≤ depth + 1 := by
        refine fun entries => Json.nesting_ofEntries_le fun entry mem => ?_
        obtain ⟨old, -, rfl⟩ := List.mem_map.mp mem
        exact ih old.2
      cases value with
      | array h =>
          rw [toJsonWithin, Json.nesting, Nat.add_le_add_iff_right, Json.nestingItems_le_iff]
          intro item mem
          obtain ⟨old, -, rfl⟩ := List.mem_map.mp mem
          exact ih old
      | object h => exact entries _
      | host h => exact entries _
      | _ => simp [toJsonWithin, Json.nesting, Json.nestingFields]

end Depths

/-- **Of two depths the smaller one counts.**  A value of any kind, over any heap, is rendered to a
depth and made a value again, in any heap; rendering the copy to another depth comes to rendering
the value itself to the smaller one of the two.  And no rendering has more levels than its depth. -/
theorem toJson_ofJson_toJson (heap other : Heap φ η) (value : Value) (a b : Int) :
    let copy := ofJson (value.toJson heap a) other
    copy.1.toJson copy.2 b = value.toJson heap (min a b) ∧
      ((value.toJson heap a).nesting : Int) ≤ max a 0 := by
  dsimp only
  refine ⟨?_, ?_⟩
  · rw [toJson_ofJson (.refl _), truncate_toJson]
  · have levels : (value.toJson heap a).nesting ≤ a.toNat :=
      nesting_toJsonWithin_le heap a.toNat value
    omega

end Value

end RemoteAgent
