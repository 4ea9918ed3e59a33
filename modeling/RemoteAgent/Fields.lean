/-!
# Fields

A record with text keys, listed in ascending order of its keys. Objects of the JSON data model, the
properties of an agent's objects and the reference cache are all of this shape, so two of them are
equal exactly when the lists are.

Keys are compared character by character, which is the order of their UTF-8 bytes. Every operation
keeps the keys ascending (`sorted_insert`, `sorted_erase`, `sorted_ofList`), reading finds what was
written last (`find?_insert_self`, `find?_erase_self`) and nothing else, and a change of every value
moves no key (`map_ofList`).
-/

namespace RemoteAgent

/-- A finite map from text keys, listed by ascending key. -/
abbrev Fields (α : Type) := List (String × α)

namespace Fields

variable {α : Type}

/-- The value stored under a key. -/
def find? (key : String) : Fields α → Option α
  | [] => none
  | (k, v) :: rest => if k = key then some v else find? key rest

/-- Stores a value under a key, in place of the one that was there. -/
def insert (key : String) (value : α) : Fields α → Fields α
  | [] => [(key, value)]
  | (k, v) :: rest =>
    if key = k then (key, value) :: rest
    else if key < k then (key, value) :: (k, v) :: rest
    else (k, v) :: insert key value rest

/-- Drops a key. -/
def erase (key : String) : Fields α → Fields α
  | [] => []
  | (k, v) :: rest => if k = key then erase key rest else (k, v) :: erase key rest

/-- Collects entries in the order given: of several entries with one key the last one counts. -/
def ofList (entries : List (String × α)) : Fields α :=
  entries.foldl (fun fields entry => fields.insert entry.1 entry.2) []

/-- The keys ascend strictly, so no key occurs twice. -/
def Sorted (fields : Fields α) : Prop :=
  fields.Pairwise fun a b => a.1 < b.1

/-! ## Reading after writing -/

@[simp] theorem find?_nil (key : String) : find? key ([] : Fields α) = none := rfl

@[simp] theorem find?_insert_self (key : String) (value : α) (fields : Fields α) :
    find? key (insert key value fields) = some value := by
  induction fields with
  | nil => simp [insert, find?]
  | cons entry rest ih =>
    obtain ⟨k, v⟩ := entry
    by_cases same : key = k
    · simp [insert, find?, same]
    · by_cases less : key < k
      · simp [insert, find?, same, less]
      · simp [insert, find?, same, less, ih, Ne.symm same]

theorem find?_insert_of_ne {key other : String} (ne : other ≠ key) (value : α)
    (fields : Fields α) : find? other (insert key value fields) = find? other fields := by
  induction fields with
  | nil => simp [insert, find?, Ne.symm ne]
  | cons entry rest ih =>
    obtain ⟨k, v⟩ := entry
    by_cases same : key = k
    · subst same
      simp [insert, find?, Ne.symm ne]
    · by_cases less : key < k
      · simp [insert, find?, same, less, Ne.symm ne]
      · simp [insert, find?, same, less, ih]

/-- Values stored under different keys may be stored in either order. -/
theorem insert_comm {key other : String} (ne : key ≠ other) (value second : α)
    (fields : Fields α) :
    insert key value (insert other second fields) =
      insert other second (insert key value fields) := by
  induction fields with
  | nil => grind [insert]
  | cons entry rest ih =>
    obtain ⟨k, v⟩ := entry
    grind [insert]

@[simp] theorem find?_erase_self (key : String) (fields : Fields α) :
    find? key (erase key fields) = none := by
  induction fields with
  | nil => rfl
  | cons entry rest ih =>
    obtain ⟨k, v⟩ := entry
    by_cases same : k = key
    · simp [erase, same, ih]
    · simp [erase, find?, same, ih]

theorem find?_erase_of_ne {key other : String} (ne : other ≠ key) (fields : Fields α) :
    find? other (erase key fields) = find? other fields := by
  induction fields with
  | nil => rfl
  | cons entry rest ih =>
    obtain ⟨k, v⟩ := entry
    by_cases same : k = key
    · subst same
      simp [erase, find?, ih, Ne.symm ne]
    · simp [erase, find?, same, ih]

/-! ## Order -/

theorem sorted_nil : Sorted ([] : Fields α) := List.Pairwise.nil

/-- An entry after an insertion is the new one or was there before. -/
theorem mem_of_mem_insert {key : String} {value : α} {fields : Fields α} {entry : String × α}
    (mem : entry ∈ insert key value fields) : entry = (key, value) ∨ entry ∈ fields := by
  induction fields with
  | nil => simpa [insert] using mem
  | cons head rest ih =>
    obtain ⟨k, v⟩ := head
    by_cases same : key = k
    · simp only [insert, if_pos same, List.mem_cons] at mem
      exact mem.imp_right (List.mem_cons_of_mem _)
    · by_cases less : key < k
      · simpa [insert, same, less] using mem
      · simp only [insert, if_neg same, if_neg less, List.mem_cons] at mem
        rcases mem with rfl | mem
        · exact Or.inr List.mem_cons_self
        · exact (ih mem).imp_right (List.mem_cons_of_mem _)

theorem mem_of_mem_erase {key : String} {fields : Fields α} {entry : String × α}
    (mem : entry ∈ erase key fields) : entry ∈ fields := by
  induction fields with
  | nil => exact mem
  | cons head rest ih =>
    obtain ⟨k, v⟩ := head
    by_cases same : k = key
    · rw [erase, if_pos same] at mem
      exact List.mem_cons_of_mem _ (ih mem)
    · rw [erase, if_neg same] at mem
      exact (List.mem_cons.1 mem).elim (fun h => h ▸ List.mem_cons_self)
        fun h => List.mem_cons_of_mem _ (ih h)

theorem sorted_insert (key : String) (value : α) {fields : Fields α} (sorted : Sorted fields) :
    Sorted (insert key value fields) := by
  induction fields with
  | nil => simp [insert, Sorted]
  | cons head rest ih =>
    obtain ⟨k, v⟩ := head
    obtain ⟨above, tail⟩ := List.pairwise_cons.1 sorted
    by_cases same : key = k
    · subst same
      rw [insert, if_pos rfl]
      exact List.pairwise_cons.2 ⟨above, tail⟩
    · by_cases less : key < k
      · rw [insert, if_neg same, if_pos less]
        refine List.pairwise_cons.2 ⟨fun entry mem => ?_, sorted⟩
        rcases List.mem_cons.1 mem with rfl | mem
        · exact less
        · exact String.lt_trans less (above entry mem)
      · rw [insert, if_neg same, if_neg less]
        refine List.pairwise_cons.2 ⟨fun entry mem => ?_, ih tail⟩
        rcases mem_of_mem_insert mem with rfl | mem
        · exact Decidable.byContradiction fun notLess =>
            same (String.le_antisymm (String.not_lt.1 notLess) (String.not_lt.1 less))
        · exact above entry mem

theorem sorted_erase (key : String) {fields : Fields α} (sorted : Sorted fields) :
    Sorted (erase key fields) := by
  induction fields with
  | nil => exact sorted
  | cons head rest ih =>
    obtain ⟨k, v⟩ := head
    obtain ⟨above, tail⟩ := List.pairwise_cons.1 sorted
    by_cases same : k = key
    · rw [erase, if_pos same]
      exact ih tail
    · rw [erase, if_neg same]
      exact List.pairwise_cons.2 ⟨fun entry mem => above entry (mem_of_mem_erase mem), ih tail⟩

/-- Whatever the entries, collecting them gives ascending keys. -/
theorem sorted_ofList (entries : List (String × α)) : Sorted (ofList entries) := by
  have general : ∀ fields : Fields α, Sorted fields →
      Sorted (entries.foldl (fun fields entry => fields.insert entry.1 entry.2) fields) := by
    induction entries with
    | nil => exact fun _ sorted => sorted
    | cons entry rest ih => exact fun fields sorted => ih _ (sorted_insert _ _ sorted)
  exact general [] sorted_nil

/-- A key above all others comes last. -/
theorem insert_of_above {key : String} {fields : Fields α} (above : ∀ entry ∈ fields, entry.1 < key)
    (value : α) : insert key value fields = fields ++ [(key, value)] := by
  induction fields with
  | nil => rfl
  | cons head rest ih =>
    obtain ⟨k, v⟩ := head
    have less : k < key := above (k, v) List.mem_cons_self
    have apart : ¬ key = k := fun same => String.lt_irrefl k (same ▸ less)
    have order : ¬ key < k := fun other => String.lt_irrefl k (String.lt_trans less other)
    rw [insert, if_neg apart, if_neg order,
      ih fun entry mem => above entry (List.mem_cons_of_mem _ mem), List.cons_append]

/-- Entries that ascend already stay as they are. -/
theorem ofList_of_sorted {fields : Fields α} (sorted : Sorted fields) : ofList fields = fields := by
  have general : ∀ done : Fields α, Sorted (done ++ fields) →
      fields.foldl (fun fields entry => fields.insert entry.1 entry.2) done = done ++ fields := by
    clear sorted
    induction fields with
    | nil => exact fun done _ => (List.append_nil done).symm
    | cons entry rest ih =>
      intro done sorted
      have above : ∀ other ∈ done, other.1 < entry.1 := fun other mem =>
        (List.pairwise_append.1 sorted).2.2 other mem entry List.mem_cons_self
      rw [List.append_cons] at sorted ⊢
      rw [List.foldl_cons, insert_of_above above]
      exact ih _ sorted
  exact general [] sorted

/-- Collecting adds no entry. -/
theorem mem_of_mem_ofList {entries : List (String × α)} {entry : String × α}
    (mem : entry ∈ ofList entries) : entry ∈ entries := by
  have general : ∀ fields : Fields α,
      entry ∈ entries.foldl (fun fields entry => fields.insert entry.1 entry.2) fields →
        entry ∈ fields ∨ entry ∈ entries := by
    clear mem
    induction entries with
    | nil => exact fun _ mem => Or.inl mem
    | cons head rest ih =>
      intro fields mem
      rcases ih _ mem with old | new
      · rcases mem_of_mem_insert old with rfl | old
        · exact Or.inr List.mem_cons_self
        · exact Or.inl old
      · exact Or.inr (List.mem_cons_of_mem _ new)
  exact (general [] mem).resolve_left List.not_mem_nil

/-! ## Doing something to every value -/

variable {β : Type}

/-- Which values are stored does not matter for where they are stored. -/
theorem map_insert (f : α → β) (key : String) (value : α) (fields : Fields α) :
    (insert key value fields).map (fun entry => (entry.1, f entry.2)) =
      insert key (f value) (fields.map fun entry => (entry.1, f entry.2)) := by
  induction fields with
  | nil => rfl
  | cons head rest ih =>
    obtain ⟨k, v⟩ := head
    by_cases same : key = k
    · simp [insert, same]
    · by_cases less : key < k
      · simp [insert, same, less]
      · simp [insert, same, less, ih]

theorem map_ofList (f : α → β) (entries : List (String × α)) :
    (ofList entries).map (fun entry => (entry.1, f entry.2)) =
      ofList (entries.map fun entry => (entry.1, f entry.2)) := by
  have general : ∀ fields : Fields α,
      (entries.foldl (fun fields entry => fields.insert entry.1 entry.2) fields).map
          (fun entry => (entry.1, f entry.2)) =
        (entries.map fun entry => (entry.1, f entry.2)).foldl
          (fun (fields : Fields β) entry => fields.insert entry.1 entry.2)
          (fields.map fun entry => (entry.1, f entry.2)) := by
    induction entries with
    | nil => exact fun _ => rfl
    | cons entry rest ih =>
      intro fields
      rw [List.foldl_cons, ih, map_insert, List.map_cons, List.foldl_cons]
  exact general []

/-- Collecting again, with other values, changes nothing. -/
theorem ofList_map_ofList (f : α → β) (entries : List (String × α)) :
    ofList ((ofList entries).map fun entry => (entry.1, f entry.2)) =
      ofList (entries.map fun entry => (entry.1, f entry.2)) := by
  rw [map_ofList, ofList_of_sorted (sorted_ofList _)]

end Fields

end RemoteAgent
