import Mathlib.Data.List.Forall2
import Mathlib.Data.List.Nodup
import Mathlib.Data.List.Perm.Subperm
import Mathlib.Logic.Function.Iterate
import Mathlib.Logic.Relation
import RemoteAgent.Value.Equality

/-!
# Equality as a plain comparison

Values are equal if they hold the same, but that is not how it is always found out: one array or
object is equal to itself without a look inside, and the comparison stops at a level which no value
should come to.  The plain comparison knows neither.  Two arrays are compared item by item, two
objects field by field, and so on all the way down.

One level of it is `Value.comparePlainly`, where what lies below is left to another comparison, and
a comparison is *plain* if it is the one that what lies below it is left to
(`Value.IsPlainComparison`).  The shortcut changes nothing, since at no level a value is unequal to
itself (`Value.sameWithin_self`); numbers are not, because they are all finite.  And on a heap in
which nothing contains itself nobody comes to the last level: the arrays and objects on a way down
are all different (`Heap.Way`), so the way is not longer than there are of them.

## Main definitions

* `Value.IsPlainComparison`: a comparison that looks into every two arrays and every two objects.
* `Heap.Acyclic`: no array or object contains itself.

## Main results

* `Value.sameWithin_equivalence`: equality is an equivalence relation at every level.
* `Value.iterate_comparePlainly`: to compare plainly comes to an end, and to what equality says.
* `Value.same_eq_plain`: over a heap without cycles equality is the one plain comparison.
-/

namespace RemoteAgent

/-! ## Lists, position by position -/

theorem forall₂_equivalence {α : Type} {R : α → α → Prop} (same : Equivalence R) :
    Equivalence (List.Forall₂ R) where
  refl items := List.forall₂_same.mpr fun a _ => same.refl a
  symm both := (both.imp fun _ _ related => same.symm related).flip
  trans {items middle others} one two := by
    induction one generalizing others with
    | nil => exact two
    | cons head _ ih =>
      cases two with
      | cons next rest => exact .cons (same.trans head next) (ih rest)

theorem isEqv_eq_true_iff {α : Type} {same : α → α → Bool} {items others : List α} :
    items.isEqv others same = true ↔ List.Forall₂ (same · · = true) items others := by
  induction items generalizing others with
  | nil => cases others <;> simp
  | cons a items ih => cases others <;> simp [List.isEqv_cons_cons, ih]

theorem isEqv_equivalence {α : Type} {same : α → α → Bool}
    (equivalence : Equivalence (same · · = true)) :
    Equivalence fun items others : List α => items.isEqv others same = true := by
  simp only [isEqv_eq_true_iff]
  exact forall₂_equivalence equivalence

theorem isEqv_congr {α : Type} {same other : α → α → Bool} {items others : List α}
    (equal : ∀ a ∈ items, ∀ b, same a b = other a b) :
    items.isEqv others same = items.isEqv others other := by
  induction items generalizing others with
  | nil => cases others <;> rfl
  | cons a items ih =>
    cases others with
    | nil => rfl
    | cons b others =>
      rw [List.forall_mem_cons] at equal
      rw [List.isEqv_cons_cons, List.isEqv_cons_cons, equal.1 b, ih equal.2]

/-! ## Numbers -/

theorem Number.sameValue_eq_true_iff {a b : Number} : a.sameValue b = true ↔
    a = b ∨ ∃ x y, a.toBinary64? = some x ∧ b.toBinary64? = some y ∧ x.units = y.units := by
  unfold sameValue
  constructor
  · intro same
    split at same
    case h_1 x y here there =>
      exact .inr ⟨x, y, here, there, by simpa [Binary64.sameValue] using same⟩
    case h_2 => exact .inl (by simpa using same)
  · rintro (rfl | ⟨x, y, here, there, same⟩)
    · split <;> simp_all [Binary64.sameValue]
    · simp [here, there, Binary64.sameValue, same]

theorem Number.sameValue_equivalence : Equivalence (sameValue · · = true) where
  refl a := sameValue_eq_true_iff.mpr (.inl rfl)
  symm {a b} same := by
    rw [sameValue_eq_true_iff] at same ⊢
    rcases same with rfl | ⟨x, y, here, there, same⟩
    · exact .inl rfl
    · exact .inr ⟨y, x, there, here, same.symm⟩
  trans {a b c} one two := by
    rw [sameValue_eq_true_iff] at one two ⊢
    rcases one with rfl | ⟨x, y, here, there, same⟩
    · exact two
    rcases two with rfl | ⟨z, w, middle, last, more⟩
    · exact .inr ⟨x, y, here, there, same⟩
    · obtain rfl := Option.some.inj (there.symm.trans middle)
      exact .inr ⟨x, w, here, last, same.trans more⟩

variable {φ η : Type}

namespace Value

/-! ## One level of a comparison -/

/-- Two values are compared by what they hold, and two arrays or two objects in the given ways. -/
def compareBy (arrays : Handle .array → Handle .array → Bool)
    (objects : Handle .object → Handle .object → Bool) : Value → Value → Bool
  | .null, .null => true
  | .bool a, .bool b => a = b
  | .number a, .number b => a.sameValue b
  | .text a, .text b => a = b
  | .bytes a, .bytes b => a = b
  | .array a, .array b => arrays a b
  | .object a, .object b => objects a b
  | .function a, .function b => a = b
  | .host a, .host b => a = b
  | .deferred a, .deferred b => a = b
  | _, _ => false

section

variable {arrays : Handle .array → Handle .array → Bool}
  {objects : Handle .object → Handle .object → Bool}

theorem compareBy_self (array : ∀ h, arrays h h = true) (object : ∀ h, objects h h = true)
    (a : Value) : compareBy arrays objects a a = true := by
  cases a with
  | number n => exact Number.sameValue_equivalence.refl n
  | array h => exact array h
  | object h => exact object h
  | _ => simp [compareBy]

theorem compareBy_equivalence (array : Equivalence (arrays · · = true))
    (object : Equivalence (objects · · = true)) :
    Equivalence (compareBy arrays objects · · = true) where
  refl := compareBy_self array.refl object.refl
  symm {a b} same := by
    fun_cases compareBy arrays objects a b with
    | case3 a b => exact Number.sameValue_equivalence.symm same
    | case6 h k => exact array.symm same
    | case7 h k => exact object.symm same
    | _ => simp_all [compareBy]
  trans {a b c} one two := by
    fun_cases compareBy arrays objects a b with
    | case3 a b =>
      cases c with
      | number c => exact Number.sameValue_equivalence.trans one two
      | _ => cases two
    | case6 h k =>
      cases c with
      | array l => exact array.trans one two
      | _ => cases two
    | case7 h k =>
      cases c with
      | object l => exact object.trans one two
      | _ => cases two
    | _ => cases c <;> simp_all [compareBy]

end

/-- The plain comparison.  Two arrays, and two objects, are compared by what is in them, which is
done by `below`; whether they are one is not asked. -/
def comparePlainly (heap : Heap φ η) (below : Value → Value → Bool) : Value → Value → Bool :=
  compareBy (fun h k => (heap.items h).isEqv (heap.items k) below)
    fun h k => (heap.fields h).isEqv (heap.fields k) fun x y => x.1 = y.1 && below x.2 y.2

/-- A comparison is plain if it is one level of the plain comparison above itself. -/
def IsPlainComparison (heap : Heap φ η) (comparison : Value → Value → Bool) : Prop :=
  comparison = comparePlainly heap comparison

theorem comparePlainly_equivalence (heap : Heap φ η) {below : Value → Value → Bool}
    (same : Equivalence (below · · = true)) :
    Equivalence (comparePlainly heap below · · = true) := by
  have entries : Equivalence fun x y : String × Value =>
      (decide (x.1 = y.1) && below x.2 y.2) = true := by
    simp only [Bool.and_eq_true, decide_eq_true_eq]
    exact {
      refl x := ⟨rfl, same.refl x.2⟩
      symm both := ⟨both.1.symm, same.symm both.2⟩
      trans one two := ⟨one.1.trans two.1, same.trans one.2 two.2⟩ }
  exact compareBy_equivalence
    ((isEqv_equivalence same).comap heap.items) ((isEqv_equivalence entries).comap heap.fields)

/-! ## The shortcut -/

theorem sameWithin_zero (heap : Heap φ η) :
    sameWithin heap 0 = compareBy (fun h k => h = k) (fun h k => h = k) := by
  funext a b
  cases a <;> cases b <;> rfl

theorem sameWithin_succ (heap : Heap φ η) (levels : Nat) :
    sameWithin heap (levels + 1) =
      compareBy
        (fun h k => h = k || (heap.items h).isEqv (heap.items k) (sameWithin heap levels))
        (fun h k => h = k || (heap.fields h).isEqv (heap.fields k) fun x y =>
          x.1 = y.1 && sameWithin heap levels x.2 y.2) := by
  funext a b
  cases a <;> cases b <;> rfl

/-- Nothing is unequal to itself, at any level. -/
theorem sameWithin_self (heap : Heap φ η) (levels : Nat) (a : Value) :
    sameWithin heap levels a a = true := by
  cases levels with
  | zero =>
    rw [sameWithin_zero]
    exact compareBy_self (fun _ => by simp) (fun _ => by simp) a
  | succ levels =>
    rw [sameWithin_succ]
    exact compareBy_self (fun _ => by simp) (fun _ => by simp) a

/-- To ask first whether two handles are one makes no difference to a look that finds everything
equal to itself. -/
theorem shortcut_eq {kind : CellKind} {look : Handle kind → Handle kind → Bool}
    (self : ∀ h, look h h = true) : (fun h k => h = k || look h k) = look := by
  funext h k
  by_cases one : h = k
  · rw [one, self k, Bool.or_true]
  · rw [decide_eq_false one, Bool.false_or]

/-- **The shortcut changes nothing**: one array or object is equal to itself also if one looks
inside. -/
theorem sameWithin_succ_eq_comparePlainly (heap : Heap φ η) (levels : Nat) :
    sameWithin heap (levels + 1) = comparePlainly heap (sameWithin heap levels) := by
  have inside {α : Type} {same : α → α → Bool} (self : ∀ a, same a a = true) (items : List α) :
      items.isEqv items same = true :=
    isEqv_eq_true_iff.mpr (List.forall₂_same.mpr fun a _ => self a)
  have self := sameWithin_self heap levels
  rw [sameWithin_succ, comparePlainly, shortcut_eq fun h => inside self (heap.items h),
    shortcut_eq fun h => inside (fun entry => by simp [self entry.2]) (heap.fields h)]

theorem sameWithin_equivalence (heap : Heap φ η) (levels : Nat) :
    Equivalence (sameWithin heap levels · · = true) := by
  induction levels with
  | zero =>
    rw [sameWithin_zero]
    exact compareBy_equivalence (by simpa using eq_equivalence) (by simpa using eq_equivalence)
  | succ levels ih =>
    rw [sameWithin_succ_eq_comparePlainly]
    exact comparePlainly_equivalence heap ih

/-! ## What is below a value -/

/-- A value is an item of an array, or stands in a field of an object. -/
inductive Encloses (heap : Heap φ η) : Value → Value → Prop
  | item {h : Handle .array} {x : Value} (mem : x ∈ heap.items h) : Encloses heap (.array h) x
  | field {h : Handle .object} {key : String} {x : Value} (mem : (key, x) ∈ heap.fields h) :
      Encloses heap (.object h) x

/-- Every way down from a value ends after at most so many steps. -/
def IsWithin (heap : Heap φ η) : Nat → Value → Prop
  | 0, a => ∀ x, ¬ a.Encloses heap x
  | depth + 1, a => ∀ x, a.Encloses heap x → x.IsWithin heap depth

/-- The plain comparison does not ask for more than what stands right below the first value. -/
theorem comparePlainly_congr {heap : Heap φ η} {below other : Value → Value → Bool} {a : Value}
    (equal : ∀ x, a.Encloses heap x → ∀ y, below x y = other x y) (b : Value) :
    comparePlainly heap below a b = comparePlainly heap other a b := by
  cases a with
  | array h =>
    cases b with
    | array k => exact isEqv_congr fun x mem y => equal x (.item mem) y
    | _ => rfl
  | object h =>
    cases b with
    | object k => exact isEqv_congr fun x mem y => by rw [equal x.2 (.field mem) y.2]
    | _ => rfl
  | _ => cases b <;> rfl

/-- With more levels than there are below the first value, it is the plain comparison that is made,
and it comes to an end: it does not matter what would have been answered further down. -/
theorem iterate_comparePlainly {heap : Heap φ η} {depth rounds levels : Nat} {a : Value}
    (within : a.IsWithin heap depth) (more : depth < rounds) (deep : depth < levels)
    (start : Value → Value → Bool) (b : Value) :
    (comparePlainly heap)^[rounds] start a b = sameWithin heap levels a b := by
  induction depth generalizing a b rounds levels with
  | zero =>
    obtain ⟨rounds, rfl⟩ := Nat.exists_eq_add_one_of_ne_zero (Nat.ne_of_gt more)
    obtain ⟨levels, rfl⟩ := Nat.exists_eq_add_one_of_ne_zero (Nat.ne_of_gt deep)
    rw [Function.iterate_succ_apply', sameWithin_succ_eq_comparePlainly]
    exact comparePlainly_congr (fun x encloses => absurd encloses (within x)) b
  | succ depth ih =>
    obtain ⟨rounds, rfl⟩ := Nat.exists_eq_add_of_lt more
    obtain ⟨levels, rfl⟩ := Nat.exists_eq_add_of_lt deep
    rw [Function.iterate_succ_apply', sameWithin_succ_eq_comparePlainly]
    refine comparePlainly_congr (fun x encloses y => ?_) b
    exact ih (within x encloses) (by omega) (by omega) y

end Value

/-! ## Heaps without cycles -/

namespace Heap

variable {heap : Heap φ η}

/-- No array or object contains itself, be it through others. -/
def Acyclic (heap : Heap φ η) : Prop :=
  ∀ a : Value, ¬ Relation.TransGen (Value.Encloses heap) a a

/-- The place of an array or object among all of them. -/
def place (heap : Heap φ η) : Value → Nat
  | .array h => h.index
  | .object h => heap.arrays.size + h.index
  | _ => 0

theorem index_lt_of_mem_items {h : Handle .array} {x : Value} (mem : x ∈ heap.items h) :
    h.index < heap.arrays.size := by
  unfold items at mem
  cases cell : heap.arrays.get? h.index with
  | none => simp [cell] at mem
  | some items => exact Store.lt_size_of_get? cell

theorem index_lt_of_mem_fields {h : Handle .object} {entry : String × Value}
    (mem : entry ∈ heap.fields h) : h.index < heap.objects.size := by
  unfold fields at mem
  cases cell : heap.objects.get? h.index with
  | none => simp [cell] at mem
  | some fields => exact Store.lt_size_of_get? cell

theorem place_lt_of_encloses {a x : Value} (encloses : a.Encloses heap x) :
    heap.place a < heap.compositeCount := by
  cases encloses with
  | item mem => exact Nat.lt_add_right _ (index_lt_of_mem_items mem)
  | field mem => exact Nat.add_lt_add_left (index_lt_of_mem_fields mem) _

/-- Values that enclose something are at different places. -/
theorem eq_of_place_eq {a b x y : Value} (encloses : a.Encloses heap x) (other : b.Encloses heap y)
    (same : heap.place a = heap.place b) : a = b := by
  cases encloses with
  | item mem =>
    have inside := index_lt_of_mem_items mem
    cases other with
    | item => exact congrArg (Value.array ⟨·⟩) same
    | field => simp only [place] at same; omega
  | field mem =>
    cases other with
    | item mem =>
      have inside := index_lt_of_mem_items mem
      simp only [place] at same
      omega
    | field => exact congrArg (Value.object ⟨·⟩) (Nat.add_left_cancel same)

/-- A heap has no cycle if some rank falls from every array to its items, and from every object to
what stands in its fields. -/
theorem acyclic_of_rank (rank : Value → Nat)
    (arrays : ∀ i < heap.arrays.size, ∀ x ∈ heap.items ⟨i⟩, rank x < rank (.array ⟨i⟩))
    (objects : ∀ i < heap.objects.size, ∀ entry ∈ heap.fields ⟨i⟩,
      rank entry.2 < rank (.object ⟨i⟩)) : heap.Acyclic := by
  have falls {a x : Value} (encloses : a.Encloses heap x) : rank x < rank a := by
    cases encloses with
    | item mem => exact arrays _ (index_lt_of_mem_items mem) _ mem
    | field mem => exact objects _ (index_lt_of_mem_fields mem) _ mem
  intro a cycle
  have below : ∀ x, Relation.TransGen (Value.Encloses heap) a x → rank x < rank a := by
    intro x way
    induction way with
    | single encloses => exact falls encloses
    | tail _ encloses ih => exact Nat.lt_trans (falls encloses) ih
  exact Nat.lt_irrefl _ (below a cycle)

/-- A way down: values that are all different, and from each of which one comes to the last one. -/
structure Way (heap : Heap φ η) (path : List Value) (last : Value) : Prop where
  apart : path.Nodup
  above : ∀ a ∈ path, Relation.TransGen (Value.Encloses heap) a last

/-- A way down is not longer than there are arrays and objects. -/
theorem Way.length_le {path : List Value} {last : Value} (way : heap.Way path last) :
    path.length ≤ heap.compositeCount := by
  have enclosing : ∀ a ∈ path, ∃ x, a.Encloses heap x := by
    intro a mem
    obtain ⟨x, encloses, -⟩ := Relation.TransGen.head'_iff.mp (way.above a mem)
    exact ⟨x, encloses⟩
  have places : (path.map heap.place).Nodup := by
    refine way.apart.map_on fun a mem b other same => ?_
    obtain ⟨x, encloses⟩ := enclosing a mem
    obtain ⟨y, others⟩ := enclosing b other
    exact eq_of_place_eq encloses others same
  have inside : path.map heap.place ⊆ List.range heap.compositeCount := by
    intro n mem
    obtain ⟨a, onPath, rfl⟩ := List.mem_map.mp mem
    obtain ⟨x, encloses⟩ := enclosing a onPath
    exact List.mem_range.mpr (place_lt_of_encloses encloses)
  simpa using (places.subperm inside).length_le

/-- Without cycles a way down comes to something new with every step. -/
theorem Way.cons (acyclic : heap.Acyclic) {path : List Value} {last x : Value}
    (way : heap.Way path last) (encloses : last.Encloses heap x) : heap.Way (last :: path) x where
  apart := List.nodup_cons.mpr ⟨fun mem => acyclic last (way.above last mem), way.apart⟩
  above a mem := by
    rcases List.mem_cons.mp mem with rfl | mem
    · exact .single encloses
    · exact (way.above a mem).tail encloses

/-- At the end of a way down there are at most as many steps left as there are arrays and objects
that the way has not met. -/
theorem Way.isWithin (acyclic : heap.Acyclic) {path : List Value} {last : Value}
    (way : heap.Way path last) {rest : Nat} (count : path.length + rest = heap.compositeCount) :
    last.IsWithin heap rest := by
  induction rest generalizing path last with
  | zero =>
    intro x encloses
    have further := (way.cons acyclic encloses).length_le
    rw [List.length_cons] at further
    omega
  | succ rest ih =>
    intro x encloses
    refine ih (way.cons acyclic encloses) ?_
    rw [List.length_cons]
    omega

/-- Without cycles no way down is longer than there are arrays and objects. -/
theorem Acyclic.isWithin (acyclic : heap.Acyclic) (a : Value) :
    a.IsWithin heap heap.compositeCount := by
  have start : heap.Way [] a := ⟨List.nodup_nil, fun _ mem => absurd mem List.not_mem_nil⟩
  exact start.isWithin acyclic (Nat.zero_add _)

end Heap

namespace Value

/-- **Equality is the plain comparison.**  Over a heap without cycles equality of values is an
equivalence relation.  It is a plain comparison, which goes down into arrays and objects without
asking whether they are one, and there is no other.  To go down comes to an end: as many rounds as
there are arrays and objects, and one more, are enough, whatever is taken for the answer further
down. -/
theorem same_eq_plain (heap : Heap φ η) (acyclic : heap.Acyclic) :
    (Equivalence fun a b => same heap a b = true) ∧
    (∀ comparison, IsPlainComparison heap comparison ↔ comparison = same heap) ∧
    ∀ rounds, heap.compositeCount < rounds → ∀ start,
      (comparePlainly heap)^[rounds] start = same heap := by
  have ends {rounds : Nat} (enough : heap.compositeCount < rounds)
      (start : Value → Value → Bool) : (comparePlainly heap)^[rounds] start = same heap := by
    funext a b
    exact iterate_comparePlainly (acyclic.isWithin a) enough (Nat.lt_succ_self _) start b
  refine ⟨sameWithin_equivalence heap _, fun comparison => ⟨fun plain => ?unique, ?plain⟩,
    fun rounds enough start => ends enough start⟩
  case unique =>
    have fixed : (comparePlainly heap)^[heap.compositeCount + 1] comparison = comparison :=
      Function.iterate_fixed plain.symm _
    rw [← fixed]
    exact ends (Nat.lt_succ_self _) comparison
  case plain =>
    rintro rfl
    -- One round more makes no difference.
    have further := ends (Nat.lt_succ_of_lt (Nat.lt_succ_self heap.compositeCount)) (same heap)
    rw [Function.iterate_succ_apply', ends (Nat.lt_succ_self _)] at further
    exact further.symm

/-- Two objects that hold the same numbers, one as integers and one as doubles.  In either one an
array stands in two places, and they have no array in common. -/
def twins : Heap Unit Unit :=
  let one : Binary64 := ⟨false, ⟨1023, by decide⟩, ⟨0, by decide⟩⟩
  { Heap.empty with
    arrays := ⟨#[[.number (.int 1)], [.array ⟨0⟩, .array ⟨0⟩],
      [.number (.float one)], [.array ⟨2⟩, .array ⟨2⟩]]⟩
    objects := ⟨#[[("pair", .array ⟨1⟩)], [("pair", .array ⟨3⟩)]]⟩ }

/-- How far a value of `twins` is above the numbers. -/
def twinsRank : Value → Nat
  | .array h => h.index + 1
  | .object _ => 5
  | _ => 0

theorem same_eq_plain_twins :
    twins.Acyclic ∧ same twins (.object ⟨0⟩) (.object ⟨1⟩) = true ∧
    (Equivalence fun a b => same twins a b = true) ∧
    (∀ comparison, IsPlainComparison twins comparison ↔ comparison = same twins) ∧
    ∀ rounds, twins.compositeCount < rounds → ∀ start,
      (comparePlainly twins)^[rounds] start = same twins := by
  have acyclic : twins.Acyclic := Heap.acyclic_of_rank twinsRank (by decide) (by decide)
  exact ⟨acyclic, by decide +kernel, same_eq_plain twins acyclic⟩

end Value

end RemoteAgent
