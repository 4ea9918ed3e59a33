import Mathlib.Data.List.Forall2
import RemoteAgent.Proofs.Assignment
import RemoteAgent.Proofs.Persistence

/-!
# Values that look the same

Doing something twice gives two values, and as a rule they are two: a command that makes an array
makes another one each time.  What can be said is that nobody can tell them apart by reading.  So
here values are compared by what they look like, each in a heap of its own.

Two values look the same if they are of one kind and show the same: scalars are equal, functions
have one name, and arrays, objects and bags hold values that look the same again.  One such look is
`Value.LooksLike`, relative to a relation for what lies below, and since a heap may be cyclic, two
values *resemble* each other if there is a relation that holds of them and agrees with one look
everywhere (`Value.Resembles`).  Nothing that only makes cells takes this away
(`Value.Resembles.later`), and whatever can be read off a value is the same for two that resemble
each other: whether it is present, its renderings, its description, the key that it names, and its
properties.

What host objects with rules of their own look like is for the application to say (`HostLikeness`).
They are *pure* (`PureHosts`) if reading a property of one has no effect, and if two that look the
same are described, listed and read in the same way.

## Main definitions

* `Value.Resembles`: two values that cannot be told apart by reading.
* `World.Resembles`: two worlds with one cache, in which every cached value looks the same.
* `Eval.Agrees`: two actions without an effect that come to results of the same look.
* `PureHosts`: host objects that are read without an effect.
-/

namespace RemoteAgent

/-! ## Lists and fields, entry by entry -/

/-- What does not tell related items apart makes the same of both lists. -/
theorem map_eq_map_of_forall₂ {α β : Type} {R : α → α → Prop} {f g : α → β} {items others : List α}
    (related : List.Forall₂ R items others) (same : ∀ a b, R a b → f a = g b) :
    items.map f = others.map g := by
  rw [← List.forall₂_eq_eq_eq, List.forall₂_map_left_iff, List.forall₂_map_right_iff]
  exact related.imp same

/-- What is found at one position of both lists is related, also where they have ended. -/
theorem getD_getElem?_of_forall₂ {α : Type} {R : α → α → Prop} {default : α}
    (base : R default default) {items others : List α} (related : List.Forall₂ R items others)
    (position : Nat) :
    R (items[position]?.getD default) (others[position]?.getD default) := by
  induction related generalizing position with
  | nil => exact base
  | cons head _ ih =>
      cases position with
      | zero => exact head
      | succ position => exact ih position

namespace Fields

variable {α β : Type} {R S : α → α → Prop} {fields others : Fields α}

/-- Two lists of entries with the same keys in the same order, and related values under them. -/
def Matches (R : α → α → Prop) (fields others : List (String × α)) : Prop :=
  List.Forall₂ (fun a b => a.1 = b.1 ∧ R a.2 b.2) fields others

namespace Matches

theorem imp (step : ∀ a b, R a b → S a b) (same : Matches R fields others) :
    Matches S fields others :=
  List.Forall₂.imp (fun _ _ both => ⟨both.1, step _ _ both.2⟩) same

theorem insert (same : Matches R fields others) (key : String) {value mate : α}
    (related : R value mate) : Matches R (Fields.insert key value fields)
      (Fields.insert key mate others) := by
  induction same with
  | nil => exact .cons ⟨rfl, related⟩ .nil
  | @cons head twin rest more both tail ih =>
      obtain ⟨k, v⟩ := head
      obtain ⟨_, w⟩ := twin
      obtain ⟨rfl, matching⟩ := both
      unfold Fields.insert
      split
      · exact .cons ⟨rfl, related⟩ tail
      · split
        · exact .cons ⟨rfl, related⟩ (.cons ⟨rfl, matching⟩ tail)
        · exact .cons ⟨rfl, matching⟩ ih

theorem ofList (same : Matches R fields others) :
    Matches R (Fields.ofList fields) (Fields.ofList others) := by
  have general : ∀ done more : Fields α, Matches R done more →
      Matches R (fields.foldl (fun done entry => Fields.insert entry.1 entry.2 done) done)
        (others.foldl (fun more entry => Fields.insert entry.1 entry.2 more) more) := by
    induction same with
    | nil => exact fun _ _ started => started
    | cons both _ ih =>
        intro done more started
        rw [List.foldl_cons, List.foldl_cons, both.1]
        exact ih _ _ (started.insert _ both.2)
  exact general [] [] .nil

theorem find? {default : α} (base : R default default) (same : Matches R fields others)
    (key : String) :
    R ((Fields.find? key fields).getD default) ((Fields.find? key others).getD default) := by
  induction same with
  | nil => exact base
  | @cons head twin rest more both _ ih =>
      obtain ⟨k, v⟩ := head
      obtain ⟨_, w⟩ := twin
      obtain ⟨rfl, related⟩ := both
      unfold Fields.find?
      split
      · exact related
      · exact ih

/-- What does not tell related values apart makes the same entries of both. -/
theorem map_eq {f g : α → β} (same : Matches R fields others) (equal : ∀ a b, R a b → f a = g b) :
    fields.map (fun entry => (entry.1, f entry.2)) =
      others.map fun entry => (entry.1, g entry.2) :=
  map_eq_map_of_forall₂ same fun _ _ both => Prod.ext both.1 (equal _ _ both.2)

end Matches

end Fields

/-! ## Values -/

/-- Which codes of host objects look the same, each in a heap of its own.  Cells that are made later
do not change their looks. -/
class HostLikeness (φ η : Type) where
  /-- The codes look the same. -/
  Like : Heap φ η → Heap φ η → η → η → Prop
  later {heap heapLater other otherLater : Heap φ η} {code twin : η} :
    heap.Persists heapLater → other.Persists otherLater → Like heap other code twin →
    Like heapLater otherLater code twin

variable {φ η : Type}

namespace Value

variable [HostLikeness φ η]

/-- Two values look the same, each in its heap, if what lies right below them is related. -/
inductive LooksLike (heap other : Heap φ η) (R : Value → Value → Prop) : Value → Value → Prop
  | null : LooksLike heap other R .null .null
  | bool (flag : Bool) : LooksLike heap other R (.bool flag) (.bool flag)
  | number (value : Number) : LooksLike heap other R (.number value) (.number value)
  | text (content : String) : LooksLike heap other R (.text content) (.text content)
  | bytes (content : List UInt8) : LooksLike heap other R (.bytes content) (.bytes content)
  | array {h k : Handle .array} {items others : List Value}
      (here : heap.arrays.get? h.index = some items)
      (there : other.arrays.get? k.index = some others) (below : List.Forall₂ R items others) :
      LooksLike heap other R (.array h) (.array k)
  | object {h k : Handle .object} {fields others : Fields Value}
      (here : heap.objects.get? h.index = some fields)
      (there : other.objects.get? k.index = some others) (below : Fields.Matches R fields others) :
      LooksLike heap other R (.object h) (.object k)
  | function {h k : Handle .function} {function twin : Function φ}
      (here : heap.functions.get? h.index = some function)
      (there : other.functions.get? k.index = some twin) (name : function.name = twin.name) :
      LooksLike heap other R (.function h) (.function k)
  | bag {h k : Handle .host} {label : String} {properties others : Fields Value}
      (here : heap.hosts.get? h.index = some (.bag label properties))
      (there : other.hosts.get? k.index = some (.bag label others))
      (below : Fields.Matches R properties others) :
      LooksLike heap other R (.host h) (.host k)
  | custom {h k : Handle .host} {code twin : η}
      (here : heap.hosts.get? h.index = some (.custom code))
      (there : other.hosts.get? k.index = some (.custom twin))
      (like : HostLikeness.Like heap other code twin) :
      LooksLike heap other R (.host h) (.host k)
  | deferred (h k : Handle .deferred) : LooksLike heap other R (.deferred h) (.deferred k)

/-- Two values look the same at every depth. -/
def Resembles (heap other : Heap φ η) (value mate : Value) : Prop :=
  ∃ R : Value → Value → Prop,
    (∀ x y, R x y → LooksLike heap other R x y) ∧ R value mate

section Looks

variable {heap heapLater other otherLater : Heap φ η} {R S : Value → Value → Prop}
  {value mate : Value}

theorem LooksLike.imp (step : ∀ x y, R x y → S x y) (looks : LooksLike heap other R value mate) :
    LooksLike heap other S value mate := by
  cases looks with
  | null => exact .null
  | bool flag => exact .bool flag
  | number value => exact .number value
  | text content => exact .text content
  | bytes content => exact .bytes content
  | array here there below => exact .array here there (below.imp step)
  | object here there below => exact .object here there (below.imp step)
  | function here there name => exact .function here there name
  | bag here there below => exact .bag here there (below.imp step)
  | custom here there like => exact .custom here there like
  | deferred h k => exact .deferred h k

theorem LooksLike.later (persists : heap.Persists heapLater)
    (twinPersists : other.Persists otherLater) (looks : LooksLike heap other R value mate) :
    LooksLike heapLater otherLater R value mate := by
  cases looks with
  | null => exact .null
  | bool flag => exact .bool flag
  | number value => exact .number value
  | text content => exact .text content
  | bytes content => exact .bytes content
  | array here there below =>
      exact .array (persists.arrays _ _ here) (twinPersists.arrays _ _ there) below
  | object here there below =>
      exact .object (persists.objects _ _ here) (twinPersists.objects _ _ there) below
  | function here there name =>
      exact .function (persists.functions _ _ here) (twinPersists.functions _ _ there) name
  | bag here there below =>
      exact .bag (persists.hosts _ _ here) (twinPersists.hosts _ _ there) below
  | custom here there like =>
      exact .custom (persists.hosts _ _ here) (twinPersists.hosts _ _ there)
        (HostLikeness.later persists twinPersists like)
  | deferred h k => exact .deferred h k

/-- Values that resemble each other look the same, and so does what lies below them. -/
theorem Resembles.looksLike (resembles : value.Resembles heap other mate) :
    LooksLike heap other (Resembles heap other) value mate := by
  obtain ⟨R, looks, related⟩ := resembles
  exact (looks value mate related).imp fun x y related => ⟨R, looks, related⟩

/-- Values of the same look resemble each other if what lies below them does. -/
theorem LooksLike.resembles (looks : LooksLike heap other (Resembles heap other) value mate) :
    value.Resembles heap other mate := by
  -- The pair itself is added to what is related already.
  refine ⟨LooksLike heap other (Resembles heap other), ?_, looks⟩
  exact fun x y again => again.imp fun _ _ below => below.looksLike

/-- New cells do not change what a value looks like. -/
theorem Resembles.later (persists : heap.Persists heapLater)
    (twinPersists : other.Persists otherLater) (resembles : value.Resembles heap other mate) :
    value.Resembles heapLater otherLater mate := by
  obtain ⟨R, looks, related⟩ := resembles
  exact ⟨R, fun x y below => (looks x y below).later persists twinPersists, related⟩

end Looks

/-! ### Making values -/

section Making

variable {heap other : Heap φ η}

theorem resembles_newArray {items others : List Value}
    (below : List.Forall₂ (Resembles heap other) items others) :
    (heap.newArray items).1.Resembles (heap.newArray items).2 (other.newArray others).2
      (other.newArray others).1 := by
  have later := Heap.Persists.newArray heap items
  have twinLater := Heap.Persists.newArray other others
  refine LooksLike.resembles (.array (Store.get?_push_size _ _) (Store.get?_push_size _ _) ?_)
  exact below.imp fun _ _ resembles => resembles.later later twinLater

theorem resembles_newObject {entries others : List (String × Value)}
    (below : Fields.Matches (Resembles heap other) entries others) :
    (heap.newObject entries).1.Resembles (heap.newObject entries).2 (other.newObject others).2
      (other.newObject others).1 := by
  have later := Heap.Persists.newObject heap entries
  have twinLater := Heap.Persists.newObject other others
  refine LooksLike.resembles (.object (Store.get?_push_size _ _) (Store.get?_push_size _ _) ?_)
  exact below.ofList.imp fun _ _ resembles => resembles.later later twinLater

theorem resembles_newFunction (function : Function φ) :
    (heap.newFunction function).1.Resembles (heap.newFunction function).2
      (other.newFunction function).2 (other.newFunction function).1 :=
  LooksLike.resembles (.function (Store.get?_push_size _ _) (Store.get?_push_size _ _) rfl)

mutual

/-- What is made of the same JSON twice looks the same. -/
theorem resembles_ofJson : ∀ (json : Json) (heap other : Heap φ η),
    (ofJson json heap).1.Resembles (ofJson json heap).2 (ofJson json other).2 (ofJson json other).1
  | .null, _, _ => LooksLike.resembles .null
  | .bool flag, _, _ => LooksLike.resembles (.bool flag)
  | .number value, _, _ => LooksLike.resembles (.number value)
  | .string content, _, _ => LooksLike.resembles (.text content)
  | .array items, heap, other => resembles_newArray (resembles_ofJsonItems items heap other)
  | .object fields, heap, other => resembles_newObject (resembles_ofJsonFields fields heap other)

theorem resembles_ofJsonItems : ∀ (items : List Json) (heap other : Heap φ η),
    List.Forall₂ (Resembles (ofJsonItems items heap).2 (ofJsonItems items other).2)
      (ofJsonItems items heap).1 (ofJsonItems items other).1
  | [], _, _ => .nil
  | item :: rest, heap, other => by
      have first := resembles_ofJson item heap other
      have others := resembles_ofJsonItems rest (ofJson item heap).2 (ofJson item other).2
      exact .cons (first.later (persists_ofJsonItems rest _) (persists_ofJsonItems rest _)) others

theorem resembles_ofJsonFields : ∀ (fields : List (String × Json)) (heap other : Heap φ η),
    Fields.Matches (Resembles (ofJsonFields fields heap).2 (ofJsonFields fields other).2)
      (ofJsonFields fields heap).1 (ofJsonFields fields other).1
  | [], _, _ => .nil
  | (key, item) :: rest, heap, other => by
      have first := resembles_ofJson item heap other
      have others := resembles_ofJsonFields rest (ofJson item heap).2 (ofJson item other).2
      refine .cons ⟨rfl, ?_⟩ others
      exact first.later (persists_ofJsonFields rest _) (persists_ofJsonFields rest _)

end

end Making

end Value

/-! ## Actions -/

namespace Eval

/-- Two results are values that are related, or the same error. -/
inductive Concur {α : Type} (related : α → α → Prop) :
    Except EvalError α → Except EvalError α → Prop
  | ok {value mate : α} (both : related value mate) : Concur related (.ok value) (.ok mate)
  | error (error : EvalError) : Concur related (.error error) (.error error)

theorem Concur.of_ok {α : Type} {related : α → α → Prop} {result twin : Except EvalError α}
    {value mate : α} (concur : Concur related result twin) (gives : result = .ok value)
    (twinGives : twin = .ok mate) : related value mate := by
  subst gives twinGives
  cases concur with
  | ok both => exact both

theorem Concur.imp {α : Type} {related weaker : α → α → Prop}
    (step : ∀ value mate, related value mate → weaker value mate)
    {result twin : Except EvalError α} (concur : Concur related result twin) :
    Concur weaker result twin := by
  cases concur with
  | ok both => exact .ok (step _ _ both)
  | error error => exact .error error

/-- Two actions, each in its world, have no effect, and come to related values or to the same
error.  Values are related by what they look like in the heaps that are left. -/
structure Agrees {α : Type} (related : Heap φ η → Heap φ η → α → α → Prop)
    (world twin : World φ η) (action other : Eval φ η α) : Prop where
  here : world.Persists (action.run world).2
  there : twin.Persists (other.run twin).2
  concur : Concur (related (action.run world).2.heap (other.run twin).2.heap)
    (action.run world).1 (other.run twin).1

namespace Agrees

variable {α β : Type} {related : Heap φ η → Heap φ η → α → α → Prop}
  {related' : Heap φ η → Heap φ η → β → β → Prop} {world twin : World φ η}

theorem pure {value mate : α} (both : related world.heap twin.heap value mate) :
    Agrees related world twin (Pure.pure value) (Pure.pure mate) :=
  ⟨.refl world, .refl twin, .ok both⟩

theorem throw {error twinError : EvalError} (same : error = twinError) :
    Agrees related world twin (MonadExcept.throw error) (MonadExcept.throw twinError) := by
  subst same
  exact ⟨.refl world, .refl twin, .error error⟩

/-- One after the other. What the first ones made is there for the second ones. -/
theorem bind {action other : Eval φ η α} {next twinNext : α → Eval φ η β}
    (first : Agrees related world twin action other)
    (second : ∀ value mate after beyond, world.Persists after → twin.Persists beyond →
      related after.heap beyond.heap value mate →
      Agrees related' after beyond (next value) (twinNext mate)) :
    Agrees related' world twin (action >>= next) (other >>= twinNext) := by
  obtain ⟨here, there, concur⟩ := first
  rcases result : action.run world with ⟨result, after⟩
  rcases twinResult : other.run twin with ⟨twinResult, beyond⟩
  rw [result, twinResult] at concur
  rw [result] at here
  rw [twinResult] at there
  cases concur with
  | error error =>
      -- The error ends both evaluations, and what was made before it stays.
      have run : (action >>= next).run world = (.error error, after) := by
        rw [run_bind, result]
      have twinRun : (other >>= twinNext).run twin = (.error error, beyond) := by
        rw [run_bind, twinResult]
      refine ⟨?_, ?_, ?_⟩
      · rw [run]
        exact here
      · rw [twinRun]
        exact there
      · rw [run, twinRun]
        exact .error error
  | @ok value mate both =>
      have run : (action >>= next).run world = (next value).run after := by
        rw [run_bind, result]
      have twinRun : (other >>= twinNext).run twin = (twinNext mate).run beyond := by
        rw [run_bind, twinResult]
      obtain ⟨onwards, twinOnwards, concur⟩ := second value mate after beyond here there both
      refine ⟨?_, ?_, ?_⟩
      · rw [run]
        exact here.trans onwards
      · rw [twinRun]
        exact there.trans twinOnwards
      · rw [run, twinRun]
        exact concur

/-- Looking at the heap. -/
theorem heap {next twinNext : Heap φ η → Eval φ η β}
    (agrees : Agrees related' world twin (next world.heap) (twinNext twin.heap)) :
    Agrees related' world twin (Eval.heap >>= next) (Eval.heap >>= twinNext) :=
  ⟨agrees.here, agrees.there, agrees.concur⟩

/-- Looking at the cache. -/
theorem cache {next twinNext : Fields Value → Eval φ η β}
    (agrees : Agrees related' world twin (next world.cache) (twinNext twin.cache)) :
    Agrees related' world twin (Eval.cache >>= next) (Eval.cache >>= twinNext) :=
  ⟨agrees.here, agrees.there, agrees.concur⟩

/-- Making cells. -/
theorem allocate {make twinMake : Heap φ η → α × Heap φ η}
    (here : world.heap.Persists (make world.heap).2)
    (there : twin.heap.Persists (twinMake twin.heap).2)
    (both : related (make world.heap).2 (twinMake twin.heap).2 (make world.heap).1
      (twinMake twin.heap).1) :
    Agrees related world twin (Eval.allocate make) (Eval.allocate twinMake) :=
  ⟨.withHeap here, .withHeap there, .ok both⟩

/-- The same result, whatever it is. -/
theorem ofExcept (result : Except EvalError α) :
    Agrees (fun _ _ value mate => value = mate) world twin (Eval.ofExcept result)
      (Eval.ofExcept result) := by
  cases result with
  | error error => exact throw rfl
  | ok value => exact pure rfl

end Agrees

end Eval

/-! ## Worlds and host objects -/

variable [HostLikeness φ η]

/-- Two worlds have one cache and one outbox, and what is cached looks the same in both. -/
structure World.Resembles (world twin : World φ η) : Prop where
  cache : twin.cache = world.cache
  outbox : twin.outbox = world.outbox
  cached : ∀ entry ∈ world.cache, entry.2.Resembles world.heap twin.heap entry.2

theorem World.Resembles.later {world after twin beyond : World φ η}
    (here : world.Persists after) (there : twin.Persists beyond)
    (resembles : world.Resembles twin) : after.Resembles beyond where
  cache := by rw [there.cache, resembles.cache, here.cache]
  outbox := by rw [there.outbox, resembles.outbox, here.outbox]
  cached entry mem := by
    rw [here.cache] at mem
    exact (resembles.cached entry mem).later here.heap there.heap

/-- Host objects that are read without an effect.  Two of them that look the same are described,
listed and read in the same way. -/
class PureHosts (φ η : Type) [HostObjects φ η] [HostLikeness φ η] : Prop where
  describe {heap other : Heap φ η} {code twin : η} : HostLikeness.Like heap other code twin →
    HostObjects.describe heap code = HostObjects.describe other twin
  entries {heap other : Heap φ η} {code twin : η} : HostLikeness.Like heap other code twin →
    Fields.Matches (Value.Resembles heap other) (HostObjects.entries heap code)
      (HostObjects.entries other twin)
  get {world mirror : World φ η} {code twin : η} (key : PropertyKey) : world.Resembles mirror →
    HostLikeness.Like world.heap mirror.heap code twin →
    Eval.Agrees Value.Resembles world mirror (HostObjects.get code key) (HostObjects.get twin key)

/-! ## What is read off a value -/

namespace Value

section Reading

variable [HostObjects φ η] [PureHosts φ η] {heap other : Heap φ η} {value mate : Value}

omit [HostObjects φ η] [PureHosts φ η] in
/-- Values that look the same are both present or both absent. -/
theorem Resembles.isPresent_eq (resembles : value.Resembles heap other mate) :
    value.isPresent heap = mate.isPresent other := by
  cases resembles.looksLike with
  | array here there below =>
      unfold isPresent
      dsimp only
      rw [Heap.items_of_cell here, Heap.items_of_cell there]
      cases below <;> rfl
  | object here there below =>
      unfold isPresent
      dsimp only
      rw [Heap.fields_of_cell here, Heap.fields_of_cell there, List.Forall₂.length_eq below]
  | _ => rfl

/-- **Values that look the same have the same renderings**, at every depth. -/
theorem Resembles.toJsonWithin_eq (resembles : value.Resembles heap other mate) (depth : Nat) :
    value.toJsonWithin heap depth = mate.toJsonWithin other depth := by
  induction depth generalizing value mate with
  | zero => cases resembles.looksLike <;> rfl
  | succ depth ih =>
      have level : ∀ x y, Resembles heap other x y →
          toJsonWithin heap depth x = toJsonWithin other depth y := fun _ _ below => ih below
      cases resembles.looksLike with
      | array here there below =>
          unfold toJsonWithin
          rw [Heap.items_of_cell here, Heap.items_of_cell there,
            map_eq_map_of_forall₂ below level]
      | object here there below =>
          unfold toJsonWithin
          rw [Heap.fields_of_cell here, Heap.fields_of_cell there, below.map_eq level]
      | bag here there below =>
          unfold toJsonWithin Heap.host?
          rw [here, there]
          exact congrArg Json.ofEntries (below.map_eq level)
      | custom here there like =>
          unfold toJsonWithin Heap.host?
          rw [here, there]
          exact congrArg Json.ofEntries ((PureHosts.entries like).map_eq level)
      | _ => rfl

theorem Resembles.toJson_eq (resembles : value.Resembles heap other mate) (depth : Int) :
    value.toJson heap depth = mate.toJson other depth :=
  resembles.toJsonWithin_eq depth.toNat

/-- Values that look the same are called the same in diagnostics. -/
theorem Resembles.describe_eq (resembles : value.Resembles heap other mate) :
    value.describe heap = mate.describe other := by
  have full : value.fullDescription heap = mate.fullDescription other := by
    have rendered := congrArg Json.render (resembles.toJson_eq describedDepth)
    cases resembles.looksLike with
    | function here there name =>
        unfold fullDescription Heap.function?
        dsimp only
        rw [here, there]
        exact congrArg ("function " ++ ·) name
    | bag here there below =>
        unfold fullDescription Heap.host?
        dsimp only
        rw [here, there]
        rfl
    | custom here there like =>
        unfold fullDescription Heap.host?
        dsimp only
        rw [here, there]
        exact PureHosts.describe like
    | deferred => rfl
    | _ => exact rendered
  exact congrArg (Text.abbreviate describedBytes) full

/-- Values that look the same name the same key, or are refused as keys in the same words. -/
theorem Resembles.toKey_eq (resembles : value.Resembles heap other mate) :
    value.toKey heap = mate.toKey other := by
  have described := resembles.describe_eq
  cases resembles.looksLike with
  | null | bool | number | text => rfl
  | _ => exact congrArg (Except.error ∘ EvalError.invalidKey) described

omit [HostObjects φ η] [PureHosts φ η] in
theorem resembles_sequenceProperty {items others : List Value}
    (below : List.Forall₂ (Resembles heap other) items others) (key : PropertyKey) :
    (sequenceProperty items key).Resembles heap other (sequenceProperty others key) := by
  have null : Resembles heap other .null .null := LooksLike.resembles .null
  unfold sequenceProperty
  split
  · rw [below.length_eq]
    exact LooksLike.resembles (.number _)
  · cases key.asIndex? with
    | none => exact null
    | some position => exact getD_getElem?_of_forall₂ null below position

omit [HostObjects φ η] [PureHosts φ η] in
/-- Scalars look like themselves. -/
theorem forall₂_resembles_map {α : Type} {make : α → Value}
    (scalar : ∀ a, (make a).Resembles heap other (make a)) (content : List α) :
    List.Forall₂ (Resembles heap other) (content.map make) (content.map make) :=
  List.forall₂_map_left_iff.mpr (List.forall₂_map_right_iff.mpr
    (List.forall₂_same.mpr fun a _ => scalar a))

theorem agrees_hostProperty {world mirror : World φ η} {h k : Handle .host}
    (alike : world.Resembles mirror) (hosts : Resembles world.heap mirror.heap (.host h) (.host k))
    (key : PropertyKey) :
    Eval.Agrees Resembles world mirror (hostProperty h key) (hostProperty k key) := by
  refine .heap ?_
  unfold Heap.host?
  cases hosts.looksLike with
  | bag here there below =>
      rw [here, there]
      exact .pure (below.find? (LooksLike.resembles .null) key.asName)
  | custom here there like =>
      rw [here, there]
      exact PureHosts.get key alike like

/-- **A property of values that look the same is read without an effect, and looks the same.** -/
theorem agrees_getIndex {world mirror : World φ η} {target twin index key : Value}
    (alike : world.Resembles mirror) (targets : target.Resembles world.heap mirror.heap twin)
    (indices : index.Resembles world.heap mirror.heap key) :
    Eval.Agrees Resembles world mirror (target.getIndex index) (twin.getIndex key) := by
  refine .heap ?_
  rw [indices.toKey_eq]
  refine .bind (.ofExcept _) ?_
  rintro key _ after beyond here there rfl
  have described := targets.describe_eq
  have null : Resembles after.heap beyond.heap .null .null := LooksLike.resembles .null
  have later : ∀ x y, Resembles world.heap mirror.heap x y → Resembles after.heap beyond.heap x y :=
    fun _ _ below => below.later here.heap there.heap
  cases targets.looksLike with
  | array cell twinCell below =>
      dsimp only
      rw [Heap.items_of_cell cell, Heap.items_of_cell twinCell]
      exact .pure (resembles_sequenceProperty (below.imp later) key)
  | object cell twinCell below =>
      dsimp only
      rw [Heap.fields_of_cell cell, Heap.fields_of_cell twinCell]
      exact .pure ((below.imp later).find? null key.asName)
  | text content =>
      refine .pure (resembles_sequenceProperty (forall₂_resembles_map (fun c => ?_) _) key)
      exact LooksLike.resembles (.text _)
  | bytes content =>
      refine .pure (resembles_sequenceProperty (forall₂_resembles_map (fun byte => ?_) _) key)
      exact LooksLike.resembles (.number _)
  | bag | custom => exact agrees_hostProperty (alike.later here there) (later _ _ targets) key
  | _ => exact .throw (congrArg EvalError.notIndexable described)

end Reading

end Value

end RemoteAgent
