import RemoteAgent.Proofs.Binding
import RemoteAgent.Proofs.Resemblance

/-!
# Looking without touching

A command that neither calls nor assigns only reads: it makes literals, arrays, objects and callback
functions, looks up cached values and reads properties.  Here it is shown that evaluating such a
command has no effect, and that evaluating it again comes to the same, be it a value or an error
(`Command.reading_repeats`).

The same cannot mean the very same value, since whatever a command makes it makes anew.  The two
evaluations start in different worlds too: the second one finds what the first one has left, also
where that one failed half way through an object.  So evaluation is followed in two worlds at once
that look alike but for their new cells (`World.Resembles`), by induction on the command, and the
two evaluations go on in step (`Command.agrees_evaluate`).  Taken from one world twice, and from a
world and what became of it, this is what was to be shown.

A handle that names no cell is nothing that an agent could have, and it would name the next cell
that is made.  Worlds without such handles are *intact*.

## Main definitions

* `Command.OnlyReads`: no node of a command is a call or an assignment.
* `World.Intact`: every handle names a cell.

## Main results

* `Command.agrees_evaluate`: evaluating in two worlds that look alike.
* `Command.reading_repeats`: reading has no effect, and reading again comes to the same.
-/

namespace RemoteAgent

variable {φ η : Type}

/-! ## Intact worlds -/

/-- A value that is no handle of a cell that is not there. -/
def Value.Lives (heap : Heap φ η) : Value → Prop
  | .array h => h.index < heap.arrays.size
  | .object h => h.index < heap.objects.size
  | .function h => h.index < heap.functions.size
  | .host h => h.index < heap.hosts.size
  | .deferred h => h.index < heap.deferreds.size
  | _ => True

/-- A host object that holds no handle of a cell that is not there. What a code holds shows in
whether it looks like itself. -/
def HostObject.Lives [HostLikeness φ η] (heap : Heap φ η) : HostObject η → Prop
  | .bag _ properties => ∀ entry ∈ properties, entry.2.Lives heap
  | .custom code => HostLikeness.Like heap heap code code

/-- Every handle that can be read out of a heap names a cell. -/
structure Heap.Intact [HostLikeness φ η] (heap : Heap φ η) : Prop where
  arrays : heap.arrays.All fun items => ∀ item ∈ items, item.Lives heap
  objects : heap.objects.All fun fields => ∀ entry ∈ fields, entry.2.Lives heap
  hosts : heap.hosts.All (HostObject.Lives heap)

/-- Every handle that can be read out of a world names a cell. -/
structure World.Intact [HostLikeness φ η] (world : World φ η) : Prop where
  heap : world.heap.Intact
  cache : ∀ entry ∈ world.cache, entry.2.Lives world.heap

section Decidable

variable {heap : Heap φ η}

instance : DecidablePred (Value.Lives heap)
  | .array h => inferInstanceAs (Decidable (h.index < heap.arrays.size))
  | .object h => inferInstanceAs (Decidable (h.index < heap.objects.size))
  | .function h => inferInstanceAs (Decidable (h.index < heap.functions.size))
  | .host h => inferInstanceAs (Decidable (h.index < heap.hosts.size))
  | .deferred h => inferInstanceAs (Decidable (h.index < heap.deferreds.size))
  | .null | .bool _ | .number _ | .text _ | .bytes _ => .isTrue trivial

variable [HostLikeness φ η] [∀ code : η, Decidable (HostLikeness.Like heap heap code code)]

instance : DecidablePred (HostObject.Lives heap)
  | .bag _ properties => inferInstanceAs (Decidable (∀ entry ∈ properties, entry.2.Lives heap))
  | .custom code => inferInstanceAs (Decidable (HostLikeness.Like heap heap code code))

instance : Decidable heap.Intact :=
  decidable_of_iff
    ((heap.arrays.All fun items => ∀ item ∈ items, item.Lives heap) ∧
      (heap.objects.All fun fields => ∀ entry ∈ fields, entry.2.Lives heap) ∧
      heap.hosts.All (HostObject.Lives heap))
    ⟨fun ⟨arrays, objects, hosts⟩ => ⟨arrays, objects, hosts⟩,
      fun intact => ⟨intact.arrays, intact.objects, intact.hosts⟩⟩

end Decidable

variable [HostLikeness φ η]

/-- Every value of an intact heap looks like itself. -/
theorem Heap.Intact.resembles_self {heap : Heap φ η} (intact : heap.Intact) {value : Value}
    (lives : value.Lives heap) : value.Resembles heap heap value := by
  -- What is read out of a live value is live again.
  refine ⟨fun x y => x = y ∧ x.Lives heap, ?_, rfl, lives⟩
  rintro value _ ⟨rfl, lives⟩
  cases value with
  | null => exact .null
  | bool flag => exact .bool flag
  | number value => exact .number value
  | text content => exact .text content
  | bytes content => exact .bytes content
  | array h =>
      obtain ⟨items, cell⟩ := Store.exists_get?_of_lt lives
      have below := intact.arrays.get? cell
      exact .array cell cell (List.forall₂_same.mpr fun item mem => ⟨rfl, below item mem⟩)
  | object h =>
      obtain ⟨fields, cell⟩ := Store.exists_get?_of_lt lives
      have below := intact.objects.get? cell
      exact .object cell cell (List.forall₂_same.mpr fun entry mem => ⟨rfl, rfl, below entry mem⟩)
  | function h =>
      obtain ⟨function, cell⟩ := Store.exists_get?_of_lt lives
      exact .function cell cell rfl
  | host h =>
      obtain ⟨host, cell⟩ := Store.exists_get?_of_lt lives
      have below := intact.hosts.get? cell
      cases host with
      | bag label properties =>
          exact .bag cell cell (List.forall₂_same.mpr fun entry mem => ⟨rfl, rfl, below entry mem⟩)
      | custom code => exact .custom cell cell below
  | deferred h => exact .deferred h h

/-- An intact world looks like whatever became of it without an effect. -/
theorem World.Intact.resembles {world later : World φ η} (intact : world.Intact)
    (persists : world.Persists later) : world.Resembles later where
  cache := persists.cache
  outbox := persists.outbox
  cached entry mem :=
    (intact.heap.resembles_self (intact.cache entry mem)).later (.refl _) persists.heap

namespace Command

/-! ## Commands that only read -/

/-- No node of a command is a call or an assignment. -/
def OnlyReads (command : Command) : Prop :=
  ∀ path part, command.at? path = some part → part.tag ≠ .call ∧ part.tag ≠ .set

/-- A command only reads if its node does and its parts do. -/
theorem onlyReads_iff {command : Command} :
    command.OnlyReads ↔
      (command.tag ≠ .call ∧ command.tag ≠ .set) ∧ ∀ part ∈ command.parts, part.OnlyReads := by
  constructor
  · intro reads
    refine ⟨reads [] command rfl, ?_⟩
    intro part mem path below there
    obtain ⟨position, here⟩ := List.getElem?_of_mem mem
    refine reads (position :: path) below ?_
    rw [at?, here]
    exact there
  · rintro ⟨node, parts⟩ path part there
    cases path with
    | nil =>
      cases there
      exact node
    | cons position path =>
      obtain ⟨child, below, there⟩ := Option.bind_eq_some_iff.mp there
      exact parts child (List.mem_of_getElem? below) path part there

end Command

/-! ## Evaluation in two worlds -/

/-- Two results with values that look the same. The receivers do not count. -/
def Bound.Resembles (heap other : Heap φ η) (result mate : Bound) : Prop :=
  result.value.Resembles heap other mate.value

namespace Command

variable {world twin : World φ η} {context : Context}

theorem agrees_unbound {action other : Eval φ η Value}
    (agrees : Eval.Agrees Value.Resembles world twin action other) :
    Eval.Agrees Bound.Resembles world twin (do return context.unbound (← action))
      (do return context.unbound (← other)) :=
  agrees.bind fun _ _ _ _ _ _ both => .pure both

theorem agrees_cached (alike : world.Resembles twin) (id : String) :
    Eval.Agrees Value.Resembles world twin (cached id) (cached id) := by
  refine .cache ?_
  rw [alike.cache]
  cases found : Fields.find? id world.cache with
  | none => exact .throw rfl
  | some value => exact .pure (alike.cached _ (Fields.mem_of_find? found))

section Evaluation

variable [ObjectModel φ η]

theorem agrees_require [PureHosts φ η] (position : Position) {result mate : Bound}
    (results : result.Resembles world.heap twin.heap mate) :
    Eval.Agrees Bound.Resembles world twin (require position result) (require position mate) := by
  refine .heap ?_
  rw [results.isPresent_eq, results.describe_eq]
  split
  case isTrue => exact .pure results
  case isFalse => exact .throw rfl

mutual

/-- **Two evaluations go on in step.**  In two worlds that look alike, a command that only reads has
no effect, and it comes to values that look the same or to the same error. -/
theorem agrees_evaluate [PureHosts φ η] (context : Context) :
    ∀ (command : Command) {world twin : World φ η}, command.OnlyReads → world.Resembles twin →
      Eval.Agrees Bound.Resembles world twin (command.evaluate context) (command.evaluate context)
  | .literal json, world, twin, _, _ => by
      rw [evaluate]
      refine agrees_unbound (.allocate ?_ ?_ (Value.resembles_ofJson json _ _))
      · exact Value.persists_ofJson json _
      · exact Value.persists_ofJson json _
  | .bytes hex, world, twin, _, _ => by
      rw [evaluate]
      refine agrees_unbound ?_
      unfold decodeBytes
      cases Hex.decode hex with
      | error error => exact .throw rfl
      | ok content => exact .pure (Value.LooksLike.resembles (.bytes content))
  | .map entries, world, twin, reads, alike => by
      obtain ⟨-, parts⟩ := onlyReads_iff.mp reads
      rw [evaluate]
      refine (agrees_evaluateFields context entries ?_ alike).bind ?_
      · exact fun entry mem => parts _ (List.mem_map_of_mem mem)
      intro entries others after beyond here there both
      exact agrees_unbound (.allocate (.newObject _ _) (.newObject _ _)
        (Value.resembles_newObject both))
  | .sequence items, world, twin, reads, alike => by
      obtain ⟨-, parts⟩ := onlyReads_iff.mp reads
      rw [evaluate]
      refine (agrees_evaluateItems context items parts alike).bind ?_
      intro items others after beyond here there both
      exact agrees_unbound (.allocate (.newArray _ _) (.newArray _ _)
        (Value.resembles_newArray both))
  | .reference id, world, twin, _, alike => by
      rw [evaluate]
      exact agrees_unbound (agrees_cached alike id)
  | .get target index, world, twin, reads, alike => by
      obtain ⟨-, parts⟩ := onlyReads_iff.mp reads
      rw [evaluate]
      refine (agrees_evaluate context target (parts _ (by simp [Command.parts])) alike).bind ?_
      intro owner other after beyond here there owners
      refine (agrees_require .target owners).bind ?_
      intro owner other next onwards here' there' owners
      -- What was made for the target does not show in the cache.
      have alike := (alike.later here there).later here' there'
      refine (agrees_evaluate context index (parts _ (by simp [Command.parts])) alike).bind ?_
      intro key mate last final here'' there'' keys
      have owners : owner.value.Resembles last.heap final.heap other.value :=
        owners.later here''.heap there''.heap
      refine (Value.agrees_getIndex (alike.later here'' there'') owners keys).bind ?_
      exact fun _ _ _ _ _ _ both => .pure both
  | .callback id depth, world, twin, _, _ => by
      rw [evaluate]
      exact agrees_unbound (.allocate (.newFunction _ _) (.newFunction _ _)
        (Value.resembles_newFunction _))
  | .call callable args, world, twin, reads, _ => absurd rfl (onlyReads_iff.mp reads).1.1
  | .set target index value, world, twin, reads, _ => absurd rfl (onlyReads_iff.mp reads).1.2

theorem agrees_evaluateItems [PureHosts φ η] (context : Context) :
    ∀ (items : List Command) {world twin : World φ η}, (∀ item ∈ items, item.OnlyReads) →
      world.Resembles twin →
      Eval.Agrees (fun heap other => List.Forall₂ (Value.Resembles heap other)) world twin
        (evaluateItems context items) (evaluateItems context items)
  | [], world, twin, _, _ => by
      rw [evaluateItems]
      exact .pure .nil
  | item :: rest, world, twin, reads, alike => by
      obtain ⟨first, others⟩ := List.forall_mem_cons.mp reads
      rw [evaluateItems]
      refine (agrees_evaluate context item first alike).bind ?_
      intro result mate after beyond here there both
      refine (agrees_evaluateItems context rest others (alike.later here there)).bind ?_
      intro values mates last final here there below
      exact .pure (.cons (both.later here.heap there.heap) below)

theorem agrees_evaluateFields [PureHosts φ η] (context : Context) :
    ∀ (entries : List (String × Command)) {world twin : World φ η},
      (∀ entry ∈ entries, entry.2.OnlyReads) → world.Resembles twin →
      Eval.Agrees (fun heap other => Fields.Matches (Value.Resembles heap other)) world twin
        (evaluateFields context entries) (evaluateFields context entries)
  | [], world, twin, _, _ => by
      rw [evaluateFields]
      exact .pure .nil
  | (name, node) :: rest, world, twin, reads, alike => by
      obtain ⟨first, others⟩ := List.forall_mem_cons.mp reads
      rw [evaluateFields]
      refine (agrees_evaluate context node first alike).bind ?_
      intro result mate after beyond here there both
      refine (agrees_evaluateFields context rest others (alike.later here there)).bind ?_
      intro values mates last final here there below
      exact .pure (.cons ⟨rfl, both.later here.heap there.heap⟩ below)

end

/-- Evaluation, which insists on a present value where one is required. -/
def evaluateIf (required : Bool) (context : Context) (command : Command) : Eval φ η Bound :=
  if required then evaluatePresent context command else evaluate context command

theorem agrees_evaluateIf [PureHosts φ η] (required : Bool) (context : Context) {command : Command}
    (reads : command.OnlyReads) (alike : world.Resembles twin) :
    Eval.Agrees Bound.Resembles world twin (evaluateIf required context command)
      (evaluateIf required context command) := by
  have agrees := agrees_evaluate context command reads alike
  cases required with
  | false => exact agrees
  | true => exact agrees.bind fun _ _ _ _ _ _ both => agrees_require .target both

/-- **Reading has no effect.**  Take a command without calls and assignments, any world that an
agent can have, and host objects that are read without an effect.  However the evaluation ends, and
whether or not a present value is required, all cells are left as they were, deferred values among
them, and so are the cache and the outbox; there are new cells at most.  Evaluated again in the
world that is left, the command has no effect either, and it gives a value with the same rendering
at every depth, or the same error. -/
theorem reading_repeats [PureHosts φ η] (required : Bool) (context : Context) {command : Command}
    (reads : command.OnlyReads) {world : World φ η} (intact : world.Intact) :
    let once := (evaluateIf required context command).run world
    let again := (evaluateIf required context command).run once.2
    world.Persists once.2 ∧ once.2.Persists again.2 ∧
      Eval.Concur (fun first second => ∀ depth : Int,
        first.value.toJson once.2.heap depth = second.value.toJson again.2.heap depth)
        once.1 again.1 := by
  intro once again
  have first := agrees_evaluateIf required context reads (intact.resembles (.refl world))
  have both := agrees_evaluateIf required context reads (intact.resembles first.here)
  refine ⟨first.here, both.there, both.concur.imp ?_⟩
  exact fun _ _ resembles depth => resembles.toJson_eq depth

end Evaluation

end Command

/-! ## The sample application -/

namespace Sample

/-- Host objects of the sample application have no state: they look the same if they are. -/
instance : HostLikeness Method Object where
  Like _ _ code twin := code = twin
  later _ _ same := same

instance (heap : Heap Method Object) (code : Object) :
    Decidable (HostLikeness.Like heap heap code code) :=
  .isTrue rfl

instance : PureHosts Method Object where
  describe same := congrArg _ same
  entries _ := .nil
  get key _ same := by
    cases same
    exact .pure (Value.LooksLike.resembles (.text _))

end Sample

namespace Command

/-- A new object with a property of a host object and with the list of the root: another object each
time, around one list. -/
theorem reading_repeats_sample :
    let context : Context := ⟨Sample.start.1, 1⟩
    let command := map [("key", get (.reference "fixed") (.literal (.string "a"))),
      ("list", get (.reference "root") (.literal (.string "list")))]
    ∃ once again,
      ((evaluateIf true context command).run Sample.start.2.2) =
        (.ok ⟨Sample.start.1, .object ⟨0⟩⟩, once) ∧
      ((evaluateIf true context command).run once) =
        (.ok ⟨Sample.start.1, .object ⟨1⟩⟩, again) ∧
      Sample.start.2.2.Persists once ∧ ∀ depth : Int,
        (Value.object ⟨0⟩).toJson once.heap depth = (Value.object ⟨1⟩).toJson again.heap depth := by
  intro context command
  have literal (value : Json) : (literal value).OnlyReads :=
    onlyReads_iff.mpr ⟨⟨nofun, nofun⟩, nofun⟩
  have cached (id : String) : (reference id).OnlyReads :=
    onlyReads_iff.mpr ⟨⟨nofun, nofun⟩, nofun⟩
  have property (id name : String) : (get (.reference id) (.literal (.string name))).OnlyReads :=
    onlyReads_iff.mpr ⟨⟨nofun, nofun⟩, by simp [parts, cached, literal]⟩
  have reads : command.OnlyReads :=
    onlyReads_iff.mpr ⟨⟨nofun, nofun⟩, by simp [command, parts, property]⟩
  have intact : Sample.start.2.2.Intact := ⟨by decide +kernel, by decide +kernel⟩
  have gives : ((evaluateIf true context command).run Sample.start.2.2).1 =
      .ok ⟨Sample.start.1, .object ⟨0⟩⟩ := by decide +kernel
  have givesAgain : ((evaluateIf true context command).run
      ((evaluateIf true context command).run Sample.start.2.2).2).1 =
      .ok ⟨Sample.start.1, .object ⟨1⟩⟩ := by decide +kernel
  obtain ⟨persists, -, concur⟩ := reading_repeats true context reads intact
  have same := concur.of_ok gives givesAgain
  exact ⟨_, _, Eval.run_of_fst gives, Eval.run_of_fst givesAgain, persists, same⟩

/-- Reading that fails half way through an array has made the first item, and fails again. -/
example :
    let context : Context := ⟨Sample.start.1, 1⟩
    let command := sequence [.literal (.array []), .reference "nowhere"]
    let once := (command.evaluate context).run Sample.start.2.2
    once.1 = .error (.missingReference "nowhere") ∧
      once.2.heap.arrays.size = Sample.start.2.2.heap.arrays.size + 1 ∧
      ((command.evaluate context).run once.2).1 = .error (.missingReference "nowhere") := by
  decide +kernel

end Command

end RemoteAgent
