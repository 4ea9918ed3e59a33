import RemoteAgent.Proofs.Depths
import RemoteAgent.Proofs.LateResults
import RemoteAgent.Proofs.Truncation

/-!
# Two ways to write a value down

A controller may send a JSON value as it stands, in a literal, or it may build it up of commands,
one for each array and object in it (`Command.quoted`).  The two are evaluated by different code:
a literal is converted in one go, a quotation is evaluated node by node.  But both make the same
cells in the same order, so they end in the very same world with the very same value
(`Command.run_quoted`), and whoever asks for the one or for the other gets the same answer: the
value cut off below the depth that was asked for (`Message.quotation_faithful`).

Cutting off leaves a value as it is exactly if the value has no more levels than the depth
(`Json.truncate_eq_self_iff`).  For this the entries of an object have to stand in order, since
that is how an answer lists them.  They do in whatever was read off a text
(`Json.isCanonical_of_parseWithin`).

## Main definitions

* `Json.IsCanonical`: objects list their entries in order.
* `Command.quoted`: the commands that build up a JSON value.
-/

namespace RemoteAgent

/-! ## Canonical JSON values -/

namespace Json

/-- A JSON value whose objects list their keys in ascending order, at every level. -/
inductive IsCanonical : Json → Prop
  | null : IsCanonical .null
  | bool (flag : Bool) : IsCanonical (.bool flag)
  | number (value : Number) : IsCanonical (.number value)
  | string (text : String) : IsCanonical (.string text)
  | array {items : List Json} (each : ∀ item ∈ items, IsCanonical item) :
      IsCanonical (.array items)
  | object {fields : List (String × Json)} (sorted : Fields.Sorted fields)
      (each : ∀ entry ∈ fields, IsCanonical entry.2) : IsCanonical (.object fields)

mutual

theorem isCanonical_of_resolve : ∀ {limit : Nat} {source : Source} {value : Json},
    resolve limit source = some value → value.IsCanonical
  | _, .null, value, resolved => by
      cases resolved
      exact .null
  | _, .bool flag, value, resolved => by
      cases resolved
      exact .bool flag
  | _, .number numeral, value, resolved => by
      obtain ⟨number, -, rfl⟩ := Option.map_eq_some_iff.mp resolved
      exact .number number
  | _, .string content, value, resolved => by
      obtain ⟨text, -, rfl⟩ := Option.map_eq_some_iff.mp resolved
      exact .string text
  | 0, .array _, _, resolved => nomatch resolved
  | 0, .object _, _, resolved => nomatch resolved
  | limit + 1, .array items, value, resolved => by
      obtain ⟨items, each, rfl⟩ := Option.map_eq_some_iff.mp resolved
      exact .array (isCanonical_of_resolveItems each)
  | limit + 1, .object fields, value, resolved => by
      obtain ⟨fields, each, rfl⟩ := Option.map_eq_some_iff.mp resolved
      have canonical := isCanonical_of_resolveFields each
      exact .object (Fields.sorted_ofList fields) fun entry mem =>
        canonical entry (Fields.mem_of_mem_ofList mem)

theorem isCanonical_of_resolveItems : ∀ {limit : Nat} {sources : List Source} {items : List Json},
    resolveItems limit sources = some items → ∀ item ∈ items, item.IsCanonical
  | _, [], items, resolved => by
      cases resolved
      exact nofun
  | limit, source :: rest, items, resolved => by
      unfold resolveItems at resolved
      split at resolved
      case h_1 item others first more =>
        cases resolved
        exact List.forall_mem_cons.mpr
          ⟨isCanonical_of_resolve first, isCanonical_of_resolveItems more⟩
      case h_2 => cases resolved

theorem isCanonical_of_resolveFields : ∀ {limit : Nat} {sources : List (Option String × Source)}
    {fields : List (String × Json)}, resolveFields limit sources = some fields →
    ∀ entry ∈ fields, entry.2.IsCanonical
  | _, [], fields, resolved => by
      cases resolved
      exact nofun
  | limit, (key, source) :: rest, fields, resolved => by
      unfold resolveFields at resolved
      split at resolved
      case h_1 name value others _ first more =>
        cases resolved
        exact List.forall_mem_cons.mpr
          ⟨isCanonical_of_resolve first, isCanonical_of_resolveFields more⟩
      case h_2 => cases resolved

end

/-- **What is read off a text is canonical**, in whatever order the text has the entries. -/
theorem isCanonical_of_parseWithin {limit : Nat} {text : String} {value : Json}
    (read : parseWithin limit text = some value) : value.IsCanonical := by
  obtain ⟨source, -, resolved⟩ := Option.bind_eq_some_iff.mp read
  exact isCanonical_of_resolve resolved

/-- Entries that stand in order stay where they are. -/
theorem truncate_object_of_sorted {fields : List (String × Json)} (sorted : Fields.Sorted fields)
    (depth : Nat) : (object fields).truncate (depth + 1) =
      object (fields.map fun entry => (entry.1, entry.2.truncate depth)) := by
  rw [truncate, ofEntries, ← Fields.map_ofList, Fields.ofList_of_sorted sorted]

/-- A list is left as it is exactly if its items are. -/
theorem map_eq_self_iff {α : Type} {f : α → α} {items : List α} :
    items.map f = items ↔ ∀ item ∈ items, f item = item := by
  have unchanged : items.map id = items := List.map_id items
  exact (Eq.congr_right unchanged.symm).trans List.map_inj_left

/-- **Cutting off leaves a value as it is exactly if it is not deeper than that.** -/
theorem truncate_eq_self_iff {json : Json} (canonical : json.IsCanonical) (depth : Nat) :
    json.truncate depth = json ↔ json.nesting ≤ depth := by
  induction depth generalizing json with
  | zero => cases canonical <;> simp [truncate, nesting]
  | succ depth ih =>
      cases canonical with
      | array each =>
          rw [truncate, array.injEq, map_eq_self_iff, nesting, Nat.add_le_add_iff_right,
            nestingItems_le_iff]
          exact forall₂_congr fun item mem => ih (each item mem)
      | object sorted each =>
          rw [truncate_object_of_sorted sorted, object.injEq, map_eq_self_iff, nesting,
            Nat.add_le_add_iff_right, nestingFields_le_iff]
          refine forall₂_congr fun entry mem => ?_
          rw [← ih (each entry mem), Prod.ext_iff]
          exact and_iff_right rfl
      | _ => simp [truncate, nesting]

end Json

/-! ## Quotation -/

namespace Command

mutual

/-- A JSON value as commands: arrays and objects are built up, and all else is a literal. -/
def quoted : Json → Command
  | .array items => .sequence (quotedItems items)
  | .object fields => .map (quotedFields fields)
  | scalar => .literal scalar

/-- Some JSON values as commands. -/
def quotedItems : List Json → List Command
  | [] => []
  | item :: rest => quoted item :: quotedItems rest

/-- Some JSON entries as commands. -/
def quotedFields : List (String × Json) → List (String × Command)
  | [] => []
  | (key, item) :: rest => (key, quoted item) :: quotedFields rest

end

mutual

theorem derives_quoted : ∀ json : Json, Derives (quoted json).toJson (quoted json)
  | .null | .bool _ | .number _ | .string _ => .literal
  | .array items => .sequence (derives_quotedItems items)
  | .object fields => .map (derives_quotedFields fields)

theorem derives_quotedItems :
    ∀ items : List Json, DerivesItems (itemsToJson (quotedItems items)) (quotedItems items)
  | [] => .nil
  | item :: rest => .cons (derives_quoted item) (derives_quotedItems rest)

theorem derives_quotedFields : ∀ fields : List (String × Json),
    DerivesFields (fieldsToJson (quotedFields fields)) (quotedFields fields)
  | [] => .nil
  | (_, item) :: rest => .cons (derives_quoted item) (derives_quotedFields rest)

end

section Evaluation

variable {φ η : Type} [ObjectModel φ η]

theorem run_literal (context : Context) (json : Json) (world : World φ η) :
    ((literal json).evaluate context).run world =
      (.ok (context.unbound (Value.ofJson json world.heap).1),
        { world with heap := (Value.ofJson json world.heap).2 }) := by
  rw [evaluate]
  rfl

mutual

/-- **A quotation comes to what the literal comes to**: the same value, made of the same cells. -/
theorem run_quoted (context : Context) : ∀ (json : Json) (world : World φ η),
    ((quoted json).evaluate context).run world =
      (.ok (context.unbound (Value.ofJson json world.heap).1),
        { world with heap := (Value.ofJson json world.heap).2 })
  | .null, world => run_literal context .null world
  | .bool flag, world => run_literal context (.bool flag) world
  | .number value, world => run_literal context (.number value) world
  | .string text, world => run_literal context (.string text) world
  | .array items, world => by
      rw [quoted, evaluate, Eval.run_bind, run_quotedItems context items world]
      rfl
  | .object fields, world => by
      rw [quoted, evaluate, Eval.run_bind, run_quotedFields context fields world]
      rfl

theorem run_quotedItems (context : Context) : ∀ (items : List Json) (world : World φ η),
    (evaluateItems context (quotedItems items)).run world =
      (.ok (Value.ofJsonItems items world.heap).1,
        { world with heap := (Value.ofJsonItems items world.heap).2 })
  | [], _ => by
      rw [quotedItems, evaluateItems]
      rfl
  | item :: rest, world => by
      rw [quotedItems, evaluateItems, Eval.run_bind, run_quoted context item world]
      dsimp only
      rw [Eval.run_bind, run_quotedItems context rest]
      rfl

theorem run_quotedFields (context : Context) :
    ∀ (fields : List (String × Json)) (world : World φ η),
      (evaluateFields context (quotedFields fields)).run world =
        (.ok (Value.ofJsonFields fields world.heap).1,
          { world with heap := (Value.ofJsonFields fields world.heap).2 })
  | [], _ => by
      rw [quotedFields, evaluateFields]
      rfl
  | (key, item) :: rest, world => by
      rw [quotedFields, evaluateFields, Eval.run_bind, run_quoted context item world]
      dsimp only
      rw [Eval.run_bind, run_quotedFields context rest]
      rfl

end

end Evaluation

end Command

/-! ## Asking for a value -/

/-- What is made of JSON is no deferred value. -/
theorem Value.asDeferred?_ofJson {φ η : Type} (json : Json) (heap : Heap φ η) :
    (ofJson json heap).1.asDeferred? = none := by
  cases json <;> rfl

namespace Message

variable {φ η : Type} [ObjectModel φ η]

/-- **Literals and quotations are faithful, and agree.**  Take any JSON value, any world and any
depth, asked for with a number or left to the session.  Asking for the value as a literal and asking
for it quoted have the same outcome in the same world.  One envelope is sent, and it has the value
with what is below the depth cut off.  The cache is left as it was, and so are all cells.  And
nothing is cut off exactly if the value has no more levels than the depth. -/
theorem quotation_faithful (context : Context) (world : World φ η) (json : Json) (id : String)
    {rest : List Json} {levels : Int} (asks : AsksFor context.defaultDepth rest levels) :
    let ask (node : Json) : Json := .array (.string "G" :: .string id :: node :: rest)
    ∃ value after,
      dispatch context (ask (.array [.string "L", json])) world = (.ok (.completed value), after) ∧
      dispatch context (ask (Command.quoted json).toJson) world =
        (.ok (.completed value), after) ∧
      after.outbox = world.outbox.emit (Envelope.reply id (json.truncate levels.toNat)) ∧
      after.cache = world.cache ∧ world.heap.Persists after.heap ∧
      (json.IsCanonical →
        (json.truncate levels.toNat = json ↔ (json.nesting : Int) ≤ max levels 0)) := by
  intro ask
  obtain ⟨depth, given, rfl⟩ := asks.exists_derives
  have ready := Value.asDeferred?_ofJson json world.heap
  have readLiteral : parse (ask (.array [.string "L", json])) =
      .ok (.get id (.literal json) depth) := parse_of_derives (.get .literal given)
  have readQuoted : parse (ask (Command.quoted json).toJson) =
      .ok (.get id (.quoted json) depth) :=
    parse_of_derives (.get (Command.derives_quoted json) given)
  have literal := dispatch_of_ready readLiteral rfl (Command.run_literal context json world) ready
  have quoted := dispatch_of_ready readQuoted rfl (Command.run_quoted context json world) ready
  refine ⟨_, _, literal, quoted, ?_, rfl, Value.persists_ofJson json world.heap, ?_⟩
  · have rendered := Value.toJson_ofJson (.refl (Value.ofJson json world.heap).2)
      (depth.getD context.defaultDepth)
    exact congrArg (fun shown => world.outbox.emit (Envelope.reply id shown)) rendered
  · intro canonical
    rw [Json.truncate_eq_self_iff canonical]
    omega

/-- An object with an array with another object in it: of two levels, the innermost object is cut
off.  Two and a half levels are two. -/
theorem quotation_faithful_cut :
    let json : Json := .object [("a", .array [.number (.int 1), .object []])]
    let quoted : Json := .array [.string "M", .object [("a", .array [.string "SQ", .array
      [.array [.string "L", .number (.int 1)], .array [.string "M", .object []]]])]]
    let half : Binary64 := ⟨false, ⟨1024, by decide⟩, ⟨1125899906842624, by decide⟩⟩
    let ask (number : Number) (node : Json) : Json :=
      .array [.string "G", .string "r", node, .number number]
    let context : Context := ⟨Sample.start.1, 1⟩
    half.value = 5 / 2 ∧
    ∀ number ∈ [Number.int 2, Number.float half],
      ∃ value after,
        dispatch context (ask number (.array [.string "L", json])) Sample.start.2.2 =
          (.ok (.completed value), after) ∧
        dispatch context (ask number quoted) Sample.start.2.2 = (.ok (.completed value), after) ∧
        after.outbox = Sample.start.2.2.outbox.emit
          (Envelope.reply "r" (.object [("a", .array [.number (.int 1), .null])])) ∧
        json.truncate 2 ≠ json := by
  intro json quoted half ask context
  have twoAndHalf : half.value = 5 / 2 := by
    simp only [Binary64.value, half]
    norm_num
  refine ⟨twoAndHalf, fun number mem => ?_⟩
  have given : AsksFor 1 [.number number] 2 := by
    rcases List.mem_pair.mp mem with rfl | rfl
    · have asks : AsksFor 1 [.number (.int 2)] (Number.int 2).depth :=
        .number (.int 2) ⟨by decide, by decide⟩
      rwa [Number.depth_int (by decide) (by decide)] at asks
    · have asks : AsksFor 1 [.number (.float half)] (Number.float half).depth :=
        .number (.float half) trivial
      have depth : (Number.float half).depth = 2 := by
        simp only [Number.depth, Number.value, twoAndHalf]
        norm_num
      rwa [depth] at asks
  have read : Json.parseWithin 3 "\x7b\"a\":[1,\x7b\x7d]\x7d" = some json := by decide +kernel
  have canonical := Json.isCanonical_of_parseWithin read
  have cut : json.truncate 2 = .object [("a", .array [.number (.int 1), .null])] := by
    decide +kernel
  obtain ⟨value, after, literal, quotes, sent, -, -, whole⟩ :=
    quotation_faithful context Sample.start.2.2 json "r" given
  refine ⟨value, after, literal, quotes, ?_, fun same => ?_⟩
  · rw [← cut]
    exact sent
  · have low := (whole canonical).mp same
    revert low
    decide

end Message

end RemoteAgent
