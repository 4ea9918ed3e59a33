import RemoteAgent.Proofs.Binding
import RemoteAgent.Proofs.Grammar
import RemoteAgent.Proofs.LateResults

/-!
# Giving a value a name first

A controller that wants to see what a command comes to may ask for it, or it may have the value
cached under an id and ask for what is cached there.  Here it is shown that this makes no
difference (`Message.handle_transparent`): the second way sends the same envelopes in the same
order, those of the command itself and then the answer, and it leaves the same heap with the same
deferred values.  The cache is the same too, but for the id.

The command is evaluated once either way, in one and the same world, so nothing has to be known of
it or of the application: it may call code that changes values, call back, and look at what was
cached under the id before.  What the detour adds is done after the command and before the answer,
and it changes only the cache, which an answer does not show.  A command that comes to a deferred
value is another matter, since the message that caches it is bound to it first.
-/

namespace RemoteAgent.Message

variable {φ η : Type} [ObjectModel φ η] {context : Context} {world after : World φ η}
  {node : Json} {command : Command} {result : Bound}

/-- What was just cached under an id is what a reference to the id gives. -/
theorem gives_reference_remember (context : Context) (world : World φ η) (id : String)
    (value : Value) :
    (Command.reference id).Gives context (world.remember id value) (context.unbound value)
      (world.remember id value) := by
  have found : Fields.find? id (world.remember id value).cache = some value :=
    Fields.find?_insert_self id value world.cache
  have cached : (Command.cached id).run (world.remember id value) =
      (.ok value, world.remember id value) := by
    show (Eval.ofOption _ (Fields.find? id (world.remember id value).cache)).run _ = _
    rw [found]
    rfl
  rw [Command.Gives, Command.evaluate, Eval.run_bind, cached]
  rfl

/-- **A handle is transparent.**  Take a command that comes to a value other than a deferred one,
in any world and under any application.  Caching the value under an id and then asking for what is
cached there has the same outcome as asking for the command at once.  The same envelopes are sent,
and the same heap is left, deferred values included.  The caches differ at most at the id, where the
first way has left the value. -/
theorem handle_transparent (read : Command.parse node = .ok command)
    (gives : command.Gives context world result after)
    (ready : result.value.asDeferred? = none) (x r : String) {rest : List Json}
    {depth : Option Int} (given : DerivesDepth rest depth) :
    let ask (node : Json) : Json := .array (.string "G" :: .string r :: node :: rest)
    ∃ outcome connected byHandle direct,
      dispatch context (.array [.string "C", .string x, node]) world = (outcome, connected) ∧
      dispatch context (ask (.array [.string "R", .string x])) connected = (outcome, byHandle) ∧
      dispatch context (ask node) world = (outcome, direct) ∧
      outcome = .ok (.completed result.value) ∧
      byHandle.outbox = direct.outbox ∧ byHandle.heap = direct.heap ∧
      byHandle.cache = Fields.insert x result.value direct.cache ∧
      ∀ id, id ≠ x → Fields.find? id byHandle.cache = Fields.find? id direct.cache := by
  intro ask
  have derives := Command.derives_of_parse read
  have readConnect : parse (.array [.string "C", .string x, node]) = .ok (.connect x command) :=
    parse_of_derives (.connect derives)
  have readHandle : parse (ask (.array [.string "R", .string x])) =
      .ok (.get r (.reference x) depth) := parse_of_derives (.get .reference given)
  have readDirect : parse (ask node) = .ok (.get r command depth) :=
    parse_of_derives (.get derives given)
  -- The same answer is sent of the same heap, with the id cached or without.
  have connects := dispatch_of_ready readConnect rfl gives ready
  have reference := gives_reference_remember context after x result.value
  have byHandle := dispatch_of_ready readHandle rfl reference ready
  have direct := dispatch_of_ready readDirect rfl gives ready
  refine ⟨_, _, _, _, connects, byHandle, direct, rfl, rfl, rfl, rfl, fun id ne => ?_⟩
  exact Fields.find?_insert_of_ne ne result.value after.cache

/-- The command changes the root, calls back with what is cached under `bag`, and is cached under
`bag` itself: one callback and one answer either way, and only the id tells the two apart. -/
theorem handle_transparent_rebinding :
    let node : Json := .array [.string "SQ", .array [
      .array [.string "C", .array [.string "G", .array [.string "R", .string "root"],
        .array [.string "L", .string "bump"]]],
      .array [.string "C", .array [.string "CB", .string "seen", .number (.int 1)],
        .array [.array [.string "R", .string "bag"]]]]]
    let context : Context := ⟨Sample.start.1, 1⟩
    ∃ outcome connected byHandle direct,
      dispatch context (.array [.string "C", .string "bag", node]) Sample.start.2.2 =
        (outcome, connected) ∧
      dispatch context (.array [.string "G", .string "r", .array [.string "R", .string "bag"],
        .number (.int 2)]) connected = (outcome, byHandle) ∧
      dispatch context (.array [.string "G", .string "r", node, .number (.int 2)])
        Sample.start.2.2 = (outcome, direct) ∧
      byHandle.outbox = direct.outbox ∧ direct.outbox.sent.size = 2 ∧
      byHandle.heap = direct.heap ∧
      Fields.find? "bag" byHandle.cache = some (.array ⟨5⟩) ∧
      Fields.find? "bag" direct.cache = some (.host ⟨2⟩) ∧
      Fields.find? "fixed" byHandle.cache = Fields.find? "fixed" direct.cache := by
  intro node context
  have read : Command.parse node = .ok (.sequence [
      .call (.get (.reference "root") (.literal (.string "bump"))) [],
      .call (.callback "seen" (some 1)) [.reference "bag"]]) := rfl
  have gives : ((Command.evaluate context (.sequence [
      .call (.get (.reference "root") (.literal (.string "bump"))) [],
      .call (.callback "seen" (some 1)) [.reference "bag"]])).run Sample.start.2.2).1 =
      .ok ⟨Sample.start.1, .array ⟨5⟩⟩ := by decide +kernel
  have given : DerivesDepth [.number (.int 2)] (some 2) := .number
  obtain ⟨outcome, connected, byHandle, direct, connects, asks, asksDirectly, -, outbox, heap,
    cache, others⟩ := handle_transparent read (Eval.run_of_fst gives) rfl "bag" "r" given
  have left : _ = direct := congrArg Prod.snd asksDirectly
  refine ⟨outcome, connected, byHandle, direct, connects, asks, asksDirectly, outbox, ?_, heap,
    ?_, ?_, others "fixed" (by decide)⟩
  · rw [← left]
    decide +kernel
  · rw [cache]
    exact Fields.find?_insert_self _ _ _
  · rw [← left]
    decide +kernel

end RemoteAgent.Message
