import RemoteAgent.Proofs.Faults
import RemoteAgent.Proofs.LateResults

/-!
# Settlements that do not depend on each other

Deferred values are settled in whatever order the application comes to their results, which need not
be the order in which messages obtained them.  What one settlement makes a message do is done to
state that all messages share: it writes to the cache, it sends an envelope, and the envelope shows
a value that other messages may hold too.  Here it is shown that the order makes no difference to
the state, and none to the envelopes but for their order (`World.settle_comm`).

Two settlements meet in three places.  In the heap they change two cells (`Store.set_comm`).  In the
cache they may write to one id, and then the later one counts, so messages that cache under one id
are left out.  And an answer is a rendering of the heap at the moment of sending.  A rendering does
not tell how far a deferred value has come (`Value.toJson_setDeferred`), as long as the host objects
of the application do not show it either (`SteadyHosts`).  An application may well have one that
does, and then the answers show which settlement came first (`World.settle_not_comm`).

## Main definitions

* `SteadyHosts`: host objects that look the same however far deferred values have come.
* `Message.Awaits`: a message waits for a deferred value.
* `Message.sends`, `Message.caches`: what a settlement makes a message do.
-/

namespace RemoteAgent

variable {φ η : Type}

/-! ## Renderings -/

/-- Host objects whose properties show the same however far deferred values have come.  Bags of
properties do so by themselves. -/
class SteadyHosts (φ η : Type) [HostObjects φ η] : Prop where
  entries_setDeferred (heap : Heap φ η) (h : Handle .deferred) (d : Deferred Completion)
    (code : η) : HostObjects.entries (heap.setDeferred h d) code = HostObjects.entries heap code

section Steady

variable [HostObjects φ η] [SteadyHosts φ η]

theorem HostObject.entries_setDeferred (heap : Heap φ η) (h : Handle .deferred)
    (d : Deferred Completion) (host : HostObject η) :
    HostObject.entries (heap.setDeferred h d) host = HostObject.entries heap host := by
  cases host with
  | bag label properties => rfl
  | custom code => exact SteadyHosts.entries_setDeferred heap h d code

namespace Value

theorem toJsonWithin_setDeferred (heap : Heap φ η) (h : Handle .deferred) (d : Deferred Completion)
    (depth : Nat) (value : Value) :
    toJsonWithin (heap.setDeferred h d) depth value = toJsonWithin heap depth value := by
  induction depth generalizing value with
  | zero => cases value <;> rfl
  | succ depth ih =>
      have within : toJsonWithin (heap.setDeferred h d) depth = toJsonWithin heap depth := funext ih
      cases value with
      | array items =>
          unfold toJsonWithin
          rw [within]
          rfl
      | object fields =>
          unfold toJsonWithin
          rw [within]
          rfl
      | host host =>
          unfold toJsonWithin
          rw [within, funext (HostObject.entries_setDeferred heap h d)]
          rfl
      | _ => rfl

/-- **A rendering does not tell how far a deferred value has come.** -/
theorem toJson_setDeferred (heap : Heap φ η) (h : Handle .deferred) (d : Deferred Completion)
    (depth : Int) (value : Value) :
    toJson (heap.setDeferred h d) depth value = toJson heap depth value :=
  toJsonWithin_setDeferred heap h d _ value

end Value

end Steady

/-! ## One settlement -/

/-- Two deferred values may be changed in either order. -/
theorem Heap.setDeferred_comm {h other : Handle .deferred} (ne : h ≠ other) (heap : Heap φ η)
    (d second : Deferred Completion) :
    (heap.setDeferred h d).setDeferred other second =
      (heap.setDeferred other second).setDeferred h d := by
  have apart : h.index ≠ other.index := fun same => ne (congrArg Handle.mk same)
  unfold Heap.setDeferred
  dsimp only
  rw [Store.set_comm apart]

theorem Heap.deferred?_setDeferred_of_ne {h other : Handle .deferred} (ne : other ≠ h)
    (heap : Heap φ η) (d : Deferred Completion) :
    (heap.setDeferred h d).deferred? other = heap.deferred? other :=
  Store.get?_set_of_ne (fun same => ne (congrArg Handle.mk same)) _ _

namespace World

theorem sent_report (world : World φ η) (text : String) (id : Option String) :
    (world.report text id).outbox.sent.toList =
      world.outbox.sent.toList ++ world.heard [Envelope.exception text id] := by
  unfold report Outbox.report heard
  dsimp only
  split
  · exact (List.append_nil _).symm
  · exact Array.toList_push

theorem complete_rejected [HostObjects φ η] (world : World φ η) (completion : Completion)
    (text : String) :
    world.complete ⟨completion, .rejected text⟩ = world.report text completion.answered? := by
  cases completion <;> rfl

end World

namespace Message

variable {context : Context} {message : Message} {world : World φ η} {h : Handle .deferred}

/-- A message has left the rest of its work to a deferred value that is not settled yet. -/
def Awaits (context : Context) (message : Message) (world : World φ η) (h : Handle .deferred) :
    Prop :=
  ∃ command completion, message.work? context = some (command, completion) ∧
    world.state? h = some (.waiting completion)

/-- What a message caches when its deferred value is settled. -/
def caches (cache : Fields Value) (message : Message) : Settlement → Fields Value
  | .resolved value => message.cached cache value
  | .rejected _ => cache

variable [HostObjects φ η]

/-- What a message sends when its deferred value is settled. -/
def sends (context : Context) (world : World φ η) (message : Message) : Settlement → List Json
  | .resolved value => message.envelopes context world.heap value
  | .rejected text => world.heard [Envelope.exception text message.replyId?]

/-- A message has done its work with what its deferred value was settled with, and nothing else.
What it has sent shows the heap as the settlement has left it. -/
structure Settled (context : Context) (message : Message) (settlement : Settlement)
    (h : Handle .deferred) (d : Deferred Completion) (world after : World φ η) : Prop where
  heap : after.heap = world.heap.setDeferred h { d with state := .finished }
  cache : after.cache = message.caches world.cache settlement
  halted : after.outbox.halted = world.outbox.halted
  sent : after.outbox.sent.toList =
    world.outbox.sent.toList ++ message.sends context after settlement

/-- What a message sends depends on the heap, and on whether the connection is halted. -/
theorem sends_congr {after : World φ η} (heap : after.heap = world.heap)
    (halted : after.outbox.halted = world.outbox.halted) (settlement : Settlement) :
    message.sends context after settlement = message.sends context world settlement := by
  cases settlement with
  | rejected text =>
      unfold sends World.heard
      rw [halted]
  | resolved value =>
      unfold sends
      rw [heap]

/-- What a message sends does not depend on how far deferred values have come. -/
theorem sends_setDeferred [SteadyHosts φ η] {d : Deferred Completion} {after : World φ η}
    (heap : after.heap = world.heap.setDeferred h d)
    (halted : after.outbox.halted = world.outbox.halted) (settlement : Settlement) :
    message.sends context after settlement = message.sends context world settlement := by
  let changed : World φ η := { world with heap := world.heap.setDeferred h d }
  have halted : after.outbox.halted = changed.outbox.halted := halted
  rw [sends_congr (show after.heap = changed.heap from heap) halted]
  cases settlement with
  | rejected text => rfl
  | resolved value =>
      cases message with
      | get replyId command depth =>
          unfold sends envelopes
          dsimp only
          rw [Value.toJson_setDeferred]
      | _ => rfl

/-- So it makes no difference to what is sent when the heap is looked at. -/
theorem Settled.sent_eq [SteadyHosts φ η] {settlement : Settlement} {d : Deferred Completion}
    {after : World φ η} (settled : message.Settled context settlement h d world after) :
    after.outbox.sent.toList =
      world.outbox.sent.toList ++ message.sends context world settlement := by
  rw [settled.sent, sends_setDeferred settled.heap settled.halted]

section Work

variable {command : Command} {completion : Completion}
  (work : message.work? context = some (command, completion)) (world : World φ η)
  (settlement : Settlement)

include work

theorem cache_complete_of_work :
    (world.complete ⟨completion, settlement⟩).cache = message.caches world.cache settlement := by
  cases settlement with
  | rejected text =>
      rw [World.complete_rejected]
      rfl
  | resolved value =>
      cases message with
      | exec => cases work; rfl
      | get => cases work; rfl
      | connect => cases work; rfl
      | disconnect => cases work
      | keepAlive => cases work

theorem sent_complete_of_work :
    (world.complete ⟨completion, settlement⟩).outbox.sent.toList =
      world.outbox.sent.toList ++ message.sends context world settlement := by
  cases settlement with
  | rejected text =>
      rw [World.complete_rejected, World.sent_report, answered?_work work]
      rfl
  | resolved value =>
      cases message with
      | exec => cases work; exact (List.append_nil _).symm
      | get => cases work; exact Array.toList_push
      | connect => cases work; exact (List.append_nil _).symm
      | disconnect => cases work
      | keepAlive => cases work

end Work

/-- **The step lemma**: settling what a message awaits makes it do its work. -/
theorem Awaits.settle (awaits : message.Awaits context world h) (settlement : Settlement) :
    ∃ d after, world.heap.deferred? h = some d ∧ world.settle h settlement = .ok after ∧
      message.Settled context settlement h d world after := by
  obtain ⟨command, completion, work, state⟩ := awaits
  obtain ⟨d, found, waits⟩ := Option.map_eq_some_iff.mp state
  let finished : World φ η :=
    { world with heap := world.heap.setDeferred h { d with state := .finished } }
  let after : World φ η := finished.complete ⟨completion, settlement⟩
  have settled : world.settle h settlement = .ok after := by
    rw [World.settle_of_waiting found waits]
    unfold World.withFinished
    rw [found]
  have heap : after.heap = finished.heap := World.heap_complete _ _
  have halted : after.outbox.halted = finished.outbox.halted := World.halted_complete _ _
  refine ⟨d, after, found, settled, ?_⟩
  exact
    { heap
      cache := cache_complete_of_work work finished settlement
      halted
      sent := by
        rw [sends_congr heap halted]
        exact sent_complete_of_work work finished settlement }

omit [HostObjects φ η] in
/-- A message goes on waiting while another deferred value is changed. -/
theorem Awaits.of_ne {other : Handle .deferred} {d : Deferred Completion} {after : World φ η}
    (awaits : message.Awaits context world h) (ne : h ≠ other)
    (heap : after.heap = world.heap.setDeferred other d) : message.Awaits context after h := by
  obtain ⟨command, completion, work, state⟩ := awaits
  refine ⟨command, completion, work, ?_⟩
  unfold World.state?
  rw [heap, Heap.deferred?_setDeferred_of_ne ne]
  exact state

/-! ## Two settlements -/

/-- The messages do not cache under one id. -/
def CacheApart : Message → Message → Prop
  | connect cacheId _, connect otherId _ => cacheId ≠ otherId
  | _, _ => True

/-- Messages that cache under different ids may cache in either order. -/
theorem caches_comm {other : Message} (apart : message.CacheApart other) (cache : Fields Value)
    (settlement second : Settlement) :
    other.caches (message.caches cache settlement) second =
      message.caches (other.caches cache second) settlement := by
  cases settlement with
  | rejected text => rfl
  | resolved value =>
      cases second with
      | rejected text => rfl
      | resolved value =>
          cases message with
          | connect cacheId command =>
              cases other with
              | connect otherId command => exact Fields.insert_comm (Ne.symm apart) _ _ _
              | _ => rfl
          | _ => rfl

end Message

/-- **Independent settlements commute.**  Two messages wait for two deferred values, and do not
cache under one id.  Whatever else there is in the session, and whether the two are resolved or
rejected, settling them in either order comes to the same heap, with the same deferred values, and
the same cache.  If the host objects do not show how far deferred values have come, each message
sends the same envelopes in both orders, and these are in the order of the settlements. -/
theorem World.settle_comm [HostObjects φ η] {context : Context} {world : World φ η}
    {message other : Message} {h g : Handle .deferred} (different : h ≠ g)
    (awaits : message.Awaits context world h) (awaitsOther : other.Awaits context world g)
    (apart : message.CacheApart other) (settlement second : Settlement) :
    ∃ one two : World φ η,
      world.settle h settlement >>= (·.settle g second) = .ok one ∧
      world.settle g second >>= (·.settle h settlement) = .ok two ∧
      one.heap = two.heap ∧ one.cache = two.cache ∧ one.outbox.halted = two.outbox.halted ∧
      (SteadyHosts φ η →
        one.outbox.sent.toList = world.outbox.sent.toList ++
          message.sends context world settlement ++ other.sends context world second ∧
        two.outbox.sent.toList = world.outbox.sent.toList ++
          other.sends context world second ++ message.sends context world settlement) := by
  obtain ⟨d, first, found, settled, done⟩ := awaits.settle settlement
  obtain ⟨e, last, foundOther, settledOther, doneOther⟩ := awaitsOther.settle second
  obtain ⟨e', one, foundLater, settledLater, doneLater⟩ :=
    (awaitsOther.of_ne different.symm done.heap).settle second
  obtain ⟨d', two, foundFirst, settledFirst, doneFirst⟩ :=
    (awaits.of_ne different doneOther.heap).settle settlement
  rw [done.heap, Heap.deferred?_setDeferred_of_ne different.symm, foundOther] at foundLater
  rw [doneOther.heap, Heap.deferred?_setDeferred_of_ne different, found] at foundFirst
  cases foundLater
  cases foundFirst
  refine ⟨one, two, ?_, ?_, ?_, ?_, ?_, fun steady => ⟨?_, ?_⟩⟩
  · rw [settled]
    exact settledLater
  · rw [settledOther]
    exact settledFirst
  · rw [doneLater.heap, done.heap, doneFirst.heap, doneOther.heap, Heap.setDeferred_comm different]
  · rw [doneLater.cache, done.cache, doneFirst.cache, doneOther.cache, Message.caches_comm apart]
  · rw [doneLater.halted, done.halted, doneFirst.halted, doneOther.halted]
  · rw [doneLater.sent_eq, done.sent_eq, Message.sends_setDeferred done.heap done.halted]
  · rw [doneFirst.sent_eq, doneOther.sent_eq,
      Message.sends_setDeferred doneOther.heap doneOther.halted]

/-! ### A request and a reference -/

namespace Sample

instance : SteadyHosts Method Object where
  entries_setDeferred _ _ _ _ := rfl

/-- The world when a request and a reference wait for a deferred value each. -/
def waiting : SampleWorld :=
  [request "7" "later", connect "slow" "later"].foldl (Session.act context) start.2.2

end Sample

open Sample in
/-- The request is resolved and the reference rejected, in either order. -/
theorem World.settle_comm_sample :
    ∃ one two : SampleWorld,
      waiting.settle ⟨0⟩ (.resolved (.bool true)) >>= (·.settle ⟨1⟩ (.rejected "gone")) = .ok one ∧
      waiting.settle ⟨1⟩ (.rejected "gone") >>= (·.settle ⟨0⟩ (.resolved (.bool true))) = .ok two ∧
      one.heap = two.heap ∧ one.cache = two.cache ∧
      one.outbox.sent.toList =
        [Envelope.reply "7" (.bool true), Envelope.exception "gone" none] ∧
      two.outbox.sent.toList =
        [Envelope.exception "gone" none, Envelope.reply "7" (.bool true)] := by
  have asks : (Message.get "7" (call "later") none).Awaits context waiting ⟨0⟩ :=
    ⟨call "later", .reply "7" 1, rfl, by decide +kernel⟩
  have refers : (Message.connect "slow" (call "later")).Awaits context waiting ⟨1⟩ :=
    ⟨call "later", .store "slow", rfl, by decide +kernel⟩
  obtain ⟨one, two, settledOne, settledTwo, heap, cache, -, sent⟩ :=
    settle_comm (by decide) asks refers trivial (.resolved (.bool true)) (.rejected "gone")
  obtain ⟨sentOne, sentTwo⟩ := sent inferInstance
  have silent : waiting.outbox.sent.toList = [] := by decide +kernel
  have answer : (Message.get "7" (call "later") none).sends context waiting
      (.resolved (.bool true)) = [Envelope.reply "7" (.bool true)] := by decide +kernel
  have report : (Message.connect "slow" (call "later")).sends context waiting
      (.rejected "gone") = [Envelope.exception "gone" none] := by decide +kernel
  rw [silent, answer, report] at sentOne sentTwo
  exact ⟨one, two, settledOne, settledTwo, heap, cache, sentOne, sentTwo⟩

/-! ### An object that shows how far a deferred value has come -/

/-- A host object that shows whether a deferred value is settled. -/
structure Gauge where
  /-- The deferred value. -/
  deferred : Handle .deferred

namespace Gauge

instance : HostObjects Empty Gauge where
  get _ _ := return .null
  entries heap gauge :=
    [("settled", .bool ((heap.deferred? gauge.deferred).any Deferred.isSettled))]

instance : ObjectModel Empty Gauge where
  call method _ _ := nomatch method

/-- Requests are answered one level deep. -/
def context : Context := ⟨.null, 1⟩

/-- A session with two deferred values in its cache, and a gauge of the second one. -/
def start : World Empty Gauge :=
  let heap : Heap Empty Gauge := ((Heap.empty.newDeferred (.fresh "a")).2.newDeferred (.fresh "b")).2
  ⟨(heap.newHost (.custom ⟨⟨1⟩⟩)).2, [("a", .deferred ⟨0⟩), ("b", .deferred ⟨1⟩)], .empty⟩

/-- A request for one of them. -/
def request (id : String) : Message := .get id (.reference id) none

/-- The session when a request waits for each of them. -/
def waiting : World Empty Gauge :=
  [request "a", request "b"].foldl (fun world message => (message.execute context world).2) start

end Gauge

open Gauge in
/-- The first deferred value is resolved with the gauge of the second one.  The answer shows which
of the two was settled first. -/
theorem World.settle_not_comm :
    (request "a").Awaits context waiting ⟨0⟩ ∧ (request "b").Awaits context waiting ⟨1⟩ ∧
      (waiting.settle ⟨0⟩ (.resolved (.host ⟨0⟩)) >>= (·.settle ⟨1⟩ (.resolved .null))).toOption.map
          (·.outbox.sent.toList) =
        some [Envelope.reply "a" (.object [("settled", .bool false)]),
          Envelope.reply "b" .null] ∧
      (waiting.settle ⟨1⟩ (.resolved .null) >>= (·.settle ⟨0⟩ (.resolved (.host ⟨0⟩)))).toOption.map
          (·.outbox.sent.toList) =
        some [Envelope.reply "b" .null,
          Envelope.reply "a" (.object [("settled", .bool true)])] ∧
      ¬ [Envelope.reply "a" (.object [("settled", .bool false)]), Envelope.reply "b" .null].Perm
        [Envelope.reply "b" .null, Envelope.reply "a" (.object [("settled", .bool true)])] :=
  ⟨⟨.reference "a", .reply "a" 1, rfl, by decide +kernel⟩,
    ⟨.reference "b", .reply "b" 1, rfl, by decide +kernel⟩,
    by decide +kernel, by decide +kernel, by decide +kernel⟩

end RemoteAgent
