import RemoteAgent.Proofs.Conduct
import RemoteAgent.Proofs.Continuations

/-!
# What holds of every evaluation

Evaluation runs code of the application, and what is to be shown of it is mostly a promise about
everything that it does, from its first step to its last: that only deeds of some kind are done, or
that two worlds which look alike go on looking alike.  Such a promise is a property of actions, and
it holds of every evaluation if it survives sequencing, if the few steps that evaluation takes by
itself keep it, and if the code of the application does.

`Eval.Discipline` says what a property has to satisfy for this.  The search through the cases of a
command tree is done once (`Eval.Discipline.evaluate`), for all such properties.  What depends on
values that were made on the way, or on the error that an evaluation ends in, is no discipline.

## Main definitions

* `Eval.Discipline`: a property of actions that evaluation keeps.
* `Eval.Discipline.Hosts`, `Eval.Discipline.Model`: applications that keep it.
-/

namespace RemoteAgent

variable {φ η : Type}

namespace Value

mutual

/-- Making values of JSON leaves deferred values alone. -/
theorem deferreds_ofJson :
    ∀ (json : Json) (heap : Heap φ η), (ofJson json heap).2.deferreds = heap.deferreds
  | .null, _ => rfl
  | .bool _, _ => rfl
  | .number _, _ => rfl
  | .string _, _ => rfl
  | .array items, heap => deferreds_ofJsonItems items heap
  | .object fields, heap => deferreds_ofJsonFields fields heap

theorem deferreds_ofJsonItems :
    ∀ (items : List Json) (heap : Heap φ η),
      (ofJsonItems items heap).2.deferreds = heap.deferreds
  | [], _ => rfl
  | item :: rest, heap =>
      (deferreds_ofJsonItems rest (ofJson item heap).2).trans (deferreds_ofJson item heap)

theorem deferreds_ofJsonFields :
    ∀ (fields : List (String × Json)) (heap : Heap φ η),
      (ofJsonFields fields heap).2.deferreds = heap.deferreds
  | [], _ => rfl
  | (_, item) :: rest, heap =>
      (deferreds_ofJsonFields rest (ofJson item heap).2).trans (deferreds_ofJson item heap)

end

end Value

namespace Eval

/-- **A discipline**: a property of actions that survives sequencing, and that the steps keep which
evaluation takes by itself. -/
structure Discipline (P : ∀ {α : Type}, Eval φ η α → Prop) : Prop where
  pure : ∀ {α : Type} (value : α), P (Pure.pure value)
  throw : ∀ {α : Type} (error : EvalError), P (MonadExcept.throw error : Eval φ η α)
  bind : ∀ {α β : Type} {action : Eval φ η α} {next : α → Eval φ η β},
    P action → (∀ value, P (next value)) → P (action >>= next)
  /-- Looking at the heap. -/
  heap : ∀ {α : Type} {next : Heap φ η → Eval φ η α},
    (∀ heap, P (next heap)) → P (Eval.heap >>= next)
  /-- Looking at the cache. -/
  cache : ∀ {α : Type} {next : Fields Value → Eval φ η α},
    (∀ cache, P (next cache)) → P (Eval.cache >>= next)
  /-- Making a cell that is no deferred value. -/
  allocate : ∀ {α : Type} {make : Heap φ η → α × Heap φ η},
    (∀ heap, (make heap).2.deferreds = heap.deferreds) → P (Eval.allocate make)
  /-- Changing cells that are no deferred values. -/
  modifyHeap : ∀ {change : Heap φ η → Heap φ η},
    (∀ heap, (change heap).deferreds = heap.deferreds) → P (Eval.modifyHeap change)
  callback : ∀ (id : String) (args : List Json),
    P (Eval.emit (Envelope.callback id args) : Eval φ η Unit)
  issue : ∀ (id : String) (settlement? : Option Settlement),
    P (Eval.allocate (·.newDeferred ⟨id, .of none settlement?⟩) : Eval φ η (Handle .deferred))

namespace Discipline

/-- Host objects that keep a discipline. -/
structure Hosts [HostObjects φ η] (P : ∀ {α : Type}, Eval φ η α → Prop) : Prop where
  get : ∀ (code : η) (key : PropertyKey), P (HostObjects.get code key : Eval φ η Value)
  set : ∀ (code : η) (key : PropertyKey) (value : Value),
    P (HostObjects.set code key value : Eval φ η Unit)

/-- An application that keeps a discipline. -/
structure Model [ObjectModel φ η] (P : ∀ {α : Type}, Eval φ η α → Prop) : Prop
    extends Hosts P where
  call : ∀ (code : φ) (receiver : Value) (args : List Value),
    P (ObjectModel.call code receiver args : Eval φ η Value)

variable {P : ∀ {α : Type}, Eval φ η α → Prop} (discipline : Discipline P)

include discipline

theorem ofExcept {α : Type} (result : Except EvalError α) : P (Eval.ofExcept result) := by
  cases result with
  | error error => exact discipline.throw error
  | ok value => exact discipline.pure value

theorem ofOption {α : Type} (error : EvalError) (result : Option α) :
    P (Eval.ofOption error result) := by
  cases result with
  | none => exact discipline.throw error
  | some value => exact discipline.pure value

section Properties

variable [HostObjects φ η]

section Hosts

variable (hosts : Hosts P)

include hosts

theorem hostProperty (h : Handle .host) (key : PropertyKey) : P (Value.hostProperty h key) := by
  refine discipline.heap fun heap => ?_
  cases heap.host? h with
  | none => exact discipline.pure _
  | some host =>
      cases host with
      | bag label properties => exact discipline.pure _
      | custom code => exact hosts.get code key

theorem setHostProperty (h : Handle .host) (key : PropertyKey) (value : Value) :
    P (Value.setHostProperty h key value) := by
  refine discipline.heap fun heap => ?_
  cases heap.host? h with
  | none => exact discipline.pure _
  | some host =>
      cases host with
      | bag label properties => exact discipline.modifyHeap fun _ => rfl
      | custom code => exact hosts.set code key value

theorem getIndex (target index : Value) : P (target.getIndex index) := by
  refine discipline.heap fun heap => discipline.bind (discipline.ofExcept _) fun key => ?_
  cases target with
  | array h => exact discipline.pure _
  | object h => exact discipline.pure _
  | text content => exact discipline.pure _
  | bytes content => exact discipline.pure _
  | host h => exact discipline.hostProperty hosts h key
  | _ => exact discipline.throw _

theorem setIndex (target index value : Value) : P (target.setIndex index value) := by
  refine discipline.heap fun heap => discipline.bind (discipline.ofExcept _) fun key => ?_
  cases target with
  | array h =>
      refine discipline.bind (discipline.ofExcept _) fun items => ?_
      exact discipline.modifyHeap fun _ => rfl
  | object h => exact discipline.modifyHeap fun _ => rfl
  | host h => exact discipline.setHostProperty hosts h key value
  | _ => exact discipline.throw _

end Hosts

theorem callBack (id : String) (depth : Int) (args : List Value) :
    P (Value.callBack id depth args) := by
  refine discipline.heap fun heap => ?_
  refine discipline.bind (discipline.callback id _) fun _ => ?_
  exact discipline.allocate (Value.deferreds_ofJson _)

/-- Calling a value keeps a discipline that native code keeps. -/
theorem callWith {native : φ → Value → List Value → Eval φ η Value} {receiver : Value}
    {args : List Value} (keeps : ∀ code, P (native code receiver args)) (callee : Value) :
    P (Value.callWith native callee receiver args) := by
  refine discipline.heap fun heap => ?_
  cases callee with
  | function h =>
      dsimp only
      cases heap.function? h with
      | none => exact discipline.pure _
      | some function =>
          obtain ⟨name, body⟩ := function
          cases body with
          | native code => exact keeps code
          | callback id depth => exact discipline.callBack id depth args
  | _ => exact discipline.throw _

end Properties

section Commands

variable [ObjectModel φ η]

theorem require (position : Position) (result : Bound) :
    P (Command.require position result) := by
  refine discipline.heap fun heap => ?_
  split
  case isTrue => exact discipline.pure _
  case isFalse => exact discipline.throw _

mutual

/-- **Evaluation keeps the discipline of the application.** -/
theorem evaluate (model : Model P) (context : Context) :
    ∀ command : Command, P (command.evaluate context : Eval φ η Bound)
  | .literal value => by
      rw [Command.evaluate]
      refine discipline.bind (discipline.allocate (Value.deferreds_ofJson value)) fun _ => ?_
      exact discipline.pure _
  | .bytes hex => by
      rw [Command.evaluate]
      exact discipline.bind (discipline.ofExcept _) fun _ => discipline.pure _
  | .map entries => by
      rw [Command.evaluate]
      refine discipline.bind (evaluateFields model context entries) fun entries => ?_
      refine discipline.bind (discipline.allocate fun _ => rfl) fun _ => ?_
      exact discipline.pure _
  | .sequence items => by
      rw [Command.evaluate]
      refine discipline.bind (evaluateItems model context items) fun items => ?_
      refine discipline.bind (discipline.allocate fun _ => rfl) fun _ => ?_
      exact discipline.pure _
  | .reference id => by
      rw [Command.evaluate]
      refine discipline.bind (discipline.cache fun cache => ?_) fun _ => discipline.pure _
      exact discipline.ofOption _ _
  | .get target index => by
      rw [Command.evaluate]
      refine discipline.bind (evaluate model context target) fun target => ?_
      refine discipline.bind (discipline.require .target target) fun target => ?_
      refine discipline.bind (evaluate model context index) fun index => ?_
      refine discipline.bind (discipline.getIndex model.toHosts _ _) fun _ => ?_
      exact discipline.pure _
  | .call callable args => by
      rw [Command.evaluate]
      refine discipline.bind (evaluate model context callable) fun callable => ?_
      refine discipline.bind (discipline.require .callable callable) fun callable => ?_
      refine discipline.bind (evaluateItems model context args) fun args => ?_
      refine discipline.bind ?_ fun _ => discipline.pure _
      exact discipline.callWith (fun code => model.call code _ _) _
  | .callback id depth => by
      rw [Command.evaluate]
      refine discipline.bind (discipline.allocate fun _ => rfl) fun _ => ?_
      exact discipline.pure _
  | .set target index value => by
      rw [Command.evaluate]
      refine discipline.bind (evaluate model context target) fun target => ?_
      refine discipline.bind (discipline.require .target target) fun target => ?_
      refine discipline.bind (evaluate model context index) fun index => ?_
      refine discipline.bind (evaluate model context value) fun value => ?_
      refine discipline.bind (discipline.setIndex model.toHosts _ _ _) fun _ => ?_
      exact discipline.pure _

theorem evaluateItems (model : Model P) (context : Context) :
    ∀ items : List Command, P (Command.evaluateItems context items : Eval φ η (List Value))
  | [] => by
      rw [Command.evaluateItems]
      exact discipline.pure _
  | item :: rest => by
      rw [Command.evaluateItems]
      refine discipline.bind (evaluate model context item) fun item => ?_
      exact discipline.bind (evaluateItems model context rest) fun _ => discipline.pure _

theorem evaluateFields (model : Model P) (context : Context) :
    ∀ entries : List (String × Command),
      P (Command.evaluateFields context entries : Eval φ η (List (String × Value)))
  | [] => by
      rw [Command.evaluateFields]
      exact discipline.pure _
  | (name, node) :: rest => by
      rw [Command.evaluateFields]
      refine discipline.bind (evaluate model context node) fun node => ?_
      exact discipline.bind (evaluateFields model context rest) fun _ => discipline.pure _

end

end Commands

end Discipline

end Eval

end RemoteAgent
