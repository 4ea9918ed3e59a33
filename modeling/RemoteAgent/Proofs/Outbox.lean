import RemoteAgent.Agent
import RemoteAgent.Console
import RemoteAgent.Proofs.Discipline

/-!
# The outbox only grows

A session has the sending end of a queue: it puts envelopes in and takes none back.  Here this is a
relation between an earlier and a later world (`World.Queues`), since other things happen to a world
as well, and what they do to the outbox is of the same kind.

The agent keeps to it by itself.  For the code of an application it is an assumption
(`QueueingModel`), as the model lets that code do anything to a world.  It is a discipline of
actions, so an application that does nothing but what evaluation does keeps it.

## Main definitions

* `World.Queues`: a later world, with everything in its outbox that was there before.
* `QueueingModel`: an application that puts envelopes in and takes none back.

## Main results

* `Message.queues_dispatch`: so do messages.
-/

namespace RemoteAgent

variable {φ η : Type}

/-- A later world has in its outbox what was there before, and maybe more behind it. -/
def World.Queues (world after : World φ η) : Prop :=
  world.outbox.sent.toList <+: after.outbox.sent.toList

namespace World.Queues

variable {world middle after : World φ η}

theorem of_eq (same : after.outbox.sent = world.outbox.sent) : world.Queues after :=
  ⟨[], by rw [same, List.append_nil]⟩

theorem refl (world : World φ η) : world.Queues world := of_eq rfl

theorem trans (one : world.Queues middle) (two : middle.Queues after) : world.Queues after :=
  List.IsPrefix.trans one two

theorem emit (world : World φ η) (envelope : Json) :
    world.Queues { world with outbox := world.outbox.emit envelope } :=
  ⟨[envelope], by simp [Outbox.emit]⟩

theorem report (world : World φ η) (text : String) (id : Option String) :
    world.Queues (world.report text id) := by
  unfold World.report Outbox.report
  split
  · exact refl world
  · exact emit world _

variable [HostObjects φ η]

theorem complete (world : World φ η) (run : DueRun Completion) :
    world.Queues (world.complete run) := by
  unfold World.complete
  split
  · exact refl world
  · exact emit world _
  · exact of_eq rfl
  · exact report world _ _
  · exact report world _ _
  · exact report world _ _

theorem proceed (world : World φ η) (h : Handle .deferred)
    (next : Deferred Completion × Option (DueRun Completion)) :
    world.Queues (world.proceed h next) := by
  have settled : world.Queues { world with heap := world.heap.setDeferred h next.1 } := of_eq rfl
  unfold World.proceed
  dsimp only
  split
  · exact settled.trans (complete _ _)
  · exact settled

end World.Queues

/-! ## Actions -/

/-- An action that puts envelopes into the outbox and takes none back. -/
def Eval.Queues {α : Type} (action : Eval φ η α) : Prop :=
  ∀ world : World φ η, world.Queues (action.run world).2

namespace Eval.Queues

variable {α β : Type}

theorem bind {action : Eval φ η α} {next : α → Eval φ η β} (first : action.Queues)
    (second : ∀ value, (next value).Queues) : (action >>= next).Queues := by
  intro world
  have before := first world
  rw [run_bind]
  rcases result : action.run world with ⟨error | value, middle⟩
  · rw [result] at before
    exact before
  · rw [result] at before
    exact before.trans (second value middle)

/-- **Taking no envelope back is a discipline.** -/
theorem discipline : Discipline (fun {_ : Type} (action : Eval φ η _) => action.Queues) where
  pure _ world := .refl world
  throw _ world := .refl world
  bind := bind
  heap queues world := queues world.heap world
  cache queues world := queues world.cache world
  allocate _ _ := .of_eq rfl
  modifyHeap _ _ := .of_eq rfl
  callback id args world := .emit world (Envelope.callback id args)
  issue _ _ _ := .of_eq rfl

end Eval.Queues

/-- An application that puts envelopes into the outbox and takes none back. -/
def QueueingModel (φ η : Type) [ObjectModel φ η] : Prop :=
  Eval.Discipline.Model (fun {_ : Type} (action : Eval φ η _) => action.Queues)

/-! ## Messages -/

namespace Message

theorem queues_finish [HostObjects φ η] (world : World φ η) (completion : Completion)
    (value : Value) : world.Queues (finish world completion value).2 := by
  cases value with
  | deferred h =>
      unfold finish World.bindDeferred
      dsimp only
      cases world.heap.deferred? h with
      | none => exact .refl world
      | some d =>
          dsimp only
          cases d.bind completion with
          | error error => exact .refl world
          | ok next => exact .proceed world h next
  | _ => exact .complete world _

variable [ObjectModel φ η] (queueing : QueueingModel φ η)

include queueing

theorem queues_run (context : Context) (message : Message) (world : World φ η) :
    world.Queues (message.run context world).2 := by
  unfold run
  cases message.work? context with
  | none =>
      cases message with
      | disconnect cacheId => exact .of_eq rfl
      | _ => exact .refl world
  | some work =>
      obtain ⟨command, completion⟩ := work
      have evaluated := Eval.Queues.discipline.evaluate queueing context command world
      dsimp only
      rcases result : (command.evaluate context).run world with ⟨error | value, after⟩
      · rw [result] at evaluated
        exact evaluated
      · rw [result] at evaluated
        exact evaluated.trans (queues_finish after completion _)

theorem queues_execute (context : Context) (message : Message) (world : World φ η) :
    world.Queues (message.execute context world).2 := by
  have ran := queues_run queueing context message world
  unfold execute
  rcases result : message.run context world with ⟨error | outcome, after⟩
  · rw [result] at ran
    exact ran.trans (.report after _ _)
  · rw [result] at ran
    exact ran

/-- **A message takes nothing out of the outbox.** -/
theorem queues_dispatch (context : Context) (json : Json) (world : World φ η) :
    world.Queues (dispatch context json world).2 := by
  unfold dispatch read
  cases parse json with
  | error error => exact .report world _ _
  | ok message => exact queues_execute queueing context message world

end Message

/-! ## The console application -/

namespace Console

/-- The console application keeps any discipline: its methods do nothing but what evaluation does.
-/
theorem model {P : ∀ {α : Type}, Run α → Prop} (discipline : Eval.Discipline P) :
    Eval.Discipline.Model P where
  get object _ := nomatch object
  set object _ _ := nomatch object
  call method receiver args := by
    show P (call method receiver args)
    unfold call
    cases method with
    | log lines =>
        refine discipline.heap fun heap => ?_
        exact discipline.bind (discipline.modifyHeap fun _ => rfl) fun _ => discipline.pure _
    | after timers =>
        dsimp only
        cases args.head?.bind delay? with
        | none => exact discipline.throw _
        | some delay =>
            refine discipline.bind (discipline.issue "after" none) fun h => ?_
            refine discipline.bind (discipline.allocate fun _ => rfl) fun timer => ?_
            exact discipline.bind (discipline.modifyHeap fun _ => rfl) fun _ => discipline.pure _

theorem queueing : QueueingModel Method Empty := model Eval.Queues.discipline

end Console

end RemoteAgent
