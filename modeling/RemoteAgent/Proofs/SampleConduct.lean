import RemoteAgent.Proofs.Deeds
import RemoteAgent.Sample

/-!
# The sample application keeps to the moves

The methods of the sample application cover what an application can do with deferred values: hand
out new ones, settled or not, hand out one that was handed out before, and call other methods.  So
it is the test of `LawfulModel`, which asks enough for sessions and is not to ask too much for
applications.

Methods are followed one by one.  Only `apply` calls another method, and it passes fewer arguments
on; the induction is on the arguments.

The same methods do nothing that evaluation does not do by itself: they leave the cache alone,
settle nothing and send nothing but callbacks.  So the sample application keeps every discipline
(`model`), and to every licence that allows plain deeds (`licensed`).
-/

namespace RemoteAgent.Sample

open Eval (Orderly)

/-- The methods of the sample application hold no deferred values: those that `later` gives out are
kept in an array. -/
instance : Holds Method := ⟨fun _ => []⟩

instance : Holds Object := ⟨fun _ => []⟩

variable {world : SampleWorld}

instance : LawfulHosts Method Object where
  get _ closed _ := .pure closed trivial
  set _ closed _ _ := .heap (.throw closed)

/-- An argument that is not there is null. -/
theorem issued_argument {n : Nat} {args : List Value} (issued : ∀ arg ∈ args, arg.Issued n) :
    (args.head?.getD .null).Issued n := by
  cases args with
  | nil => trivial
  | cons arg rest => exact issued arg List.mem_cons_self

theorem orderly_words (closed : world.Closed) (value : Value) :
    Orderly (fun _ _ => True) world (words value) := by
  unfold words
  cases value with
  | text content => exact .pure closed trivial
  | _ => exact .heap (.pure closed trivial)

theorem orderly_newDeferred {state : Deferred.State Completion} (closed : world.Closed)
    (unbound : (Deferred.isBound ⟨deferredName, state⟩) = false)
    (issued : Deferred.Issued world.issued ⟨deferredName, state⟩) :
    Orderly Value.Issued world (newDeferred state) :=
  (Orderly.newDeferred closed unbound issued).bind fun _ _ closed _ known => .pure closed known

theorem orderly_answer (closed : world.Closed) (method : Method) {receiver : Value}
    {args : List Value} (known : receiver.Issued world.issued)
    (issued : ∀ arg ∈ args, arg.Issued world.issued) :
    Orderly Value.Issued world (answer method receiver args) := by
  have first := issued_argument issued
  cases method with
  | witness name =>
      refine (Orderly.newArray closed issued).bind ?_
      intro list after closed le listed
      refine .newArray closed ?_
      intro item mem
      rcases List.mem_cons.mp mem with rfl | mem
      · trivial
      · rcases List.mem_cons.mp mem with rfl | mem
        · exact known.later le
        · rw [List.mem_singleton.mp mem]
          exact listed
  | refuse text => exact .throw closed
  | later pending =>
      have fresh : Deferred.Issued world.issued ⟨deferredName, .fresh⟩ := trivial
      refine (orderly_newDeferred closed rfl fresh).bind ?_
      intro deferred after closed _ issued
      refine (Orderly.appendItem closed pending issued).bind ?_
      intro _ last closed le _
      exact .pure closed (issued.later le)
  | last pending =>
      refine .heap (.pure closed ?_)
      cases found : (world.heap.items pending).getLast? with
      | none => trivial
      | some item => exact closed.heap.items pending item (List.mem_of_getLast? found)
  | ready => exact orderly_newDeferred closed rfl first
  | broken =>
      refine (orderly_words closed _).bind ?_
      intro text after closed _ _
      have rejected : Deferred.Issued after.issued ⟨deferredName, .early (.rejected text)⟩ :=
        trivial
      exact orderly_newDeferred closed rfl rejected
  | echo => exact .newArray closed issued
  | first => exact .pure closed first
  | this => exact .pure closed known
  | fail => exact (orderly_words closed _).bind fun _ _ closed _ _ => .throw closed
  | nothing => exact .pure closed trivial
  | kind => exact .pure closed trivial
  | describe => exact .heap (.pure closed trivial)
  | sum =>
      refine (Value.orderly_getIndex closed _).bind ?_
      intro start after closed _ _
      exact .pure closed (Value.issued_ofInt _)
  | double =>
      unfold answer
      dsimp only
      generalize twice _ = doubled
      exact .pure closed (Value.issued_ofBinary64? doubled)
  | bump =>
      refine (Value.orderly_getIndex closed _).bind ?_
      intro count after closed _ _
      refine (Value.orderly_setIndex closed _ (Value.issued_ofInt _)).bind ?_
      intro _ last closed _ _
      exact .pure closed (Value.issued_ofInt _)
  | apply => exact .heap (.throw closed)

theorem orderly_run (closed : world.Closed) (method : Method) {receiver : Value}
    {args : List Value} (known : receiver.Issued world.issued)
    (issued : ∀ arg ∈ args, arg.Issued world.issued) :
    Orderly Value.Issued world (run method receiver args) := by
  induction args generalizing method receiver with
  | nil => exact orderly_answer closed method known issued
  | cons argument rest ih =>
      unfold run
      split
      case h_1 =>
        -- Whatever is called gets the other arguments, which are fewer.
        have others := fun arg mem => issued arg (List.mem_cons_of_mem argument mem)
        exact Value.orderly_callWith closed fun method _ => ih method known others
      case h_2 => exact orderly_answer closed method known issued

instance : LawfulModel Method Object where
  call closed _ := orderly_run closed _

/-! ## Plain deeds -/

section Discipline

variable {P : ∀ {α : Type}, Run α → Prop} (discipline : Eval.Discipline P)

include discipline

theorem hosts : Eval.Discipline.Hosts P where
  get _ _ := discipline.pure _
  set _ _ _ := discipline.heap fun _ => discipline.throw _

theorem discipline_words (value : Value) : P (words value) := by
  unfold words
  cases value with
  | text content => exact discipline.pure _
  | _ => exact discipline.heap fun _ => discipline.pure _

theorem discipline_newDeferred (settlement? : Option Settlement) :
    P (newDeferred (.of none settlement?)) :=
  discipline.bind (discipline.issue _ _) fun _ => discipline.pure _

theorem discipline_answer (method : Method) (receiver : Value) (args : List Value) :
    P (answer method receiver args) := by
  cases method with
  | witness name =>
      refine discipline.bind (discipline.allocate fun _ => rfl) fun _ => ?_
      exact discipline.allocate fun _ => rfl
  | refuse text => exact discipline.throw _
  | later pending =>
      refine discipline.bind (discipline_newDeferred discipline none) fun deferred => ?_
      exact discipline.bind (discipline.modifyHeap fun _ => rfl) fun _ => discipline.pure _
  | last pending => exact discipline.heap fun _ => discipline.pure _
  | ready => exact discipline_newDeferred discipline (some (.resolved _))
  | broken =>
      refine discipline.bind (discipline_words discipline _) fun text => ?_
      exact discipline_newDeferred discipline (some (.rejected text))
  | echo =>
      show P (Eval.allocate (·.newArray args))
      exact discipline.allocate fun _ => rfl
  | first => exact discipline.pure _
  | this => exact discipline.pure _
  | fail => exact discipline.bind (discipline_words discipline _) fun _ => discipline.throw _
  | nothing => exact discipline.pure _
  | kind => exact discipline.pure _
  | describe => exact discipline.heap fun _ => discipline.pure _
  | sum =>
      refine discipline.bind (discipline.getIndex (hosts discipline) _ _) fun _ => ?_
      exact discipline.pure _
  | double => exact discipline.pure _
  | bump =>
      refine discipline.bind (discipline.getIndex (hosts discipline) _ _) fun count => ?_
      refine discipline.bind (discipline.setIndex (hosts discipline) _ _ _) fun _ => ?_
      exact discipline.pure _
  | apply => exact discipline.heap fun _ => discipline.throw _

theorem discipline_run (method : Method) (receiver : Value) (args : List Value) :
    P (run method receiver args) := by
  induction args generalizing method receiver with
  | nil => exact discipline_answer discipline method receiver []
  | cons argument rest ih =>
      unfold run
      split
      case h_1 => exact discipline.callWith (fun method => ih method receiver) _
      case h_2 => exact discipline_answer discipline method receiver _

/-- The sample application keeps any discipline: its methods do nothing but what evaluation does. -/
theorem model : Eval.Discipline.Model P where
  toHosts := hosts discipline
  call := discipline_run discipline

end Discipline

/-- The sample application keeps to any licence that allows plain deeds. -/
theorem licensed {licence : Licence Method Object} (plain : licence.AllowsPlain) :
    Licensed Method Object licence where
  plain := plain
  get := (model (Eval.Keeps.discipline plain)).get
  set := (model (Eval.Keeps.discipline plain)).set
  call := (model (Eval.Keeps.discipline plain)).call

end RemoteAgent.Sample
