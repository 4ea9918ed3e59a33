import RemoteAgent.Proofs.Assignment

/-!
# Whom a function is called on

Evaluation hands a receiver on with every value: whom the value would be called on.  A property
belongs to its owner, an assignment hands on what its target has, and everything else belongs to the
root.  So the receiver can be told from the tree alone: take off the assignments around a command
and see whether a property is left (`Command.core`, `Command.BoundTo`).

What a call does then follows from the order of evaluation.  The parts of a command are evaluated
from left to right, each in the world that the one before it has left (`Command.InTurn`), and only
then the command itself does something.  An error anywhere ends the whole evaluation, so a command
that gives something has had all of its parts evaluated, and theirs, down to the leaves: there is a
world in which evaluation comes to each place of the tree (`Command.Reaches`), and since the rules
for receivers and calls hold in any world, they hold there.

## Main definitions

* `Command.Gives`: what a command is evaluated to.
* `Command.BoundTo`: whom the result of a command is called on.
* `Command.Calls`: what a call does.

## Main results

* `Command.Gives.exists_reaches`: every place of the tree is come to.
* `Command.receiver_of_gives`: receivers and calls, at every depth.
-/

namespace RemoteAgent

variable {φ η : Type}

/-- What comes of two actions comes of the first one and then of the second one. -/
theorem Eval.exists_of_run_bind {α β : Type} {action : Eval φ η α} {next : α → Eval φ η β}
    {world after : World φ η} {value : β} (ran : (action >>= next).run world = (.ok value, after)) :
    ∃ first middle, action.run world = (.ok first, middle) ∧
      (next first).run middle = (.ok value, after) := by
  rw [run_bind] at ran
  rcases first : action.run world with ⟨error | first, middle⟩
  · rw [first] at ran
    cases ran
  · rw [first] at ran
    exact ⟨_, _, rfl, ran⟩

namespace Command

/-! ## Parts -/

/-- The command that is left when the assignments around it are taken off. -/
def core : Command → Command
  | set target _ _ => core target
  | command => command

/-- The commands right below a command, in the order in which they are evaluated. -/
def parts : Command → List Command
  | literal _ | bytes _ | reference _ | callback _ _ => []
  | map entries => entries.map Prod.snd
  | sequence items => items
  | get target index => [target, index]
  | call callable args => callable :: args
  | set target index value => [target, index, value]

/-- The command at a place in the tree: a path has the positions among the parts on the way down. -/
def at? (command : Command) : List Nat → Option Command
  | [] => some command
  | position :: path => command.parts[position]?.bind fun part => part.at? path

variable [ObjectModel φ η]

/-- Evaluating the command from one world gives the result and leaves the other world. -/
abbrev Gives (context : Context) (command : Command) (world : World φ η) (result : Bound)
    (after : World φ η) : Prop :=
  (command.evaluate context).run world = (.ok result, after)

/-- The commands are evaluated one after the other, each in the world that the one before it has
left. -/
inductive InTurn (context : Context) :
    List Command → World φ η → List Bound → World φ η → Prop
  | nil (world : World φ η) : InTurn context [] world [] world
  | cons {command : Command} {rest : List Command} {world next last : World φ η} {result : Bound}
      {results : List Bound} (gives : command.Gives context world result next)
      (turn : InTurn context rest next results last) :
      InTurn context (command :: rest) world (result :: results) last

/-- Evaluating the command from the world comes to the part at the path, in another world: at every
level, the parts in front of it are evaluated first. -/
inductive Reaches (context : Context) : Command → World φ η → List Nat → World φ η → Prop
  | here (command : Command) (world : World φ η) : Reaches context command world [] world
  | descend {command part : Command} {position : Nat} {results : List Bound} {path : List Nat}
      {world next start : World φ η} (there : command.parts[position]? = some part)
      (turn : InTurn context (command.parts.take position) world results next)
      (reaches : Reaches context part next path start) :
      Reaches context command world (position :: path) start

/-- **Whom the result of a command is called on.**  It is the very value that the target of a
property was evaluated to, also behind assignments, and the root in all other cases. -/
def BoundTo (context : Context) (world : World φ η) (command : Command) (receiver : Value) : Prop :=
  match command.core with
  | .get target _ => ∃ owner after, target.Gives context world owner after ∧ receiver = owner.value
  | _ => receiver = context.root

/-- A call: the callable gives a value with its receiver, the arguments are evaluated after it and
in their order, the value is called on the receiver, and what it answers belongs to no object. -/
inductive Calls (context : Context) (world : World φ η) (callable : Command)
    (args : List Command) : Bound → World φ η → Prop
  | intro {callee : Bound} {arguments : List Bound} {answer : Value} {called last after : World φ η}
      (gives : callable.Gives context world callee called)
      (receiver : BoundTo context world callable callee.receiver)
      (turn : InTurn context args called arguments last)
      (answers : (callee.value.call callee.receiver (arguments.map Bound.value)).run last =
        (.ok answer, after)) :
      Calls context world callable args ⟨context.root, answer⟩ after

variable {context : Context} {command : Command} {world after : World φ η} {result : Bound}

/-! ## One node -/

/-- A target or a callable was evaluated, and its value is present. -/
theorem exists_of_run_require {α : Type} {position : Position} {next : Bound → Eval φ η α}
    {value : α} (ran : (command.evaluate context >>= fun owner =>
      require position owner >>= next).run world = (.ok value, after)) :
    ∃ owner middle, command.Gives context world owner middle ∧
      owner.value.isPresent middle.heap = true ∧ (next owner).run middle = (.ok value, after) := by
  obtain ⟨owner, middle, gives, insisted⟩ := Eval.exists_of_run_bind ran
  obtain ⟨required, left, looked, rest⟩ := Eval.exists_of_run_bind insisted
  unfold require at looked
  obtain ⟨heap, _, found, checked⟩ := Eval.exists_of_run_bind looked
  cases found
  split at checked
  case isTrue present =>
    cases checked
    exact ⟨owner, middle, gives, present, rest⟩
  case isFalse => cases checked

theorem inTurn_of_items {items : List Command} {values : List Value}
    (ran : (evaluateItems context items).run world = (.ok values, after)) :
    ∃ results, InTurn context items world results after ∧ results.map Bound.value = values := by
  induction items generalizing world values with
  | nil =>
    rw [evaluateItems] at ran
    cases ran
    exact ⟨[], .nil _, rfl⟩
  | cons item rest ih =>
    rw [evaluateItems] at ran
    obtain ⟨result, next, gives, others⟩ := Eval.exists_of_run_bind ran
    obtain ⟨values, last, ran, done⟩ := Eval.exists_of_run_bind others
    cases done
    obtain ⟨results, turn, rfl⟩ := ih ran
    exact ⟨result :: results, .cons gives turn, rfl⟩

theorem inTurn_of_fields {entries : List (String × Command)} {fields : List (String × Value)}
    (ran : (evaluateFields context entries).run world = (.ok fields, after)) :
    ∃ results, InTurn context (entries.map Prod.snd) world results after := by
  induction entries generalizing world fields with
  | nil =>
    rw [evaluateFields] at ran
    cases ran
    exact ⟨[], .nil _⟩
  | cons entry rest ih =>
    obtain ⟨name, node⟩ := entry
    rw [evaluateFields] at ran
    obtain ⟨result, next, gives, others⟩ := Eval.exists_of_run_bind ran
    obtain ⟨fields, last, ran, done⟩ := Eval.exists_of_run_bind others
    cases done
    obtain ⟨results, turn⟩ := ih ran
    exact ⟨result :: results, .cons gives turn⟩

namespace Gives

variable {target index value callable : Command} {args : List Command}

/-- A property is read off what its target gives, and belongs to it. -/
theorem of_get (gives : (get target index).Gives context world result after) :
    ∃ owner middle key last, target.Gives context world owner middle ∧
      index.Gives context middle key last ∧ result.receiver = owner.value := by
  rw [Gives, evaluate] at gives
  obtain ⟨owner, middle, target, -, keyed⟩ := exists_of_run_require gives
  obtain ⟨key, last, index, reads⟩ := Eval.exists_of_run_bind keyed
  obtain ⟨value, _, -, done⟩ := Eval.exists_of_run_bind reads
  cases done
  exact ⟨owner, middle, key, last, target, index, rfl⟩

/-- A call is made of what the callable and the arguments give. -/
theorem of_call (gives : (call callable args).Gives context world result after) :
    ∃ callee called arguments last answer, callable.Gives context world callee called ∧
      InTurn context args called arguments last ∧
      (callee.value.call callee.receiver (arguments.map Bound.value)).run last =
        (.ok answer, after) ∧
      result = ⟨context.root, answer⟩ := by
  rw [Gives, evaluate] at gives
  obtain ⟨callee, called, callable, -, supplied⟩ := exists_of_run_require gives
  obtain ⟨values, last, ran, calls⟩ := Eval.exists_of_run_bind supplied
  obtain ⟨answer, _, answers, done⟩ := Eval.exists_of_run_bind calls
  cases done
  obtain ⟨arguments, turn, rfl⟩ := inTurn_of_items ran
  exact ⟨callee, called, arguments, last, answer, callable, turn, answers, rfl⟩

/-- An assignment gives what its target gives. -/
theorem of_set (gives : (set target index value).Gives context world result after) :
    ∃ middle key next assigned last, target.Gives context world result middle ∧
      index.Gives context middle key next ∧ value.Gives context next assigned last := by
  rw [Gives, evaluate] at gives
  obtain ⟨owner, middle, target, -, keyed⟩ := exists_of_run_require gives
  obtain ⟨key, next, index, valued⟩ := Eval.exists_of_run_bind keyed
  obtain ⟨assigned, last, value, writes⟩ := Eval.exists_of_run_bind valued
  obtain ⟨_, _, -, done⟩ := Eval.exists_of_run_bind writes
  cases done
  exact ⟨middle, key, next, assigned, last, target, index, value⟩

/-- Before a command gives anything, its parts are evaluated in turn. -/
theorem exists_inTurn (gives : command.Gives context world result after) :
    ∃ results last, InTurn context command.parts world results last := by
  cases command with
  | literal | bytes | reference | callback => exact ⟨[], world, .nil world⟩
  | map entries =>
    rw [Gives, evaluate] at gives
    obtain ⟨fields, last, ran, -⟩ := Eval.exists_of_run_bind gives
    obtain ⟨results, turn⟩ := inTurn_of_fields ran
    exact ⟨results, last, turn⟩
  | sequence items =>
    rw [Gives, evaluate] at gives
    obtain ⟨values, last, ran, -⟩ := Eval.exists_of_run_bind gives
    obtain ⟨results, turn, -⟩ := inTurn_of_items ran
    exact ⟨results, last, turn⟩
  | get target index =>
    obtain ⟨owner, middle, key, last, target, index, -⟩ := gives.of_get
    exact ⟨_, last, .cons target (.cons index (.nil last))⟩
  | call callable args =>
    obtain ⟨callee, called, arguments, last, answer, callable, turn, -⟩ := gives.of_call
    exact ⟨_, last, .cons callable turn⟩
  | set target index value =>
    obtain ⟨middle, key, next, assigned, last, target, index, value⟩ := gives.of_set
    exact ⟨_, last, .cons target (.cons index (.cons value (.nil last)))⟩

/-- What neither is a property nor an assignment belongs to no object. -/
theorem receiver_eq_root (gives : command.Gives context world result after)
    (noProperty : command.tag ≠ .get) (noAssignment : command.tag ≠ .set) :
    result.receiver = context.root := by
  cases command with
  | get | set => contradiction
  | call callable args =>
    obtain ⟨callee, called, arguments, last, answer, -, -, -, rfl⟩ := gives.of_call
    rfl
  | literal | bytes | reference | callback =>
    rw [Gives, evaluate] at gives
    obtain ⟨value, _, -, done⟩ := Eval.exists_of_run_bind gives
    cases done
    rfl
  | map | sequence =>
    rw [Gives, evaluate] at gives
    obtain ⟨_, _, -, makes⟩ := Eval.exists_of_run_bind gives
    obtain ⟨value, _, -, done⟩ := Eval.exists_of_run_bind makes
    cases done
    rfl

/-- **The receiver of what a command gives.** -/
theorem boundTo (gives : command.Gives context world result after) :
    BoundTo context world command result.receiver := by
  unfold BoundTo
  fun_induction core command generalizing after with
  | case1 target index value ih =>
    -- Assigning does not change whom the target is called on.
    obtain ⟨_, _, _, _, _, target, -⟩ := gives.of_set
    exact ih target
  | case2 command noAssignment =>
    cases command with
    | get target index =>
      obtain ⟨owner, middle, _, _, target, -, receiver⟩ := gives.of_get
      exact ⟨owner, middle, target, receiver⟩
    | set target index value => exact absurd rfl (noAssignment target index value)
    | _ => exact gives.receiver_eq_root (by simp [tag]) (by simp [tag])

/-- **What a call does**, if it gives anything. -/
theorem calls (gives : (call callable args).Gives context world result after) :
    Calls context world callable args result after := by
  obtain ⟨callee, called, arguments, last, answer, callable, turn, answers, rfl⟩ := gives.of_call
  exact .intro callable callable.boundTo turn answers

end Gives

/-! ## Many nodes -/

/-- Each of some commands that are evaluated in turn gives something when those in front of it have
been evaluated. -/
theorem InTurn.exists_gives {commands : List Command} {part : Command} {results : List Bound}
    {last : World φ η} (turn : InTurn context commands world results last) {position : Nat}
    (there : commands[position]? = some part) :
    ∃ earlier next result after, InTurn context (commands.take position) world earlier next ∧
      part.Gives context next result after := by
  induction turn generalizing position with
  | nil => simp at there
  | @cons command rest world _ _ _ _ gives _ ih =>
    cases position with
    | zero =>
      obtain rfl : command = part := by simpa using there
      exact ⟨[], world, _, _, .nil world, gives⟩
    | succ position =>
      obtain ⟨earlier, next, result, after, before, part⟩ := ih (by simpa using there)
      exact ⟨_, next, result, after, .cons gives before, part⟩

/-- **Every part is evaluated**: evaluating a command that gives something comes to all parts of its
tree, and each of them gives something there. -/
theorem Gives.exists_reaches (gives : command.Gives context world result after) {path : List Nat}
    {part : Command} (there : command.at? path = some part) :
    ∃ start given left, Reaches context command world path start ∧
      part.Gives context start given left := by
  induction path generalizing command world result after with
  | nil =>
    obtain rfl : command = part := Option.some.inj there
    exact ⟨world, result, after, .here command world, gives⟩
  | cons position path ih =>
    obtain ⟨child, below, there⟩ := Option.bind_eq_some_iff.mp there
    obtain ⟨_, _, turn⟩ := gives.exists_inTurn
    obtain ⟨_, next, _, _, before, child⟩ := turn.exists_gives below
    obtain ⟨start, given, left, reaches, part⟩ := ih child there
    exact ⟨start, given, left, .descend below before reaches, part⟩

/-! ## Calls -/

/-- The arguments are evaluated one after the other. -/
theorem InTurn.run_items {items : List Command} {results : List Bound}
    (turn : InTurn context items world results after) :
    (evaluateItems context items).run world = (.ok (results.map Bound.value), after) := by
  induction turn with
  | nil => rw [evaluateItems]; rfl
  | cons gives turn ih =>
    rw [evaluateItems, Eval.run_bind, gives]
    dsimp only
    rw [Eval.run_bind, ih]
    rfl

/-- **A call calls the function on the receiver of its callable**, whatever comes of it. -/
theorem Gives.run_call {callable : Command} {callee : Bound} {h : Handle .function}
    (gives : callable.Gives context world callee after) (isFunction : callee.value = .function h)
    {args : List Command} {arguments : List Bound} {last : World φ η}
    (turn : InTurn context args after arguments last) :
    ((call callable args).evaluate context).run world =
      (Bound.mk context.root <$>
        (Value.function h).call callee.receiver (arguments.map Bound.value)).run last := by
  obtain ⟨receiver, value⟩ := callee
  subst isFunction
  rw [evaluate, Eval.run_bind, gives]
  dsimp only
  have required : (require .callable ⟨receiver, .function h⟩).run after =
      (.ok ⟨receiver, .function h⟩, after) := rfl
  rw [Eval.run_bind, required]
  dsimp only
  rw [Eval.run_bind, turn.run_items]
  rfl

end Command

/-- Code of the application is called on the receiver as it is. -/
theorem Value.run_call_native [ObjectModel φ η] {world : World φ η} {h : Handle .function}
    {name : String} {code : φ} (here : world.heap.function? h = some ⟨name, .native code⟩)
    (receiver : Value) (args : List Value) :
    ((Value.function h).call receiver args).run world =
      (ObjectModel.call code receiver args : Eval φ η Value).run world := by
  have looked : (Eval.heap : Eval φ η (Heap φ η)).run world = (.ok world.heap, world) := rfl
  rw [call, callWith, Eval.run_bind, looked]
  dsimp only
  rw [here]

namespace Command

variable [ObjectModel φ η] {context : Context} {command : Command} {world after : World φ η}
  {result : Bound}

/-- **Receivers survive indirection.**  Take a command that gives something.  Its result is bound to
what the target of the property inside of its assignments was evaluated to, and to the root if there
is no property.  Where its value is a function and it stands as the callable of a call, the function
is called on just this receiver, with the values of the arguments, which are evaluated from left to
right in the world that the callable has left; code of the application gets them as they are, and
what it answers is bound to the root.  And this is so at every depth: all parts of the tree are
evaluated, each in the world that the parts in front of it have left, they are bound by the same
rule, and those that are calls are made by the same rule. -/
theorem receiver_of_gives (gives : command.Gives context world result after) :
    BoundTo context world command result.receiver ∧
    (∀ h args arguments last, result.value = .function h →
      InTurn context args after arguments last →
      let values := arguments.map Bound.value
      let answer : Eval φ η Value := (Value.function h).call result.receiver values
      ((call command args).evaluate context).run world =
          (Bound.mk context.root <$> answer).run last ∧
        ∀ name code, last.heap.function? h = some ⟨name, .native code⟩ →
          answer.run last = (ObjectModel.call code result.receiver values).run last) ∧
    ∀ path part, command.at? path = some part →
      ∃ start given left, Reaches context command world path start ∧
        part.Gives context start given left ∧ BoundTo context start part given.receiver ∧
        ∀ callable args, part = .call callable args →
          Calls context start callable args given left := by
  refine ⟨gives.boundTo, ?_, ?_⟩
  · intro h args arguments last isFunction turn
    refine ⟨gives.run_call isFunction turn, ?_⟩
    intro name code here
    exact Value.run_call_native here _ _
  · intro path part there
    obtain ⟨start, given, left, reaches, part⟩ := gives.exists_reaches there
    refine ⟨start, given, left, reaches, part, part.boundTo, ?_⟩
    rintro callable args rfl
    exact part.calls

/-- The bag of the sample application shares the method `sum` with the root, but has another `n`.
Called as a property of the bag, the method adds to the bag's. -/
theorem receiver_of_gives_bag :
    let context : Context := ⟨Sample.start.1, 1⟩
    let sum := get (.reference "bag") (.literal (.string "sum"))
    let five := Command.literal (.number (.int 5))
    ∃ after last, sum.Gives context Sample.start.2.2 ⟨.host ⟨2⟩, .function ⟨11⟩⟩ after ∧
      InTurn context [five] after [⟨Sample.start.1, .ofInt 5⟩] last ∧
      BoundTo context Sample.start.2.2 sum (.host ⟨2⟩) ∧
      ((Value.function ⟨11⟩).call (.host ⟨2⟩) [.ofInt 5]).run last =
        (ObjectModel.call Sample.Method.sum (.host ⟨2⟩) [.ofInt 5] : Sample.Run Value).run last ∧
      (((call sum [five]).evaluate context).run Sample.start.2.2).1 =
        .ok ⟨Sample.start.1, .ofInt 105⟩ := by
  intro context sum five
  have property : ((sum.evaluate context).run Sample.start.2.2).1 =
      .ok ⟨.host ⟨2⟩, .function ⟨11⟩⟩ := by decide +kernel
  have gives := Eval.run_of_fst property
  have argument : ((five.evaluate context).run
      ((sum.evaluate context).run Sample.start.2.2).2).1 = .ok ⟨Sample.start.1, .ofInt 5⟩ := by
    decide +kernel
  have turn := InTurn.cons (Eval.run_of_fst argument) (.nil _)
  obtain ⟨bound, calls, -⟩ := receiver_of_gives gives
  obtain ⟨-, native⟩ := calls _ _ _ _ rfl turn
  refine ⟨_, _, gives, turn, bound, native "sum" .sum (by decide +kernel), ?_⟩
  decide +kernel

end Command

end RemoteAgent
