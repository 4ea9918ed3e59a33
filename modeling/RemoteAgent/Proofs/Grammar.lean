import RemoteAgent.Proofs.Faults

/-!
# The grammar of messages and commands

What the controller may send is a grammar on JSON values: an array whose first item is a tag, with
the operands that this tag asks for behind it, and whatever else after these.  Commands nest, and
the tags `G` and `C` mean one thing in a message and another in a command.

The grammar is written down here as what derives what (`Command.Derives`, `Message.Derives`), with
the tags spelled out, and beside it as what a node has to look like by itself, whatever the commands
below it are (`Command.wellFormed`, `Message.wellFormed`).  Reading *recognizes* the grammar
(`Recognizes`): it accepts what derives a result and returns this result, which is the only one, and
it fails exactly where something is misformed, be it as deep in the tree as it likes.

What derives a command is read as this command by induction on the derivation.  The other way round
the induction is on the tree (`Command.induction_children`): a node is read if it is well formed and
the commands right below it are read.

## Main definitions

* `Recognizes`: what it means that reading accepts exactly a grammar.
* `Command.Derives`, `Message.Derives`: the grammar.
* `Command.IsMisformed`, `Message.IsMisformed`: something in a tree is wrong.
-/

namespace RemoteAgent

/-! ## Operands -/

/-- What a depth operand derives: nothing, if it is absent or null, and else what its number gives.
-/
inductive DerivesDepth : List Json → Option Int → Prop where
  | absent : DerivesDepth [] none
  | null {rest : List Json} : DerivesDepth (.null :: rest) none
  | number {value : Number} {rest : List Json} :
      DerivesDepth (.number value :: rest) (depthOfNumber value)

theorem exists_of_textOperand {tag : String} {operands : List Json} {text : String}
    (read : textOperand tag operands 0 = .ok text) : ∃ rest, operands = .string text :: rest := by
  cases operands with
  | nil => cases read
  | cons first rest =>
      cases first with
      | string other =>
          cases read
          exact ⟨rest, rfl⟩
      | _ => cases read

/-- A depth operand is read as what the operands from its position on derive. -/
theorem depthOperand_eq_ok {tag : String} {operands : List Json} {position : Nat}
    {depth : Option Int} : depthOperand tag operands position = .ok depth ↔
      DerivesDepth (operands.drop position) depth := by
  have first : operands[position]? = (operands.drop position)[0]? := by
    rw [List.getElem?_drop, Nat.add_zero]
  unfold depthOperand
  rw [first]
  generalize operands.drop position = rest
  constructor
  · intro read
    cases rest with
    | nil =>
        cases read
        exact .absent
    | cons head rest =>
        cases head with
        | null =>
            cases read
            exact .null
        | number value =>
            cases read
            exact .number
        | _ => cases read
  · intro derives
    cases derives <;> rfl

/-! ## Recognition -/

/-- Reading accepts what a grammar derives, and fails at whatever it calls misformed. -/
structure Recognizes {α : Type} (parse : Json → Except ParseError α) (derives : Json → α → Prop)
    (misformed : Json → Prop) : Prop where
  /-- A result is returned exactly if it is derived. -/
  accepts : ∀ json result, parse json = .ok result ↔ derives json result
  /-- At most one result is derived. -/
  unambiguous : ∀ json result other, derives json result → derives json other → result = other
  /-- Reading fails exactly if something is misformed. -/
  rejects : ∀ json, (∃ error, parse json = .error error) ↔ misformed json

/-! ## Commands -/

namespace Command

mutual

/-- The commands of the grammar. -/
inductive Derives : Json → Command → Prop where
  | literal {value : Json} {rest : List Json} :
      Derives (.array (.string "L" :: value :: rest)) (.literal value)
  | bytes {hex : String} {rest : List Json} :
      Derives (.array (.string "B" :: .string hex :: rest)) (.bytes hex)
  | map {fields : List (String × Json)} {entries : List (String × Command)} {rest : List Json} :
      DerivesFields fields entries →
      Derives (.array (.string "M" :: .object fields :: rest)) (.map entries)
  | sequence {nodes : List Json} {items : List Command} {rest : List Json} :
      DerivesItems nodes items →
      Derives (.array (.string "SQ" :: .array nodes :: rest)) (.sequence items)
  | reference {id : String} {rest : List Json} :
      Derives (.array (.string "R" :: .string id :: rest)) (.reference id)
  | get {first second : Json} {target index : Command} {rest : List Json} :
      Derives first target → Derives second index →
      Derives (.array (.string "G" :: first :: second :: rest)) (.get target index)
  | call {first : Json} {callable : Command} {rest : List Json} {args : List Command} :
      Derives first callable → DerivesArgs rest args →
      Derives (.array (.string "C" :: first :: rest)) (.call callable args)
  | callback {id : String} {rest : List Json} {depth : Option Int} :
      DerivesDepth rest depth →
      Derives (.array (.string "CB" :: .string id :: rest)) (.callback id depth)
  | set {first second third : Json} {target index value : Command} {rest : List Json} :
      Derives first target → Derives second index → Derives third value →
      Derives (.array (.string "S" :: first :: second :: third :: rest)) (.set target index value)

/-- The arguments of a call: none, if they are absent or null. -/
inductive DerivesArgs : List Json → List Command → Prop where
  | absent : DerivesArgs [] []
  | null {rest : List Json} : DerivesArgs (.null :: rest) []
  | list {nodes : List Json} {args : List Command} {rest : List Json} :
      DerivesItems nodes args → DerivesArgs (.array nodes :: rest) args

/-- Some commands, one after the other. -/
inductive DerivesItems : List Json → List Command → Prop where
  | nil : DerivesItems [] []
  | cons {node : Json} {item : Command} {nodes : List Json} {items : List Command} :
      Derives node item → DerivesItems nodes items → DerivesItems (node :: nodes) (item :: items)

/-- Some commands with their names. -/
inductive DerivesFields : List (String × Json) → List (String × Command) → Prop where
  | nil : DerivesFields [] []
  | cons {name : String} {node : Json} {item : Command} {fields : List (String × Json)}
      {entries : List (String × Command)} :
      Derives node item → DerivesFields fields entries →
      DerivesFields ((name, node) :: fields) ((name, item) :: entries)

end

/-! ### What is derived is read -/

/-- A node with a known tag is read as its operands are. -/
theorem parse_tagged (tag : Tag) (operands : List Json) :
    parse (.array (.string tag.text :: operands)) = parseOperands tag operands := by
  rw [parse]
  cases tag <;> rfl

mutual

theorem parse_of_derives {json : Json} {command : Command} (derives : Derives json command) :
    parse json = .ok command := by
  cases derives with
  | literal => exact parse_tagged .literal _
  | bytes => exact parse_tagged .bytes _
  | map entries =>
    refine (parse_tagged .map _).trans ?_
    simp only [parseOperands, parseFields_of_derives entries, bind, Except.bind, pure, Except.pure]
  | sequence items =>
    refine (parse_tagged .sequence _).trans ?_
    simp only [parseOperands, parseItems_of_derives items, bind, Except.bind, pure, Except.pure]
  | reference => exact parse_tagged .reference _
  | get target index =>
    refine (parse_tagged .get _).trans ?_
    simp only [parseOperands, parse_of_derives target, parse_of_derives index, bind, Except.bind,
      pure, Except.pure]
  | call callable args =>
    refine (parse_tagged .call _).trans ?_
    cases args with
    | absent =>
      simp only [parseOperands, parse_of_derives callable, bind, Except.bind, pure, Except.pure]
    | null =>
      simp only [parseOperands, parse_of_derives callable, bind, Except.bind, pure, Except.pure]
    | list items =>
      simp only [parseOperands, parse_of_derives callable, parseItems_of_derives items, bind,
        Except.bind, pure, Except.pure]
  | @callback id rest depth derives =>
    refine (parse_tagged .callback _).trans ?_
    have read : depthOperand Tag.callback.text (.string id :: rest) 1 = .ok depth :=
      depthOperand_eq_ok.mpr derives
    simp only [parseOperands, read]
    rfl
  | set target index value =>
    refine (parse_tagged .set _).trans ?_
    simp only [parseOperands, parse_of_derives target, parse_of_derives index,
      parse_of_derives value, bind, Except.bind, pure, Except.pure]

theorem parseItems_of_derives {nodes : List Json} {items : List Command}
    (derives : DerivesItems nodes items) : parseItems nodes = .ok items := by
  cases derives with
  | nil => rfl
  | cons item rest =>
    simp only [parseItems, parse_of_derives item, parseItems_of_derives rest, bind, Except.bind,
      pure, Except.pure]

theorem parseFields_of_derives {fields : List (String × Json)} {entries : List (String × Command)}
    (derives : DerivesFields fields entries) : parseFields fields = .ok entries := by
  cases derives with
  | nil => rfl
  | cons item rest =>
    simp only [parseFields, parse_of_derives item, parseFields_of_derives rest, bind, Except.bind,
      pure, Except.pure]

end

/-! ### What is read is derived -/

theorem text_of_ofText {text : String} {tag : Tag} (known : Tag.ofText? text = some tag) :
    text = tag.text := by
  have found := List.find?_some known
  exact (of_decide_eq_true found).symm

theorem sizeOf_lt_of_mem_fields {fields : List (String × Json)} {node : Json}
    (mem : node ∈ fields.map Prod.snd) : sizeOf node < sizeOf fields := by
  obtain ⟨⟨name, other⟩, found, rfl⟩ := List.mem_map.mp mem
  have smaller := List.sizeOf_lt_of_mem found
  rw [Prod.mk.sizeOf_spec] at smaller
  dsimp only
  omega

theorem sizeOf_lt_of_mem_commandOperands {tag : Tag} {operands : List Json} {child : Json}
    (mem : child ∈ commandOperands tag operands) : sizeOf child < sizeOf operands := by
  unfold commandOperands at mem
  split at mem
  · have smaller := sizeOf_lt_of_mem_fields mem
    simp only [List.cons.sizeOf_spec, Json.object.sizeOf_spec]
    omega
  · have smaller := List.sizeOf_lt_of_mem mem
    simp only [List.cons.sizeOf_spec, Json.array.sizeOf_spec]
    omega
  · exact List.sizeOf_lt_of_mem (List.mem_of_mem_take mem)
  · rcases List.mem_cons.mp mem with rfl | mem
    · exact List.sizeOf_lt_of_mem List.mem_cons_self
    · have smaller := List.sizeOf_lt_of_mem mem
      simp only [List.cons.sizeOf_spec, Json.array.sizeOf_spec]
      omega
  · exact List.sizeOf_lt_of_mem (List.mem_of_mem_take mem)
  · exact List.sizeOf_lt_of_mem (List.mem_of_mem_take mem)
  · cases mem

theorem sizeOf_lt_of_mem_children {node child : Json} (mem : child ∈ children node) :
    sizeOf child < sizeOf node := by
  unfold children at mem
  split at mem
  case h_2 => cases mem
  case h_1 text operands =>
    cases known : Tag.ofText? text with
    | none =>
        rw [known] at mem
        cases mem
    | some tag =>
        rw [known] at mem
        have smaller := sizeOf_lt_of_mem_commandOperands mem
        simp only [Json.array.sizeOf_spec, List.cons.sizeOf_spec]
        omega

/-- What holds of a node if it holds of the commands right below it holds of every node. -/
theorem induction_children {motive : Json → Prop}
    (step : ∀ node, (∀ child ∈ children node, motive child) → motive node) (node : Json) :
    motive node :=
  step node fun child _ => induction_children step child
termination_by sizeOf node
decreasing_by exact sizeOf_lt_of_mem_children ‹_›

theorem children_tagged (tag : Tag) (operands : List Json) :
    children (.array (.string tag.text :: operands)) = commandOperands tag operands := by
  cases tag <;> rfl

theorem derivesItems_of_parse {nodes : List Json} {items : List Command}
    (sound : ∀ node ∈ nodes, ∀ command, parse node = .ok command → Derives node command)
    (read : parseItems nodes = .ok items) : DerivesItems nodes items := by
  induction nodes generalizing items with
  | nil =>
      cases read
      exact .nil
  | cons node nodes ih =>
      rw [parseItems] at read
      obtain ⟨item, readItem, read⟩ := exists_of_bind read
      obtain ⟨rest, readRest, read⟩ := exists_of_bind read
      cases read
      exact .cons (sound node List.mem_cons_self item readItem)
        (ih (fun other mem => sound other (List.mem_cons_of_mem _ mem)) readRest)

theorem derivesFields_of_parse {fields : List (String × Json)} {entries : List (String × Command)}
    (sound : ∀ node ∈ fields.map Prod.snd, ∀ command,
      parse node = .ok command → Derives node command)
    (read : parseFields fields = .ok entries) : DerivesFields fields entries := by
  induction fields generalizing entries with
  | nil =>
      cases read
      exact .nil
  | cons field fields ih =>
      obtain ⟨name, node⟩ := field
      rw [parseFields] at read
      obtain ⟨item, readItem, read⟩ := exists_of_bind read
      obtain ⟨rest, readRest, read⟩ := exists_of_bind read
      cases read
      exact .cons (sound node List.mem_cons_self item readItem)
        (ih (fun other mem => sound other (List.mem_cons_of_mem _ mem)) readRest)

/-- What some operands are read as is derived, if so it is for the commands among them. -/
theorem derives_of_parseOperands {tag : Tag} {operands : List Json} {command : Command}
    (sound : ∀ child ∈ commandOperands tag operands, ∀ command,
      parse child = .ok command → Derives child command)
    (read : parseOperands tag operands = .ok command) :
    Derives (.array (.string tag.text :: operands)) command := by
  cases tag with
  | literal =>
      rw [parseOperands] at read
      obtain ⟨value, found, read⟩ := exists_of_bind read
      cases operands with
      | nil => cases found
      | cons first rest =>
          cases found
          cases read
          exact .literal
  | bytes =>
      rw [parseOperands] at read
      obtain ⟨hex, found, read⟩ := exists_of_bind read
      obtain ⟨rest, rfl⟩ := exists_of_textOperand found
      cases read
      exact .bytes
  | reference =>
      rw [parseOperands] at read
      obtain ⟨id, found, read⟩ := exists_of_bind read
      obtain ⟨rest, rfl⟩ := exists_of_textOperand found
      cases read
      exact .reference
  | callback =>
      rw [parseOperands] at read
      obtain ⟨id, found, read⟩ := exists_of_bind read
      obtain ⟨rest, rfl⟩ := exists_of_textOperand found
      obtain ⟨depth, readDepth, read⟩ := exists_of_bind read
      obtain rfl := Except.ok.inj read
      exact .callback (depthOperand_eq_ok.mp readDepth)
  | map =>
      unfold parseOperands at read
      split at read
      case h_1 fields rest =>
        obtain ⟨entries, readFields, read⟩ := exists_of_bind read
        cases read
        exact .map (derivesFields_of_parse sound readFields)
      case h_2 => cases read
      case h_3 => cases read
  | sequence =>
      unfold parseOperands at read
      split at read
      case h_1 nodes rest =>
        obtain ⟨items, readItems, read⟩ := exists_of_bind read
        cases read
        exact .sequence (derivesItems_of_parse sound readItems)
      case h_2 => cases read
      case h_3 => cases read
  | get =>
      unfold parseOperands at read
      split at read
      · cases read
      · obtain ⟨target, readTarget, read⟩ := exists_of_bind read
        split at read
        · cases read
        · obtain ⟨index, readIndex, read⟩ := exists_of_bind read
          cases read
          exact .get (sound _ (by simp [commandOperands]) _ readTarget)
            (sound _ (by simp [commandOperands]) _ readIndex)
  | call =>
      unfold parseOperands at read
      split at read
      · cases read
      · next callable rest =>
          obtain ⟨callee, readCallable, read⟩ := exists_of_bind read
          have derives : Derives callable callee := by
            refine sound callable ?_ callee readCallable
            rcases rest with _ | ⟨_ | _ | _ | _ | _ | _, _⟩ <;> simp [commandOperands]
          split at read
          · cases read
            exact .call derives .absent
          · cases read
            exact .call derives .null
          · obtain ⟨args, readArgs, read⟩ := exists_of_bind read
            cases read
            exact .call derives (.list (derivesItems_of_parse
              (fun node mem => sound node (List.mem_cons_of_mem _ mem)) readArgs))
          · cases read
  | set =>
      unfold parseOperands at read
      split at read
      · cases read
      · obtain ⟨target, readTarget, read⟩ := exists_of_bind read
        split at read
        · cases read
        · obtain ⟨index, readIndex, read⟩ := exists_of_bind read
          split at read
          · cases read
          · obtain ⟨value, readValue, read⟩ := exists_of_bind read
            cases read
            exact .set (sound _ (by simp [commandOperands]) _ readTarget)
              (sound _ (by simp [commandOperands]) _ readIndex)
              (sound _ (by simp [commandOperands]) _ readValue)

/-- **What a command is read from derives it.** -/
theorem derives_of_parse {json : Json} {command : Command} (read : parse json = .ok command) :
    Derives json command := by
  induction json using induction_children generalizing command with
  | step node ih =>
      unfold parse at read
      split at read
      case h_2 text operands =>
        cases known : Tag.ofText? text with
        | none =>
            rw [known] at read
            cases read
        | some tag =>
            rw [known] at read
            obtain rfl := text_of_ofText known
            rw [children_tagged] at ih
            exact derives_of_parseOperands (fun child mem _ => ih child mem) read
      all_goals cases read

/-! ### What is misformed -/

/-- Whether some operands are what a tag asks for, whatever the commands among them are. -/
def fits : Tag → List Json → Bool
  | .literal, _ :: _ => true
  | .bytes, .string _ :: _ => true
  | .map, .object _ :: _ => true
  | .sequence, .array _ :: _ => true
  | .reference, .string _ :: _ => true
  | .get, _ :: _ :: _ => true
  | .call, [_] => true
  | .call, _ :: .null :: _ => true
  | .call, _ :: .array _ :: _ => true
  | .callback, [.string _] => true
  | .callback, .string _ :: .null :: _ => true
  | .callback, .string _ :: .number _ :: _ => true
  | .set, _ :: _ :: _ :: _ => true
  | _, _ => false

/-- Whether a node is right by itself: an array, with a tag that is known, and with operands that
fit the tag. -/
def wellFormed : Json → Bool
  | .array (.string text :: operands) =>
    ((Tag.ofText? text).map fun tag => fits tag operands).getD false
  | _ => false

/-- A node anywhere in the tree is wrong. -/
def IsMisformed (json : Json) : Prop :=
  ∃ node, Within node json ∧ wellFormed node = false

theorem Derives.wellFormed {json : Json} {command : Command} (derives : Derives json command) :
    wellFormed json = true := by
  cases derives with
  | call _ args => cases args <;> rfl
  | callback depth => cases depth <;> rfl
  | _ => rfl

theorem exists_derivesItems {nodes : List Json}
    (each : ∀ node ∈ nodes, ∃ command, Derives node command) :
    ∃ items, DerivesItems nodes items := by
  induction nodes with
  | nil => exact ⟨[], .nil⟩
  | cons node nodes ih =>
      obtain ⟨item, derives⟩ := each node List.mem_cons_self
      obtain ⟨items, rest⟩ := ih fun other mem => each other (List.mem_cons_of_mem _ mem)
      exact ⟨item :: items, .cons derives rest⟩

theorem exists_derivesFields {fields : List (String × Json)}
    (each : ∀ node ∈ fields.map Prod.snd, ∃ command, Derives node command) :
    ∃ entries, DerivesFields fields entries := by
  induction fields with
  | nil => exact ⟨[], .nil⟩
  | cons field fields ih =>
      obtain ⟨name, node⟩ := field
      obtain ⟨item, derives⟩ := each node List.mem_cons_self
      obtain ⟨entries, rest⟩ := ih fun other mem => each other (List.mem_cons_of_mem _ mem)
      exact ⟨(name, item) :: entries, .cons derives rest⟩

/-- Operands that fit their tag derive a command, if the commands among them do. -/
theorem exists_derives_of_fits {tag : Tag} {operands : List Json} (fit : fits tag operands = true)
    (each : ∀ child ∈ commandOperands tag operands, ∃ command, Derives child command) :
    ∃ command, Derives (.array (.string tag.text :: operands)) command := by
  unfold fits at fit
  split at fit
  · exact ⟨_, .literal⟩
  · exact ⟨_, .bytes⟩
  · obtain ⟨entries, derives⟩ := exists_derivesFields each
    exact ⟨_, .map derives⟩
  · obtain ⟨items, derives⟩ := exists_derivesItems each
    exact ⟨_, .sequence derives⟩
  · exact ⟨_, .reference⟩
  · next first second _ =>
      obtain ⟨target, derivesTarget⟩ := each first (by simp [commandOperands])
      obtain ⟨index, derivesIndex⟩ := each second (by simp [commandOperands])
      exact ⟨_, .get derivesTarget derivesIndex⟩
  · next first =>
      obtain ⟨callable, derives⟩ := each first (by simp [commandOperands])
      exact ⟨_, .call derives .absent⟩
  · next first _ =>
      obtain ⟨callable, derives⟩ := each first (by simp [commandOperands])
      exact ⟨_, .call derives .null⟩
  · next first nodes _ =>
      obtain ⟨callable, derives⟩ := each first (by simp [commandOperands])
      obtain ⟨args, derivesArgs⟩ := exists_derivesItems fun node mem =>
        each node (List.mem_cons_of_mem first mem)
      exact ⟨_, .call derives (.list derivesArgs)⟩
  · exact ⟨_, .callback .absent⟩
  · exact ⟨_, .callback .null⟩
  · exact ⟨_, .callback .number⟩
  · next first second third _ =>
      obtain ⟨target, derivesTarget⟩ := each first (by simp [commandOperands])
      obtain ⟨index, derivesIndex⟩ := each second (by simp [commandOperands])
      obtain ⟨value, derivesValue⟩ := each third (by simp [commandOperands])
      exact ⟨_, .set derivesTarget derivesIndex derivesValue⟩
  · cases fit

/-- A tree without a wrong node derives a command. -/
theorem exists_derives_of_wellFormed {json : Json}
    (right : ∀ node, Within node json → wellFormed node = true) :
    ∃ command, Derives json command := by
  induction json using induction_children with
  | step node ih =>
      have each : ∀ child ∈ children node, ∃ command, Derives child command :=
        fun child mem => ih child mem fun inner within => right inner (.child mem within)
      have formed := right node .here
      unfold wellFormed at formed
      split at formed
      case h_2 => cases formed
      case h_1 text operands =>
        cases known : Tag.ofText? text with
        | none =>
            rw [known] at formed
            cases formed
        | some tag =>
            rw [known] at formed
            obtain rfl := text_of_ofText known
            rw [children_tagged] at each
            exact exists_derives_of_fits formed each

/-- **Reading a command fails exactly if a node anywhere in its tree is wrong.** -/
theorem exists_error_iff (json : Json) :
    (∃ error, parse json = .error error) ↔ IsMisformed json := by
  constructor
  · rintro ⟨error, failed⟩
    by_contra right
    have formed : ∀ node, Within node json → wellFormed node = true := fun node within =>
      (Bool.not_eq_false _).mp fun wrong => right ⟨node, within, wrong⟩
    obtain ⟨command, derives⟩ := exists_derives_of_wellFormed formed
    cases failed.symm.trans (parse_of_derives derives)
  · rintro ⟨node, within, wrong⟩
    cases read : parse json with
    | error error => exact ⟨error, rfl⟩
    | ok command =>
        obtain ⟨inner, readNode⟩ := exists_parse_of_within within read
        cases wrong.symm.trans (derives_of_parse readNode).wellFormed

end Command

/-! ## Messages -/

namespace Message

/-- The messages of the grammar. -/
inductive Derives : Json → Message → Prop where
  | exec {node : Json} {command : Command} {rest : List Json} :
      Command.Derives node command →
      Derives (.array (.string "E" :: node :: rest)) (.exec command)
  | get {id : String} {node : Json} {command : Command} {rest : List Json} {depth : Option Int} :
      Command.Derives node command → DerivesDepth rest depth →
      Derives (.array (.string "G" :: .string id :: node :: rest)) (.get id command depth)
  | connect {id : String} {node : Json} {command : Command} {rest : List Json} :
      Command.Derives node command →
      Derives (.array (.string "C" :: .string id :: node :: rest)) (.connect id command)
  | disconnect {id : String} {rest : List Json} :
      Derives (.array (.string "D" :: .string id :: rest)) (.disconnect id)
  | keepAlive {rest : List Json} : Derives (.array (.string "K" :: rest)) .keepAlive

/-- Whether some operands are what a tag asks for, whatever the command among them is. -/
def fits : Tag → List Json → Bool
  | .exec, _ :: _ => true
  | .get, [.string _, _] => true
  | .get, .string _ :: _ :: .null :: _ => true
  | .get, .string _ :: _ :: .number _ :: _ => true
  | .connect, .string _ :: _ :: _ => true
  | .disconnect, .string _ :: _ => true
  | .keepAlive, _ => true
  | _, _ => false

/-- Whether a message is right by itself, whatever its command is. -/
def wellFormed : Json → Bool
  | .array (.string text :: operands) =>
    ((Tag.ofText? text).map fun tag => fits tag operands).getD false
  | _ => false

/-- The message is wrong by itself, or its command is. -/
def IsMisformed (json : Json) : Prop :=
  wellFormed json = false ∨ ∃ tree, tree? json = some tree ∧ Command.IsMisformed tree

/-- A message with a known tag is read as its operands are. -/
theorem parse_tagged (tag : Tag) (operands : List Json) :
    parse (.array (.string tag.text :: operands)) = parseOperands tag operands := by
  cases tag <;> rfl

theorem text_of_ofText {text : String} {tag : Tag} (known : Tag.ofText? text = some tag) :
    text = tag.text := by
  have found := List.find?_some known
  exact (of_decide_eq_true found).symm

/-- **What derives a message is read as this message.** -/
theorem parse_of_derives {json : Json} {message : Message} (derives : Derives json message) :
    parse json = .ok message := by
  cases derives with
  | exec command =>
      refine (parse_tagged .exec _).trans ?_
      simp only [parseOperands, commandOperand, operand, List.getElem?_cons_zero,
        Command.parse_of_derives command, bind, Except.bind, pure, Except.pure]
  | @get id node command rest depth derives derivesDepth =>
      refine (parse_tagged .get _).trans ?_
      have read : depthOperand Tag.get.text (.string id :: node :: rest) 2 = .ok depth :=
        depthOperand_eq_ok.mpr derivesDepth
      simp only [parseOperands, commandOperand, textOperand, operand, List.getElem?_cons_zero,
        List.getElem?_cons_succ, Command.parse_of_derives derives, read, bind, Except.bind, pure,
        Except.pure]
  | connect command =>
      refine (parse_tagged .connect _).trans ?_
      simp only [parseOperands, commandOperand, textOperand, operand, List.getElem?_cons_zero,
        List.getElem?_cons_succ, Command.parse_of_derives command, bind, Except.bind, pure,
        Except.pure]
  | disconnect => exact parse_tagged .disconnect _
  | keepAlive => exact parse_tagged .keepAlive _

/-- What a command operand is read from stands at its position and derives the command. -/
theorem exists_of_commandOperand {tag : String} {operands : List Json} {position : Nat}
    {command : Command} (read : commandOperand tag operands position = .ok command) :
    ∃ node, operands[position]? = some node ∧ Command.Derives node command := by
  obtain ⟨node, found, read⟩ := Command.exists_of_bind read
  unfold operand at found
  split at found
  case h_1 other present =>
    cases found
    exact ⟨_, present, Command.derives_of_parse read⟩
  case h_2 => cases found

/-- **What a message is read from derives it.** -/
theorem derives_of_parse {json : Json} {message : Message} (read : parse json = .ok message) :
    Derives json message := by
  unfold parse at read
  split at read
  case h_2 text operands =>
    split at read
    case h_2 => cases read
    case h_1 tag known =>
      obtain rfl := text_of_ofText known
      cases tag with
      | exec =>
          obtain ⟨command, readCommand, read⟩ := Command.exists_of_bind read
          obtain ⟨node, present, derives⟩ := exists_of_commandOperand readCommand
          obtain rfl := Except.ok.inj read
          cases operands with
          | nil => cases present
          | cons first rest =>
              cases present
              exact .exec derives
      | get =>
          obtain ⟨id, readId, read⟩ := Command.exists_of_bind read
          obtain ⟨command, readCommand, read⟩ := Command.exists_of_bind read
          obtain ⟨depth, readDepth, read⟩ := Command.exists_of_bind read
          obtain ⟨node, present, derives⟩ := exists_of_commandOperand readCommand
          obtain rfl := Except.ok.inj read
          obtain ⟨rest, rfl⟩ := exists_of_textOperand readId
          cases rest with
          | nil => cases present
          | cons first rest =>
              cases present
              exact .get derives (depthOperand_eq_ok.mp readDepth)
      | connect =>
          obtain ⟨id, readId, read⟩ := Command.exists_of_bind read
          obtain ⟨command, readCommand, read⟩ := Command.exists_of_bind read
          obtain ⟨node, present, derives⟩ := exists_of_commandOperand readCommand
          obtain rfl := Except.ok.inj read
          obtain ⟨rest, rfl⟩ := exists_of_textOperand readId
          cases rest with
          | nil => cases present
          | cons first rest =>
              cases present
              exact .connect derives
      | disconnect =>
          obtain ⟨id, readId, read⟩ := Command.exists_of_bind read
          obtain rfl := Except.ok.inj read
          obtain ⟨rest, rfl⟩ := exists_of_textOperand readId
          exact .disconnect
      | keepAlive =>
          obtain rfl := Except.ok.inj read
          exact .keepAlive
  all_goals cases read

theorem Derives.wellFormed {json : Json} {message : Message} (derives : Derives json message) :
    wellFormed json = true := by
  cases derives with
  | get _ depth => cases depth <;> rfl
  | _ => rfl

/-- Operands that fit their tag derive a message, if its command derives one. -/
theorem exists_derives_of_fits {tag : Tag} {operands : List Json} (fit : fits tag operands = true)
    (each : ∀ tree, tree? (.array (.string tag.text :: operands)) = some tree →
      ∃ command, Command.Derives tree command) :
    ∃ message, Derives (.array (.string tag.text :: operands)) message := by
  unfold fits at fit
  split at fit
  · obtain ⟨command, derives⟩ := each _ rfl
    exact ⟨_, .exec derives⟩
  · obtain ⟨command, derives⟩ := each _ rfl
    exact ⟨_, .get derives .absent⟩
  · obtain ⟨command, derives⟩ := each _ rfl
    exact ⟨_, .get derives .null⟩
  · obtain ⟨command, derives⟩ := each _ rfl
    exact ⟨_, .get derives .number⟩
  · obtain ⟨command, derives⟩ := each _ rfl
    exact ⟨_, .connect derives⟩
  · exact ⟨_, .disconnect⟩
  · exact ⟨_, .keepAlive⟩
  · cases fit

/-- A message that is right by itself, and whose command is not misformed, derives one. -/
theorem exists_derives_of_not_isMisformed {json : Json} (right : ¬ IsMisformed json) :
    ∃ message, Derives json message := by
  have each : ∀ tree, tree? json = some tree → ∃ command, Command.Derives tree command := by
    intro tree found
    refine Command.exists_derives_of_wellFormed fun node within => ?_
    exact (Bool.not_eq_false _).mp fun wrong => right (.inr ⟨tree, found, node, within, wrong⟩)
  have formed : wellFormed json = true := (Bool.not_eq_false _).mp fun wrong => right (.inl wrong)
  unfold wellFormed at formed
  split at formed
  case h_2 => cases formed
  case h_1 text operands =>
    cases known : Tag.ofText? text with
    | none =>
        rw [known] at formed
        cases formed
    | some tag =>
        rw [known] at formed
        obtain rfl := text_of_ofText known
        exact exists_derives_of_fits formed each

/-- **Reading a message fails exactly if the message or a node of its command is wrong.** -/
theorem exists_error_iff (json : Json) :
    (∃ error, parse json = .error error) ↔ IsMisformed json := by
  constructor
  · rintro ⟨error, failed⟩
    by_contra right
    obtain ⟨message, derives⟩ := exists_derives_of_not_isMisformed right
    cases failed.symm.trans (parse_of_derives derives)
  · intro wrong
    cases read : parse json with
    | error error => exact ⟨error, rfl⟩
    | ok message =>
        rcases wrong with wrong | ⟨tree, found, misformed⟩
        · cases wrong.symm.trans (derives_of_parse read).wellFormed
        · obtain ⟨command, readTree⟩ := exists_parse_of_tree read found
          obtain ⟨error, failed⟩ := (Command.exists_error_iff tree).mpr misformed
          cases failed.symm.trans readTree

end Message

/-! ## Reading recognizes the grammar -/

/-- **Reading accepts exactly the grammar**: a JSON value is read as a command, or as a message, if
and only if it derives it, it derives at most one, and it is not read if and only if something in
it is wrong: it or a node below is no array, is empty, has no tag or none that is known, or has
operands that do not fit the tag. -/
theorem parse_recognizes :
    Recognizes Command.parse Command.Derives Command.IsMisformed ∧
      Recognizes Message.parse Message.Derives Message.IsMisformed where
  left :=
    { accepts := fun _ _ => ⟨Command.derives_of_parse, Command.parse_of_derives⟩
      unambiguous := fun _ _ _ first second => Except.ok.inj
        ((Command.parse_of_derives first).symm.trans (Command.parse_of_derives second))
      rejects := Command.exists_error_iff }
  right :=
    { accepts := fun _ _ => ⟨Message.derives_of_parse, Message.parse_of_derives⟩
      unambiguous := fun _ _ _ first second => Except.ok.inj
        ((Message.parse_of_derives first).symm.trans (Message.parse_of_derives second))
      rejects := Message.exists_error_iff }

end RemoteAgent
