import RemoteAgent.Proofs.Assignment

/-!
# Numbers and numerals as keys

A key comes as a number or as a text, and the two become different keys: `7` is a position and
`"7"` a name.  Nothing that holds properties asks which of the two it was given.  A sequence takes
the position that a key writes, an object or a bag the name that it prints as, and so two keys that
have the same views name the same slot of everything (`PropertyKey.Synonym`).

A position and a name are synonyms exactly if the name is the decimal numeral of the position and
the position fits into 64 bits (`PropertyKey.synonym_index_name_iff`): this is printing and parsing
being inverse to each other.  A numeral with a plus or with leading zeros writes the same position,
but it is another name.

Only an object of the application with rules of its own sees the key itself, and may tell the two
apart.

## Main definitions

* `PropertyKey.Synonym`: two keys that have the same views.
* `Value.TakesViews`: a target that looks at the views of a key only.

## Main results

* `Value.run_getIndex_of_synonym`, `Value.run_setIndex_of_synonym`: synonyms may be exchanged.
* `Value.numeral_names_slot_of_number`: a number and its numeral name one slot.
-/

namespace RemoteAgent

/-! ## Views of a key -/

namespace PropertyKey

/-- Two keys whose views are the same. -/
structure Synonym (key other : PropertyKey) : Prop where
  asIndex? : key.asIndex? = other.asIndex?
  asName : key.asName = other.asName
  isLength : key.isLength = other.isLength

variable {key other : PropertyKey}

theorem Synonym.refl (key : PropertyKey) : key.Synonym key := ⟨rfl, rfl, rfl⟩

/-- Keys that are synonyms without being the same are positions of a sequence. -/
theorem Synonym.eq_or_exists_position (synonym : key.Synonym other) :
    key = other ∨ ∃ position, key.asIndex? = some position ∧ other.asIndex? = some position := by
  cases key with
  | index position => exact .inr ⟨position, rfl, synonym.asIndex?.symm⟩
  | name text =>
      cases other with
      | index position => exact .inr ⟨position, synonym.asIndex?, rfl⟩
      | name name => exact .inl (congrArg PropertyKey.name synonym.asName)

/-! ### Numerals -/

theorem natOfDigits_toDigits (n : Nat) : natOfDigits (Nat.toDigits 10 n) = n := by
  have step : (fun n (c : Char) => n * 10 + (c.toNat - 48)) =
      fun n c => 10 * n + (c.toNat - '0'.toNat) := by
    funext n c
    rw [Nat.mul_comm]
    rfl
  rw [natOfDigits, step]
  exact Nat.ofDigitChars_ten_toDigits

theorem isDigit_of_mem_toString {n : Nat} {c : Char} (mem : c ∈ (toString n).toList) :
    c.isDigit = true := by
  rw [Nat.toString_eq_repr, Nat.toList_repr] at mem
  exact Nat.isDigit_of_mem_toDigits (by decide) (by decide) mem

theorem indexOfDigits?_toDigits {n : Nat} (small : n < indexBound) :
    indexOfDigits? (Nat.toDigits 10 n) = some n := by
  have digits : (Nat.toDigits 10 n).all Char.isDigit = true := by
    rw [List.all_eq_true]
    exact fun c mem => Nat.isDigit_of_mem_toDigits (by decide) (by decide) mem
  unfold indexOfDigits?
  rw [natOfDigits_toDigits, if_pos ⟨Nat.toDigits_ne_nil, digits, small⟩]

/-- **Parsing undoes printing**, up to the greatest index. -/
theorem indexOfText?_toString {n : Nat} (small : n < indexBound) :
    indexOfText? (toString n) = some n := by
  unfold indexOfText?
  split
  case h_1 digits shape =>
    have sign : ('+').isDigit = true := isDigit_of_mem_toString (n := n) (by rw [shape]; simp)
    exact absurd sign (by decide)
  case h_2 =>
    rw [Nat.toString_eq_repr, Nat.toList_repr]
    exact indexOfDigits?_toDigits small

theorem toString_ne_length (n : Nat) : toString n ≠ "length" := by
  intro same
  have digit : ('l').isDigit = true := isDigit_of_mem_toString (n := n) (by rw [same]; decide)
  exact absurd digit (by decide)

/-- No index is as great as that. -/
theorem lt_indexBound_of_indexOfText? {text : String} {n : Nat}
    (found : indexOfText? text = some n) : n < indexBound := by
  have digits : ∀ {digits : List Char}, indexOfDigits? digits = some n → n < indexBound := by
    intro digits found
    unfold indexOfDigits? at found
    split at found
    case isTrue right =>
      cases found
      exact right.2.2
    case isFalse => cases found
  unfold indexOfText? at found
  split at found
  · exact digits found
  · exact digits found

/-- **A position has one synonym among the names**, its decimal numeral, and one that does not fit
into 64 bits has none. -/
theorem synonym_index_name_iff {n : Nat} {text : String} :
    (index n).Synonym (name text) ↔ n < indexBound ∧ text = toString n := by
  constructor
  · intro synonym
    exact ⟨lt_indexBound_of_indexOfText? synonym.asIndex?.symm, synonym.asName.symm⟩
  · rintro ⟨small, rfl⟩
    exact
      { asIndex? := (indexOfText?_toString small).symm
        asName := rfl
        isLength := (decide_eq_false (toString_ne_length n)).symm }

/-- A plus makes another name of the same position. -/
example : (name "+7").asIndex? = (index 7).asIndex? ∧ ¬ (index 7).Synonym (name "+7") :=
  ⟨by decide, fun synonym => absurd (synonym_index_name_iff.mp synonym).2 (by decide)⟩

end PropertyKey

/-! ## Targets that look at views -/

variable {φ η : Type}

/-- A target that looks at the views of a key only: anything but an object with rules of its own. -/
def Value.TakesViews (heap : Heap φ η) (target : Value) : Prop :=
  ∀ h code, target = .host h → heap.host? h ≠ some (.custom code)

/-- Arrays, objects and bags do. -/
theorem Heap.Contains.takesViews {heap : Heap φ η} {target : Value} {contents : Contents}
    (here : heap.Contains target contents) : target.TakesViews heap := by
  rintro h code rfl custom
  cases here with
  | bag cell =>
      rw [cell] at custom
      cases custom

namespace Value

open PropertyKey (Synonym)

section Synonyms

variable {key other : PropertyKey} (synonym : key.Synonym other)

include synonym

theorem sequenceProperty_of_synonym (items : List Value) :
    sequenceProperty items key = sequenceProperty items other := by
  unfold sequenceProperty
  rw [synonym.isLength, synonym.asIndex?]

/-- An assignment to an array fails in the same way, too: its error shows the key only if that is
no position. -/
theorem assignItem_of_synonym (items : List Value) (value : Value) :
    assignItem items key value = assignItem items other value := by
  rcases synonym.eq_or_exists_position with rfl | ⟨position, here, there⟩
  · rfl
  · unfold assignItem
    rw [here, there]

variable [HostObjects φ η] {world : World φ η}

theorem run_hostProperty_of_synonym {h : Handle .host}
    (views : (host h).TakesViews world.heap) :
    (hostProperty h key).run world = (hostProperty h other).run world := by
  rw [run_hostProperty, run_hostProperty]
  split
  case h_1 => rw [synonym.asName]
  case h_2 code found => exact absurd found (views h code rfl)
  case h_3 => rfl

theorem run_setHostProperty_of_synonym {h : Handle .host}
    (views : (host h).TakesViews world.heap) (value : Value) :
    (setHostProperty h key value).run world = (setHostProperty h other value).run world := by
  rw [run_setHostProperty, run_setHostProperty]
  split
  case h_1 => rw [synonym.asName]
  case h_2 code found => exact absurd found (views h code rfl)
  case h_3 => rfl

variable {target index twin : Value} (named : index.toKey world.heap = .ok key)
  (twinNamed : twin.toKey world.heap = .ok other) (views : target.TakesViews world.heap)

include named twinNamed views

/-- **Synonyms read the same.** -/
theorem run_getIndex_of_synonym :
    (target.getIndex index).run world = (target.getIndex twin).run world := by
  refine (run_keyed index _ world).trans (Eq.trans ?_ (run_keyed twin _ world).symm)
  rw [named, twinNamed]
  have items := sequenceProperty_of_synonym synonym
  cases target with
  | array h =>
      dsimp only
      rw [items]
  | object h =>
      dsimp only
      rw [synonym.asName]
  | text content =>
      dsimp only
      rw [items]
  | bytes content =>
      dsimp only
      rw [items]
  | host h => exact run_hostProperty_of_synonym synonym views
  | _ => rfl

/-- **Synonyms assign the same**, and fail in the same way. -/
theorem run_setIndex_of_synonym (value : Value) :
    (target.setIndex index value).run world = (target.setIndex twin value).run world := by
  cases target with
  | array h =>
      rw [run_setIndex_array named, run_setIndex_array twinNamed, assignItem_of_synonym synonym]
  | object h =>
      rw [run_setIndex_object named, run_setIndex_object twinNamed, synonym.asName]
  | host h =>
      rw [run_setIndex_host named, run_setIndex_host twinNamed,
        run_setHostProperty_of_synonym synonym views]
  | _ =>
      refine (run_keyed index _ world).trans (Eq.trans ?_ (run_keyed twin _ world).symm)
      rw [named, twinNamed]

end Synonyms

/-- What was assigned under a key is read under its synonyms. -/
theorem run_getIndex_of_setIndex [HostObjects φ η] {target index twin value : Value}
    {contents : Contents} {key other : PropertyKey} {world after : World φ η}
    (here : world.heap.Contains target contents) (named : index.toKey world.heap = .ok key)
    (twinNamed : twin.toKey world.heap = .ok other) (synonym : key.Synonym other)
    (done : (target.setIndex index value).run world = (.ok (), after)) :
    (target.getIndex twin).run after = (.ok value, after) := by
  obtain ⟨found, foundNamed, assigned⟩ := assigned_of_setIndex here done
  rw [named] at foundNamed
  cases foundNamed
  refine assigned.same twin other twinNamed ?_
  cases contents with
  | sequence items =>
      obtain ⟨position, length, pointsAt, -⟩ := assigned.length items rfl
      exact ⟨position, pointsAt, synonym.asIndex?.symm.trans pointsAt⟩
  | record entries => exact synonym.asName

/-! ## Numbers and their numerals -/

variable [HostObjects φ η] {n : Nat}

/-- A number of 64 bits is a position as it stands. -/
theorem toKey_ofNat (small : n < PropertyKey.indexBound) (heap : Heap φ η) :
    (ofNat n).toKey heap = .ok (.index n) := by
  have inRange : (0 : Int) ≤ n ∧ (n : Int) < 18446744073709551616 := by
    unfold PropertyKey.indexBound at small
    omega
  show Except.ok (keyOfNumber (.int n)) = _
  rw [keyOfNumber, Number.toUInt64?, if_pos inRange]
  rfl

/-- **A number and its numeral name one slot.**  Take a number of 64 bits, the text that writes it
in decimal digits, and a target that is no object with rules of its own, such as an array, an
object, a bag of properties, a text or bytes.  Reading the target under the one and under the other
comes to the same.  Assigning under the one and under the other comes to the same, in the same
world or with the same error.  And what an array, an object or a bag was assigned under either of
the two is read under both. -/
theorem numeral_names_slot_of_number (small : n < PropertyKey.indexBound) (target : Value)
    (world : World φ η) (views : target.TakesViews world.heap) :
    let number : Value := .ofNat n
    let numeral : Value := .text (toString n)
    (target.getIndex number).run world = (target.getIndex numeral).run world ∧
      ∀ value,
        (target.setIndex number value).run world = (target.setIndex numeral value).run world ∧
          ∀ contents after, world.heap.Contains target contents →
            (target.setIndex number value).run world = (.ok (), after) →
              (target.getIndex number).run after = (.ok value, after) ∧
                (target.getIndex numeral).run after = (.ok value, after) := by
  intro number numeral
  have named : number.toKey world.heap = .ok (.index n) := toKey_ofNat small world.heap
  have numeralNamed : numeral.toKey world.heap = .ok (.name (toString n)) := rfl
  have synonym : (PropertyKey.index n).Synonym (.name (toString n)) :=
    PropertyKey.synonym_index_name_iff.mpr ⟨small, rfl⟩
  refine ⟨run_getIndex_of_synonym synonym named numeralNamed views, fun value => ?_⟩
  refine ⟨run_setIndex_of_synonym synonym named numeralNamed views value, ?_⟩
  intro contents after here done
  exact ⟨run_getIndex_of_setIndex here named named (.refl _) done,
    run_getIndex_of_setIndex here named numeralNamed synonym done⟩

/-- The greatest position, in a bag: what is stored under the number is read under the numeral.  An
array of three items is not extended so far, by the one as little as by the other. -/
theorem numeral_names_slot_of_number_greatest :
    let n := 18446744073709551615
    (∃ after,
      ((host ⟨2⟩).setIndex (.ofNat n) (.bool true)).run Sample.start.2.2 = (.ok (), after) ∧
        ((host ⟨2⟩).getIndex (.text "18446744073709551615")).run after =
          (.ok (.bool true), after)) ∧
      (((array ⟨2⟩).setIndex (.text "18446744073709551615") .null).run Sample.start.2.2).1 =
        .error (.notAssignable (.arrayGap 3 n)) := by
  intro n
  have small : n < PropertyKey.indexBound := by decide
  have numeral : toString n = "18446744073709551615" := by decide +kernel
  constructor
  · have cell : Sample.start.2.2.heap.host? ⟨2⟩ =
        some (.bag "" [("n", .ofNat 100), ("sum", .function ⟨11⟩)]) := by decide +kernel
    have here := Heap.Contains.bag cell
    have done : (((host ⟨2⟩).setIndex (.ofNat n) (.bool true)).run Sample.start.2.2).1 =
        .ok () := by decide +kernel
    obtain ⟨-, assigns⟩ :=
      numeral_names_slot_of_number small (host ⟨2⟩) Sample.start.2.2 here.takesViews
    obtain ⟨same, reads⟩ := assigns (.bool true)
    obtain ⟨-, read⟩ := reads _ _ here (Eval.run_of_fst done)
    rw [numeral] at read
    exact ⟨_, Eval.run_of_fst done, read⟩
  · obtain ⟨-, assigns⟩ :=
      numeral_names_slot_of_number small (array ⟨2⟩) Sample.start.2.2 nofun
    obtain ⟨same, -⟩ := assigns .null
    have failed : (((array ⟨2⟩).setIndex (.ofNat n) .null).run Sample.start.2.2).1 =
        .error (.notAssignable (.arrayGap 3 n)) := by decide +kernel
    rw [← numeral, ← same]
    exact failed

end Value

end RemoteAgent
