import Mathlib.Data.List.TakeWhile
import RemoteAgent.Connection

/-!
# The address in a URL

Two rules look at the URL of a controller, each in its own way.  The address is what stands behind
the scheme up to the first slash or question mark.  The reconnect id goes to the end of the URL,
behind a question mark or, if there is one anywhere in the URL already, behind an ampersand.

They agree because a question mark ends an address.  Whichever mark the id is put behind, there is a
question mark at it or in front of it, and the scheme and the address have none.  So the scheme and
the address that are found in the longer URL end before that mark
(`Address.isPrefix_of_append_mark`): the id neither adds to an address nor completes a scheme.

## Main definitions

* `Address.Parts`: a URL is made up of the scheme, an address and a rest.

## Main results

* `Address.ofUrl_eq_ok_iff`: the address that is found is the one that the URL is made up of.
* `Connection.ofUrl_connectUrl`: coming back does not change the address.
-/

namespace RemoteAgent

/-- The characters up to the first one that fails a test are those that pass it, if the next one, if
there is a next one, does not. -/
theorem takeWhile_eq_iff {α : Type} {p : α → Bool} {items front : List α} :
    items.takeWhile p = front ↔
      ∃ back, items = front ++ back ∧ (∀ a ∈ front, p a = true) ∧
        ∀ a ∈ back.head?, p a = false := by
  constructor
  · rintro rfl
    refine ⟨items.dropWhile p, List.takeWhile_append_dropWhile.symm,
      fun a mem => List.mem_takeWhile_imp mem, fun a first => ?_⟩
    rw [← List.find?_not_eq_head?_dropWhile] at first
    simpa using List.find?_some first
  · rintro ⟨back, rfl, pass, fails⟩
    rw [List.takeWhile_append_of_pos pass]
    cases back with
    | nil => simp
    | cons a back => simp [fails a rfl]

namespace Address

/-- A URL is made up of the scheme, an address and a rest.  The address has a colon in it, and the
rest, if there is one, starts with what cannot stand in an address. -/
structure Parts (url address rest : String) : Prop where
  whole : url = "tcp://" ++ address ++ rest
  nonempty : address ≠ ""
  colon : ':' ∈ address.toList
  slash : '/' ∉ address.toList
  question : '?' ∉ address.toList
  ends : ∀ c ∈ rest.toList.head?, c = '/' ∨ c = '?'

/-! ## Finding the address -/

theorem afterScheme?_eq_some_iff {scheme text rest : List Char} :
    afterScheme? scheme text = some rest ↔ text = scheme ++ rest := by
  fun_induction afterScheme? scheme text with
  | case1 text => simp
  | case2 c scheme => simp
  | case3 scheme d text ih => simp [ih]
  | case4 c scheme d text other => simp [Ne.symm other]

theorem not_endsAddress_eq_true_iff {c : Char} : (!endsAddress c) = true ↔ c ≠ '/' ∧ c ≠ '?' := by
  simp [endsAddress]

theorem not_endsAddress_eq_false_iff {c : Char} : (!endsAddress c) = false ↔ c = '/' ∨ c = '?' := by
  simp [endsAddress, or_iff_not_imp_left]

/-- An address is found behind the scheme, if there is a colon before anything ends it. -/
theorem ofUrl_eq_ok_iff_takeWhile {url address : String} :
    ofUrl url = .ok address ↔
      ∃ text, url.toList = scheme.toList ++ text ∧
        text.takeWhile (!endsAddress ·) = address.toList ∧ ':' ∈ address.toList := by
  unfold ofUrl
  cases behind : afterScheme? scheme.toList url.toList with
  | none =>
    constructor
    · intro found
      cases found
    · rintro ⟨text, whole, -⟩
      rw [← afterScheme?_eq_some_iff, behind] at whole
      cases whole
  | some text =>
    have whole := afterScheme?_eq_some_iff.mp behind
    dsimp only
    constructor
    · intro found
      split at found
      case isFalse => cases found
      case isTrue colon =>
        obtain rfl := Except.ok.inj found
        rw [String.toList_ofList]
        exact ⟨text, whole, rfl, colon⟩
    · rintro ⟨other, again, cut, colon⟩
      obtain rfl : text = other := List.append_cancel_left (whole.symm.trans again)
      rw [cut, if_pos colon, String.ofList_toList]

/-- The address that is found is the one that the URL is made up of. -/
theorem ofUrl_eq_ok_iff {url address : String} :
    ofUrl url = .ok address ↔ ∃ rest, Parts url address rest := by
  rw [ofUrl_eq_ok_iff_takeWhile]
  constructor
  · rintro ⟨text, whole, cut, colon⟩
    obtain ⟨back, rfl, inside, ends⟩ := takeWhile_eq_iff.mp cut
    have allowed : ∀ c ∈ address.toList, c ≠ '/' ∧ c ≠ '?' := fun c mem =>
      not_endsAddress_eq_true_iff.mp (inside c mem)
    refine ⟨String.ofList back, ?whole, ?nonempty, colon, fun mem => (allowed _ mem).1 rfl,
      fun mem => (allowed _ mem).2 rfl, ?ends⟩
    case whole =>
      rw [← String.toList_inj, whole]
      simp [scheme]
    case nonempty =>
      rintro rfl
      exact List.not_mem_nil colon
    case ends =>
      intro c first
      rw [String.toList_ofList] at first
      exact not_endsAddress_eq_false_iff.mp (ends c first)
  · rintro ⟨rest, parts⟩
    refine ⟨address.toList ++ rest.toList, ?whole, takeWhile_eq_iff.mpr ⟨rest.toList, rfl,
      fun c mem => ?inside, fun c first => ?ends⟩, parts.colon⟩
    case whole =>
      rw [parts.whole]
      simp [scheme]
    case inside =>
      exact not_endsAddress_eq_true_iff.mpr
        ⟨fun same => parts.slash (same ▸ mem), fun same => parts.question (same ▸ mem)⟩
    case ends => exact not_endsAddress_eq_false_iff.mpr (parts.ends c first)

/-! ## Adding the reconnect id -/

/-- If an item comes in a text or right behind it, a start of the whole that lacks that item is a
start of the text. -/
theorem isPrefix_of_append_mark {α : Type} {stop mark : α} {front back text tail : List α}
    (same : text ++ mark :: tail = front ++ back) (lacking : stop ∉ front)
    (seen : stop ∈ text ++ [mark]) : front <+: text := by
  rcases List.append_eq_append_iff.mp same with ⟨middle, rfl, rest⟩ | ⟨middle, rfl, -⟩
  · cases middle with
    | nil => exact (List.append_nil text).symm ▸ List.prefix_rfl
    | cons a middle =>
      obtain ⟨rfl, -⟩ := List.cons.inj rest
      rw [List.append_cons] at lacking
      exact absurd (List.mem_append_left middle seen) lacking
  · exact List.prefix_append front middle

/-- The id is put behind a mark, and there is a question mark at that mark or in front of it. -/
theorem exists_mark (url id : String) :
    ∃ mark tail, (withReconnectId url id).toList = url.toList ++ mark :: tail ∧
      '?' ∈ url.toList ++ [mark] := by
  by_cases query : '?' ∈ url.toList
  · exact ⟨'&', (reconnectParameter ++ "=" ++ id).toList, by simp [withReconnectId, query],
      by simp [query]⟩
  · exact ⟨'?', (reconnectParameter ++ "=" ++ id).toList, by simp [withReconnectId, query],
      by simp⟩

namespace Parts

variable {url address rest : String}

theorem toList_eq (parts : Parts url address rest) :
    url.toList = ("tcp://" ++ address).toList ++ rest.toList := by
  rw [parts.whole, String.toList_append]

/-- There is no question mark up to the end of the address. -/
theorem question_notMem (parts : Parts url address rest) :
    '?' ∉ ("tcp://" ++ address).toList := by
  simp [parts.question]

/-- The reconnect id goes to the rest. -/
theorem withReconnectId (parts : Parts url address rest) (id : String) :
    ∃ rest', Parts (withReconnectId url id) address rest' := by
  obtain ⟨mark, tail, added, seen⟩ := exists_mark url id
  refine ⟨String.ofList (rest.toList ++ mark :: tail),
    { parts with whole := ?whole, ends := ?ends }⟩
  case whole =>
    rw [← String.toList_inj, added, parts.toList_eq]
    simp
  case ends =>
    intro c first
    rw [String.toList_ofList] at first
    cases same : rest.toList with
    | cons d more =>
      rw [same] at first
      exact parts.ends c (same ▸ first)
    | nil =>
      -- The URL ends with the address, so the question mark is the mark itself.
      rw [parts.toList_eq, same, List.append_nil] at seen
      obtain rfl := List.mem_singleton.mp
        ((List.mem_append.mp seen).resolve_left parts.question_notMem)
      rw [same] at first
      exact .inr (Option.some.inj first).symm

/-- What stands in front of the reconnect id has the address in it already. -/
theorem of_withReconnectId {id : String}
    (parts : Parts (Address.withReconnectId url id) address rest) :
    ∃ rest', Parts url address rest' := by
  obtain ⟨mark, tail, added, seen⟩ := exists_mark url id
  have same : url.toList ++ mark :: tail = ("tcp://" ++ address).toList ++ rest.toList := by
    rw [← added, parts.toList_eq]
  obtain ⟨back, whole⟩ := isPrefix_of_append_mark same parts.question_notMem seen
  refine ⟨String.ofList back, { parts with whole := ?whole, ends := ?ends }⟩
  case whole =>
    rw [← String.toList_inj, ← whole]
    simp
  case ends =>
    intro c first
    rw [String.toList_ofList] at first
    rw [← whole, List.append_assoc, List.append_cancel_left_eq] at same
    refine parts.ends c ?_
    rw [← same, List.head?_append, first]
    rfl

end Parts

end Address

/-- **The reconnect id never changes the address.**  The URL that a connection comes back with gives
an address if and only if the URL of the controller does, and it is the same one.  That is what
stands between `tcp://` and the first slash or question mark, if there is something with a colon in
it. -/
theorem Connection.ofUrl_connectUrl (c : Connection) (address : String) :
    (Address.ofUrl c.connectUrl = .ok address ↔ Address.ofUrl c.url = .ok address) ∧
    (Address.ofUrl c.url = .ok address ↔ ∃ rest, Address.Parts c.url address rest) := by
  refine ⟨?_, Address.ofUrl_eq_ok_iff⟩
  rw [Address.ofUrl_eq_ok_iff, Address.ofUrl_eq_ok_iff]
  exact ⟨fun ⟨_, parts⟩ => parts.of_withReconnectId, fun ⟨_, parts⟩ => parts.withReconnectId _⟩

end RemoteAgent
