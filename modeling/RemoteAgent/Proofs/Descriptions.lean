import Mathlib.Order.Bounds.Defs
import RemoteAgent.Proofs.Truncation

/-!
# Descriptions

Every error text that names a value calls it by its description, and whoever sends the value decides
what is in there: texts of any characters, names and labels of any length, and arrays and objects
that contain themselves.  The description stays short all the same.  What is written out at full
length has two levels at most, and of a long text only a start is kept.

The start is counted in bytes, but it is taken character by character, so it ends on a boundary
between two of them.  It is the last boundary that fits, because every start of the text that fits
is a start of what is taken (`Text.isPrefix_fitting`).  And since no character has more than four
bytes, the first one that does not fit leaves at most three bytes unused.

## Main results

* `Text.isGreatest_firstBytes`: the start that is kept ends on the last boundary that fits.
* `Value.describe_exact`: what a description is, and how long it can be.
-/

namespace RemoteAgent

namespace Text

/-! ## The start that fits -/

theorem utf8ByteSize_ofList_cons (c : Char) (chars : List Char) :
    (String.ofList (c :: chars)).utf8ByteSize =
      c.utf8Size + (String.ofList chars).utf8ByteSize := by
  rw [String.ofList_cons, String.utf8ByteSize_append, String.utf8ByteSize_singleton]

theorem fitting_isPrefix (bytes : Nat) (chars : List Char) : fitting bytes chars <+: chars := by
  fun_induction fitting bytes chars with
  | case1 bytes => exact List.nil_prefix
  | case2 bytes c rest fits ih => exact (List.prefix_cons_inj c).mpr ih
  | case3 bytes c rest large => exact List.nil_prefix

theorem utf8ByteSize_fitting_le (bytes : Nat) (chars : List Char) :
    (String.ofList (fitting bytes chars)).utf8ByteSize ≤ bytes := by
  fun_induction fitting bytes chars with
  | case1 bytes => exact Nat.zero_le bytes
  | case2 bytes c rest fits ih =>
    rw [utf8ByteSize_ofList_cons]
    omega
  | case3 bytes c rest large => exact Nat.zero_le bytes

/-- A start that fits is a start of the one that is taken. -/
theorem isPrefix_fitting {bytes : Nat} {chars front : List Char} (start : front <+: chars)
    (fits : (String.ofList front).utf8ByteSize ≤ bytes) : front <+: fitting bytes chars := by
  fun_induction fitting bytes chars generalizing front with
  | case1 bytes => exact start
  | case2 bytes c rest room ih =>
    cases front with
    | nil => exact List.nil_prefix
    | cons d front =>
      obtain ⟨rfl, further⟩ := List.cons_prefix_cons.mp start
      rw [utf8ByteSize_ofList_cons] at fits
      exact (List.prefix_cons_inj d).mpr (ih further (by omega))
  | case3 bytes c rest large =>
    cases front with
    | nil => exact List.nil_prefix
    | cons d front =>
      obtain ⟨rfl, -⟩ := List.cons_prefix_cons.mp start
      rw [utf8ByteSize_ofList_cons] at fits
      omega

/-- Of a text that does not fit so much is taken that no character more would fit. -/
theorem le_utf8ByteSize_fitting {bytes : Nat} {chars : List Char}
    (long : bytes < (String.ofList chars).utf8ByteSize) :
    bytes ≤ (String.ofList (fitting bytes chars)).utf8ByteSize + 3 := by
  fun_induction fitting bytes chars with
  | case1 bytes => exact absurd long (Nat.not_lt_zero bytes)
  | case2 bytes c rest room ih =>
    rw [utf8ByteSize_ofList_cons] at long ⊢
    have further := ih (by omega)
    omega
  | case3 bytes c rest large =>
    have small : c.utf8Size ≤ 4 := c.utf8Size_le_four
    omega

/-- What is kept of a text is a start of it. -/
theorem exists_eq_firstBytes_append (bytes : Nat) (text : String) :
    ∃ rest, text = firstBytes bytes text ++ rest := by
  obtain ⟨rest, whole⟩ := fitting_isPrefix bytes text.toList
  refine ⟨String.ofList rest, ?_⟩
  rw [← String.toList_inj, ← whole]
  simp [firstBytes]

/-- **What is kept of a text ends on the last boundary that fits**: a place between two characters,
or at either end. -/
theorem isGreatest_firstBytes (bytes : Nat) (text : String) :
    IsGreatest {cut | cut ≤ bytes ∧ (String.Pos.Raw.mk cut).IsValid text}
      (firstBytes bytes text).utf8ByteSize := by
  refine ⟨⟨utf8ByteSize_fitting_le bytes text.toList, ?_⟩, ?_⟩
  · obtain ⟨rest, whole⟩ := exists_eq_firstBytes_append bytes text
    exact String.Pos.Raw.isValid_iff_exists_append.mpr ⟨_, rest, whole, rfl⟩
  · rintro cut ⟨fits, boundary⟩
    obtain ⟨front, rest, rfl, place⟩ := String.Pos.Raw.isValid_iff_exists_append.mp boundary
    obtain rfl : cut = front.utf8ByteSize := congrArg String.Pos.Raw.byteIdx place
    -- The text in front of the boundary is itself a start that fits.
    have start : front.toList <+: (front ++ rest).toList := by simp
    obtain ⟨more, kept⟩ := isPrefix_fitting start (by simpa using fits)
    rw [firstBytes, ← kept, String.ofList_append, String.utf8ByteSize_append, String.ofList_toList]
    exact Nat.le_add_right _ _

end Text

namespace Value

variable {φ η : Type} [HostObjects φ η]

/-- The text that error texts show of data has two levels of arrays and objects at most, also if
they contain themselves. -/
theorem exists_fullDescription_eq_render (heap : Heap φ η) {value : Value}
    (function : ∀ h, value ≠ .function h) (host : ∀ h, value ≠ .host h)
    (deferred : ∀ h, value ≠ .deferred h) :
    ∃ json : Json, json.nesting ≤ 2 ∧ fullDescription heap value = json.render := by
  refine ⟨value.toJson heap describedDepth, nesting_toJsonWithin_le heap _ value, ?_⟩
  cases value with
  | function h => exact absurd rfl (function h)
  | host h => exact absurd rfl (host h)
  | deferred h => exact absurd rfl (deferred h)
  | _ => rfl

/-- **A description is bounded and exact.**  A value of any kind, over any heap, is called by the
full text for it, if that has 50 bytes at most.  Of a longer one the start is kept that ends on the
last boundary between two characters up to byte 50, which is at byte 47 or behind it, and three dots
stand for the rest.  No description has more than 53 bytes.  The full text of data is that of a JSON
value with two levels at most, also if they contain themselves. -/
theorem describe_exact (heap : Heap φ η) (value : Value) :
    let full := fullDescription heap value
    (full.utf8ByteSize ≤ 50 → describe heap value = full) ∧
    (50 < full.utf8ByteSize →
      ∃ kept rest, full = kept ++ rest ∧ describe heap value = kept ++ "..." ∧
        IsGreatest {cut | cut ≤ 50 ∧ (String.Pos.Raw.mk cut).IsValid full} kept.utf8ByteSize ∧
        47 ≤ kept.utf8ByteSize) ∧
    (describe heap value).utf8ByteSize ≤ 53 ∧
    ((∀ h, value ≠ .function h) → (∀ h, value ≠ .host h) → (∀ h, value ≠ .deferred h) →
      ∃ json : Json, json.nesting ≤ 2 ∧ full = json.render) := by
  intro full
  have short (fits : full.utf8ByteSize ≤ 50) : describe heap value = full := if_pos fits
  have long (more : 50 < full.utf8ByteSize) :
      describe heap value = Text.firstBytes 50 full ++ "..." := if_neg (Nat.not_le.mpr more)
  have last := Text.isGreatest_firstBytes 50 full
  refine ⟨short, fun more => ?cut, ?bound, exists_fullDescription_eq_render heap⟩
  case cut =>
    obtain ⟨rest, whole⟩ := Text.exists_eq_firstBytes_append 50 full
    have used : 50 ≤ (Text.firstBytes 50 full).utf8ByteSize + 3 :=
      Text.le_utf8ByteSize_fitting (by simpa using more)
    exact ⟨_, rest, whole, long more, last, by omega⟩
  case bound =>
    rcases Nat.lt_or_ge 50 full.utf8ByteSize with more | fits
    · rw [long more, String.utf8ByteSize_append]
      exact Nat.add_le_add_right last.1.1 3
    · rw [short fits]
      omega

end Value

end RemoteAgent
