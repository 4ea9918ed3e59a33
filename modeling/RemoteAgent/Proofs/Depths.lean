import Mathlib.Data.Rat.Floor
import Mathlib.Tactic.NormNum
import RemoteAgent.Proofs.Grammar

/-!
# The depth that a number stands for

A request says how deep its answer is to go, and may say it with any number.  What is meant is the
value of the number, rounded down where it is no integer; and since a depth is kept in 64 bits, what
is out of range stands for the nearest depth within (`Number.depth`).

The agent gets there by another way.  It takes an integer as it stands if it fits, and all else as a
double, which for an integer means that it is rounded first.  So the integers above the range are
the ones to look at (`Binary64.exists_ofInt`): rounding may move them, but not back into the range.

## Main definitions

* `Binary64.value`, `Number.value`: the value of a number.
* `Number.depth`: the depth that it stands for.
* `AsksFor`: the depth that a request asks for.

## Main results

* `depthOfNumber_eq`: the agent takes a number for the depth that it stands for.
-/

namespace RemoteAgent

namespace Binary64

/-! ## Values -/

/-- The value of a double.  The significand has a leading bit unless the exponent field is zero, and
then the weight is that of the field one. -/
def value (x : Binary64) : ℚ :=
  (if x.negative then -1 else 1) *
    (if x.exponent.val = 0 then (x.fraction.val : ℚ) else 2 ^ 52 + x.fraction.val) *
    2 ^ ((max 1 x.exponent.val : ℕ) - 1075 : ℤ)

theorem unitsPerOne_eq : unitsPerOne = 2 ^ 1074 := by decide +kernel

theorem cast_significand (x : Binary64) : (x.significand : ℚ) =
    if x.exponent.val = 0 then (x.fraction.val : ℚ) else 2 ^ 52 + x.fraction.val := by
  unfold Binary64.significand leadingBit
  split <;> norm_num

theorem cast_magnitude (x : Binary64) : (x.magnitude : ℚ) = x.significand * 2 ^ x.scale := by
  unfold Binary64.magnitude
  exact (Nat.cast_mul _ _).trans (congrArg _ (Nat.cast_pow 2 x.scale))

/-- Counting units measures the value. -/
theorem value_eq_units (x : Binary64) : x.value = (x.units : ℚ) / (unitsPerOne : ℕ) := by
  have weight : (2 : ℚ) ^ ((max 1 x.exponent.val : ℕ) - 1075 : ℤ) = 2 ^ x.scale / 2 ^ 1074 := by
    have exponent : ((max 1 x.exponent.val : ℕ) - 1075 : ℤ) = (x.scale : ℤ) - (1074 : ℕ) := by
      unfold scale
      omega
    rw [exponent, zpow_sub₀ two_ne_zero, zpow_natCast, zpow_natCast]
  have one : ((unitsPerOne : ℕ) : ℚ) = 2 ^ 1074 := by
    rw [unitsPerOne_eq, Nat.cast_pow, Nat.cast_ofNat]
  rw [value, weight, ← cast_significand, one]
  unfold units
  cases x.negative with
  | true => simp [cast_magnitude, neg_div, mul_div_assoc]
  | false => simp [cast_magnitude, mul_div_assoc]

theorem floor_eq (x : Binary64) : x.floor = ⌊x.value⌋ := by
  rw [value_eq_units, Rat.floor_intCast_div_natCast, floor]

/-! ## Large integers -/

theorem le_divideToEven (num den : Nat) : num / den ≤ divideToEven num den := by
  unfold divideToEven
  dsimp only
  split
  · omega
  · split <;> omega

/-- A significand with its leading bit gets the exponent that its scale asks for. -/
theorem assemble_of_le {significand scale : Nat} (leading : leadingBit ≤ significand)
    (fits : scale + 1 < 2047) (negative : Bool) :
    ∃ x, assemble negative significand scale = some x ∧ x.negative = negative ∧
      x.exponent.val = scale + 1 := by
  unfold assemble
  rw [if_neg (Nat.not_lt.mpr leading), dif_pos fits]
  exact ⟨_, rfl, rfl, rfl⟩

theorem log2_mul_pow {m : Nat} (positive : m ≠ 0) (k : Nat) :
    (m * 2 ^ k).log2 = m.log2 + k := by
  have some : 0 < 2 ^ k := Nat.two_pow_pos k
  refine (Nat.log2_eq_iff (Nat.mul_ne_zero positive some.ne')).mpr ⟨?_, ?_⟩
  · rw [Nat.pow_add]
    exact Nat.mul_le_mul_right _ (Nat.log2_self_le positive)
  · rw [Nat.add_right_comm, Nat.pow_add]
    exact Nat.mul_lt_mul_of_pos_right Nat.lt_log2_self some

/-- A number of 64 bits with the highest one set keeps its size when it is rounded. -/
theorem exists_ofUnits {m k : Nat} (low : 2 ^ 63 ≤ m) (high : m < 2 ^ 64) (fits : k + 13 < 2047) :
    ∃ x, ofUnits false (m * 2 ^ k) 1 = some x ∧ x.negative = false ∧
      12 + k ≤ x.exponent.val := by
  have log : m.log2 = 63 := (Nat.log2_eq_iff (by omega)).mpr ⟨low, high⟩
  have scale : (m * 2 ^ k).log2 - 52 = 11 + k := by
    rw [log2_mul_pow (by omega), log]
    omega
  -- Eleven bits are cut off, so the quotient has 53 bits, and rounding may give it one more.
  have quotient : m * 2 ^ k / 2 ^ (11 + k) = m / 2 ^ 11 := by
    rw [Nat.pow_add, Nat.mul_div_mul_right _ _ (Nat.two_pow_pos k)]
  have large : leadingBit ≤ divideToEven (m * 2 ^ k) (2 ^ (11 + k)) := by
    refine Nat.le_trans ?_ (le_divideToEven _ _)
    rw [quotient]
    unfold leadingBit
    omega
  unfold ofUnits
  rw [Nat.div_one, scale]
  dsimp only
  rw [Nat.one_mul]
  split
  · obtain ⟨x, found, negative, exponent⟩ :=
      assemble_of_le (Nat.le_refl leadingBit) (show 11 + k + 1 + 1 < 2047 by omega) false
    exact ⟨x, found, negative, by omega⟩
  · obtain ⟨x, found, negative, exponent⟩ :=
      assemble_of_le large (show 11 + k + 1 < 2047 by omega) false
    exact ⟨x, found, negative, by omega⟩

theorem exists_ofInt {n : Int} (low : 2 ^ 63 ≤ n) (high : n < 2 ^ 64) :
    ∃ x, ofInt n = some x ∧ x.negative = false ∧ 1086 ≤ x.exponent.val := by
  obtain ⟨m, rfl⟩ := Int.eq_ofNat_of_zero_le (show 0 ≤ n by omega)
  have positive : decide ((m : Int) < 0) = false := by simp
  unfold ofInt
  rw [positive, Int.natAbs_natCast, unitsPerOne_eq]
  exact exists_ofUnits (by omega) (by omega) (by decide)

/-- Such a double is not below `2 ^ 63` indeed. -/
theorem le_floor {x : Binary64} (positive : x.negative = false) (large : 1086 ≤ x.exponent.val) :
    2 ^ 63 ≤ x.floor := by
  have weight : (2 : ℚ) ^ (11 : ℤ) ≤ 2 ^ ((max 1 x.exponent.val : ℕ) - 1075 : ℤ) :=
    zpow_le_zpow_right₀ one_le_two (by omega)
  have leading : (2 : ℚ) ^ 52 ≤ 2 ^ 52 + x.fraction.val :=
    le_add_of_nonneg_right (Nat.cast_nonneg _)
  have value : (2 : ℚ) ^ 52 * 2 ^ (11 : ℤ) ≤ x.value := by
    rw [Binary64.value, positive, if_neg (show ¬ x.exponent.val = 0 by omega)]
    simp only [Bool.false_eq_true, if_false, one_mul]
    exact mul_le_mul leading weight (by positivity) (by positivity)
  rw [floor_eq, Int.le_floor]
  refine le_trans ?_ value
  norm_num

end Binary64

/-! ## Depths -/

namespace Number

/-- The value of a number. -/
def value : Number → ℚ
  | int n => n
  | float x => x.value

/-- The depth that a number stands for: its value, rounded down, or the nearest one that 64 bits can
hold. -/
def depth (number : Number) : Int := max (-2 ^ 63) (min (2 ^ 63 - 1) ⌊number.value⌋)

/-- An integer that 64 bits can hold stands for itself. -/
theorem depth_int {n : Int} (low : -2 ^ 63 ≤ n) (high : n < 2 ^ 63) : (int n).depth = n := by
  unfold depth value
  rw [Int.floor_intCast]
  omega

end Number

/-- **The agent takes a number for the depth that it stands for.** -/
theorem depthOfNumber_eq {number : Number} (inRange : number.InRange) :
    depthOfNumber number = some number.depth := by
  cases number with
  | float x =>
      have floor : ⌊(Number.float x).value⌋ = x.floor := x.floor_eq.symm
      unfold Number.depth
      rw [floor]
      rfl
  | int n =>
      obtain ⟨low, high⟩ := inRange
      by_cases fits : n < 9223372036854775808
      · rw [Number.depth_int (by omega) (by omega), depthOfNumber, Number.toInt64?,
          if_pos ⟨low, fits⟩]
      · obtain ⟨x, rounded, positive, large⟩ :=
          Binary64.exists_ofInt (n := n) (by omega) (by omega)
        have above := Binary64.le_floor positive large
        have none : (Number.int n).toInt64? = none := if_neg fun both => fits both.2
        have some : (Number.int n).toBinary64? = some x := rounded
        unfold Number.depth Number.value
        rw [depthOfNumber, none, some, Int.floor_intCast]
        simp only [Option.map_some, Option.some.injEq, leastDepth, greatestDepth]
        omega

/-- The depth that a request asks for with what stands behind its command.  Nothing, or null, asks
for the standard depth, and a number for the depth that it stands for. -/
inductive AsksFor (standard : Int) : List Json → Int → Prop where
  | absent : AsksFor standard [] standard
  | null {rest : List Json} : AsksFor standard (.null :: rest) standard
  | number (number : Number) (inRange : number.InRange) {rest : List Json} :
      AsksFor standard (.number number :: rest) number.depth

/-- The depth is read as what is asked for. -/
theorem AsksFor.exists_derives {standard levels : Int} {rest : List Json}
    (asks : AsksFor standard rest levels) :
    ∃ depth, DerivesDepth rest depth ∧ depth.getD standard = levels := by
  cases asks with
  | absent => exact ⟨none, .absent, rfl⟩
  | null => exact ⟨none, .null, rfl⟩
  | number number inRange =>
      refine ⟨depthOfNumber number, .number, ?_⟩
      rw [depthOfNumber_eq inRange]
      rfl

end RemoteAgent
