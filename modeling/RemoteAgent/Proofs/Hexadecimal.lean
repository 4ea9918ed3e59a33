import RemoteAgent.Proofs.Inspection
import RemoteAgent.Proofs.Octets

/-!
# Bytes in hexadecimal

A bytes command carries its bytes as hexadecimal text, and the rendering of bytes writes them out
again.  Reading works on the UTF-8 bytes of the text and takes digits of both cases, writing uses
lowercase digits only; so what is read and written again is the text in lowercase, and what is
written and read again is the bytes as they were.

Pairs of digits are read one after the other, and the induction is over the pairs: all of them are
read (`Hex.decodePairs_of_isDigit`), or the first byte that is no digit ends the reading
(`Hex.decodePairs_of_not_isDigit`).  The facts about one digit are those of all 256 bytes.  That
bytes and characters are the same where all bytes are digits is `Text.lt_of_octets_lt`.

## Main definitions

* `Hex.IsDigit`: a byte is one of the digits in ASCII.

## Main results

* `Hex.decode_encode`: what was written is read.
* `Hex.exists_decode`: what was read is written in lowercase.
* `Command.bytes_from_hexadecimal`: what a bytes command comes to, for every text.
-/

namespace RemoteAgent

namespace Hex

/-- A byte that is a digit in ASCII: `0` to `9`, `A` to `F` or `a` to `f`. -/
def IsDigit (byte : UInt8) : Prop :=
  48 ≤ byte ∧ byte ≤ 57 ∨ 65 ≤ byte ∧ byte ≤ 70 ∨ 97 ≤ byte ∧ byte ≤ 102

instance : DecidablePred IsDigit := fun _ => inferInstanceAs (Decidable (_ ∨ _))

/-- The character of a byte, in lowercase. -/
def lowercase (byte : UInt8) : Char := (Char.ofNat byte.toNat).toLower

/-! ## One digit -/

/-- A digit has a value below sixteen, which is written as that digit in lowercase. -/
theorem exists_digitValue {byte : UInt8} (isDigit : IsDigit byte) :
    ∃ value ∈ digitValue? byte, value.toNat < 16 ∧ digit value = lowercase byte := by
  have all : ∀ n < 256, IsDigit (.ofNat n) →
      ∃ value ∈ digitValue? (.ofNat n), value.toNat < 16 ∧ digit value = lowercase (.ofNat n) := by
    decide +kernel
  simpa using all byte.toNat byte.toNat_lt (by simpa using isDigit)

theorem digitValue?_of_not_isDigit {byte : UInt8} (other : ¬ IsDigit byte) :
    digitValue? byte = none := by
  unfold IsDigit at other
  unfold digitValue?
  grind

/-- What is written for a value below sixteen is an ASCII character, and is read as that value. -/
theorem digitValue?_digit {value : UInt8} (small : value.toNat < 16) :
    (digit value).toNat < 128 ∧ digitValue? (.ofNat (digit value).toNat) = some value := by
  have all : ∀ n < 16, (digit (.ofNat n)).toNat < 128 ∧
      digitValue? (.ofNat (digit (.ofNat n)).toNat) = some (.ofNat n) := by
    decide
  simpa using all value.toNat small

/-! ## Pairs of digits -/

theorem toList_encode (content : List UInt8) :
    (encode content).toList =
      content.flatMap fun byte => [digit (byte / 16), digit (byte % 16)] := by
  simp [encode, ofByte, String.toList_join, List.flatMap_map]

/-- The two halves of a byte that was put together from them. -/
theorem halves {high low : UInt8} (highSmall : high.toNat < 16) (lowSmall : low.toNat < 16) :
    (high * 16 + low) / 16 = high ∧ (high * 16 + low) % 16 = low := by
  constructor <;> apply UInt8.toNat_inj.mp
  · simp
    omega
  · simp
    omega

/-- Pairs of digits are all read, and what they give is written as the same digits in lowercase. -/
theorem decodePairs_of_isDigit (position : Nat) {bytes : List UInt8} (even : bytes.length % 2 = 0)
    (digits : ∀ byte ∈ bytes, IsDigit byte) :
    ∃ content, decodePairs position bytes = .ok content ∧
      (encode content).toList = bytes.map lowercase := by
  match bytes with
  | [] => exact ⟨[], rfl, rfl⟩
  | [_] => simp at even
  | high :: low :: rest =>
    simp only [List.length_cons, List.forall_mem_cons] at even digits
    obtain ⟨highDigit, lowDigit, digits⟩ := digits
    obtain ⟨h, highValue, highSmall, highShape⟩ := exists_digitValue highDigit
    obtain ⟨l, lowValue, lowSmall, lowShape⟩ := exists_digitValue lowDigit
    obtain ⟨content, read, written⟩ := decodePairs_of_isDigit (position + 2) (by omega) digits
    obtain ⟨upper, lower⟩ := halves highSmall lowSmall
    refine ⟨(h * 16 + l) :: content, ?_, ?_⟩
    · rw [decodePairs, highValue, lowValue, read]
      rfl
    · rw [toList_encode] at written ⊢
      rw [List.flatMap_cons, written, upper, lower, highShape, lowShape]
      rfl

/-- The first byte that is no digit ends the reading. -/
theorem decodePairs_of_not_isDigit (position : Nat) {front rest : List UInt8} {bad : UInt8}
    (even : (front ++ bad :: rest).length % 2 = 0) (digits : ∀ byte ∈ front, IsDigit byte)
    (other : ¬ IsDigit bad) :
    decodePairs position (front ++ bad :: rest) =
      .error (.invalidDigit bad (position + front.length)) := by
  match front with
  | [] =>
    match rest with
    | [] => simp at even
    | low :: rest =>
      rw [List.nil_append, decodePairs, digitValue?_of_not_isDigit other]
      rfl
  | [high] =>
    obtain ⟨h, highValue, -⟩ := exists_digitValue (digits high List.mem_cons_self)
    rw [List.singleton_append, decodePairs, highValue, digitValue?_of_not_isDigit other]
    rfl
  | high :: low :: front =>
    simp only [List.cons_append, List.length_cons, List.forall_mem_cons] at even digits ⊢
    obtain ⟨highDigit, lowDigit, digits⟩ := digits
    obtain ⟨h, highValue, -⟩ := exists_digitValue highDigit
    obtain ⟨l, lowValue, -⟩ := exists_digitValue lowDigit
    rw [decodePairs, highValue, lowValue,
      decodePairs_of_not_isDigit (position + 2) (by omega) digits other, Nat.add_right_comm]
    rfl

/-! ## Whole texts -/

theorem decode_eq (text : String) :
    decode text = if (Text.octets text).length % 2 = 1 then .error .oddLength
      else decodePairs 0 (Text.octets text) := rfl

theorem decode_of_odd {text : String} (odd : (Text.octets text).length % 2 = 1) :
    decode text = .error .oddLength := by
  rw [decode_eq, if_pos odd]

theorem decode_of_even {text : String} (even : (Text.octets text).length % 2 = 0) :
    decode text = decodePairs 0 (Text.octets text) := by
  rw [decode_eq, if_neg (by omega)]

theorem lt_of_isDigit {byte : UInt8} (isDigit : IsDigit byte) : byte.toNat < 128 := by
  simp [IsDigit, UInt8.le_iff_toNat_le] at isDigit
  omega

/-- The bytes of a text of digits in lowercase are the characters of the text in lowercase. -/
theorem map_lowercase_octets {text : String} (digits : ∀ byte ∈ Text.octets text, IsDigit byte) :
    (Text.octets text).map lowercase = text.toLower.toList := by
  have small := Text.lt_of_octets_lt fun byte mem => lt_of_isDigit (digits byte mem)
  have lower : text.toLower.toList = text.toList.map Char.toLower := String.toList_map ..
  rw [Text.octets_of_lt small, List.map_map, lower]
  refine List.map_congr_left fun c mem => ?_
  have same : (UInt8.ofNat c.toNat).toNat = c.toNat := by
    rw [UInt8.toNat_ofNat']
    exact Nat.mod_eq_of_lt (Nat.lt_trans (small c mem) (by decide))
  rw [Function.comp_apply, lowercase, same, Char.ofNat_toNat]

/-- A text of pairs of digits is read, and what it gives is written as the text in lowercase. -/
theorem exists_decode {text : String} (even : (Text.octets text).length % 2 = 0)
    (digits : ∀ byte ∈ Text.octets text, IsDigit byte) :
    ∃ content, decode text = .ok content ∧ encode content = text.toLower := by
  obtain ⟨content, read, written⟩ := decodePairs_of_isDigit 0 even digits
  refine ⟨content, by rw [decode_of_even even, read], String.toList_injective ?_⟩
  rw [written, map_lowercase_octets digits]

/-- Where not all bytes are digits, the error names the first one that is not. -/
theorem exists_decode_error {text : String} (even : (Text.octets text).length % 2 = 0)
    {byte : UInt8} (mem : byte ∈ Text.octets text) (other : ¬ IsDigit byte) :
    ∃ front bad rest, Text.octets text = front ++ bad :: rest ∧ (∀ byte ∈ front, IsDigit byte) ∧
      ¬ IsDigit bad ∧ decode text = .error (.invalidDigit bad front.length) := by
  obtain ⟨bad, found⟩ : ∃ bad, (Text.octets text).find? (fun b => ¬ IsDigit b) = some bad :=
    Option.isSome_iff_exists.mp (List.find?_isSome.mpr ⟨byte, mem, decide_eq_true other⟩)
  obtain ⟨isBad, front, rest, shape, before⟩ := List.find?_eq_some_iff_append.mp found
  have digits : ∀ byte ∈ front, IsDigit byte := fun byte mem => by simpa using before byte mem
  have isOther : ¬ IsDigit bad := of_decide_eq_true isBad
  refine ⟨front, bad, rest, shape, digits, isOther, ?_⟩
  rw [decode_of_even even, shape, decodePairs_of_not_isDigit 0 (shape ▸ even) digits isOther,
    Nat.zero_add]

/-! ## What was written -/

/-- The two digits of a byte, as bytes. -/
def pair (byte : UInt8) : List UInt8 :=
  [.ofNat (digit (byte / 16)).toNat, .ofNat (digit (byte % 16)).toNat]

theorem halves_lt (byte : UInt8) : (byte / 16).toNat < 16 ∧ (byte % 16).toNat < 16 := by
  have bound := byte.toNat_lt
  constructor <;> simp <;> omega

theorem octets_encode (content : List UInt8) :
    Text.octets (encode content) = content.flatMap pair := by
  have small : ∀ c ∈ (encode content).toList, c.toNat < 128 := by
    rw [toList_encode, List.forall_mem_flatMap]
    intro byte _
    obtain ⟨high, low⟩ := halves_lt byte
    rw [List.forall_mem_cons, List.forall_mem_singleton]
    exact ⟨(digitValue?_digit high).1, (digitValue?_digit low).1⟩
  rw [Text.octets_of_lt small, toList_encode, List.map_flatMap]
  rfl

/-- A byte is put together from its halves. -/
theorem whole (byte : UInt8) : byte / 16 * 16 + byte % 16 = byte := by
  have bound := byte.toNat_lt
  apply UInt8.toNat_inj.mp
  simp
  omega

theorem decodePairs_pairs (position : Nat) (content : List UInt8) :
    decodePairs position (content.flatMap pair) = .ok content := by
  induction content generalizing position with
  | nil => rfl
  | cons byte rest ih =>
    obtain ⟨high, low⟩ := halves_lt byte
    rw [List.flatMap_cons, pair, List.cons_append, List.cons_append, List.nil_append, decodePairs,
      (digitValue?_digit high).2, (digitValue?_digit low).2]
    simp only [ih, Except.map, whole]

/-- **What was written is read.** -/
theorem decode_encode (content : List UInt8) : decode (encode content) = .ok content := by
  have even : (Text.octets (encode content)).length % 2 = 0 := by
    rw [octets_encode, List.length_flatMap]
    simp [pair]
  rw [decode_of_even even, octets_encode, decodePairs_pairs]

end Hex

namespace Command

variable {φ η : Type} [ObjectModel φ η]

/-- A bytes command touches nothing, and a present value may be required of it: no bytes are
absent. -/
theorem run_bytes (required : Bool) (context : Context) (text : String) (world : World φ η) :
    (evaluateIf required context (.bytes text)).run world =
      ((decodeBytes text).map context.unbound, world) := by
  have evaluated : ((bytes text).evaluate context).run world =
      ((decodeBytes text).map context.unbound, world) := by
    rw [evaluate]
    cases decodeBytes text <;> rfl
  cases required with
  | false => exact evaluated
  | true =>
    show (((bytes text).evaluate context) >>= require .target).run world = _
    rw [Eval.run_bind, evaluated]
    unfold decodeBytes
    cases Hex.decode text <;> rfl

/-- **Bytes on the wire.**  A bytes command with some text succeeds if and only if the text is made
of pairs of digits, whether or not a present value is required.  Its value then renders as the text
in lowercase, at every depth.  An odd count of bytes is the first fault to be named, and the
position of the first byte that is no digit is the second; nothing else changes.  In the other
direction, what is written of any bytes is read as these bytes. -/
theorem bytes_from_hexadecimal (required : Bool) (context : Context) (text : String)
    (world : World φ η) :
    let bytes := text.toUTF8.toList
    let outcome := (evaluateIf required context (.bytes text)).run world
    parse (.array [.string "B", .string text]) = .ok (.bytes text) ∧
    outcome.2 = world ∧
    ((∃ bound, outcome.1 = .ok bound) ↔
      bytes.length % 2 = 0 ∧ ∀ byte ∈ bytes, Hex.IsDigit byte) ∧
    (∀ bound, outcome.1 = .ok bound →
      ∃ content, bound = context.unbound (.bytes content) ∧
        ∀ (heap : Heap φ η) (depth : Int), bound.value.toJson heap depth = .string text.toLower) ∧
    (bytes.length % 2 = 1 → outcome.1 = .error (.hex .oddLength)) ∧
    (bytes.length % 2 = 0 → (∃ byte ∈ bytes, ¬ Hex.IsDigit byte) →
      ∃ front bad rest, bytes = front ++ bad :: rest ∧ (∀ byte ∈ front, Hex.IsDigit byte) ∧
        ¬ Hex.IsDigit bad ∧ outcome.1 = .error (.hex (.invalidDigit bad front.length))) ∧
    ∀ content, Hex.decode (Hex.encode content) = .ok content := by
  intro bytes outcome
  have run : outcome = ((decodeBytes text).map context.unbound, world) :=
    run_bytes required context text world
  have good (even : bytes.length % 2 = 0) (digits : ∀ byte ∈ bytes, Hex.IsDigit byte) :
      ∃ content, outcome.1 = .ok (context.unbound (.bytes content)) ∧
        Hex.encode content = text.toLower := by
    obtain ⟨content, read, written⟩ := Hex.exists_decode even digits
    exact ⟨content, by rw [run, decodeBytes, read]; rfl, written⟩
  have uneven (odd : bytes.length % 2 = 1) : outcome.1 = .error (.hex .oddLength) := by
    rw [run, decodeBytes, Hex.decode_of_odd odd]
    rfl
  have strange (even : bytes.length % 2 = 0) (some : ∃ byte ∈ bytes, ¬ Hex.IsDigit byte) :
      ∃ front bad rest, bytes = front ++ bad :: rest ∧ (∀ byte ∈ front, Hex.IsDigit byte) ∧
        ¬ Hex.IsDigit bad ∧ outcome.1 = .error (.hex (.invalidDigit bad front.length)) := by
    obtain ⟨byte, mem, other⟩ := some
    obtain ⟨front, bad, rest, shape, before, isOther, read⟩ :=
      Hex.exists_decode_error even mem other
    exact ⟨front, bad, rest, shape, before, isOther, by rw [run, decodeBytes, read]; rfl⟩
  -- Of the three, only the first one is a success.
  have pairs_of_ok {bound : Bound} (ok : outcome.1 = .ok bound) :
      bytes.length % 2 = 0 ∧ ∀ byte ∈ bytes, Hex.IsDigit byte := by
    rcases Nat.mod_two_eq_zero_or_one bytes.length with even | odd
    · refine ⟨even, ?_⟩
      by_contra some
      push Not at some
      obtain ⟨front, bad, -, -, -, -, failed⟩ := strange even some
      cases ok.symm.trans failed
    · cases ok.symm.trans (uneven odd)
  refine ⟨rfl, congrArg Prod.snd run, ⟨fun ⟨_, ok⟩ => pairs_of_ok ok, ?succeeds⟩, ?renders, uneven,
    strange, Hex.decode_encode⟩
  case succeeds =>
    rintro ⟨even, digits⟩
    obtain ⟨content, ok, -⟩ := good even digits
    exact ⟨_, ok⟩
  case renders =>
    intro bound ok
    obtain ⟨even, digits⟩ := pairs_of_ok ok
    obtain ⟨content, found, written⟩ := good even digits
    cases ok.symm.trans found
    refine ⟨content, rfl, fun heap depth => ?_⟩
    rw [Context.unbound, Value.toJson, Value.toJsonWithin, written]

end Command

end RemoteAgent
