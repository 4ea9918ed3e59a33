import Mathlib.Data.List.Forall2
import RemoteAgent.Json.Printer
import RemoteAgent.Json.Token

/-!
# Tokens read back

A writer of JSON puts the texts of its tokens one behind the other, and a reader has to find the
borders between them again.  A mark is one character, a word is known by its letters and a string
ends with its quote; these can stand before anything.  A numeral has no end of its own, it goes on
for as long as what follows may belong to it.

So what is said of a text here is how it is read in front of a rest that ends a numeral
(`Token.Reads`).  Such texts can be put together wherever a mark stands between two of them
(`Token.Reads.join`), which is all that a writer without blanks needs.

## Main definitions

* `Token.Lexes`: a text and its tokens.
* `Token.Reads`: a text that is read as some tokens, whatever stands behind it.
* `Numeral.ofInt`: the numeral of an integer.

## Main results

* `Token.reads_quote`: a text in quotes is read as that text.
* `Token.reads_int`: an integer is read as its numeral.
* `Numeral.toNumber?_ofInt`: the numeral of an integer in range has that integer as its number.
-/

namespace RemoteAgent

/-! ## Decimal digits -/

namespace Numeral

/-- The decimal digits of a number, the highest one first. -/
def decimal (n : Nat) : List Nat := (Nat.toDigits 10 n).map Json.Token.digitValue

/-- The numeral of an integer. -/
def ofInt (n : Int) : Numeral := ⟨decide (n < 0), decimal n.natAbs, [], none⟩

theorem decimal_of_lt {n : Nat} (small : n < 10) : decimal n = [n] := by
  simp [decimal, Nat.toDigits_of_lt_base small, Json.Token.digitValue,
    Nat.toNat_digitChar_sub_48_of_lt_ten small]

theorem decimal_of_le {n : Nat} (large : 10 ≤ n) :
    decimal n = decimal (n / 10) ++ [n % 10] := by
  have last : n % 10 < 10 := Nat.mod_lt n (by decide)
  simp [decimal, Nat.toDigits_of_base_le (by decide : 1 < 10) large, Json.Token.digitValue,
    Nat.toNat_digitChar_sub_48_of_lt_ten last]

theorem decimal_ne_nil (n : Nat) : decimal n ≠ [] := by
  simp [decimal]

/-- No number but zero starts with the digit zero. -/
theorem head?_decimal_ne_zero {n : Nat} (positive : 0 < n) : (decimal n).head? ≠ some 0 := by
  induction n using Nat.strongRecOn with
  | ind n ih =>
    rcases Nat.lt_or_ge n 10 with small | large
    · rw [decimal_of_lt small, List.head?_cons, ne_eq, Option.some_inj]
      exact Nat.pos_iff_ne_zero.mp positive
    · -- The first digit is the one of the number without its last digit.
      rw [decimal_of_le large, List.head?_append_of_ne_nil _ (decimal_ne_nil _)]
      exact ih (n / 10) (by omega) (by omega)

theorem natOfDigits_decimal (n : Nat) : Json.Token.natOfDigits (decimal n) = n := by
  induction n using Nat.strongRecOn with
  | ind n ih =>
    rcases Nat.lt_or_ge n 10 with small | large
    · simp [decimal_of_lt small, Json.Token.natOfDigits]
    · have front := ih (n / 10) (by omega)
      rw [Json.Token.natOfDigits] at front
      rw [decimal_of_le large, Json.Token.natOfDigits, List.foldl_append, front]
      exact Nat.div_add_mod' n 10

theorem le_foldl_digits (digits : List Nat) (n : Nat) :
    n ≤ digits.foldl (fun n d => n * 10 + d) n := by
  induction digits generalizing n with
  | nil => exact Nat.le_refl n
  | cons d rest ih => exact Nat.le_trans (by omega) (ih (n * 10 + d))

/-- No digit is turned away if all of them together fit. -/
theorem foldl_takeWhole {digits : List Nat} {n : Nat}
    (fits : digits.foldl (fun n d => n * 10 + d) n ≤ greatest) :
    digits.foldl Scaled.takeWhole ⟨n, 0, false⟩ =
      ⟨digits.foldl (fun n d => n * 10 + d) n, 0, false⟩ := by
  induction digits generalizing n with
  | nil => rfl
  | cons d rest ih =>
    have next : ¬ greatest < n * 10 + d :=
      Nat.not_lt.mpr (Nat.le_trans (le_foldl_digits rest _) fits)
    rw [List.foldl_cons, Scaled.takeWhole, if_neg (by simpa using next)]
    exact ih fits

theorem integerPart_ofInt {n : Int} (fits : n.natAbs ≤ greatest) :
    (ofInt n).integerPart = ⟨n.natAbs, 0, false⟩ := by
  have value := natOfDigits_decimal n.natAbs
  rw [Json.Token.natOfDigits] at value
  rw [integerPart, ofInt, foldl_takeWhole (by rwa [value]), value]

/-- **The numeral of an integer in range has that integer as its number.** -/
theorem toNumber?_ofInt {n : Int} (inRange : Number.InRange (.int n)) :
    (ofInt n).toNumber? = some (.int n) := by
  obtain ⟨least, most⟩ := inRange
  have fits : n.natAbs ≤ greatest := by
    rw [greatest]
    omega
  have whole : (ofInt n).toInt? = some n := by
    rw [toInt?, integerPart_ofInt fits]
    by_cases negative : n < 0
    · have size : 0 < n.natAbs ∧ n.natAbs ≤ 9223372036854775808 := by omega
      simp only [ofInt, negative, decide_true, and_self, if_true, if_pos size]
      exact congrArg some (by omega)
    · simp only [ofInt, negative, decide_false, and_self, if_true, Bool.false_eq_true, if_false]
      exact congrArg some (by omega)
  rw [toNumber?, whole]

end Numeral

namespace Json.Token

/-! ## Texts and their tokens -/

/-- A text is these tokens, with blanks anywhere between them. -/
inductive Lexes : List Char → List Token → Prop
  /-- No text has no tokens. -/
  | nil : Lexes [] []
  /-- A blank is no token. -/
  | blank {c : Char} {rest : List Char} {tokens : List Token} (blank : isBlank c = true)
      (others : Lexes rest tokens) : Lexes (c :: rest) tokens
  /-- A token takes one character at least. -/
  | token {c : Char} {more rest : List Char} {token : Token} {tokens : List Token}
      (visible : isBlank c = false) (first : next? (c :: more) = some (token, rest))
      (shorter : rest.length ≤ more.length) (others : Lexes rest tokens) :
      Lexes (c :: more) (token :: tokens)

theorem Lexes.scanWithin {text : List Char} {tokens : List Token} {limit : Nat}
    (lexes : Lexes text tokens) (enough : text.length ≤ limit) :
    scanWithin limit text = some tokens := by
  induction lexes generalizing limit with
  | nil => cases limit <;> rfl
  | blank blank _ ih =>
    cases limit with
    | zero => simp at enough
    | succ limit =>
      rw [Token.scanWithin, if_pos blank]
      exact ih (Nat.le_of_succ_le_succ enough)
  | token visible first shorter _ ih =>
    cases limit with
    | zero => simp at enough
    | succ limit =>
      have room := Nat.le_trans shorter (Nat.le_of_succ_le_succ enough)
      simp [Token.scanWithin, visible, first, ih room]

theorem Lexes.scan {text : String} {tokens : List Token} (lexes : Lexes text.toList tokens) :
    scan text = some tokens :=
  lexes.scanWithin (Nat.le_refl _)

/-- A numeral ends in front of such a text: nothing there could belong to it. -/
def EndsNumeral : List Char → Prop
  | [] => True
  | c :: _ => c.isDigit = false ∧ c ≠ '.' ∧ c ≠ 'e' ∧ c ≠ 'E'

/-- The text is read as these tokens in front of whatever ends a numeral. -/
def Reads (text : List Char) (tokens : List Token) : Prop :=
  ∀ ⦃rest : List Char⦄ ⦃others : List Token⦄, EndsNumeral rest → Lexes rest others →
    Lexes (text ++ rest) (tokens ++ others)

/-- The marks, each of them a token of one character. -/
inductive IsMark : Char → Token → Prop
  | openObject : IsMark '{' .openObject
  | closeObject : IsMark '}' .closeObject
  | openArray : IsMark '[' .openArray
  | closeArray : IsMark ']' .closeArray
  | comma : IsMark ',' .comma
  | colon : IsMark ':' .colon

section Reads

variable {c : Char} {token : Token} {text one two : List Char} {tokens front back : List Token}

/-- A mark can stand before anything. -/
theorem IsMark.lexes {rest : List Char} {others : List Token} (mark : IsMark c token)
    (lexes : Lexes rest others) : Lexes (c :: rest) (token :: others) := by
  apply Lexes.token _ _ (Nat.le_refl _) lexes
  · cases mark <;> rfl
  · cases mark <;> rfl

theorem IsMark.endsNumeral (mark : IsMark c token) (rest : List Char) :
    EndsNumeral (c :: rest) := by
  cases mark <;> exact ⟨rfl, by decide, by decide, by decide⟩

theorem Reads.lexes (reads : Reads text tokens) : Lexes text tokens := by
  have last : Lexes (text ++ []) (tokens ++ []) := reads trivial .nil
  rwa [List.append_nil, List.append_nil] at last

theorem Reads.nil : Reads [] [] := fun _ _ _ lexes => lexes

theorem Reads.cons (mark : IsMark c token) (reads : Reads text tokens) :
    Reads (c :: text) (token :: tokens) :=
  fun _ _ ends lexes => mark.lexes (reads ends lexes)

/-- A mark between two texts keeps them apart. -/
theorem Reads.join (former : Reads one front) (mark : IsMark c token) (latter : Reads two back) :
    Reads (one ++ c :: two) (front ++ token :: back) := by
  intro rest others ends lexes
  rw [List.append_assoc, List.append_assoc]
  exact former (mark.endsNumeral _) (mark.lexes (latter ends lexes))

/-- A text that is one token. -/
theorem reads_token {more : List Char} (visible : isBlank c = false)
    (first : ∀ rest, EndsNumeral rest → next? (c :: (more ++ rest)) = some (token, rest)) :
    Reads (c :: more) [token] := by
  intro rest others ends lexes
  exact .token visible (first rest ends) (by simp) lexes

end Reads

theorem reads_null : Reads "null".toList [.null] := reads_token rfl fun _ _ => rfl

theorem reads_bool (flag : Bool) : Reads (toString flag).toList [.bool flag] := by
  cases flag <;> exact reads_token rfl fun _ _ => rfl

/-! ## Numerals -/

theorem digits_append {text rest : List Char} (all : ∀ c ∈ text, c.isDigit = true)
    (ends : EndsNumeral rest) : digits (text ++ rest) = (text.map digitValue, rest) := by
  have stop : rest.takeWhile Char.isDigit = [] ∧ rest.dropWhile Char.isDigit = rest := by
    cases rest with
    | nil => exact ⟨rfl, rfl⟩
    | cons c rest => simp [ends.1]
  rw [digits, List.takeWhile_append_of_pos all, List.dropWhile_append_of_pos all, stop.1, stop.2,
    List.append_nil]

theorem integerPart?_toDigits (n : Nat) {rest : List Char} (ends : EndsNumeral rest) :
    integerPart? (Nat.toDigits 10 n ++ rest) = some (Numeral.decimal n, rest) := by
  have found : digits (Nat.toDigits 10 n ++ rest) = (Numeral.decimal n, rest) :=
    digits_append (fun _ mem => Nat.isDigit_of_mem_toDigits (by decide) (by decide) mem) ends
  rw [integerPart?, found]
  split
  · next none => exact absurd (congrArg Prod.fst none) (Numeral.decimal_ne_nil n)
  · next d digits _ leading =>
    have digitsEq : Numeral.decimal n = 0 :: d :: digits := congrArg Prod.fst leading
    rcases Nat.eq_zero_or_pos n with rfl | positive
    · cases digitsEq
    · exact absurd (by rw [digitsEq]; rfl) (Numeral.head?_decimal_ne_zero positive)
  · next same => exact congrArg some same.symm

theorem fraction?_of_endsNumeral {rest : List Char} (ends : EndsNumeral rest) :
    fraction? rest = some ([], rest) := by
  unfold fraction?
  split
  · exact absurd rfl ends.2.1
  · rfl

theorem exponent?_of_endsNumeral {rest : List Char} (ends : EndsNumeral rest) :
    exponent? rest = some (none, rest) := by
  cases rest with
  | nil => rfl
  | cons c rest => simp [exponent?, ends.2.2.1, ends.2.2.2]

theorem numeral?_toDigits (negative : Bool) (n : Nat) {rest : List Char}
    (ends : EndsNumeral rest) :
    numeral? negative (Nat.toDigits 10 n ++ rest) =
      some (.number ⟨negative, Numeral.decimal n, [], none⟩, rest) := by
  simp [numeral?, integerPart?_toDigits n ends, fraction?_of_endsNumeral ends,
    exponent?_of_endsNumeral ends]

/-- What starts with a digit is a numeral. -/
theorem next?_of_isDigit {c : Char} (digit : c.isDigit = true) (rest : List Char) :
    next? (c :: rest) = numeral? false (c :: rest) := by
  unfold next?
  split <;> first | rfl | (next same => cases same; cases digit)

theorem isBlank_of_isDigit {c : Char} (digit : c.isDigit = true) : isBlank c = false := by
  rw [Bool.eq_false_iff]
  intro blank
  simp only [isBlank, Bool.or_eq_true, beq_iff_eq] at blank
  rcases blank with ((rfl | rfl) | rfl) | rfl <;> cases digit

/-- **An integer is read as its numeral.** -/
theorem reads_int (n : Int) : Reads (toString n).toList [.number (.ofInt n)] := by
  rw [Int.toString_eq_repr, Int.repr_eq_if]
  by_cases negative : n < 0
  · have size : (-n).toNat = n.natAbs := by omega
    rw [if_neg (Int.not_le.mpr negative), String.toList_append, Nat.toList_repr, size]
    apply reads_token rfl
    intro rest ends
    show numeral? true (Nat.toDigits 10 n.natAbs ++ rest) = _
    rw [numeral?_toDigits true _ ends, Numeral.ofInt, decide_eq_true negative]
  · have size : n.toNat = n.natAbs := by omega
    rw [if_pos (Int.not_lt.mp negative), Nat.toList_repr, size]
    have number : ∀ rest, EndsNumeral rest → numeral? false (Nat.toDigits 10 n.natAbs ++ rest) =
        some (.number ⟨false, Numeral.decimal n.natAbs, [], none⟩, rest) :=
      fun _ ends => numeral?_toDigits false n.natAbs ends
    -- The first digit tells that it is a numeral.
    obtain ⟨c, more, shape⟩ := List.exists_cons_of_ne_nil (Nat.toDigits_ne_nil (n := n.natAbs))
    have digit : c.isDigit = true :=
      Nat.isDigit_of_mem_toDigits (b := 10) (by decide) (by decide) (shape ▸ List.mem_cons_self)
    rw [shape] at number ⊢
    apply reads_token (isBlank_of_isDigit digit)
    intro rest ends
    rw [next?_of_isDigit digit, Numeral.ofInt, decide_eq_false negative]
    exact number rest ends

/-! ## Strings -/

/-- A piece of a quoted string that is one character of its content.  A unit is so only if it is
small, since two large ones may be one character together. -/
inductive Piece.Is : Piece → Char → Prop
  | char (c : Char) : Is (.char c) c
  | unit {n : Nat} (small : n < 32) : Is (.unit n) (Char.ofNat n)

/-- A small unit is no half of a surrogate pair. -/
theorem characters?_unit {n : Nat} (small : n < 32) (rest : List Piece) :
    characters? (.unit n :: rest) = (characters? rest).map (Char.ofNat n :: ·) := by
  have notHigh : isHighSurrogate n = false := by
    simp only [isHighSurrogate, Bool.and_eq_false_iff, decide_eq_false_iff_not]
    omega
  have notLow : isLowSurrogate n = false := by
    simp only [isLowSurrogate, Bool.and_eq_false_iff, decide_eq_false_iff_not]
    omega
  rcases rest with _ | ⟨c | m, rest⟩ <;> simp [characters?, notHigh, notLow]

theorem characters?_of_forall₂ {pieces : List Piece} {text : List Char}
    (all : List.Forall₂ Piece.Is pieces text) : characters? pieces = some text := by
  induction all with
  | nil => rfl
  | cons piece _ ih =>
    cases piece with
    | char => rw [characters?, ih, Option.map_some]
    | unit small => rw [characters?_unit small, ih, Option.map_some]

/-- The two last digits of a control tell which one it is. -/
theorem hexUnit?_ofByte :
    ∀ n < 32, hexUnit? '0' '0' (Hex.digit (n.toUInt8 / 16)) (Hex.digit (n.toUInt8 % 16)) =
      some n := by
  decide

/-- A character that stands for itself. -/
theorem pieces?_cons {c : Char} (noQuote : c ≠ '"') (noEscape : c ≠ '\\')
    (visible : 32 ≤ c.toNat) (rest : List Char) :
    pieces? (c :: rest) = (pieces? rest).map fun found => (.char c :: found.1, found.2) := by
  have large : ¬ c.toNat < 32 := Nat.not_lt.mpr visible
  cases found : pieces? rest <;> simp [pieces?, noEscape, large, found]

/-- A character with a one-letter escape. -/
theorem pieces?_escaped {c escape : Char} (letter : escaped? escape = some c)
    (notUnit : escape ≠ 'u') (rest : List Char) :
    pieces? ('\\' :: escape :: rest) =
      (pieces? rest).map fun found => (.char c :: found.1, found.2) := by
  cases found : pieces? rest <;> simp [pieces?, notUnit, letter, found]

/-- A control that is given by its number. -/
theorem pieces?_ofByte {n : Nat} (small : n < 32) (rest : List Char) :
    pieces? (("\\u00" ++ Hex.ofByte n.toUInt8).toList ++ rest) =
      (pieces? rest).map fun found => (.unit n :: found.1, found.2) := by
  have digits : ("\\u00" ++ Hex.ofByte n.toUInt8).toList =
      ['\\', 'u', '0', '0', Hex.digit (n.toUInt8 / 16), Hex.digit (n.toUInt8 % 16)] := by
    simp [Hex.ofByte]
  rw [digits]
  cases found : pieces? rest <;> simp [pieces?, hexUnit?_ofByte n small, found]

/-- One character in quotes is one piece, and it is that character. -/
theorem pieces?_quoteChar (c : Char) (rest : List Char) :
    ∃ piece, Piece.Is piece c ∧
      pieces? ((quoteChar c).toList ++ rest) =
        (pieces? rest).map fun found => (piece :: found.1, found.2) := by
  unfold quoteChar escape?
  split
  iterate 7 exact ⟨_, .char _, pieces?_escaped rfl (by decide) rest⟩
  next noQuote noEscape _ _ _ _ _ =>
    split
    · next small =>
      exact ⟨_, by simpa using Piece.Is.unit small, pieces?_ofByte small rest⟩
    · next large =>
      have visible : 32 ≤ c.toNat := Nat.not_lt.mp large
      refine ⟨_, .char c, ?_⟩
      simpa using pieces?_cons noQuote noEscape visible rest

/-- A text in quotes is one piece for each character. -/
theorem pieces?_quoted (text rest : List Char) :
    ∃ pieces, List.Forall₂ Piece.Is pieces text ∧
      pieces? (text.flatMap (fun c => (quoteChar c).toList) ++ '"' :: rest) =
        some (pieces, rest) := by
  induction text with
  | nil => exact ⟨[], .nil, rfl⟩
  | cons c text ih =>
    obtain ⟨pieces, all, found⟩ := ih
    obtain ⟨piece, is, step⟩ :=
      pieces?_quoteChar c (text.flatMap (fun c => (quoteChar c).toList) ++ '"' :: rest)
    refine ⟨piece :: pieces, .cons is all, ?_⟩
    rw [List.flatMap_cons, List.append_assoc, step, found, Option.map_some]

theorem toList_quote (text : String) :
    (quote text).toList =
      '"' :: (text.toList.flatMap (fun c => (quoteChar c).toList) ++ ['"']) := by
  simp [quote, String.toList_join, List.flatMap_map]

/-- **A text in quotes is read as that text.** -/
theorem reads_quote (text : String) : Reads (quote text).toList [.string (some text)] := by
  rw [toList_quote]
  apply reads_token rfl
  intro rest _
  obtain ⟨pieces, all, found⟩ := pieces?_quoted text.toList rest
  have content : content? pieces = some text := by
    rw [content?, characters?_of_forall₂ all, Option.map_some, String.ofList_toList]
  have read : next? ('"' :: (text.toList.flatMap (fun c => (quoteChar c).toList) ++ '"' :: rest)) =
      some (.string (content? pieces), rest) := by
    show (pieces? _).map _ = _
    rw [found, Option.map_some]
  rw [List.append_assoc, List.singleton_append, read, content]

end Json.Token

end RemoteAgent
