import Mathlib.Data.List.Basic

/-!
# The bytes of a text

What is read and written byte by byte is the UTF-8 form of a text.  It comes character by character:
a character below U+0080 is one byte, its own number, and the bytes of every other character are
128 or more.  So a byte below 128 can only stand for the character with its number, which is what
lets a reader of bytes look for one.

## Main results

* `octets_eq`: the bytes of a text are those of its characters, one after the other.
* `exists_of_mem_octets`: a byte below 128 stands for the character with its number.
-/

namespace RemoteAgent.Text

/-- The bytes of a text. -/
def octets (text : String) : List UInt8 := text.toUTF8.toList

theorem toList_loop (bytes : ByteArray) (i : Nat) (front : List UInt8) :
    ByteArray.toList.loop bytes i front = front.reverse ++ bytes.data.toList.drop i := by
  fun_induction ByteArray.toList.loop bytes i front with
  | case1 i front inside ih =>
    have below : i < bytes.data.toList.length := inside
    have byte : bytes.get! i = bytes.data.toList[i] := by simp [ByteArray.get!, inside]
    rw [ih, byte, List.drop_eq_getElem_cons below]
    simp
  | case2 i front outside => rw [List.drop_eq_nil_of_le (Nat.not_lt.mp outside), List.append_nil]

theorem toList_eq (bytes : ByteArray) : bytes.toList = bytes.data.toList := by
  unfold ByteArray.toList
  rw [toList_loop]
  rfl

theorem octets_eq (text : String) : octets text = text.toList.flatMap String.utf8EncodeChar := by
  rw [octets, toList_eq, String.toUTF8_eq_toByteArray, ← String.utf8Encode_toList, List.utf8Encode,
    List.toList_data_toByteArray]

@[simp] theorem octets_append (front back : String) :
    octets (front ++ back) = octets front ++ octets back := by
  simp [octets_eq]

/-- The bytes are those of the text, and of no other. -/
theorem fromUTF8?_octets (text : String) :
    String.fromUTF8? (octets text).toByteArray = some text := by
  have bytes : (octets text).toByteArray = text.toUTF8 := by
    rw [octets, toList_eq]
    exact ByteArray.ext (by simp)
  rw [bytes]
  simp only [String.fromUTF8?, String.toUTF8_eq_toByteArray, dif_pos text.isValidUTF8]
  rfl

theorem utf8EncodeChar_of_lt {c : Char} (small : c.toNat < 128) :
    String.utf8EncodeChar c = [UInt8.ofNat c.toNat] := by
  unfold String.utf8EncodeChar
  exact if_pos (Nat.le_of_lt_succ small)

theorem le_of_mem_utf8EncodeChar {c : Char} (large : 128 ≤ c.toNat) {byte : UInt8}
    (mem : byte ∈ String.utf8EncodeChar c) : 128 ≤ byte.toNat := by
  have above : ¬ c.val.toNat ≤ 0x7f := Nat.not_le.mpr large
  have top : c.val.toNat < 0x110000 := by
    have valid := c.valid
    unfold UInt32.isValidChar Nat.isValidChar at valid
    omega
  unfold String.utf8EncodeChar at mem
  simp only [above, if_false] at mem
  -- Two, three or four bytes, all of them with the high bit.
  split at mem
  all_goals try split at mem
  all_goals
    simp only [List.mem_cons, List.not_mem_nil, or_false] at mem
    rcases mem with rfl | rfl | rfl | rfl
  all_goals
    rw [UInt8.toNat_ofNat']
    omega

/-- A byte below 128 stands for the character with its number. -/
theorem exists_of_mem_octets {text : String} {byte : UInt8} (mem : byte ∈ octets text)
    (small : byte.toNat < 128) : ∃ c ∈ text.toList, c.toNat = byte.toNat := by
  rw [octets_eq] at mem
  obtain ⟨c, inside, mem⟩ := List.mem_flatMap.mp mem
  refine ⟨c, inside, ?_⟩
  rcases Nat.lt_or_ge c.toNat 128 with below | large
  · rw [utf8EncodeChar_of_lt below, List.mem_singleton] at mem
    rw [mem, UInt8.toNat_ofNat']
    omega
  · exact absurd (le_of_mem_utf8EncodeChar large mem) (Nat.not_le.mpr small)

/-- Only characters below U+0080 have all their bytes below 128. -/
theorem lt_of_octets_lt {text : String} (small : ∀ byte ∈ octets text, byte.toNat < 128) :
    ∀ c ∈ text.toList, c.toNat < 128 := by
  intro c inside
  by_contra large
  obtain ⟨byte, mem⟩ := List.exists_mem_of_ne_nil _ (String.utf8EncodeChar_ne_nil (c := c))
  have below := small byte (octets_eq text ▸ List.mem_flatMap.mpr ⟨c, inside, mem⟩)
  exact absurd (le_of_mem_utf8EncodeChar (Nat.not_lt.mp large) mem) (Nat.not_le.mpr below)

/-- A text of characters below U+0080 has one byte for each of them. -/
theorem octets_of_lt {text : String} (small : ∀ c ∈ text.toList, c.toNat < 128) :
    octets text = text.toList.map fun c => UInt8.ofNat c.toNat := by
  rw [octets_eq]
  generalize text.toList = chars at small
  induction chars with
  | nil => rfl
  | cons c rest ih =>
    rw [List.flatMap_cons, utf8EncodeChar_of_lt (small c List.mem_cons_self),
      ih fun d mem => small d (List.mem_cons_of_mem c mem)]
    rfl

end RemoteAgent.Text
