import RemoteAgent.Codec
import RemoteAgent.Proofs.Lexing
import RemoteAgent.Proofs.Octets
import RemoteAgent.Proofs.Packet
import RemoteAgent.Transport.Lines

/-!
# Frames on lines

Where a stream of bytes carries the frames, each one stands on a line of its own.  A frame that held
a line feed would arrive as two, and one that ended in a carriage return would lose it.  Neither can
happen to the frames of an envelope: its text is plain (`Text.IsPlain`), which means that no
character is below U+0020.  Controls get into an envelope only inside of strings and keys, where
they are escaped, and every other piece of the text is made of digits and marks.  Cutting a payload
adds nothing to it, so the frames are plain, too.

A line feed is looked for among bytes, and a byte below 128 stands for the character with its number
(`Text.exists_of_mem_octets`), so a plain text has no byte that a reader of lines would take for an
end.

## Main results

* `Json.isPlain_render`: no text of a value has a character below U+0020.
* `Lines.read_write`: plain texts are read from their lines as they were written.
* `Codec.frames_on_lines`: the frames of some envelopes come out of a stream as they went in.
-/

namespace RemoteAgent

namespace Text

/-- Every character is U+0020 or above. -/
def IsPlain (text : String) : Prop := ∀ c ∈ text.toList, 32 ≤ c.toNat

instance (text : String) : Decidable (IsPlain text) :=
  List.decidableBAll (fun c : Char => 32 ≤ c.toNat) text.toList

@[simp] theorem isPlain_append {front back : String} :
    IsPlain (front ++ back) ↔ IsPlain front ∧ IsPlain back := by
  simp [IsPlain, or_imp, forall_and]

theorem isPlain_ofList {chars : List Char} :
    IsPlain (String.ofList chars) ↔ ∀ c ∈ chars, 32 ≤ c.toNat := by
  rw [IsPlain, String.toList_ofList]

theorem le_of_mem_toDigits {n : Nat} {c : Char} (mem : c ∈ Nat.toDigits 10 n) : 32 ≤ c.toNat := by
  have digit := Nat.isDigit_of_mem_toDigits (by decide) (by decide) mem
  exact Nat.le_trans (by decide) (Char.isDigit_iff_toNat.mp digit).1

theorem isPlain_toString_nat (n : Nat) : IsPlain (toString n) := by
  intro c mem
  rw [Nat.toString_eq_repr, Nat.toList_repr] at mem
  exact le_of_mem_toDigits mem

theorem isPlain_toString_int (n : Int) : IsPlain (toString n) := by
  rw [Int.toString_eq_repr, Int.repr_eq_if]
  split
  · exact isPlain_toString_nat n.toNat
  · exact isPlain_append.mpr ⟨by decide, isPlain_toString_nat (-n).toNat⟩

/-- A byte of a plain text is no control. -/
theorem IsPlain.le_of_mem_octets {text : String} (plain : IsPlain text) {byte : UInt8}
    (mem : byte ∈ octets text) : 32 ≤ byte.toNat := by
  rcases Nat.lt_or_ge byte.toNat 128 with small | large
  · obtain ⟨c, inside, number⟩ := exists_of_mem_octets mem small
    exact number ▸ plain c inside
  · omega

end Text

open Text

/-! ## Numbers -/

/-- The digits of a decimal are plain, and so is what a layout puts between them if its endings
are. -/
theorem DecimalLayout.isPlain_write (layout : DecimalLayout) (whole : IsPlain layout.wholeEnding)
    (positive : IsPlain layout.positivePower) (negative : IsPlain layout.negativePower)
    (d : Decimal) : IsPlain (layout.write d) := by
  have digit : ∀ c ∈ Nat.toDigits 10 d.digits, 32 ≤ c.toNat := fun c => le_of_mem_toDigits
  have zero : ∀ {n : Nat}, ∀ c ∈ List.replicate n '0', 32 ≤ c.toNat := by
    intro n c mem
    rw [List.eq_of_mem_replicate mem]
    decide
  have point : 32 ≤ '.'.toNat := by decide
  unfold write
  generalize Nat.toDigits 10 d.digits = digits at digit
  simp only
  split
  · split
    · rw [isPlain_append, isPlain_ofList, List.forall_mem_append]
      exact ⟨⟨digit, zero⟩, whole⟩
    · split
      · rw [isPlain_ofList, List.forall_mem_append, List.forall_mem_cons]
        exact ⟨fun c mem => digit c (List.mem_of_mem_take mem), point,
          fun c mem => digit c (List.mem_of_mem_drop mem)⟩
      · simp only [isPlain_ofList, List.cons_append, List.forall_mem_cons, List.forall_mem_append]
        exact ⟨by decide, point, zero, digit⟩
  · rw [isPlain_append, isPlain_append]
    refine ⟨⟨?mantissa, ?mark⟩, isPlain_toString_nat _⟩
    case mantissa =>
      match digits with
      | [] => decide
      | [single] => exact isPlain_ofList.mpr digit
      | first :: second :: rest =>
        rw [isPlain_ofList, List.forall_mem_cons, List.forall_mem_cons]
        exact ⟨digit first List.mem_cons_self, point,
          fun c mem => digit c (List.mem_cons_of_mem first mem)⟩
    case mark =>
      split
      · exact negative
      · exact positive

theorem Number.isPlain_render (n : Number) : IsPlain n.render := by
  cases n with
  | int n => exact isPlain_toString_int n
  | float x =>
    have text : IsPlain (if x.isZero then "0.0" else layout.write (Decimal.shortest x)) := by
      split
      · decide
      · exact layout.isPlain_write (by decide) (by decide) (by decide) _
    unfold render renderFloat
    simp only
    split
    · exact isPlain_append.mpr ⟨by decide, text⟩
    · exact text

namespace Json

/-! ## Values -/

/-- The two digits of a control. -/
theorem isPlain_ofByte : ∀ n < 32, IsPlain (Hex.ofByte n.toUInt8) := by decide

/-- A character in quotes, whichever it is. -/
theorem isPlain_quoteChar (c : Char) : IsPlain (quoteChar c) := by
  unfold quoteChar escape?
  split
  iterate 7 decide
  split
  · next control =>
    rw [Option.getD_some, isPlain_append]
    exact ⟨by decide, isPlain_ofByte c.toNat control⟩
  · next visible =>
    rw [Option.getD_none, IsPlain, String.toList_singleton, List.forall_mem_singleton]
    exact Nat.not_lt.mp visible

theorem isPlain_quote (text : String) : IsPlain (quote text) := by
  rw [IsPlain, Token.toList_quote, List.forall_mem_cons, List.forall_mem_append,
    List.forall_mem_flatMap, List.forall_mem_singleton]
  exact ⟨by decide, fun c _ => isPlain_quoteChar c, by decide⟩

mutual

/-- **No text of a value has a character below U+0020**, however its values are nested and whatever
its strings and keys are. -/
theorem isPlain_render : ∀ value : Json, IsPlain (render value)
  | .null => by decide
  | .bool true => by decide
  | .bool false => by decide
  | .number n => n.isPlain_render
  | .string text => isPlain_quote text
  | .array items => by
    rw [render, isPlain_append, isPlain_append]
    exact ⟨⟨by decide, isPlain_renderItems items⟩, by decide⟩
  | .object fields => by
    rw [render, isPlain_append, isPlain_append]
    exact ⟨⟨by decide, isPlain_renderFields fields⟩, by decide⟩

theorem isPlain_renderItems : ∀ items : List Json, IsPlain (renderItems items)
  | [] => by decide
  | [item] => isPlain_render item
  | item :: second :: rest => by
    rw [renderItems, isPlain_append, isPlain_append]
    · exact ⟨⟨isPlain_render item, by decide⟩, isPlain_renderItems (second :: rest)⟩
    · exact List.cons_ne_nil second rest

theorem isPlain_renderFields : ∀ fields : List (String × Json), IsPlain (renderFields fields)
  | [] => by decide
  | [(key, value)] => by
    rw [renderFields, isPlain_append, isPlain_append]
    exact ⟨⟨isPlain_quote key, by decide⟩, isPlain_render value⟩
  | (key, value) :: second :: rest => by
    rw [renderFields, isPlain_append, isPlain_append, isPlain_append, isPlain_append]
    · exact ⟨⟨⟨⟨isPlain_quote key, by decide⟩, isPlain_render value⟩, by decide⟩,
        isPlain_renderFields (second :: rest)⟩
    · exact List.cons_ne_nil second rest

end

end Json

/-! ## Frames -/

namespace Frame

/-- What a frame holds is in the text that the frames hold together. -/
theorem isPlain_payload {frames : List Frame} (plain : IsPlain (text frames)) {frame : Frame}
    (mem : frame ∈ frames) : IsPlain frame.payload := by
  induction frames with
  | nil => cases mem
  | cons first rest ih =>
    rw [text_cons, isPlain_append] at plain
    rcases List.mem_cons.mp mem with rfl | mem
    · exact plain.1
    · exact ih plain.2 mem

/-- The frames of a plain payload are plain. -/
theorem isPlain_encode_of_mem_chunks {limit : Nat} {payload : String} (plain : IsPlain payload)
    {frame : Frame} (mem : frame ∈ chunks limit payload) : IsPlain frame.encode := by
  rw [← text_chunks limit payload] at plain
  refine isPlain_append.mpr ⟨?_, isPlain_payload plain mem⟩
  cases frame.kind <;> decide

end Frame

/-! ## Lines -/

namespace Lines

theorem octets_write (text : String) : (write text).toList = octets text ++ [lineFeed] := by
  have feed : octets "\n" = [lineFeed] := by rw [octets_eq]; rfl
  show octets (text ++ "\n") = _
  rw [octets_append, feed]

/-- A line goes up to its line feed. -/
theorem cut_line {line : List UInt8} (noFeed : lineFeed ∉ line) (held rest : List UInt8) :
    cut held (line ++ lineFeed :: rest) =
      ((held.reverse ++ line) :: (cut [] rest).1, (cut [] rest).2) := by
  induction line generalizing held with
  | nil => simp [cut]
  | cons byte line ih =>
    obtain ⟨other, noFeed⟩ := List.ne_and_not_mem_of_not_mem_cons noFeed
    rw [List.cons_append, cut, if_neg other.symm, ih noFeed, List.reverse_cons, List.append_assoc,
      List.singleton_append]

/-- A reader that stops somewhere and goes on there gets the same lines. -/
theorem cut_append (held front rest : List UInt8) :
    cut held (front ++ rest) =
      ((cut held front).1 ++ (cut (cut held front).2 rest).1, (cut (cut held front).2 rest).2) := by
  fun_induction cut held front with
  | case1 held => rfl
  | case2 held front lines held' step ih => simp_all [cut]
  | case3 held byte front other ih => rw [List.cons_append, cut, if_neg other, ih]

theorem withoutReturn_of_notMem {line : List UInt8} (noReturn : carriageReturn ∉ line) :
    withoutReturn line = line := by
  unfold withoutReturn
  split
  · next empty => rw [List.reverse_eq_nil_iff.mp empty]
  · next byte rest reversed =>
    have inside : byte ∈ line := List.mem_reverse.mp (reversed ▸ List.mem_cons_self)
    exact if_neg fun same : byte = carriageReturn => noReturn (same ▸ inside)

/-- The bytes of a plain text are neither of those that are part of the end of a line. -/
theorem notMem_octets {text : String} (plain : IsPlain text) :
    lineFeed ∉ octets text ∧ carriageReturn ∉ octets text :=
  ⟨fun mem => absurd (plain.le_of_mem_octets mem) (by decide),
    fun mem => absurd (plain.le_of_mem_octets mem) (by decide)⟩

theorem cut_write {texts : List String} (plain : ∀ text ∈ texts, IsPlain text) :
    cut [] (texts.flatMap fun text => (write text).toList) = (texts.map octets, []) := by
  induction texts with
  | nil => rfl
  | cons text rest ih =>
    obtain ⟨noFeed, -⟩ := notMem_octets (plain text List.mem_cons_self)
    rw [List.flatMap_cons, octets_write, List.append_assoc, List.singleton_append,
      cut_line noFeed, ih fun other mem => plain other (List.mem_cons_of_mem text mem)]
    rfl

theorem ended_write {texts : List String} (plain : ∀ text ∈ texts, IsPlain text) :
    ended (texts.flatMap fun text => (write text).toList) = texts.map some := by
  rw [ended, cut_write plain, List.map_map]
  refine List.map_congr_left fun text mem => ?_
  rw [Function.comp_apply, withoutReturn_of_notMem (notMem_octets (plain text mem)).2]
  exact fromUTF8?_octets text

/-- **Plain texts are read from their lines as they were written.** -/
theorem read_write {texts : List String} (plain : ∀ text ∈ texts, IsPlain text) :
    read (texts.flatMap fun text => (write text).toList) = texts.map some := by
  rw [read, cut_write plain]
  exact ended_write plain

/-- What has ended in a part of a stream stands first in the whole. -/
theorem ended_prefix (front rest : List UInt8) : ended front <+: ended (front ++ rest) := by
  rw [ended, ended, cut_append, List.map_append]
  exact List.prefix_append _ _

end Lines

/-- **The frames of some envelopes come out of a stream as they went in.**  Whatever the strings and
the keys of the envelopes are, their texts have no character below U+0020, and no frame has a line
feed or a carriage return.  So a reader of lines gets every frame for itself and whole; and as long
as the stream has not come in to its end, it has got the first of them. -/
theorem Codec.frames_on_lines (sends : List (Framer × Json)) :
    let frames := sends.flatMap fun send => send.1.chunks (encode send.2)
    let stream := frames.flatMap fun frame => (Lines.write frame.encode).toList
    let texts := frames.map fun frame => some frame.encode
    (∀ send ∈ sends, ∀ c ∈ (encode send.2).toList, 32 ≤ c.toNat) ∧
    (∀ frame ∈ frames, '\n' ∉ frame.encode.toList ∧ '\r' ∉ frame.encode.toList) ∧
    Lines.read stream = texts ∧
    ∀ front, front <+: stream → Lines.ended front <+: texts := by
  intro frames stream texts
  have plain : ∀ frame ∈ frames, IsPlain frame.encode := by
    intro frame mem
    obtain ⟨⟨framer, envelope⟩, -, mem⟩ := List.mem_flatMap.mp mem
    exact Frame.isPlain_encode_of_mem_chunks (Json.isPlain_render envelope) mem
  have each : ∀ text ∈ frames.map Frame.encode, IsPlain text := List.forall_mem_map.mpr plain
  have lines : stream =
      (frames.map Frame.encode).flatMap fun text => (Lines.write text).toList := by
    rw [List.flatMap_map]
  have contents : texts = (frames.map Frame.encode).map some := (List.map_map ..).symm
  rw [lines, contents]
  refine ⟨fun send _ => Json.isPlain_render send.2, fun frame mem => ⟨?_, ?_⟩,
    Lines.read_write each, ?_⟩
  · exact fun feed => absurd (plain frame mem _ feed) (by decide)
  · exact fun ret => absurd (plain frame mem _ ret) (by decide)
  · rintro front ⟨rest, whole⟩
    rw [← Lines.ended_write each, ← whole]
    exact Lines.ended_prefix front rest

/-- A line feed in a key and a carriage return in a string, cut inside their escapes. -/
example :
    ((Framer.new 5 ⟨0⟩ ⟨0⟩ ⟨0⟩).chunks
      (Codec.encode (.object [("\n", .string "\r\x00")]))).map Frame.encode =
      ["C\x7b\"\\n\"", "C:\"\\r\\", "Cu0000", "F\"\x7d"] := by
  decide

end RemoteAgent
