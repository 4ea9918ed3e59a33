import Mathlib.Algebra.Order.Floor.Div
import RemoteAgent.Proofs.Packet

/-!
# Packets in pieces

On the wire a packet is any number of slices and a last piece that closes it.  `Pieces` is that and
no more: the sender decides how long the slices are, and the receiver takes them as they come.

A payload is cut into an exact partition (`Pieces.Partition`), of which there is only one number of
pieces (`Pieces.Partition.count`).  A frame is closed one character late, when the next one is there
to follow, so the induction is over the characters together with those that are held back for the
frame that is not closed yet: what is held and the room that is left make a full frame.

A receiver may get acknowledgments and texts that it cannot read between the frames of a packet, and
does not get confused by them.  `Interspersed` is a stream of frames with such noise in it.  What
carries the induction is that the receiver's buffer and the packets that are out are the `Assembly`
of the frames alone.

## Main results

* `Framer.chunks_partition`: the frames of a payload are an exact partition of it.
* `Framer.reassembles`: packets come out as they are, whatever noise is among their frames.
-/

namespace RemoteAgent

/-- A packet in pieces: slices that are acknowledged, and the last piece, which closes it. -/
structure Pieces where
  /-- The slices, in their order. -/
  slices : List String
  /-- The last piece. -/
  last : String

namespace Pieces

/-- The frames that carry the pieces. -/
def frames (pieces : Pieces) : List Frame :=
  pieces.slices.map (⟨.more, ·⟩) ++ [⟨.final, pieces.last⟩]

/-- The pieces put together. -/
def text (pieces : Pieces) : String := pieces.slices.foldr (· ++ ·) pieces.last

theorem isTail_frames (pieces : Pieces) : Frame.IsTail pieces.frames := by
  obtain ⟨slices, last⟩ := pieces
  induction slices with
  | nil => exact .final last
  | cons slice rest ih => exact .more slice ih

@[simp] theorem text_frames (pieces : Pieces) : Frame.text pieces.frames = pieces.text := by
  obtain ⟨slices, last⟩ := pieces
  induction slices with
  | nil => simp [frames, text]
  | cons slice rest ih => exact congrArg (slice ++ ·) ih

/-! ## Cutting -/

/-- The pieces are a payload that was cut wherever `limit` characters were full and another one
followed. -/
structure Partition (limit : Nat) (pieces : Pieces) (payload : List Char) : Prop where
  /-- Every slice is full. -/
  full : ∀ slice ∈ pieces.slices, slice.length = limit
  /-- The last piece fits into a frame. -/
  last_le : pieces.last.length ≤ limit
  /-- Only where there is nothing to send is the last piece empty. -/
  one_le_last : payload ≠ [] → 1 ≤ pieces.last.length
  /-- Every character is in one of the pieces, and they come in their order. -/
  whole : pieces.slices.flatMap String.toList ++ pieces.last.toList = payload

namespace Partition

variable {limit : Nat} {pieces : Pieces} {payload : List Char}

/-- Behind a full slice, at least one character follows. -/
theorem cons (partition : pieces.Partition limit payload) (something : payload ≠ [])
    {slice : List Char} (full : slice.length = limit) :
    Partition limit ⟨String.ofList slice :: pieces.slices, pieces.last⟩ (slice ++ payload) where
  full := by
    intro other mem
    rcases List.mem_cons.mp mem with rfl | mem
    · simpa using full
    · exact partition.full other mem
  last_le := partition.last_le
  one_le_last _ := partition.one_le_last something
  whole := by simp [partition.whole]

/-- How many characters there are. -/
theorem length_eq (partition : pieces.Partition limit payload) :
    pieces.slices.length * limit + pieces.last.length = payload.length := by
  have slices : (pieces.slices.flatMap String.toList).length = pieces.slices.length * limit := by
    rw [List.length_flatMap, List.map_congr_left (g := fun _ => limit)]
    · simp
    · intro slice mem
      rw [String.length_toList]
      exact partition.full slice mem
  rw [← partition.whole, List.length_append, slices, String.length_toList]

/-- **How many pieces there are**: as many as it takes, and one if there is nothing to send. -/
theorem count (partition : pieces.Partition limit payload) (positive : 0 < limit) :
    pieces.slices.length + 1 = max 1 (payload.length ⌈/⌉ limit) := by
  have length := partition.length_eq
  rw [Nat.ceilDiv_eq_add_pred_div, ← length]
  cases payload with
  | nil =>
    obtain ⟨none, empty⟩ : pieces.slices.length = 0 ∧ pieces.last.length = 0 := by
      rw [List.length_nil] at length
      have := Nat.add_eq_zero_iff.mp length
      simpa [positive.ne'] using this
    simp [none, empty, Nat.div_eq_of_lt (Nat.sub_lt positive Nat.one_pos)]
  | cons first rest =>
    have some := partition.one_le_last (List.cons_ne_nil first rest)
    have fits := partition.last_le
    -- The last piece has between one and `limit` characters, so one more frame is not enough.
    have quotient : (pieces.slices.length * limit + pieces.last.length + limit - 1) / limit =
        pieces.slices.length + 1 := by
      apply Nat.div_eq_of_lt_le
      · rw [Nat.add_mul]
        omega
      · rw [Nat.add_mul, Nat.add_mul]
        omega
    rw [quotient]
    omega

end Partition

/-- The rest of a payload is cut into a partition of it, together with the characters that are held
for the next frame. -/
theorem exists_partition_cut {limit : Nat} (positive : 0 < limit) {room : Nat} {held : List Char}
    (space : held.length + room = limit) (rest : List Char) :
    ∃ pieces : Pieces, Frame.cut limit room held rest = pieces.frames ∧
      pieces.Partition limit (held.reverse ++ rest) := by
  fun_induction Frame.cut limit room held rest with
  | case1 room held =>
    refine ⟨⟨[], String.ofList held.reverse⟩, rfl, ?_⟩
    constructor
    · simp
    · rw [String.length_ofList, List.length_reverse]
      omega
    · intro something
      rw [String.length_ofList]
      exact List.length_pos_iff.mpr (by simpa using something)
    · simp
  | case2 held c rest ih =>
    -- The frame is full, and the character behind it is the first one of the next.
    obtain ⟨pieces, cut, partition⟩ := ih (by simp only [List.length_singleton]; omega)
    have full : held.reverse.length = limit := by
      rw [List.length_reverse]
      exact space
    exact ⟨_, congrArg (_ :: ·) cut, partition.cons (by simp) full⟩
  | case3 room held c rest ih =>
    obtain ⟨pieces, cut, partition⟩ := ih (by simp only [List.length_cons]; omega)
    refine ⟨pieces, cut, ?_⟩
    simpa using partition

end Pieces

/-- **The frames of a payload are an exact partition of it.**  Every slice holds as many characters
as fit into a frame, the last frame holds the one to `limit` characters that are left, and nothing
is sent twice or left out.  A limit of zero counts as one. -/
theorem Framer.chunks_partition (limit : Nat) (lockTimeout lockPoll ackTimeout : Duration)
    (payload : String) :
    ∃ pieces : Pieces,
      (Framer.new limit lockTimeout lockPoll ackTimeout).chunks payload = pieces.frames ∧
      pieces.Partition (max 1 limit) payload.toList ∧
      pieces.frames.length = max 1 (payload.length ⌈/⌉ max 1 limit) := by
  have positive : 0 < max 1 limit := Nat.le_max_left 1 limit
  have space : ([] : List Char).length + max 1 limit = max 1 limit := Nat.zero_add _
  obtain ⟨pieces, cut, partition⟩ := Pieces.exists_partition_cut positive space payload.toList
  rw [List.reverse_nil, List.nil_append] at partition
  refine ⟨pieces, cut, partition, ?_⟩
  rw [← String.length_toList, ← partition.count positive]
  simp [Pieces.frames]

/-- Characters of several bytes stay whole, and a full frame at the end is the last one. -/
example : (Framer.new 2 ⟨0⟩ ⟨0⟩ ⟨0⟩).chunks "hé日€" = [⟨.more, "hé"⟩, ⟨.final, "日€"⟩] := by
  decide

/-! ## Texts among the frames -/

/-- A text whose first character indicates no kind of frame, or that has no character. -/
def Frame.IsUnreadable (text : String) : Prop :=
  ∀ kind : FrameKind, text.toList.head? ≠ some kind.indicator

/-- A text that carries no part of a packet. -/
inductive Frame.IsNoise : String → Prop
  /-- An acknowledgment, with anything behind its indicator. -/
  | acknowledgment (payload : String) : IsNoise (encode ⟨.acknowledge, payload⟩)
  /-- A text that cannot be read. -/
  | unreadable {text : String} (unreadable : IsUnreadable text) : IsNoise text

/-- The frames in their order, with noise put in anywhere. -/
inductive Interspersed : List Frame → List String → Prop
  | nil : Interspersed [] []
  | frame (frame : Frame) {frames : List Frame} {texts : List String}
      (rest : Interspersed frames texts) : Interspersed (frame :: frames) (frame.encode :: texts)
  | noise {text : String} (noise : Frame.IsNoise text) {frames : List Frame} {texts : List String}
      (rest : Interspersed frames texts) : Interspersed frames (text :: texts)

/-- What a text is answered, by the kind of frame that it is. -/
inductive Frame.Answers : String → Except TransportError Received → Prop
  | slice (payload : String) : Answers (encode ⟨.more, payload⟩) (.ok .continued)
  | last (payload packet : String) : Answers (encode ⟨.final, payload⟩) (.ok (.packet packet))
  | acknowledgment (payload : String) {received : Received}
      (heard : received = .acknowledged ∨ received = .strayAcknowledgment) :
      Answers (encode ⟨.acknowledge, payload⟩) (.ok received)
  | unreadable {text : String} (unreadable : IsUnreadable text) :
      Answers text (.error (.unknownIndicator (Text.firstChars excerptLength text)))

namespace Frame

/-- Only slices are kept. -/
theorem Answers.exists_slice {text : String} (answers : Answers text (.ok .continued)) :
    ∃ payload, text = encode ⟨.more, payload⟩ := by
  cases answers with
  | slice payload => exact ⟨payload, rfl⟩
  | acknowledgment payload heard => rcases heard with heard | heard <;> cases heard

/-- No kind is indicated by a character that is not an indicator. -/
theorem parse_of_isUnreadable {text : String} (unreadable : IsUnreadable text) :
    parse text = .error (.unknownIndicator (Text.firstChars excerptLength text)) := by
  unfold parse
  cases characters : text.toList with
  | nil => rfl
  | cons first rest =>
    have unknown : FrameKind.ofIndicator? first = none := by
      rw [FrameKind.ofIndicator?, List.find?_eq_none]
      intro kind _
      have other := unreadable kind
      rw [characters, List.head?_cons] at other
      simpa [eq_comm] using other
    simp [unknown]

/-- A text that indicates a kind is the text of a frame. -/
theorem exists_encode_of_not_isUnreadable {text : String} (readable : ¬ IsUnreadable text) :
    ∃ frame : Frame, text = frame.encode := by
  obtain ⟨kind, indicated⟩ := not_forall.mp readable
  have head := not_ne_iff.mp indicated
  obtain ⟨rest, characters⟩ := List.head?_eq_some_iff.mp head
  refine ⟨⟨kind, String.ofList rest⟩, String.toList_injective ?_⟩
  simp [encode, characters]

end Frame

namespace Framer

/-- What cannot be read changes nothing. -/
theorem receive_of_isUnreadable (p : Framer) {text : String}
    (unreadable : Frame.IsUnreadable text) :
    p.receive text =
      (.error (.unknownIndicator (Text.firstChars Frame.excerptLength text)), p) := by
  rw [receive, Frame.parse_of_isUnreadable unreadable]

/-- Noise changes nothing about the packet that is coming in, and completes none. -/
theorem receive_of_isNoise (p : Framer) {text : String} (noise : Frame.IsNoise text) :
    packetOf? (p.receive text).1 = none ∧ (p.receive text).2.buffer = p.buffer := by
  cases noise with
  | acknowledgment payload =>
    rw [receive, Frame.parse_encode]
    cases p.acknowledgment <;> exact ⟨rfl, rfl⟩
  | unreadable unreadable =>
    rw [p.receive_of_isUnreadable unreadable]
    exact ⟨rfl, rfl⟩

/-- Every text is answered as its kind demands. -/
theorem answers_receive (p : Framer) (text : String) : Frame.Answers text (p.receive text).1 := by
  by_cases unreadable : Frame.IsUnreadable text
  · rw [p.receive_of_isUnreadable unreadable]
    exact .unreadable unreadable
  · obtain ⟨⟨kind, payload⟩, rfl⟩ := Frame.exists_encode_of_not_isUnreadable unreadable
    rw [receive, Frame.parse_encode]
    cases kind with
    | more => exact .slice payload
    | final => exact .last payload _
    | acknowledge =>
      cases p.acknowledgment with
      | awaited => exact .acknowledgment payload (.inl rfl)
      | none => exact .acknowledgment payload (.inr rfl)
      | arrived => exact .acknowledgment payload (.inr rfl)

theorem answers_receiveAll (p : Framer) (texts : List String) :
    List.Forall₂ Frame.Answers texts (p.receiveAll texts).1 := by
  induction texts generalizing p with
  | nil => exact .nil
  | cons text rest ih => exact .cons (p.answers_receive text) (ih _)

theorem receiveAll_append_snd (p : Framer) (front rest : List String) :
    (p.receiveAll (front ++ rest)).2 = ((p.receiveAll front).2.receiveAll rest).2 := by
  induction front generalizing p with
  | nil => rfl
  | cons text front ih => exact ih _

/-- **What comes in is put together as if there were no noise.** -/
theorem receiveAll_of_interspersed (p : Framer) (packets : List String) {frames : List Frame}
    {texts : List String} (interspersed : Interspersed frames texts) :
    Assembly.takeAll ⟨packets, p.buffer⟩ frames =
      ⟨packets ++ (p.receiveAll texts).1.filterMap packetOf?, (p.receiveAll texts).2.buffer⟩ := by
  induction interspersed generalizing p packets with
  | nil => simp [receiveAll]
  | frame frame rest ih =>
    rw [Assembly.takeAll_cons, receive_encode, ih]
    cases answer : packetOf? (p.receive frame.encode).1 <;> simp [receiveAll, answer]
  | noise noise rest ih =>
    obtain ⟨none, same⟩ := p.receive_of_isNoise noise
    rw [← same, ih]
    simp [receiveAll, none]

end Framer

/-- Packets in pieces are put together one after the other. -/
theorem Assembly.takeAll_pieces (packets : List String) (incoming : List Pieces) :
    takeAll ⟨packets, ""⟩ (incoming.flatMap Pieces.frames) =
      ⟨packets ++ incoming.map Pieces.text, ""⟩ := by
  induction incoming generalizing packets with
  | nil => simp
  | cons pieces rest ih =>
    rw [List.flatMap_cons, takeAll_append, takeAll_tail _ pieces.isTail_frames, ih]
    simp

/-- **Noise makes no difference to a receiver.**  Whatever acknowledgments and unreadable texts come
in between the frames of some packets, these packets are handed out, in their order and each with
its last frame; every text is answered as its kind demands, and the buffer is empty behind every
last frame. -/
theorem Framer.reassembles (p : Framer) (fresh : p.buffer = "") {packets : List Pieces}
    {texts : List String} (interspersed : Interspersed (packets.flatMap Pieces.frames) texts) :
    (p.receiveAll texts).1.filterMap packetOf? = packets.map Pieces.text ∧
    List.Forall₂ Frame.Answers texts (p.receiveAll texts).1 ∧
    ∀ front payload, (p.receiveAll (front ++ [Frame.encode ⟨.final, payload⟩])).2.buffer = "" := by
  refine ⟨?_, p.answers_receiveAll texts, ?_⟩
  · have taken := p.receiveAll_of_interspersed [] interspersed
    rw [fresh, Assembly.takeAll_pieces] at taken
    simpa using (congrArg Assembly.packets taken).symm
  · intro front payload
    rw [receiveAll_append_snd]
    simp [receiveAll, receive]

/-- Two packets, the second of one piece, with noise in front of, between and behind frames. -/
theorem Framer.reassembles_amid_noise :
    let p := Framer.new 4 ⟨0⟩ ⟨0⟩ ⟨0⟩
    let texts := [Frame.encode ⟨.acknowledge, "9"⟩, Frame.encode ⟨.more, "é"⟩, "", "日C",
      Frame.encode ⟨.final, ""⟩, Frame.encode ⟨.final, "x"⟩, "c"]
    p.buffer = "" ∧ Interspersed ([⟨["é"], ""⟩, ⟨[], "x"⟩].flatMap Pieces.frames) texts ∧
      (p.receiveAll texts).1.filterMap packetOf? = ["é", "x"] := by
  intro p texts
  have unreadable : ∀ text ∈ ["", "日C", "c"], Frame.IsNoise text := by
    intro text mem
    refine .unreadable fun kind => ?_
    revert text
    cases kind <;> decide
  have interspersed : Interspersed ([⟨["é"], ""⟩, ⟨[], "x"⟩].flatMap Pieces.frames) texts :=
    .noise (.acknowledgment "9") <| .frame _ <| .noise (unreadable "" (by simp)) <|
      .noise (unreadable "日C" (by simp)) <| .frame _ <| .frame _ <|
      .noise (unreadable "c" (by simp)) .nil
  refine ⟨rfl, interspersed, ?_⟩
  rw [(reassembles p rfl interspersed).1]
  decide

end RemoteAgent
