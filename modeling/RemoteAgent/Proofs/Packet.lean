import Mathlib.Data.List.Basic
import Mathlib.Tactic.ByContra
import RemoteAgent.Framer

/-!
# Packets and their frames

What the wire does to a payload, taken alone: a frame is read back as it was written
(`Frame.parse_encode`), the frames of a payload are slices closed by one final frame
(`Frame.isTail_chunks`) whose texts put together are the payload (`Frame.text_chunks`), and no
slice is empty (`Frame.payload_ne_empty_of_mem_chunks`).

## The receiver as a fold

A receiver does nothing but append slices and hand out packets, so what it has after some frames is
a fold over them, `Assembly.ofFrames`.  `Framer.receive` is one step of that fold
(`Framer.receive_encode`).  The two facts that everything later rests on are `takeAll_tail`, a
complete tail adds exactly one packet, and `packets_prefix`, later frames never touch a packet that
is already out.
-/

namespace RemoteAgent

@[simp] theorem FrameKind.ofIndicator?_indicator (kind : FrameKind) :
    FrameKind.ofIndicator? kind.indicator = some kind := by
  cases kind <;> rfl

namespace Frame

/-! ## The wire text of one frame -/

@[simp] theorem parse_encode (frame : Frame) : parse frame.encode = .ok frame := by
  have split : frame.encode.toList = frame.kind.indicator :: frame.payload.toList := by
    simp [encode]
  simp [parse, split]

/-- No two frames have one wire text. -/
theorem encode_injective : Function.Injective encode := by
  intro frame other same
  have read := congrArg parse same
  rw [parse_encode, parse_encode] at read
  exact Except.ok.inj read

/-- Whether a frame carries a part of a payload. -/
def isData (frame : Frame) : Bool := frame.kind ≠ .acknowledge

/-- Whether a frame is a slice that is to be acknowledged. -/
def isSlice (frame : Frame) : Bool := frame.kind = .more

/-! ## The tail of a packet -/

/-- What is left of a packet: any number of slices, and then the final frame. -/
inductive IsTail : List Frame → Prop
  | final (slice : String) : IsTail [⟨.final, slice⟩]
  | more (slice : String) {rest : List Frame} (tail : IsTail rest) :
      IsTail (⟨.more, slice⟩ :: rest)

namespace IsTail

variable {frame : Frame} {rest frames : List Frame}

theorem ne_nil (tail : IsTail frames) : frames ≠ [] := by
  cases tail <;> simp

/-- Behind a slice the packet goes on. -/
theorem rest_of_more (tail : IsTail (frame :: rest)) (more : frame.kind = .more) :
    IsTail rest := by
  cases tail with
  | final => cases more
  | more _ tail => exact tail

/-- Behind a frame that is no slice there is nothing. -/
theorem rest_eq_nil (tail : IsTail (frame :: rest)) (last : frame.kind ≠ .more) : rest = [] := by
  cases tail with
  | final => rfl
  | more => exact absurd rfl last

theorem kind_ne_acknowledge (tail : IsTail frames) (mem : frame ∈ frames) :
    frame.kind ≠ .acknowledge := by
  induction tail with
  | final => simp_all
  | more _ _ ih =>
      rcases List.mem_cons.mp mem with rfl | mem
      · simp
      · exact ih mem

/-- All that stands before the rest of a tail are slices. -/
theorem kind_eq_more {front : List Frame} (tail : IsTail (front ++ rest)) (left : rest ≠ [])
    (mem : frame ∈ front) : frame.kind = .more := by
  induction front with
  | nil => simp at mem
  | cons head front ih =>
      -- Behind the last frame there would be nothing, and the rest is something.
      have isMore : head.kind = .more := by
        by_contra last
        exact left (List.append_eq_nil_iff.mp (tail.rest_eq_nil last)).2
      rcases List.mem_cons.mp mem with rfl | mem
      · exact isMore
      · exact ih (tail.rest_of_more isMore) mem

end IsTail

/-- The slices of some frames, put together. -/
def text : List Frame → String
  | [] => ""
  | frame :: rest => frame.payload ++ text rest

@[simp] theorem text_nil : text [] = "" := rfl

@[simp] theorem text_cons (frame : Frame) (rest : List Frame) :
    text (frame :: rest) = frame.payload ++ text rest := rfl

/-! ## Cutting -/

theorem isTail_cut (limit room : Nat) (held rest : List Char) :
    IsTail (cut limit room held rest) := by
  fun_induction cut limit room held rest with
  | case1 => exact .final _
  | case2 _ _ _ ih => exact .more _ ih
  | case3 _ _ _ _ ih => exact ih

theorem text_cut (limit room : Nat) (held rest : List Char) :
    text (cut limit room held rest) = String.ofList (held.reverse ++ rest) := by
  fun_induction cut limit room held rest with
  | case1 => simp
  | case2 _ _ _ ih => simp [ih, String.ofList_append]
  | case3 _ _ _ _ ih => simpa using ih

/-- A slice is cut off only where it is full, and a full slice holds something: if there is no room
any more, there is text. -/
theorem payload_ne_empty_of_mem_cut {limit room : Nat} {held rest : List Char}
    (full : room = 0 → held ≠ []) {frame : Frame} (mem : frame ∈ cut limit room held rest)
    (more : frame.kind = .more) : frame.payload ≠ "" := by
  fun_induction cut limit room held rest with
  | case1 =>
      rw [List.mem_singleton.mp mem] at more
      cases more
  | case2 _ _ _ ih =>
      rcases List.mem_cons.mp mem with rfl | mem
      · simpa using full rfl
      · exact ih (by simp) mem
  | case3 _ _ _ _ ih => exact ih (by simp) mem

theorem isTail_chunks (limit : Nat) (payload : String) : IsTail (chunks limit payload) :=
  isTail_cut ..

@[simp] theorem text_chunks (limit : Nat) (payload : String) :
    text (chunks limit payload) = payload := by
  simp [chunks, text_cut]

theorem payload_ne_empty_of_mem_chunks {limit : Nat} (positive : limit ≠ 0) {payload : String}
    {frame : Frame} (mem : frame ∈ chunks limit payload) (more : frame.kind = .more) :
    frame.payload ≠ "" :=
  payload_ne_empty_of_mem_cut (fun none => absurd none positive) mem more

end Frame

/-! ## Putting packets together -/

/-- What a receiver has: the packets that are complete, and the slices of the one that is not. -/
structure Assembly where
  /-- The complete packets, the oldest first. -/
  packets : List String
  /-- The slices that no final frame has closed yet. -/
  buffer : String
  deriving DecidableEq

namespace Assembly

/-- Nothing yet. -/
def empty : Assembly := ⟨[], ""⟩

/-- Takes a frame.  An acknowledgment is none of its business. -/
def take (assembly : Assembly) (frame : Frame) : Assembly :=
  match frame.kind with
  | .more => { assembly with buffer := assembly.buffer ++ frame.payload }
  | .final => ⟨assembly.packets ++ [assembly.buffer ++ frame.payload], ""⟩
  | .acknowledge => assembly

/-- Takes frames, one after the other. -/
def takeAll (assembly : Assembly) (frames : List Frame) : Assembly := frames.foldl take assembly

/-- What a receiver has after some frames. -/
def ofFrames (frames : List Frame) : Assembly := empty.takeAll frames

@[simp] theorem takeAll_nil (assembly : Assembly) : assembly.takeAll [] = assembly := rfl

@[simp] theorem takeAll_cons (assembly : Assembly) (frame : Frame) (rest : List Frame) :
    assembly.takeAll (frame :: rest) = (assembly.take frame).takeAll rest := rfl

theorem takeAll_append (assembly : Assembly) (front rest : List Frame) :
    assembly.takeAll (front ++ rest) = (assembly.takeAll front).takeAll rest :=
  List.foldl_append

theorem ofFrames_concat (frames : List Frame) (frame : Frame) :
    ofFrames (frames ++ [frame]) = (ofFrames frames).take frame := by
  simp [ofFrames, takeAll_append]

/-- Slices alone only fill the buffer. -/
theorem takeAll_slices (assembly : Assembly) {frames : List Frame}
    (slices : ∀ frame ∈ frames, frame.kind = .more) :
    assembly.takeAll frames =
      { assembly with buffer := assembly.buffer ++ Frame.text frames } := by
  induction frames generalizing assembly with
  | nil => simp
  | cons frame rest ih =>
      rw [takeAll_cons, ih _ fun other mem => slices other (List.mem_cons_of_mem _ mem)]
      simp [take, slices frame List.mem_cons_self, String.append_assoc]

/-- **A tail completes one packet**: whatever is in the buffer, and all of the tail. -/
theorem takeAll_tail (assembly : Assembly) {frames : List Frame} (tail : Frame.IsTail frames) :
    assembly.takeAll frames =
      ⟨assembly.packets ++ [assembly.buffer ++ Frame.text frames], ""⟩ := by
  induction tail generalizing assembly with
  | final slice => simp [take]
  | more slice _ ih => simp [ih, take, String.append_assoc]

theorem packets_prefix_take (assembly : Assembly) (frame : Frame) :
    assembly.packets <+: (assembly.take frame).packets := by
  unfold take
  split
  · exact List.prefix_refl _
  · exact List.prefix_append ..
  · exact List.prefix_refl _

/-- A packet that is out stays out. -/
theorem packets_prefix_takeAll (assembly : Assembly) (frames : List Frame) :
    assembly.packets <+: (assembly.takeAll frames).packets := by
  induction frames generalizing assembly with
  | nil => exact List.prefix_refl _
  | cons frame rest ih => exact (packets_prefix_take assembly frame).trans (ih _)

/-- The packets of a part of the frames are a part of the packets. -/
theorem packets_prefix {front frames : List Frame} (isPrefix : front <+: frames) :
    (ofFrames front).packets <+: (ofFrames frames).packets := by
  obtain ⟨rest, rfl⟩ := isPrefix
  rw [ofFrames, ofFrames, takeAll_append]
  exact packets_prefix_takeAll ..

/-- Acknowledgments make no difference to what is put together. -/
theorem takeAll_filter (assembly : Assembly) (frames : List Frame) :
    assembly.takeAll (frames.filter Frame.isData) = assembly.takeAll frames := by
  induction frames generalizing assembly with
  | nil => rfl
  | cons frame rest ih =>
      cases kind : frame.kind <;> simp [Frame.isData, take, kind, ih]

end Assembly

/-! ## One step of a framer -/

namespace Framer

/-- The packet that a report hands out, if it does. -/
def packetOf? : Except TransportError Received → Option String
  | .ok (.packet text) => some text
  | _ => none

/-- A framer takes a frame off the wire as an assembly does: its buffer moves on, and a packet that
gets complete is handed out. -/
theorem receive_encode (p : Framer) (packets : List String) (frame : Frame) :
    Assembly.take ⟨packets, p.buffer⟩ frame =
      ⟨packets ++ (packetOf? (p.receive frame.encode).1).toList,
        (p.receive frame.encode).2.buffer⟩ := by
  obtain ⟨kind, slice⟩ := frame
  unfold receive
  rw [Frame.parse_encode]
  cases kind with
  | more => simp [Assembly.take, packetOf?]
  | final => simp [Assembly.take, packetOf?]
  | acknowledge => cases slot : p.acknowledgment <;> simp [Assembly.take, packetOf?]

/-! ## Many steps of a framer -/

/-- Takes frames off the wire, one after the other: what each of them amounts to, and the framer
after all of them. -/
def receiveAll (p : Framer) :
    List String → List (Except TransportError Received) × Framer
  | [] => ([], p)
  | text :: rest =>
    let (answer, next) := p.receive text
    let (answers, last) := next.receiveAll rest
    (answer :: answers, last)

/-- Of the frames of a packet all but the last are kept, and the last one hands out the packet. -/
theorem receiveAll_of_isTail {frames : List Frame} (tail : Frame.IsTail frames)
    (p : Framer) :
    p.receiveAll (frames.map Frame.encode) =
      (List.replicate (frames.length - 1) (.ok .continued) ++
        [.ok (.packet (p.buffer ++ Frame.text frames))], { p with buffer := "" }) := by
  induction tail generalizing p with
  | final slice => simp [receiveAll, receive]
  | @more slice rest tail ih =>
    have kept : p.receive (Frame.encode ⟨.more, slice⟩) =
        (.ok .continued, { p with buffer := p.buffer ++ slice }) := by
      rw [receive, Frame.parse_encode]
    obtain ⟨count, length⟩ := Nat.exists_eq_add_one.mpr (List.length_pos_iff.mpr tail.ne_nil)
    simp [receiveAll, kept, ih, length, List.replicate_succ, String.append_assoc]

end Framer

end RemoteAgent
