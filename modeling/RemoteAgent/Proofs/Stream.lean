import RemoteAgent.Console
import RemoteAgent.Proofs.ServiceRun
import RemoteAgent.Transport.Memory

/-!
# What the far end makes of failed sends

A send that fails between two frames has put slices on the wire that nothing takes back.  The far
end keeps them, and the next packet begins with them.  So the packets that come out are the payloads
that were sent as long as no attempt is *torn*, given up with slices on the wire, before one that is
complete; and as soon as one is, they are not.

`packets_eq_completed_iff` says that for every run of an agent, with any number of senders, with
failures of any kind, and with texts that are sent again after the transport was opened again.
`History.Describes.packets_eq_iff` is the same for anything else that sends on a link.

The buffer of the far end is what an induction over the attempts has to carry: it is empty, or
there is no complete attempt to come.  A torn attempt fills it, because a slice is never empty
(`Frame.payload_ne_empty_of_mem_chunks`).
-/

namespace RemoteAgent

variable {τ φ η : Type}

/-! ## The far end -/

namespace Framer

/-- The packets that a framer hands out when texts come in. -/
def packetsOf (p : Framer) : List String → List String
  | [] => []
  | text :: rest => (packetOf? (p.receive text).1).toList ++ packetsOf (p.receive text).2 rest

/-- They are those of the frames, put together. -/
theorem packets_takeAll (p : Framer) (packets : List String) (frames : List Frame) :
    (Assembly.takeAll ⟨packets, p.buffer⟩ frames).packets =
      packets ++ p.packetsOf (frames.map Frame.encode) := by
  induction frames generalizing p packets with
  | nil => simp [packetsOf]
  | cons frame rest ih =>
      rw [Assembly.takeAll_cons, receive_encode, ih, List.map_cons, packetsOf, List.append_assoc]

end Framer

/-! ## Torn attempts -/

/-- An attempt was given up with slices on the wire. -/
def Attempt.IsTorn (limit : Nat) (attempt : Attempt) : Prop :=
  ¬ attempt.IsComplete limit ∧ attempt.handed ≠ []

/-- No complete attempt comes after a torn one. -/
def Attempt.Clean (limit : Nat) (attempts : List Attempt) : Prop :=
  attempts.Pairwise fun earlier later => earlier.IsTorn limit → ¬ later.IsComplete limit

/-- The payloads that were handed over completely, in their order. -/
def Attempt.completed (limit : Nat) (attempts : List Attempt) : List String :=
  (attempts.filter fun attempt => attempt.IsComplete limit).map Attempt.payload

section Torn

variable {limit : Nat} {attempt : Attempt}

theorem Attempt.completed_cons_of_isComplete (complete : attempt.IsComplete limit)
    (rest : List Attempt) :
    completed limit (attempt :: rest) = attempt.payload :: completed limit rest := by
  simp [completed, complete]

theorem Attempt.completed_cons_of_not (incomplete : ¬ attempt.IsComplete limit)
    (rest : List Attempt) : completed limit (attempt :: rest) = completed limit rest := by
  simp [completed, incomplete]

/-- Some of the frames of a payload, but not all of them, are no empty text. -/
theorem Attempt.text_handed_eq_empty_iff (positive : limit ≠ 0)
    (handed : attempt.handed <+: Frame.chunks limit attempt.payload)
    (incomplete : ¬ attempt.IsComplete limit) :
    Frame.text attempt.handed = "" ↔ attempt.handed = [] := by
  constructor
  · intro empty
    cases slices : attempt.handed with
    | nil => rfl
    | cons frame others =>
        obtain ⟨rest, chunks⟩ := handed
        -- Something is left of the payload, so what was handed over are slices, and slices hold text.
        have left : rest ≠ [] := by
          rintro rfl
          exact incomplete (by simpa [Attempt.IsComplete] using chunks)
        have mem : frame ∈ attempt.handed := slices ▸ List.mem_cons_self
        have tail : Frame.IsTail (attempt.handed ++ rest) := chunks ▸ Frame.isTail_chunks ..
        have something := Frame.payload_ne_empty_of_mem_chunks positive
          (chunks ▸ List.mem_append_left rest mem) (tail.kind_eq_more left mem)
        rw [slices, Frame.text_cons, String.append_eq_empty_iff] at empty
        exact absurd empty.1 something
  · intro none
    rw [none, Frame.text_nil]

/-- Packets that are out make no difference to those that follow. -/
theorem Assembly.packets_foldl_attempt (packets : List String) (buffer : String)
    (attempts : List Attempt) :
    (attempts.foldl (Assembly.attempt limit) ⟨packets, buffer⟩).packets =
      packets ++ (attempts.foldl (Assembly.attempt limit) ⟨[], buffer⟩).packets := by
  induction attempts generalizing packets buffer with
  | nil => simp
  | cons attempt rest ih =>
      rw [List.foldl_cons, List.foldl_cons]
      by_cases complete : attempt.IsComplete limit
      · rw [Assembly.attempt, Assembly.attempt, if_pos complete, if_pos complete, ih, ih [] "",
          ih ([] ++ _)]
        simp
      · rw [Assembly.attempt, Assembly.attempt, if_neg complete, if_neg complete, ih]

/-- **The packets are the payloads exactly when nothing complete follows on something torn**, or on
slices that are in the buffer from the beginning. -/
theorem Assembly.packets_eq_iff (positive : limit ≠ 0) (attempts : List Attempt)
    (handed : ∀ attempt ∈ attempts, attempt.handed <+: Frame.chunks limit attempt.payload)
    (buffer : String) :
    (attempts.foldl (Assembly.attempt limit) ⟨[], buffer⟩).packets =
        Attempt.completed limit attempts ↔
      (buffer ≠ "" → ∀ attempt ∈ attempts, ¬ attempt.IsComplete limit) ∧
        Attempt.Clean limit attempts := by
  induction attempts generalizing buffer with
  | nil => simp [Attempt.completed, Attempt.Clean]
  | cons attempt rest ih =>
      have handedRest : ∀ other ∈ rest, other.handed <+: Frame.chunks limit other.payload :=
        fun other mem => handed other (List.mem_cons_of_mem _ mem)
      rw [List.foldl_cons]
      by_cases complete : attempt.IsComplete limit
      · have intact : ¬ attempt.IsTorn limit := fun torn => torn.1 complete
        -- The packet is the payload if the buffer was empty, and the buffer is empty again.
        rw [Assembly.attempt, if_pos complete, Assembly.packets_foldl_attempt,
          Attempt.completed_cons_of_isComplete complete]
        simp only [List.nil_append, List.singleton_append, List.cons.injEq,
          String.append_eq_right_iff, ih handedRest, Attempt.Clean, List.pairwise_cons]
        constructor
        · rintro ⟨rfl, -, clean⟩
          exact ⟨by simp, fun _ _ torn => absurd torn intact, clean⟩
        · rintro ⟨silent, -, clean⟩
          refine ⟨?_, by simp, clean⟩
          by_contra filled
          exact silent filled attempt List.mem_cons_self complete
      · have filled : buffer ++ Frame.text attempt.handed ≠ "" ↔
            buffer ≠ "" ∨ attempt.IsTorn limit := by
          rw [Ne, String.append_eq_empty_iff,
            Attempt.text_handed_eq_empty_iff positive (handed _ List.mem_cons_self) complete,
            Attempt.IsTorn]
          tauto
        -- No packet comes of it, but whatever was handed over is in the buffer now.
        rw [Assembly.attempt, if_neg complete, Attempt.completed_cons_of_not complete]
        simp only [ih handedRest, filled, Attempt.Clean, List.pairwise_cons, List.forall_mem_cons]
        constructor
        · rintro ⟨silent, clean⟩
          exact ⟨fun old => ⟨complete, silent (.inl old)⟩,
            fun other mem torn => silent (.inr torn) other mem, clean⟩
        · rintro ⟨old, torn, clean⟩
          refine ⟨?_, clean⟩
          rintro (full | isTorn)
          · exact (old full).2
          · exact fun other mem => torn other mem isTorn

end Torn

/-! ## Runs -/

/-- **What comes out at the far end of a link**, if it gets all data frames of a history in their
order: the payloads that were handed over completely, unless one of them follows on a torn one. -/
theorem History.Describes.packets_eq_iff {history : History} {framer : Framer}
    {sends : List (Nat × Sending)} (describes : history.Describes framer sends) (setup : Setup) :
    setup.framer.packetsOf (history.frames.map Frame.encode) =
        Attempt.completed framer.frameLimit history.attempts ↔
      Attempt.Clean framer.frameLimit history.attempts := by
  have packets : setup.framer.packetsOf (history.frames.map Frame.encode) =
      (history.attempts.foldl (Assembly.attempt framer.frameLimit) ⟨[], ""⟩).packets := by
    have taken := Framer.packets_takeAll setup.framer [] history.frames
    rw [List.nil_append] at taken
    rw [← taken]
    exact congrArg Assembly.packets describes.ofFrames_frames
  rw [packets, Assembly.packets_eq_iff describes.positive _
    (fun _ mem => describes.handed_prefix mem)]
  simp

namespace Recorded

variable [Transport τ] [ObjectModel φ η]

/-- **The packets that the far end hands out are the payloads that an agent has sent, exactly as
long as no attempt that was given up with slices on the wire comes before one that is complete.**
The run is any run: over any transport, with any senders beside each other, however attempts fail,
and with texts that are sent again after the transport was opened again. -/
theorem packets_eq_completed_iff (config : Config) (transport : τ) (root : Value)
    (world : World φ η) (reconnectId : String) (events : List (Service.Event τ φ η))
    (farEnd : Setup) :
    let r := (start config transport root world reconnectId).run events
    let limit := r.service.agent.link.framer.frameLimit
    farEnd.framer.packetsOf (r.chronicle.history.frames.map Frame.encode) =
        Attempt.completed limit r.chronicle.history.attempts ↔
      Attempt.Clean limit r.chronicle.history.attempts :=
  ((sound_start config transport root world reconnectId).run
    events).told.describes.packets_eq_iff farEnd

/-- A channel in memory that is open, with what was sent over it. -/
def openChannel (sent : Array String) : MemoryChannel :=
  { MemoryChannel.new with isOpen := true, sent }

/-- One caller sends `true` in frames of three characters, and gets no acknowledgment for the first
one.  Then another caller sends an empty array. -/
def tearing : List (Service.Event MemoryChannel Console.Method Empty) :=
  [.call (.send (.bool true)), .step 0, .step 0, .step 0, .step 0, .time 30000 0, .step 0,
    .call (.send (.array [])), .step 1, .step 1, .step 1, .step 1]

/-- The agent that did that. -/
def torn : Recorded MemoryChannel Console.Method Empty :=
  (start { Config.default with frameLimit := 3 } (openChannel #[]) .null .empty "id").run tearing

/-- A packet that nobody has sent: it has slices of two payloads. -/
theorem torn_packet (setup : Setup) :
    setup.framer.packetsOf (torn.chronicle.history.frames.map Frame.encode) = ["tru[]"] ∧
      torn.chronicle.begun.map Prod.snd = ["true", "[]"] :=
  ⟨rfl, rfl⟩

theorem exists_packet_not_sent :
    ¬ ∀ packet ∈ (Setup.framer ⟨3, ⟨0⟩, ⟨5⟩, ⟨9⟩⟩).packetsOf
        (torn.chronicle.history.frames.map Frame.encode),
      packet ∈ torn.chronicle.begun.map Prod.snd := by
  obtain ⟨packets, begun⟩ := torn_packet ⟨3, ⟨0⟩, ⟨5⟩, ⟨9⟩⟩
  rw [packets, begun]
  decide

end Recorded

end RemoteAgent
