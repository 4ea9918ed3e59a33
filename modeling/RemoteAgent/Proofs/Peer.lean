import RemoteAgent.Proofs.SendLock
import RemoteAgent.Transport.Memory

/-!
# One side of an exchange

A peer is a link on a channel in memory that stays open, with the sends that are under way on it.
It takes frames in and owes an acknowledgment for every slice among them; between taking a slice in
and acknowledging it anything else may happen.  Beside the link a peer has what the code does not
keep: what was passed to `send`, which attempts were made of it, and what came of the frames that
were taken in.

This module is about what a peer can say without looking at the other side.  Its channel refuses
nothing, so the only way in which a send that has the lock can fail is that an acknowledgment does
not come in time.  Where that does not happen, two things hold:

* `History.Accounts`: every turn of the lock belongs to a payload that was passed to `send`, and no
  payload gets two;
* `History.Paced`: the slices that were sent are the acknowledgments that were heard, and one more
  exactly while the holder of the lock waits and its slot is still empty.

The second one is why a stray acknowledgment cannot come: if there is one on the way, then fewer
were heard than slices sent, and so somebody waits for it.
-/

namespace RemoteAgent

/-! ## Whose turn it is -/

/-- The turns of the lock belong to payloads that were passed to `send`, each to one of its own. -/
structure History.Accounts (history : History) (begun : List String)
    (sends : List (Nat × Sending)) : Prop where
  /-- The numbers count what was passed to `send`. -/
  known : ∀ send ∈ sends, send.1 < begun.length
  /-- A send that looks at the lock has had no turn, and carries what was passed. -/
  waiting : ∀ n payload since again, (n, Sending.acquiring payload since again) ∈ sends →
    begun[n]? = some payload ∧ n ∉ history.turns.map Prod.fst
  /-- A turn carries what was passed. -/
  passed : ∀ turn ∈ history.turns, begun[turn.1]? = some turn.2
  /-- Nobody has two turns. -/
  once : (history.turns.map Prod.fst).Nodup

namespace History.Accounts

variable {history recorded : History} {begun : List String} {sends : List (Nat × Sending)}

theorem empty : History.empty.Accounts [] [] where
  known := by simp
  waiting := by simp
  passed := by simp [History.turns, History.attempts, History.empty]
  once := by simp [History.turns, History.attempts, History.empty]

/-- Numbers of turns are numbers of payloads. -/
theorem lt_of_mem_turns (accounts : history.Accounts begun sends) {n : Nat}
    (mem : n ∈ history.turns.map Prod.fst) : n < begun.length := by
  obtain ⟨turn, memTurn, rfl⟩ := List.mem_map.mp mem
  exact (List.getElem?_eq_some_iff.mp (accounts.passed turn memTurn)).1

theorem begin (accounts : history.Accounts begun sends) (payload : String) (since : Nat) :
    history.Accounts (begun ++ [payload])
      (sends ++ [(begun.length, .acquiring payload since none)]) where
  known := by
    intro send mem
    rcases List.mem_append.mp mem with mem | mem
    · have := accounts.known send mem
      simp
      omega
    · simp [List.mem_singleton.mp mem]
  waiting := by
    intro n other since' again mem
    rcases List.mem_append.mp mem with mem | mem
    · obtain ⟨passed, fresh⟩ := accounts.waiting n other since' again mem
      exact ⟨List.getElem?_append_left (accounts.known _ mem) ▸ passed, fresh⟩
    · obtain ⟨rfl, ⟨⟩⟩ := Prod.mk.inj (List.mem_singleton.mp mem)
      refine ⟨by simp, fun mem => ?_⟩
      exact absurd (accounts.lt_of_mem_turns mem) (Nat.lt_irrefl _)
  passed := by
    intro turn mem
    have passed := accounts.passed turn mem
    exact List.getElem?_append_left (List.getElem?_eq_some_iff.mp passed).1 ▸ passed
  once := accounts.once

/-- A step gives a turn to a send that has not had one, or gives none. -/
theorem step {τ : Type} [Transport τ] {link : Link τ} {n : Nat} {place : Sending}
    {stepped : Sending.Step τ} (accounts : history.Accounts begun sends)
    (mem : (n, place) ∈ sends) (outcome : history.Outcome link n place stepped recorded) :
    recorded.Accounts begun (Numbered.moved sends n stepped.1.next?) := by
  have known : ∀ send ∈ Numbered.moved sends n stepped.1.next?, send.1 < begun.length := by
    rintro ⟨m, other⟩ moved
    rcases Numbered.mem_moved.mp moved with ⟨-, old⟩ | ⟨rfl, -⟩
    · exact accounts.known _ old
    · exact accounts.known (m, place) mem
  -- Either nobody has a turn, or `n` has the first one of its own.
  obtain ⟨same, stays⟩ | ⟨payload, since, again, rfl, turns, leaves⟩ := outcome.turns_cases
  · refine ⟨known, fun m payload since again moved => ?_, same ▸ accounts.passed,
      same ▸ accounts.once⟩
    rw [same]
    rcases Numbered.mem_moved.mp moved with ⟨-, old⟩ | ⟨rfl, going⟩
    · exact accounts.waiting m payload since again old
    · obtain ⟨_, _, _, _, rfl, here⟩ := stays _ going rfl
      cases here
      exact accounts.waiting _ _ _ _ mem
  · obtain ⟨passed, fresh⟩ := accounts.waiting n payload since again mem
    refine ⟨known, fun m other since again moved => ?_, ?_, ?_⟩
    · rcases Numbered.mem_moved.mp moved with ⟨different, old⟩ | ⟨rfl, going⟩
      · obtain ⟨passed, fresh⟩ := accounts.waiting m other since again old
        exact ⟨passed, by simpa [turns, different] using fresh⟩
      · cases leaves _ going
    · intro turn memTurn
      rw [turns] at memTurn
      rcases List.mem_append.mp memTurn with old | new
      · exact accounts.passed turn old
      · rw [List.mem_singleton.mp new]
        exact passed
    · rw [turns, List.map_append]
      refine accounts.once.append (List.nodup_singleton n) ?_
      simpa using fresh

end History.Accounts

/-! ## Slices and their acknowledgments -/

/-- How many more slices were sent than acknowledgments were heard, at the place of the holder of
the lock. -/
def Sending.Paced (slot : Acknowledgment) (sent heard : Nat) : Sending → Prop
  | .acquiring _ _ _ => True
  | .transmitting _ _ => slot ≠ .arrived ∧ sent = heard
  | .waiting _ _ => (slot = .awaited ∧ sent = heard + 1) ∨ (slot = .arrived ∧ sent = heard)

/-- The slices that a history tells of. -/
def History.slices (history : History) : Nat := history.frames.countP Frame.isSlice

/-- The slices that were sent keep pace with the acknowledgments that were heard. -/
structure History.Paced (history : History) (framer : Framer) (sends : List (Nat × Sending))
    (heard : Nat) : Prop where
  /-- Between two attempts every slice is acknowledged. -/
  free : history.current = none → history.slices = heard
  /-- During an attempt its place tells. -/
  held : ∀ attempt, history.current = some attempt → ∀ place,
    (attempt.number, place) ∈ sends → place.Paced framer.acknowledgment history.slices heard

namespace History.Paced

variable {history recorded : History} {framer : Framer} {sends : List (Nat × Sending)}
  {heard : Nat}

theorem empty (framer : Framer) : History.empty.Paced framer [] 0 where
  free _ := rfl
  held := by simp

/-- The number of slices that are not acknowledged is none or one. -/
theorem slices_cases (paced : history.Paced framer sends heard)
    (describes : history.Describes framer sends) :
    history.slices = heard ∨ history.slices = heard + 1 := by
  cases current : history.current with
  | none => exact .inl (paced.free current)
  | some attempt =>
      obtain ⟨-, -, place, mem, continues⟩ := describes.held attempt current
      have pace := paced.held attempt current place mem
      cases place with
      | acquiring => cases continues.holds
      | transmitting => exact .inl pace.2
      | waiting =>
          rcases pace with ⟨-, more⟩ | ⟨-, same⟩
          · exact .inr more
          · exact .inl same

/-- **Who owes an acknowledgment is waited for**: if a slice is not acknowledged, the slot for the
acknowledgment is ready for it. -/
theorem awaited_of_lt (paced : history.Paced framer sends heard)
    (describes : history.Describes framer sends) (behind : heard < history.slices) :
    framer.acknowledgment = .awaited := by
  cases current : history.current with
  | none =>
      have := paced.free current
      omega
  | some attempt =>
      obtain ⟨-, -, place, mem, continues⟩ := describes.held attempt current
      have pace := paced.held attempt current place mem
      cases place with
      | acquiring => cases continues.holds
      | transmitting =>
          have := pace.2
          omega
      | waiting =>
          rcases pace with ⟨awaited, -⟩ | ⟨-, same⟩
          · exact awaited
          · omega

/-- Of the framer only the slot for the acknowledgment matters. -/
theorem of_slot_eq (paced : history.Paced framer sends heard) {changed : Framer}
    (same : changed.acknowledgment = framer.acknowledgment) :
    history.Paced changed sends heard :=
  ⟨paced.free, same ▸ paced.held⟩

/-- An acknowledgment that is waited for is heard. -/
theorem hear (paced : history.Paced framer sends heard)
    (describes : history.Describes framer sends) (behind : heard < history.slices) :
    history.Paced { framer with acknowledgment := .arrived } sends (heard + 1) where
  free none := by
    have := paced.free none
    omega
  held attempt current place mem := by
    have pace := paced.held attempt current place mem
    have continues := describes.continues_of_mem current mem
    cases place with
    | acquiring => trivial
    | transmitting =>
        have := pace.2
        omega
    | waiting =>
        rcases pace with ⟨-, more⟩ | ⟨-, same⟩
        · exact .inr ⟨rfl, more⟩
        · omega

variable {τ : Type} [Transport τ] {link : Link τ} {n : Nat} {place : Sending}
  {stepped : Sending.Step τ}

/-- Over a transport that accepts every frame, a step keeps the pace unless it gives up waiting. -/
theorem step (paced : history.Paced link.framer sends heard)
    (describes : history.Describes link.framer sends) (mem : (n, place) ∈ sends)
    (outcome : history.Outcome link n place stepped recorded)
    (accepts : ∀ frame, (link.transmit frame).1 = .ok ())
    (inTime : ∀ span, stepped.1 ≠ .done (.error (.ackTimeout span))) :
    recorded.Paced stepped.2.framer (Numbered.moved sends n stepped.1.next?) heard := by
  cases outcome with
  | polled other =>
      refine ⟨paced.free, fun attempt current place moved => ?_⟩
      rcases Numbered.mem_moved.mp moved with ⟨-, old⟩ | ⟨here, -⟩
      · exact paced.held attempt current place old
      · exact absurd here (other attempt current)
  | lockTimeout other =>
      refine ⟨paced.free, fun attempt current place moved => ?_⟩
      rcases Numbered.mem_moved.mp moved with ⟨-, old⟩ | ⟨here, -⟩
      · exact paced.held attempt current place old
      · exact absurd here (other attempt current)
  | @locked payload since again frame rest free frames none =>
      obtain ⟨-, slot, -⟩ := describes.free none
      have slices : History.slices { history with current := some ⟨n, payload, []⟩ } = heard := by
        rw [← paced.free none]
        simp [History.slices, History.frames, History.attempts, none]
      refine ⟨by simp, ?_⟩
      rintro _ ⟨⟩ place moved
      obtain rfl := Option.some.inj (Numbered.eq_of_mem_moved moved)
      refine ⟨?_, slices⟩
      by_cases more : frame.kind = .more
      · simp [Framer.expect, more]
      · simp [Framer.expect, more, Framer.lock, slot]
  | refused current number answer =>
      rw [accepts] at answer
      cases answer
  | @slice frame rest attempt deadline current number more =>
      obtain rfl := number
      have pace := paced.held attempt current _ mem
      have fits := (describes.continues_of_mem current mem).fits.mpr more
      -- The slot is in use but not filled: it is kept for this slice.
      have awaited : link.framer.acknowledgment = .awaited := by
        cases slot : link.framer.acknowledgment with
        | none => exact absurd slot fits
        | awaited => rfl
        | arrived => exact absurd slot pace.1
      have slices :
          History.slices { history with current := some (attempt.hand frame) } = heard + 1 := by
        rw [← pace.2]
        simp [History.slices, History.frames, History.attempts, current, Attempt.hand,
          Frame.isSlice, more, Nat.add_assoc]
      refine ⟨by simp, ?_⟩
      rintro _ ⟨⟩ place moved
      obtain rfl := Option.some.inj (Numbered.eq_of_mem_moved moved)
      exact .inl ⟨awaited, slices⟩
  | @last frame attempt current number more =>
      obtain rfl := number
      have pace := paced.held attempt current _ mem
      refine ⟨fun _ => ?_, by simp⟩
      rw [← pace.2]
      simp [History.slices, History.frames, History.attempts, current, Attempt.hand,
        Frame.isSlice, more]
  | @turned frame rest deadline attempt current number arrived =>
      obtain rfl := number
      have same : history.slices = heard := by
        rcases paced.held attempt current _ mem with ⟨awaited, -⟩ | ⟨-, same⟩
        · rw [arrived] at awaited
          cases awaited
        · exact same
      refine ⟨fun _ => same, fun other otherCurrent place moved => ?_⟩
      obtain rfl := Option.some.inj (current.symm.trans otherCurrent)
      obtain rfl := Option.some.inj (Numbered.eq_of_mem_moved moved)
      refine ⟨?_, same⟩
      by_cases more : frame.kind = .more
      · simp [Framer.expect, more]
      · simp [Framer.expect, more, Framer.consume]
  | waited current number =>
      obtain rfl := number
      refine ⟨paced.free, fun attempt here place moved => ?_⟩
      rcases Numbered.mem_moved.mp moved with ⟨-, old⟩ | ⟨sameNumber, ⟨⟩⟩
      · exact paced.held attempt here place old
      · exact paced.held attempt here _ (sameNumber ▸ mem)
  | ackTimeout => exact absurd rfl (inTime _)

end History.Paced

/-! ## Peers -/

/-- One side of an exchange, with what the code does not keep of it. -/
structure Peer where
  /-- The link and the sends that are under way on it. -/
  shared : SharedLink MemoryChannel
  /-- Everything that was passed to `send`; the place in the list is the number of the send. -/
  begun : List String
  /-- The holds of the send lock. -/
  history : History
  /-- What came of the frames that were taken in. -/
  reports : List (Except TransportError Received)
  /-- The slices that were taken in and are not acknowledged yet. -/
  owed : Nat

namespace Peer

/-- A peer that nothing has happened to, on an open channel. -/
def start (framer : Framer) : Peer where
  shared := .ofLink ⟨framer, { MemoryChannel.new with isOpen := true }, 0, 0⟩
  begun := []
  history := .empty
  reports := []
  owed := 0

/-- The channel. -/
def channel (peer : Peer) : MemoryChannel := peer.shared.link.transport

/-- The frames that the channel has accepted. -/
def wire (peer : Peer) : List Frame :=
  peer.channel.sent.toList.filterMap fun text => (Frame.parse text).toOption

/-- The packets that were handed out. -/
def delivered (peer : Peer) : List String := peer.reports.filterMap Framer.packetOf?

/-- The slices that no final frame has closed yet. -/
def buffer (peer : Peer) : String := peer.shared.link.framer.buffer

/-- Whether a report says that the frame was a slice. -/
def isContinued : Except TransportError Received → Bool
  | .ok .continued => true
  | _ => false

/-- Whether a report says that a send was waiting for the frame. -/
def isAcknowledged : Except TransportError Received → Bool
  | .ok .acknowledged => true
  | _ => false

/-- The acknowledgments that a send was waiting for. -/
def heard (peer : Peer) : Nat := peer.reports.countP isAcknowledged

/-- Passes a payload to `send`. -/
def begin (peer : Peer) (payload : String) : Peer :=
  { peer with
    shared := peer.shared.begin peer.begun.length payload
    begun := peer.begun ++ [payload] }

/-- Lets a send take a step. -/
def step (peer : Peer) (n : Nat) : Peer :=
  { peer with
    shared := peer.shared.step n
    history := peer.shared.record peer.history n }

/-- Takes a frame in. -/
def receive (peer : Peer) (text : String) : Peer :=
  let (report, link) := peer.shared.link.receive text
  { peer with
    shared := { peer.shared with link }
    reports := peer.reports ++ [report]
    owed := peer.owed + if isContinued report then 1 else 0 }

/-- Acknowledges a slice, if there is one to acknowledge. -/
def acknowledge (peer : Peer) : Peer :=
  if peer.owed = 0 then peer
  else
    { peer with
      shared :=
        { peer.shared with link := (peer.shared.link.transmit .acknowledgment).2 }
      owed := peer.owed - 1 }

/-- Sets the clocks. -/
def setClocks (peer : Peer) (timer wall : Nat) : Peer :=
  { peer with
    shared := { peer.shared with link := { peer.shared.link with timer, wall } } }

/-- Taking a frame in and acknowledging it at once is what `Link.handle` does. -/
theorem acknowledge_receive {peer : Peer} (nothing : peer.owed = 0) (text : String) :
    (peer.receive text).acknowledge.shared.link = (peer.shared.link.handle text).2 := by
  unfold receive Link.handle
  rcases peer.shared.link.receive text with ⟨report, link⟩
  match report with
  | .error _ => simp [acknowledge, isContinued, nothing]
  | .ok .continued =>
      rcases sent : link.transmit .acknowledgment with ⟨result, after⟩
      cases result <;> simp [acknowledge, isContinued, nothing, sent]
  | .ok (.packet _) => simp [acknowledge, isContinued, nothing]
  | .ok .acknowledged => simp [acknowledge, isContinued, nothing]
  | .ok .strayAcknowledgment => simp [acknowledge, isContinued, nothing]

/-- A send has ended because its acknowledgment did not come in time. -/
def TimedOut (peer : Peer) : Prop :=
  ∃ entry ∈ peer.shared.finished, ∃ span, entry.2 = .error (.ackTimeout span)

/-- A step forgets no result. -/
theorem finished_suffix_step (peer : Peer) (n : Nat) :
    peer.shared.finished <:+ (peer.step n).shared.finished := by
  unfold Peer.step SharedLink.step
  cases peer.shared.send? n with
  | none => exact List.suffix_refl _
  | some place =>
      cases progress : (place.step peer.shared.link).1 with
      | going => simp [progress, SharedLink.move]
      | done => simp [progress, SharedLink.move]

theorem TimedOut.mono {peer later : Peer} (timedOut : peer.TimedOut)
    (kept : peer.shared.finished <:+ later.shared.finished) : later.TimedOut := by
  obtain ⟨entry, mem, late⟩ := timedOut
  exact ⟨entry, kept.subset mem, late⟩

/-- What holds of a peer at any time, unless an acknowledgment did not come in time. -/
structure Sound (peer : Peer) : Prop where
  /-- The channel stays open. -/
  isOpen : peer.channel.isOpen = true
  /-- The history tells what happened. -/
  follows : peer.shared.Follows peer.history
  /-- The turns of the lock belong to what was passed to `send`. -/
  accounts : peer.history.Accounts peer.begun peer.shared.sends
  /-- No attempt has failed. -/
  whole : ∀ entry ∈ peer.history.past, entry.2 = .returned (.ok ())
  /-- Everything on the channel is the text of a frame. -/
  encoded : peer.channel.sent.toList = peer.wire.map Frame.encode
  /-- The data frames on the channel are those of the history. -/
  data : peer.wire.filter Frame.isData = peer.history.frames
  /-- The slices keep pace with the acknowledgments. -/
  paced : peer.history.Paced peer.shared.link.framer peer.shared.sends peer.heard

/-! ### What a peer puts on its channel -/

/-- A channel that is open accepts a frame. -/
theorem transmit_of_isOpen {link : Link MemoryChannel} (isOpen : link.transport.isOpen = true)
    (frame : Frame) :
    link.transmit frame =
      (.ok (), { link with
        transport := { link.transport with sent := link.transport.sent.push frame.encode } }) := by
  simp [Link.transmit, Transport.send, MemoryChannel.send, isOpen]

/-- The channel of one peer is that of another with one more frame on it. -/
structure Extends (peer grown : Peer) (frame : Frame) : Prop where
  /-- It is as open as it was. -/
  isOpen : grown.channel.isOpen = peer.channel.isOpen
  /-- The frame stands at the end. -/
  sent : grown.channel.sent = peer.channel.sent.push frame.encode

theorem Extends.wire {peer grown : Peer} {frame : Frame} (extends_ : peer.Extends grown frame) :
    grown.wire = peer.wire ++ [frame] := by
  unfold Peer.wire
  rw [extends_.sent, Array.toList_push, List.filterMap_append]
  simp [Except.toOption]

theorem Extends.encoded {peer grown : Peer} {frame : Frame} (extends_ : peer.Extends grown frame)
    (encoded : peer.channel.sent.toList = peer.wire.map Frame.encode) :
    grown.channel.sent.toList = grown.wire.map Frame.encode := by
  rw [extends_.wire, extends_.sent, Array.toList_push, encoded, List.map_append]
  rfl

namespace Sound

variable {peer : Peer}

theorem start {framer : Framer} (positive : framer.frameLimit ≠ 0)
    (down : framer.sending = false) (slot : framer.acknowledgment = .none) :
    (Peer.start framer).Sound where
  isOpen := rfl
  follows := History.describes_empty positive down slot
  accounts := .empty
  whole := by simp [Peer.start, History.empty]
  encoded := rfl
  data := rfl
  paced := .empty framer

theorem begin (sound : peer.Sound) (payload : String) : (peer.begin payload).Sound where
  isOpen := sound.isOpen
  follows := by
    refine sound.follows.begin (fun mem => ?_) payload
    obtain ⟨send, memSends, number⟩ := List.mem_map.mp mem
    have known := sound.accounts.known send memSends
    omega
  accounts := sound.accounts.begin payload _
  whole := sound.whole
  encoded := sound.encoded
  data := sound.data
  paced := by
    refine ⟨sound.paced.free, fun attempt current place mem => ?_⟩
    rcases List.mem_append.mp mem with old | new
    · exact sound.paced.held attempt current place old
    · obtain ⟨-, rfl⟩ := Prod.mk.inj (List.mem_singleton.mp new)
      trivial

/-- A step leaves the buffer alone. -/
theorem buffer_step (sound : peer.Sound) (n : Nat) : (peer.step n).buffer = peer.buffer := by
  unfold Peer.step SharedLink.step Peer.buffer
  cases found : peer.shared.send? n with
  | none => rfl
  | some place =>
      rw [SharedLink.move_link]
      exact (sound.follows.outcome (SharedLink.mem_of_send? found)).buffer_eq

/-- What a step adds to the channel are data frames. -/
theorem step (sound : peer.Sound) (n : Nat) (inTime : ¬ (peer.step n).TimedOut) :
    (peer.step n).Sound ∧
      ∃ added, (peer.step n).wire = peer.wire ++ added ∧
        ∀ frame ∈ added, frame.isData = true := by
  cases found : peer.shared.send? n with
  | none =>
      have same : peer.step n = peer := by
        simp [Peer.step, SharedLink.step, SharedLink.record, found]
      rw [same]
      exact ⟨sound, [], by simp, by simp⟩
  | some place =>
      have mem := SharedLink.mem_of_send? found
      have outcome := sound.follows.outcome mem
      have moved : (peer.step n).shared =
          peer.shared.move n (place.step peer.shared.link).2 (place.step peer.shared.link).1 := by
        simp [Peer.step, SharedLink.step, found]
      have history : (peer.step n).history = peer.history.record peer.shared.link n place := by
        simp [Peer.step, SharedLink.record, found]
      have inTime : ∀ span, (place.step peer.shared.link).1 ≠ .done (.error (.ackTimeout span)) := by
        intro span late
        refine inTime ⟨(n, .error (.ackTimeout span)), ?_, span, rfl⟩
        simp [moved, late, SharedLink.move]
      have accepts : ∀ frame, (peer.shared.link.transmit frame).1 = .ok () := by
        intro frame
        rw [transmit_of_isOpen sound.isOpen]
      have follows : (peer.step n).shared.Follows (peer.step n).history := sound.follows.step n
      have accounts : (peer.step n).history.Accounts (peer.step n).begun
          (peer.step n).shared.sends := by
        rw [history, moved, SharedLink.move_sends]
        exact sound.accounts.step mem outcome
      have paced : (peer.step n).history.Paced (peer.step n).shared.link.framer
          (peer.step n).shared.sends (peer.step n).heard := by
        rw [history, moved, SharedLink.move_sends, SharedLink.move_link]
        exact sound.paced.step sound.follows mem outcome accepts inTime
      have whole : ∀ entry ∈ (peer.step n).history.past, entry.2 = .returned (.ok ()) := by
        rw [history]
        exact outcome.whole accepts inTime sound.whole
      -- The channel is as it was, or one data frame longer.
      obtain ⟨channel, frames⟩ | ⟨frame, rest, rfl, channel, frames⟩ := outcome.transport_frames
      · have channel : (peer.step n).channel = peer.channel := by
          rw [Peer.channel, moved, SharedLink.move_link]
          exact channel
        have wire : (peer.step n).wire = peer.wire := by
          rw [Peer.wire, channel, Peer.wire]
        refine ⟨⟨?_, follows, accounts, whole, ?_, ?_, paced⟩, [], by simp [wire], by simp⟩
        · rw [channel, sound.isOpen]
        · rw [channel, wire, sound.encoded]
        · rw [wire, history, frames, sound.data]
      · have extends_ : peer.Extends (peer.step n) frame := by
          constructor <;>
            rw [Peer.channel, moved, SharedLink.move_link, channel, transmit_of_isOpen sound.isOpen]
          rfl
          rfl
        have isData : frame.isData = true := by
          obtain ⟨attempt, current, rfl⟩ := sound.follows.current_of_holds mem rfl
          have tail := (sound.follows.continues_of_mem current mem).tail
          simpa [Frame.isData] using tail.kind_ne_acknowledge List.mem_cons_self
        refine ⟨⟨?_, follows, accounts, whole, extends_.encoded sound.encoded, ?_, paced⟩,
          [frame], extends_.wire, by simp [isData]⟩
        · rw [extends_.isOpen, sound.isOpen]
        · rw [extends_.wire, history, frames, accepts, List.filter_append, sound.data]
          simp [isData, Except.isOk, Except.toBool]

/-- The slices on the channel are those of the history. -/
theorem countP_isSlice (sound : peer.Sound) :
    peer.wire.countP Frame.isSlice = peer.history.slices := by
  rw [History.slices, ← sound.data, List.countP_filter]
  congr 1
  funext frame
  cases kind : frame.kind <;> simp [Frame.isSlice, Frame.isData, kind]

/-- The packets on the channel are the payloads of the attempts that are over: an attempt that goes
on has put slices there, but no packet. -/
theorem packets_wire (sound : peer.Sound) :
    (Assembly.ofFrames peer.wire).packets =
      peer.history.past.map fun entry => entry.1.payload := by
  have follows : peer.history.Describes peer.shared.link.framer peer.shared.sends := sound.follows
  have past : ∀ attempt ∈ peer.history.past.map Prod.fst,
      attempt.IsComplete peer.shared.link.framer.frameLimit := by
    intro attempt mem
    obtain ⟨entry, memPast, rfl⟩ := List.mem_map.mp mem
    exact (follows.past entry memPast).2.mpr (sound.whole entry memPast)
  -- Without the acknowledgments the channel holds the attempts, and all but the current one are whole.
  have wire : Assembly.ofFrames peer.wire = peer.history.current.toList.foldl
      (Assembly.attempt peer.shared.link.framer.frameLimit)
        ⟨peer.history.past.map fun entry => entry.1.payload, ""⟩ := by
    rw [Assembly.ofFrames, ← Assembly.takeAll_filter, sound.data]
    rw [← Assembly.ofFrames, follows.ofFrames_frames, History.attempts, List.foldl_append,
      Assembly.empty, Assembly.foldl_attempt_complete [] past]
    simp [Function.comp_def]
  rw [wire]
  cases current : peer.history.current with
  | none => rfl
  | some attempt =>
      obtain ⟨-, -, place, -, continues⟩ := follows.held attempt current
      simp [Assembly.attempt, continues.not_complete]

/-- Acknowledging adds an acknowledgment to the channel, which is no data frame. -/
theorem acknowledge (sound : peer.Sound) (owed : peer.owed ≠ 0) :
    peer.acknowledge.Sound ∧ peer.acknowledge.wire = peer.wire ++ [.acknowledgment] := by
  have extends_ : peer.Extends peer.acknowledge .acknowledgment := by
    unfold Peer.acknowledge
    rw [if_neg owed, transmit_of_isOpen sound.isOpen]
    exact ⟨rfl, rfl⟩
  have rest : peer.acknowledge.shared.link.framer = peer.shared.link.framer ∧
      peer.acknowledge.shared.sends = peer.shared.sends ∧
      peer.acknowledge.history = peer.history ∧ peer.acknowledge.begun = peer.begun ∧
      peer.acknowledge.reports = peer.reports := by
    unfold Peer.acknowledge
    rw [if_neg owed]
    exact ⟨rfl, rfl, rfl, rfl, rfl⟩
  obtain ⟨framer, sends, history, begun, reports⟩ := rest
  refine ⟨⟨extends_.isOpen.trans sound.isOpen, ?_, ?_, ?_, extends_.encoded sound.encoded, ?_, ?_⟩,
    extends_.wire⟩
  · rw [SharedLink.Follows, history, framer, sends]
    exact sound.follows
  · rw [history, begun, sends]
    exact sound.accounts
  · rw [history]
    exact sound.whole
  · rw [extends_.wire, history, List.filter_append, sound.data]
    simp [Frame.isData, Frame.acknowledgment]
  · rw [history, framer, sends, Peer.heard, reports]
    exact sound.paced

theorem setClocks (sound : peer.Sound) (timer wall : Nat) : (peer.setClocks timer wall).Sound :=
  ⟨sound.isOpen, sound.follows, sound.accounts, sound.whole, sound.encoded, sound.data,
    sound.paced⟩

end Sound

/-! ### What a peer makes of a frame -/

/-- One peer is what another becomes by taking in a frame that is not stray. -/
structure Takes (peer after : Peer) (frame : Frame) : Prop where
  /-- The frame is reported. -/
  reported : after.reports.length = peer.reports.length + 1
  /-- It is reported as what it is. -/
  welcome : .ok .strayAcknowledgment ∉ peer.reports → .ok .strayAcknowledgment ∉ after.reports
  /-- An acknowledgment is heard. -/
  heard : after.heard = peer.heard + [frame].countP fun frame => !frame.isData
  /-- A slice is to be acknowledged. -/
  owed : after.owed = peer.owed + [frame].countP Frame.isSlice
  /-- What carries a payload goes to the packets. -/
  assembled : Assembly.take ⟨peer.delivered, peer.buffer⟩ frame = ⟨after.delivered, after.buffer⟩
  /-- The channel is left alone. -/
  channel : after.channel = peer.channel

/-- What a framer answers decides what a peer becomes. -/
theorem receive_of_eq {peer : Peer} {text : String} {report : Except TransportError Received}
    {framer : Framer} (answer : peer.shared.link.framer.receive text = (report, framer)) :
    peer.receive text =
      { peer with
        shared := { peer.shared with link := { peer.shared.link with framer } }
        reports := peer.reports ++ [report]
        owed := peer.owed + if isContinued report then 1 else 0 } := by
  simp [receive, Link.receive, answer]

/-- A frame that is answered by a report of its own kind is taken in. -/
theorem takes_of_answer {peer : Peer} {frame : Frame} {report : Except TransportError Received}
    {framer : Framer} (answer : peer.shared.link.framer.receive frame.encode = (report, framer))
    (welcome : report ≠ .ok .strayAcknowledgment) (slice : isContinued report = frame.isSlice)
    (acknowledged : isAcknowledged report = !frame.isData) :
    peer.Takes (peer.receive frame.encode) frame := by
  have assembled := Framer.receive_encode peer.shared.link.framer peer.delivered frame
  rw [answer] at assembled
  rw [receive_of_eq answer]
  refine ⟨by simp, fun none => ?_, ?_, ?_, ?_, rfl⟩
  · simpa [none] using welcome.symm
  · simp [Peer.heard, acknowledged]
  · simp [slice]
  · have packets : (peer.reports ++ [report]).filterMap Framer.packetOf? =
        peer.delivered ++ (Framer.packetOf? report).toList := by
      rw [List.filterMap_append, Peer.delivered]
      cases packet : Framer.packetOf? report <;> simp [packet]
    rw [← packets] at assembled
    exact assembled

/-- After a frame that is taken in, only the pace is to be looked at. -/
theorem Sound.receive_of_answer {peer : Peer} (sound : peer.Sound) {frame : Frame}
    {report : Except TransportError Received} {framer : Framer}
    (answer : peer.shared.link.framer.receive frame.encode = (report, framer))
    (paced : peer.history.Paced framer peer.shared.sends
      (peer.heard + if isAcknowledged report then 1 else 0)) :
    (peer.receive frame.encode).Sound := by
  have follows : (peer.receive frame.encode).shared.Follows peer.history :=
    History.Describes.receive sound.follows frame.encode
  rw [receive_of_eq answer] at follows ⊢
  refine ⟨sound.isOpen, follows, sound.accounts, sound.whole, sound.encoded, sound.data, ?_⟩
  simpa [Peer.heard, List.countP_cons] using paced

/-- **A peer that hears no more acknowledgments than it has sent slices takes any frame in.** -/
theorem Sound.receive {peer : Peer} (sound : peer.Sound) (frame : Frame)
    (fits : frame.isData = false → peer.heard < peer.history.slices) :
    (peer.receive frame.encode).Sound ∧ peer.Takes (peer.receive frame.encode) frame := by
  obtain ⟨kind, slice⟩ := frame
  cases kind with
  | more =>
      have answer : peer.shared.link.framer.receive (Frame.mk .more slice).encode =
          (.ok .continued, { peer.shared.link.framer with
            buffer := peer.shared.link.framer.buffer ++ slice }) := by
        simp [Framer.receive]
      exact ⟨sound.receive_of_answer answer (sound.paced.of_slot_eq rfl),
        takes_of_answer answer (by simp) rfl rfl⟩
  | final =>
      have answer : peer.shared.link.framer.receive (Frame.mk .final slice).encode =
          (.ok (.packet (peer.shared.link.framer.buffer ++ slice)),
            { peer.shared.link.framer with buffer := "" }) := by
        simp [Framer.receive]
      exact ⟨sound.receive_of_answer answer (sound.paced.of_slot_eq rfl),
        takes_of_answer answer (by simp) rfl rfl⟩
  | acknowledge =>
      have behind : peer.heard < peer.history.slices := fits rfl
      -- Fewer were heard than slices were sent, so this one is waited for.
      have slot := sound.paced.awaited_of_lt sound.follows behind
      have answer : peer.shared.link.framer.receive (Frame.mk .acknowledge slice).encode =
          (.ok .acknowledged, { peer.shared.link.framer with acknowledgment := .arrived }) := by
        simp [Framer.receive, slot]
      exact ⟨sound.receive_of_answer answer (sound.paced.hear sound.follows behind),
        takes_of_answer answer (by simp) rfl rfl⟩

end Peer

end RemoteAgent
