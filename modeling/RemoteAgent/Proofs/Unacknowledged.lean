import RemoteAgent.Proofs.Pieces
import RemoteAgent.Proofs.SendLock
import RemoteAgent.Transport.Memory

/-!
# Slices that could not be acknowledged

A link keeps a slice and then acknowledges it.  If the transport refuses the acknowledgment, the
link reports the error, and the slice stays where it is.  A text that cannot be read is also an
error, but it leaves the link as it was.  These are the two ways in which taking a frame can fail
(`Link.Fails`).

So an error does not tell what became of the frame, and the far end, which got no acknowledgment,
may send the slice again.  Then it is in the packet twice: whatever is handed to a link counts,
acknowledged or not (`Link.handleAll_of_interspersed`).

## Main results

* `Link.buffer_of_failure`: what a frame that failed leaves in the buffer, and what becomes of the
  packet when it is sent again.
* `Link.not_buffer_kept`: the buffer is not always as it was.
-/

namespace RemoteAgent

/-- A text that comes in, with what happens to the link before it does.  Anything may happen to the
transport, to the clocks and to the sends on the link; the incoming packet is left alone. -/
structure Arrival (τ : Type) where
  /-- What happens before. -/
  before : Link τ → Link τ
  /-- The text. -/
  text : String
  /-- The incoming packet is left alone. -/
  buffer_before : ∀ link, (before link).framer.buffer = link.framer.buffer

namespace Link

variable {τ : Type} [Transport τ] {link after : Link τ} {text : String} {error : TransportError}

/-- Handles texts, one after the other. -/
def handleAll (link : Link τ) :
    List (Arrival τ) → List (Except TransportError (Option String)) × Link τ
  | [] => ([], link)
  | arrival :: rest =>
    let (answer, next) := (arrival.before link).handle arrival.text
    let (answers, last) := next.handleAll rest
    (answer :: answers, last)

/-- The packet that was handed out, if one was. -/
def packetOf? (answer : Except TransportError (Option String)) : Option String :=
  answer.toOption.join

/-! ## One frame -/

/-- The link when a slice was kept and its acknowledgment was offered to the transport. -/
def keep (link : Link τ) (slice : String) (transport : τ) : Link τ :=
  { link with
    framer := { link.framer with buffer := link.framer.buffer ++ slice }
    transport }

/-- How a frame can fail. -/
inductive Fails (link : Link τ) : String → TransportError → Link τ → Prop
  /-- It cannot be read, and nothing happens. -/
  | unreadable {text : String} (unreadable : Frame.IsUnreadable text) :
      Fails link text (.unknownIndicator (Text.firstChars Frame.excerptLength text)) link
  /-- It is a slice, and the transport refuses the acknowledgment. -/
  | unacknowledged (slice : String) {error : TransportError} {transport : τ}
      (refused : Transport.send Frame.acknowledgment.encode link.transport =
        (.error error, transport)) :
      Fails link (Frame.encode ⟨.more, slice⟩) error (link.keep slice transport)

/-- A slice is kept, and the answer is that of the transport. -/
theorem handle_slice {slice : String} {result : Except TransportError Unit} {transport : τ}
    (sent : Transport.send Frame.acknowledgment.encode link.transport = (result, transport)) :
    link.handle (Frame.encode ⟨.more, slice⟩) =
      (result.map fun _ => none, link.keep slice transport) := by
  unfold handle receive Framer.receive
  rw [Frame.parse_encode]
  dsimp only [transmit]
  rw [sent]
  cases result <;> rfl

/-- What is no slice is answered as the framer answers it. -/
theorem handle_of_not_continued (other : (link.framer.receive text).1 ≠ .ok .continued) :
    link.handle text =
      ((link.framer.receive text).1.map fun received => Framer.packetOf? (.ok received),
        { link with framer := (link.framer.receive text).2 }) := by
  unfold handle receive
  revert other
  rcases link.framer.receive text with ⟨_ | received, framer⟩
  · intro _
    rfl
  · cases received with
    | continued => exact fun other => absurd rfl other
    | _ => exact fun _ => rfl

/-- What a link does with a text: a slice is kept and acknowledged, and all else is answered as the
framer answers it. -/
theorem handle_cases (link : Link τ) (text : String) :
    (∃ slice result transport, text = Frame.encode ⟨.more, slice⟩ ∧
      Transport.send Frame.acknowledgment.encode link.transport = (result, transport) ∧
      link.handle text = (result.map fun _ => none, link.keep slice transport)) ∨
    link.handle text =
      ((link.framer.receive text).1.map fun received => Framer.packetOf? (.ok received),
        { link with framer := (link.framer.receive text).2 }) := by
  by_cases continued : (link.framer.receive text).1 = .ok .continued
  · have answers := link.framer.answers_receive text
    rw [continued] at answers
    obtain ⟨slice, rfl⟩ := answers.exists_slice
    exact .inl ⟨slice, _, _, rfl, rfl, handle_slice rfl⟩
  · exact .inr (handle_of_not_continued continued)

/-- **How a frame fails**, and what it leaves. -/
theorem fails_of_handle (failed : link.handle text = (.error error, after)) :
    link.Fails text error after := by
  obtain ⟨slice, result, transport, rfl, sent, handled⟩ | handled := link.handle_cases text
  · rw [handled] at failed
    cases result with
    | ok => cases failed
    | error =>
      cases failed
      exact .unacknowledged slice sent
  · rw [handled] at failed
    have answers := link.framer.answers_receive text
    cases received : (link.framer.receive text).1 with
    | ok => simp [received, Except.map] at failed
    | error =>
      rw [received] at answers failed
      cases answers with
      | unreadable unreadable =>
        rw [Framer.receive_of_isUnreadable _ unreadable] at failed
        cases failed
        exact .unreadable unreadable

/-- To the incoming packet, a link that handles a text does what its framer does with it, whatever
becomes of the acknowledgment. -/
theorem handle_eq_receive (link : Link τ) (text : String) :
    packetOf? (link.handle text).1 = Framer.packetOf? (link.framer.receive text).1 ∧
      (link.handle text).2.framer = (link.framer.receive text).2 := by
  obtain ⟨slice, result, transport, rfl, -, handled⟩ | handled := link.handle_cases text
  · rw [handled, Framer.receive, Frame.parse_encode]
    cases result <;> exact ⟨rfl, rfl⟩
  · rw [handled]
    refine ⟨?_, rfl⟩
    cases (link.framer.receive text).1 <;> rfl

/-! ## Many frames -/

/-- **Every frame that is handled counts**, whether or not its acknowledgment went out: the packets
that a link hands out are put together from all of them. -/
theorem handleAll_of_interspersed (link : Link τ) (packets : List String)
    (arrivals : List (Arrival τ)) {frames : List Frame}
    (interspersed : Interspersed frames (arrivals.map Arrival.text)) :
    Assembly.takeAll ⟨packets, link.framer.buffer⟩ frames =
      ⟨packets ++ (link.handleAll arrivals).1.filterMap packetOf?,
        (link.handleAll arrivals).2.framer.buffer⟩ := by
  generalize same : arrivals.map Arrival.text = texts at interspersed
  induction interspersed generalizing link packets arrivals with
  | nil =>
    rw [List.map_eq_nil_iff.mp same]
    simp [handleAll]
  | frame frame rest ih =>
    obtain ⟨arrival, others, rfl, text, same⟩ := List.map_eq_cons_iff.mp same
    obtain ⟨packet, framer⟩ := (arrival.before link).handle_eq_receive arrival.text
    have step := Framer.receive_encode (arrival.before link).framer packets frame
    rw [← text, ← packet, ← framer, arrival.buffer_before] at step
    rw [Assembly.takeAll_cons, step, ih _ _ others same]
    cases answer : packetOf? ((arrival.before link).handle arrival.text).1 <;>
      simp [handleAll, answer]
  | noise noise rest ih =>
    obtain ⟨arrival, others, rfl, text, same⟩ := List.map_eq_cons_iff.mp same
    obtain ⟨packet, framer⟩ := (arrival.before link).handle_eq_receive arrival.text
    obtain ⟨none, buffer⟩ := (arrival.before link).framer.receive_of_isNoise noise
    rw [← text, ← packet] at none
    rw [← text, ← framer, arrival.buffer_before] at buffer
    rw [← buffer, ih _ _ others same]
    simp [handleAll, none]

/-- **What a frame that fails leaves behind.**  It fails in one of two ways, and the buffer is as it
was unless the frame is a slice that holds some text.  If it is a slice, and the far end sends it
again and then the rest of its packet, the packet has the slice twice, whatever else comes in
meanwhile and whatever becomes of the transport; only an empty slice makes no difference. -/
theorem buffer_of_failure (failed : link.handle text = (.error error, after)) :
    link.Fails text error after ∧
    (after.framer.buffer = link.framer.buffer ↔
      ∀ slice, text = Frame.encode ⟨.more, slice⟩ → slice = "") ∧
    ∀ slice rest, text = Frame.encode ⟨.more, slice⟩ → Frame.IsTail rest →
      let sent := link.framer.buffer ++ (slice ++ Frame.text rest)
      let got := link.framer.buffer ++ slice ++ (slice ++ Frame.text rest)
      (∀ arrivals, Interspersed (⟨.more, slice⟩ :: rest) (arrivals.map Arrival.text) →
        (after.handleAll arrivals).1.filterMap packetOf? = [got]) ∧
      (got = sent ↔ slice = "") := by
  refine ⟨fails_of_handle failed, ?_⟩
  cases fails_of_handle failed with
  | unreadable unreadable =>
    have other : ∀ slice, text ≠ Frame.encode ⟨.more, slice⟩ := by
      rintro slice rfl
      exact unreadable .more (by simp [Frame.encode])
    exact ⟨⟨fun _ slice same => absurd same (other slice), fun _ => rfl⟩,
      fun slice _ same => absurd same (other slice)⟩
  | @unacknowledged slice _ transport refused =>
    have unique : ∀ other, Frame.encode ⟨.more, slice⟩ = Frame.encode ⟨.more, other⟩ →
        slice = other := by
      intro other same
      have frames := Frame.encode_injective same
      cases frames
      rfl
    have kept : (link.keep slice transport).framer.buffer = link.framer.buffer ++ slice := rfl
    constructor
    · rw [kept, String.append_eq_left_iff]
      constructor
      · rintro rfl other same
        exact (unique other same).symm
      · exact fun all => all slice rfl
    · intro other rest same tail
      obtain rfl := unique other same
      constructor
      · intro arrivals interspersed
        have taken := (link.keep slice transport).handleAll_of_interspersed [] arrivals interspersed
        rw [Assembly.takeAll_tail _ (.more slice tail)] at taken
        simpa [kept] using (congrArg Assembly.packets taken).symm
      · simp [String.append_assoc]

/-- A link on a channel that is closed. -/
def closed : Link MemoryChannel := ⟨Framer.new 2 ⟨0⟩ ⟨0⟩ ⟨1000⟩, .new, 0, 0⟩

/-- It refuses to acknowledge a slice, and keeps it. -/
theorem handle_closed :
    closed.handle "Cab" = (.error .closed, closed.keep "ab" .new) := by
  have text : "Cab" = Frame.encode ⟨.more, "ab"⟩ := by decide
  have refused : Transport.send Frame.acknowledgment.encode closed.transport =
      (.error .closed, .new) := rfl
  rw [text, handle_slice refused]
  rfl

/-- The channel is opened again, the slice comes in once more and then the last frame: the packet
has the slice twice. -/
theorem buffer_of_failure_closed :
    let reopen : Link MemoryChannel → Link MemoryChannel := fun link =>
      { link with transport := (Transport.openAt "mem://x" link.transport).2 }
    closed.handle "Cab" = (.error .closed, closed.keep "ab" .new) ∧
      ((closed.keep "ab" .new).handleAll [⟨reopen, "Cab", fun _ => rfl⟩,
        ⟨id, "Fx", fun _ => rfl⟩]).1.filterMap packetOf? = ["ababx"] := by
  intro reopen
  have slice : "Cab" = Frame.encode ⟨.more, "ab"⟩ := by decide
  have last : "Fx" = Frame.encode ⟨.final, "x"⟩ := by decide
  refine ⟨handle_closed, ?_⟩
  refine ((buffer_of_failure handle_closed).2.2 "ab" _ slice (.final "x")).1 _ ?_
  rw [slice, last]
  exact .frame _ (.frame _ .nil)

/-- A frame that fails does not always leave the buffer alone. -/
theorem not_buffer_kept :
    ¬ ∀ (link after : Link MemoryChannel) (text : String) (error : TransportError),
      link.handle text = (.error error, after) → after.framer.buffer = link.framer.buffer := by
  intro kept
  have same := kept _ _ _ _ handle_closed
  revert same
  decide

end Link

end RemoteAgent
