import RemoteAgent.Proofs.Contention

/-!
# Acknowledgments that come late

A send turns from one slice to the next when an acknowledgment has come in.  This is to keep it from
flooding the other side: the peer acknowledges each slice when it has taken it, once and in order,
and so one slice is on its way at a time.  But an acknowledgment does not say which slice it is for.
A send that was given up, or that has waited for too long, may leave a slice behind whose
acknowledgment is still to come, and then the framer takes it for the one that the next send waits
for.

This module counts.  The acknowledgments come in in the order of the slices, so the one that comes
in as the `k`th is for the `k`th slice that the transport has accepted, and what the code does not
keep is the numbers: how many acknowledgments have come in (`Reckoning.heard`), how many were still
to come when the slot for an acknowledgment was opened (`Reckoning.behind`), and which one was taken
(`Reckoning.release`).  `Dialogue.released` says what they have to do with each other at the moment
at which a send hands over its next frame: it goes on with an acknowledgment of its own last slice
exactly if none was still to come when the slot was opened, and never more are still to come than
sends were given up halfway.

## Main definitions

* `History.lapses`: the sends that were given up halfway.
* `Dialogue`: the sends on a link with a peer that acknowledges every slice once and in order.
* `Dialogue.HandsOn`: a send is about to hand over a frame that is not its first one.
-/

namespace RemoteAgent

variable {τ : Type}

/-- How many attempts were given up after the transport had accepted something of them. -/
def History.lapses (history : History) : Nat :=
  history.past.countP fun entry => !entry.2.isOk && !entry.1.handed.isEmpty

/-- The transport takes back no slice that it has accepted. -/
theorem History.Outcome.slices_le [Transport τ] {history recorded : History} {link : Link τ}
    {n : Nat} {place : Sending} {stepped : Sending.Step τ}
    (outcome : history.Outcome link n place stepped recorded) :
    history.slices ≤ recorded.slices := by
  unfold slices
  obtain ⟨-, frames⟩ | ⟨frame, rest, -, -, frames⟩ := outcome.transport_frames
  · exact Nat.le_of_eq (by rw [frames])
  · rw [frames, List.countP_append]
    exact Nat.le_add_right _ _

/-! ## Reckoning -/

/-- The acknowledgment with which a send has gone on. -/
structure Release where
  /-- Which one it was, counted from the first that came in. -/
  number : Nat
  /-- How many were still to come when the slot was opened that it has filled. -/
  behind : Nat

/-- What can be counted about the acknowledgments that come in. -/
structure Reckoning where
  /-- How many have come in. -/
  heard : Nat
  /-- How many were still to come when the slot was opened last. -/
  behind : Nat
  /-- Which one has filled the slot last. -/
  filledBy : Nat
  /-- The one that a send has gone on with last. -/
  release : Release

namespace Reckoning

/-- Nothing has come in. -/
def empty : Reckoning := ⟨0, 0, 0, ⟨0, 0⟩⟩

/-- The slot is opened when so many slices were accepted. -/
def opened (reckoning : Reckoning) (slices : Nat) : Reckoning :=
  { reckoning with behind := slices - reckoning.heard }

/-- What the step of a send adds, when so many slices were accepted: the slot is opened by a send
that turns to a frame, and if it has waited before, it has gone on with what has filled the slot. -/
def record (reckoning : Reckoning) (slices : Nat) (place : Sending)
    (progress : Progress Sending (Except TransportError Unit)) : Reckoning :=
  match place, progress with
  | .acquiring _ _ _, .going (.transmitting _ _) => reckoning.opened slices
  | .waiting _ _, .going (.transmitting _ _) =>
    { reckoning.opened slices with release := ⟨reckoning.filledBy, reckoning.behind⟩ }
  | _, _ => reckoning

@[simp] theorem heard_record (reckoning : Reckoning) (slices : Nat) (place : Sending)
    (progress : Progress Sending (Except TransportError Unit)) :
    (reckoning.record slices place progress).heard = reckoning.heard := by
  unfold record
  split <;> rfl

/-- An acknowledgment comes in, and fills the slot if it is open. -/
def hear (reckoning : Reckoning) (slot : Acknowledgment) : Reckoning :=
  { reckoning with
    heard := reckoning.heard + 1
    filledBy := if slot = .awaited then reckoning.heard + 1 else reckoning.filledBy }

end Reckoning

/-- How the numbers stand to each other at the place of the holder of the lock. -/
def Sending.Reckons (slot : Acknowledgment) (slices : Nat) (reckoning : Reckoning) : Sending → Prop
  | .acquiring _ _ _ => True
  | .transmitting _ _ =>
    slices ≤ reckoning.heard + reckoning.behind ∧
      (slot = .awaited → reckoning.heard + reckoning.behind = slices) ∧
      (slot = .arrived → reckoning.filledBy + reckoning.behind = slices + 1)
  | .waiting _ _ =>
    (slot = .awaited ∧ reckoning.heard + reckoning.behind + 1 = slices) ∨
      (slot = .arrived ∧ reckoning.filledBy + reckoning.behind = slices)

/-- An acknowledgment that comes in fills the slot if it is open, and else it only counts. -/
theorem Sending.Reckons.hear {slot : Acknowledgment} {slices : Nat} {reckoning : Reckoning}
    {place : Sending} (reckons : place.Reckons slot slices reckoning) :
    place.Reckons (if slot = .awaited then .arrived else slot) slices (reckoning.hear slot) := by
  cases place with
  | acquiring => trivial
  | transmitting =>
      obtain ⟨le, awaited, arrived⟩ := reckons
      cases slot with
      | none => exact ⟨by simp [Reckoning.hear]; omega, by simp, by simp⟩
      | awaited =>
          have sum := awaited rfl
          exact ⟨by simp [Reckoning.hear]; omega, by simp, by simp [Reckoning.hear]; omega⟩
      | arrived =>
          have sum := arrived rfl
          exact ⟨by simp [Reckoning.hear]; omega, by simp, by simp [Reckoning.hear]; omega⟩
  | waiting =>
      rcases reckons with ⟨rfl, sum⟩ | ⟨rfl, sum⟩
      · exact .inr ⟨rfl, by simp [Reckoning.hear]; omega⟩
      · exact .inr ⟨rfl, by simp [Reckoning.hear]; omega⟩

/-- The acknowledgment that a send has gone on with is that of a slice as many slices ago as were
still to be acknowledged, and never more are than sends were given up halfway. -/
structure Release.Explains (release : Release) (slices heard lapses : Nat) : Prop where
  number_add_behind : release.number + release.behind = slices
  number_le : release.number ≤ heard
  behind_le : release.behind ≤ lapses

/-- **The reckoning is right.** -/
structure History.Reckons (history : History) (framer : Framer) (sends : List (Nat × Sending))
    (reckoning : Reckoning) : Prop where
  /-- What has filled the slot has come in. -/
  filledBy_le : reckoning.filledBy ≤ reckoning.heard
  /-- No more acknowledgments come in than there are slices. -/
  heard_le : reckoning.heard ≤ history.slices
  /-- Between two attempts only those are still to come that were given up. -/
  free : history.current = none → history.slices ≤ reckoning.heard + history.lapses
  /-- During an attempt no more were still to come when the slot was opened. -/
  behind_le : ∀ attempt, history.current = some attempt → reckoning.behind ≤ history.lapses
  /-- During an attempt its place tells the rest. -/
  held : ∀ attempt, history.current = some attempt → ∀ place,
    (attempt.number, place) ∈ sends →
      place.Reckons framer.acknowledgment history.slices reckoning
  /-- Who hands over a frame that is not the first has gone on with an acknowledgment. -/
  released : ∀ attempt, history.current = some attempt → attempt.handed ≠ [] → ∀ frame rest,
    (attempt.number, .transmitting frame rest) ∈ sends →
      reckoning.release.Explains history.slices reckoning.heard history.lapses

namespace History.Reckons

variable {history recorded : History} {framer : Framer} {sends : List (Nat × Sending)}
  {reckoning : Reckoning}

theorem empty (framer : Framer) : History.empty.Reckons framer [] .empty where
  filledBy_le := Nat.le_refl 0
  heard_le := Nat.le_refl 0
  free _ := Nat.le_refl 0
  behind_le := by simp [History.empty]
  held := by simp [History.empty]
  released := by simp [History.empty]

/-- Of the framer only the slot for the acknowledgment matters. -/
theorem of_slot_eq (reckons : history.Reckons framer sends reckoning) {changed : Framer}
    (same : changed.acknowledgment = framer.acknowledgment) :
    history.Reckons changed sends reckoning :=
  ⟨reckons.filledBy_le, reckons.heard_le, reckons.free, reckons.behind_le, same ▸ reckons.held,
    reckons.released⟩

/-- Between two attempts only the numbers matter. -/
theorem of_idle (idle : recorded.current = none) (filled : reckoning.filledBy ≤ reckoning.heard)
    (heard : reckoning.heard ≤ recorded.slices)
    (free : recorded.slices ≤ reckoning.heard + recorded.lapses) :
    recorded.Reckons framer sends reckoning where
  filledBy_le := filled
  heard_le := heard
  free _ := free
  behind_le := by simp [idle]
  held := by simp [idle]
  released := by simp [idle]

/-- Sends that do not hold the lock may move as they like. -/
theorem idle_moved (reckons : history.Reckons framer sends reckoning) {n : Nat}
    {next : Option Sending}
    (other : ∀ attempt, history.current = some attempt → attempt.number ≠ n) :
    history.Reckons framer (Numbered.moved sends n next) reckoning where
  filledBy_le := reckons.filledBy_le
  heard_le := reckons.heard_le
  free := reckons.free
  behind_le := reckons.behind_le
  held attempt current place moved := by
    rcases Numbered.mem_moved.mp moved with ⟨-, old⟩ | ⟨here, -⟩
    · exact reckons.held attempt current place old
    · exact absurd here (other attempt current)
  released attempt current handed frame rest moved := by
    rcases Numbered.mem_moved.mp moved with ⟨-, old⟩ | ⟨here, -⟩
    · exact reckons.released attempt current handed frame rest old
    · exact absurd here (other attempt current)

/-- An attempt may be given up at any place.  If the slice that it has handed over last is not
acknowledged, it has handed over something, and so one more was given up halfway. -/
theorem give_up (reckons : history.Reckons framer sends reckoning)
    (describes : history.Describes framer sends) (waits : history.Waits sends) {attempt : Attempt}
    (current : history.current = some attempt) {ending : Ending} (failed : ending.isOk = false)
    {changed : Framer} {others : List (Nat × Sending)} :
    History.Reckons ⟨history.past ++ [(attempt, ending)], none⟩ changed others reckoning := by
  obtain ⟨-, -, place, mem, continues⟩ := describes.held attempt current
  have filled := reckons.filledBy_le
  have behind := reckons.behind_le attempt current
  have pace := reckons.held attempt current place mem
  have slices : History.slices ⟨history.past ++ [(attempt, ending)], none⟩ = history.slices := by
    simp [History.slices, History.frames, History.attempts, current]
  have lapses : History.lapses ⟨history.past ++ [(attempt, ending)], none⟩ =
      history.lapses + if attempt.handed = [] then 0 else 1 := by
    cases handed : attempt.handed <;> simp [History.lapses, List.countP_append, failed, handed]
  refine of_idle rfl filled (slices ▸ reckons.heard_le) ?_
  rw [slices, lapses]
  cases place with
  | acquiring => cases continues.holds
  | transmitting frame rest =>
      have toCome : history.slices ≤ reckoning.heard + reckoning.behind := pace.1
      omega
  | waiting rest deadline =>
      have handed := waits attempt rest deadline current mem
      have toCome : history.slices ≤ reckoning.heard + reckoning.behind + 1 := by
        rcases pace with ⟨-, sum⟩ | ⟨-, sum⟩ <;> omega
      rw [if_neg handed]
      omega

/-- An acknowledgment that is still to come may come in at any time. -/
theorem hear (reckons : history.Reckons framer sends reckoning)
    (toCome : reckoning.heard < history.slices) :
    history.Reckons
      { framer with
        acknowledgment := if framer.acknowledgment = .awaited then .arrived
          else framer.acknowledgment }
      sends (reckoning.hear framer.acknowledgment) where
  filledBy_le := by
    have filled := reckons.filledBy_le
    unfold Reckoning.hear
    dsimp only
    split <;> omega
  heard_le := toCome
  free none := by
    have free := reckons.free none
    simp only [Reckoning.hear]
    omega
  behind_le := reckons.behind_le
  held attempt current place mem := (reckons.held attempt current place mem).hear
  released attempt current handed frame rest mem := by
    obtain ⟨sum, number, behind⟩ := reckons.released attempt current handed frame rest mem
    exact ⟨sum, Nat.le_succ_of_le number, behind⟩

variable {τ : Type} {link : Link τ} {n : Nat} {place : Sending}

/-- A slot that is opened for a frame tells what is to come, and nothing has filled it. -/
theorem of_opened {reckoning : Reckoning} {framer : Framer} {frame : Frame} {rest : List Frame}
    {slices : Nat} (heard : reckoning.heard ≤ slices) (slot : framer.acknowledgment = .none) :
    (Sending.transmitting frame rest).Reckons (framer.expect frame).acknowledgment slices
      (reckoning.opened slices) := by
  have sum : reckoning.heard + (slices - reckoning.heard) = slices := by omega
  refine ⟨Nat.le_of_eq sum.symm, fun _ => sum, fun arrived => ?_⟩
  by_cases more : frame.kind = .more
  · simp [Framer.expect, more] at arrived
  · simp [Framer.expect, more, slot] at arrived

/-- An attempt begins. -/
theorem locked (reckons : history.Reckons framer sends reckoning)
    (describes : history.Describes framer sends) (none : history.current = none) (n : Nat)
    (payload : String) (frame : Frame) (rest : List Frame) :
    History.Reckons { history with current := some ⟨n, payload, []⟩ } (framer.lock.expect frame)
      (Numbered.moved sends n (some (.transmitting frame rest)))
      (reckoning.opened history.slices) := by
  have slices : History.slices { history with current := some ⟨n, payload, []⟩ } =
      history.slices := by
    simp [History.slices, History.frames, History.attempts, none]
  refine ⟨reckons.filledBy_le, slices ▸ reckons.heard_le, by simp, ?_, ?_, ?_⟩
  · rintro _ ⟨⟩
    exact Nat.sub_le_iff_le_add'.mpr (reckons.free none)
  · rintro _ ⟨⟩ place moved
    obtain rfl := Option.some.inj (Numbered.eq_of_mem_moved moved)
    obtain ⟨-, slot, -⟩ := describes.free none
    rw [slices]
    exact of_opened reckons.heard_le slot
  · rintro _ ⟨⟩ handed
    exact absurd rfl handed

/-- A slice is accepted: its own acknowledgment is one more that is to come. -/
theorem accepted (reckons : history.Reckons framer sends reckoning)
    (describes : history.Describes framer sends) {attempt : Attempt} {frame : Frame}
    {rest : List Frame} (current : history.current = some attempt)
    (mem : (attempt.number, .transmitting frame rest) ∈ sends) (more : frame.kind = .more)
    (deadline : Nat) :
    History.Reckons { history with current := some (attempt.hand frame) } framer
      (Numbered.moved sends attempt.number (some (.waiting rest deadline))) reckoning := by
  obtain ⟨-, awaited, arrived⟩ := reckons.held attempt current _ mem
  have fits := (describes.continues_of_mem current mem).fits.mpr more
  have slices :
      History.slices { history with current := some (attempt.hand frame) } =
        history.slices + 1 := by
    simp [History.slices, History.frames, History.attempts, current, Attempt.hand,
      Frame.isSlice, more, Nat.add_assoc]
  refine ⟨reckons.filledBy_le, slices ▸ Nat.le_succ_of_le reckons.heard_le, by simp, ?_, ?_, ?_⟩
  · rintro _ ⟨⟩
    exact reckons.behind_le attempt current
  · rintro _ ⟨⟩ place moved
    obtain rfl := Option.some.inj (Numbered.eq_of_mem_moved moved)
    rw [slices]
    cases slot : framer.acknowledgment with
    | none => exact absurd slot fits
    | awaited => exact .inl ⟨rfl, congrArg (· + 1) (awaited slot)⟩
    | arrived => exact .inr ⟨rfl, arrived slot⟩
  · rintro _ ⟨⟩ - frame rest moved
    cases Numbered.eq_of_mem_moved moved

/-- The final frame is accepted: nothing of this attempt is still to be acknowledged. -/
theorem completed (reckons : history.Reckons framer sends reckoning) {attempt : Attempt}
    {frame : Frame} (current : history.current = some attempt)
    (mem : (attempt.number, .transmitting frame []) ∈ sends) (more : frame.kind ≠ .more)
    {changed : Framer} {others : List (Nat × Sending)} :
    History.Reckons ⟨history.past ++ [(attempt.hand frame, .returned (.ok ()))], none⟩ changed
      others reckoning := by
  obtain ⟨toCome, -, -⟩ := reckons.held attempt current _ mem
  have behind := reckons.behind_le attempt current
  have slices :
      History.slices ⟨history.past ++ [(attempt.hand frame, .returned (.ok ()))], none⟩ =
        history.slices := by
    simp [History.slices, History.frames, History.attempts, current, Attempt.hand,
      Frame.isSlice, more]
  have lapses :
      History.lapses ⟨history.past ++ [(attempt.hand frame, .returned (.ok ()))], none⟩ =
        history.lapses := by
    simp [History.lapses, List.countP_append, Ending.isOk]
  refine of_idle rfl reckons.filledBy_le (slices ▸ reckons.heard_le) ?_
  rw [slices, lapses]
  exact Nat.le_trans toCome (Nat.add_le_add_left behind _)

/-- The slot is filled, and the send goes on with what has filled it. -/
theorem turned (reckons : history.Reckons framer sends reckoning) {attempt : Attempt}
    {frame : Frame} {rest : List Frame} {deadline : Nat} (current : history.current = some attempt)
    (mem : (attempt.number, .waiting (frame :: rest) deadline) ∈ sends)
    (arrived : framer.acknowledgment = .arrived) :
    history.Reckons (framer.consume.expect frame)
      (Numbered.moved sends attempt.number (some (.transmitting frame rest)))
      { reckoning.opened history.slices with
        release := ⟨reckoning.filledBy, reckoning.behind⟩ } := by
  have filled := reckons.filledBy_le
  have behind := reckons.behind_le attempt current
  have sum : reckoning.filledBy + reckoning.behind = history.slices := by
    rcases reckons.held attempt current _ mem with ⟨awaited, -⟩ | ⟨-, sum⟩
    · rw [arrived] at awaited
      cases awaited
    · exact sum
  refine ⟨filled, reckons.heard_le, fun none => absurd (current.symm.trans none) (by simp), ?_, ?_,
    ?_⟩
  · intro _ _
    exact Nat.sub_le_iff_le_add'.mpr (by omega)
  · intro other otherCurrent place moved
    obtain rfl := Option.some.inj (current.symm.trans otherCurrent)
    obtain rfl := Option.some.inj (Numbered.eq_of_mem_moved moved)
    have opened : (Sending.transmitting frame rest).Reckons
        (framer.consume.expect frame).acknowledgment history.slices
        (reckoning.opened history.slices) := of_opened reckons.heard_le rfl
    exact opened
  · intro _ _ _ _ _ _
    exact ⟨sum, filled, behind⟩

/-- A send that waits on is where it was. -/
theorem waited (reckons : history.Reckons framer sends reckoning) {rest : List Frame}
    {deadline : Nat} (mem : (n, .waiting rest deadline) ∈ sends) :
    history.Reckons framer (Numbered.moved sends n (some (.waiting rest deadline))) reckoning where
  filledBy_le := reckons.filledBy_le
  heard_le := reckons.heard_le
  free := reckons.free
  behind_le := reckons.behind_le
  held attempt current place moved := by
    rcases Numbered.mem_moved.mp moved with ⟨-, old⟩ | ⟨same, ⟨⟩⟩
    · exact reckons.held attempt current place old
    · exact reckons.held attempt current _ (same ▸ mem)
  released attempt current handed frame others moved := by
    rcases Numbered.mem_moved.mp moved with ⟨-, old⟩ | ⟨-, ⟨⟩⟩
    exact reckons.released attempt current handed frame others old

section Steps

variable [Transport τ] {stepped : Sending.Step τ}

/-- **The step lemma**: a step of a send keeps the reckoning right, whatever it comes to. -/
theorem step (reckons : history.Reckons link.framer sends reckoning)
    (describes : history.Describes link.framer sends) (waits : history.Waits sends)
    (mem : (n, place) ∈ sends) (outcome : history.Outcome link n place stepped recorded) :
    recorded.Reckons stepped.2.framer (Numbered.moved sends n stepped.1.next?)
      (reckoning.record history.slices place stepped.1) := by
  cases outcome with
  | polled other => exact reckons.idle_moved other
  | lockTimeout other => exact reckons.idle_moved other
  | @locked payload since again frame rest free frames none =>
      exact reckons.locked describes none n payload frame rest
  | refused current => exact reckons.give_up describes waits current rfl
  | @slice frame rest attempt deadline current number more =>
      obtain rfl := number
      exact reckons.accepted describes current mem more deadline
  | last current number more =>
      obtain rfl := number
      exact reckons.completed current mem more
  | turned current number arrived =>
      obtain rfl := number
      exact reckons.turned current mem arrived
  | waited => exact reckons.waited mem
  | ackTimeout current => exact reckons.give_up describes waits current rfl

end Steps

/-- A send that is given up from outside leaves the reckoning right. -/
theorem abandon (reckons : history.Reckons link.framer sends reckoning)
    (describes : history.Describes link.framer sends) (waits : history.Waits sends)
    (mem : (n, place) ∈ sends) :
    (history.close n .abandoned).Reckons (place.abandon link).framer
      (Numbered.moved sends n none) reckoning := by
  cases holds : place.holdsLock with
  | false =>
      have other := describes.number_ne_of_idle mem holds
      rw [History.close_of_ne _ other, Sending.abandon, holds]
      exact reckons.idle_moved other
  | true =>
      obtain ⟨attempt, current, rfl⟩ := describes.current_of_holds mem holds
      simp only [History.close, current, if_true]
      exact reckons.give_up describes waits current rfl

/-- A new send looks at the lock first. -/
theorem begin (reckons : history.Reckons framer sends reckoning)
    (describes : history.Describes framer sends) (fresh : n ∉ sends.map Prod.fst)
    (payload : String) (since : Nat) (again : Option Nat) :
    history.Reckons framer (sends ++ [(n, .acquiring payload since again)]) reckoning := by
  have other : ∀ attempt, history.current = some attempt → attempt.number ≠ n := by
    rintro attempt current rfl
    obtain ⟨-, -, place, mem, -⟩ := describes.held attempt current
    exact fresh (List.mem_map_of_mem mem)
  have moved : history.Reckons framer
      (Numbered.moved sends n (some (.acquiring payload since again))) reckoning :=
    reckons.idle_moved other
  rwa [Numbered.moved_of_fresh fresh] at moved

end History.Reckons

/-! ## A frame that comes in -/

/-- Whether a text is an acknowledgment. -/
def Frame.acknowledges (text : String) : Bool :=
  (Frame.parse text).toOption.any (·.kind = .acknowledge)

namespace Framer

/-- An acknowledgment fills the slot if it is open. -/
theorem receive_acknowledgment (p : Framer) :
    (p.receive Frame.acknowledgment.encode).2 =
      { p with acknowledgment := if p.acknowledgment = .awaited then .arrived
          else p.acknowledgment } := by
  cases p with
  | mk frameLimit lockTimeout lockPoll ackTimeout buffer sending acknowledgment =>
      cases acknowledgment <;> simp [receive, Frame.acknowledgment]

/-- Nothing but an acknowledgment fills the slot. -/
theorem acknowledgment_receive (p : Framer) {text : String}
    (other : Frame.acknowledges text = false) :
    (p.receive text).2.acknowledgment = p.acknowledgment := by
  unfold receive
  unfold Frame.acknowledges at other
  rcases parsed : Frame.parse text with error | ⟨kind, slice⟩
  · rfl
  · rw [parsed] at other
    cases kind with
    | more => rfl
    | final => rfl
    | acknowledge => simp [Except.toOption] at other

end Framer

/-! ## A peer that acknowledges -/

namespace Contest

variable [Transport τ] {contest : Contest τ} {n : Nat} {place : Sending}

theorem step_eq (found : contest.shared.send? n = some place) :
    contest.step n =
      { contest with
        shared := contest.shared.move n (place.step contest.shared.link).2
          (place.step contest.shared.link).1
        history := contest.history.record contest.shared.link n place } := by
  simp [step, SharedLink.step, SharedLink.record, found]

omit [Transport τ] in
theorem abandon_eq (found : contest.shared.send? n = some place) :
    contest.abandon n =
      { contest with
        shared :=
          { contest.shared with
            link := place.abandon contest.shared.link
            sends := Numbered.moved contest.shared.sends n none }
        history := contest.history.close n .abandoned } := by
  simp [abandon, SharedLink.abandon, found, Numbered.moved]

end Contest

/-- The sends on a link with a peer that takes every slice and acknowledges it, once and in order,
when it likes to; the acknowledgments come in in this order, when the channel likes to. -/
structure Dialogue (τ : Type) where
  /-- The sends on the link. -/
  contest : Contest τ
  /-- How many slices the peer has acknowledged, counted from the first one. -/
  acknowledged : Nat
  /-- What can be counted about the acknowledgments that come in. -/
  reckoning : Reckoning

namespace Dialogue

/-- What can happen. -/
inductive Event (τ : Type) where
  /-- Something happens on the link. -/
  | link (event : Contest.Event τ)
  /-- The peer acknowledges the next slice. -/
  | acknowledge
  /-- The next acknowledgment comes in. -/
  | hear

/-- Nothing has happened yet, on any channel. -/
def start (setup : Setup) (channel : τ) : Dialogue τ := ⟨.start setup channel, 0, .empty⟩

/-- The slices that the transport has accepted. -/
def slices (dialogue : Dialogue τ) : Nat := dialogue.contest.history.slices

variable [Transport τ]

/-- Lets a send take a step. -/
def step (dialogue : Dialogue τ) (n : Nat) : Dialogue τ :=
  match dialogue.contest.shared.send? n with
  | some place =>
    { dialogue with
      contest := dialogue.contest.step n
      reckoning := dialogue.reckoning.record dialogue.slices place
        (place.step dialogue.contest.shared.link).1 }
  | none => dialogue

/-- What becomes of a dialogue when something happens.  Acknowledgments come from the peer only. -/
def act (dialogue : Dialogue τ) : Event τ → Dialogue τ
  | .link (.step n) => dialogue.step n
  | .link (.receive text) =>
    if Frame.acknowledges text then dialogue
    else { dialogue with contest := dialogue.contest.act (.receive text) }
  | .link event => { dialogue with contest := dialogue.contest.act event }
  | .acknowledge =>
    if dialogue.acknowledged < dialogue.slices then
      { dialogue with acknowledged := dialogue.acknowledged + 1 }
    else dialogue
  | .hear =>
    if dialogue.reckoning.heard < dialogue.acknowledged then
      { dialogue with
        contest := dialogue.contest.act (.receive Frame.acknowledgment.encode)
        reckoning := dialogue.reckoning.hear dialogue.contest.framer.acknowledgment }
    else dialogue

/-- Lets things happen in the given order. -/
def run (dialogue : Dialogue τ) (events : List (Event τ)) : Dialogue τ := events.foldl act dialogue

/-- What holds of a dialogue at every moment. -/
structure Sound (dialogue : Dialogue τ) : Prop where
  contest : dialogue.contest.Sound
  reckons : dialogue.contest.history.Reckons dialogue.contest.framer dialogue.contest.shared.sends
    dialogue.reckoning
  heard_le : dialogue.reckoning.heard ≤ dialogue.acknowledged
  acknowledged_le : dialogue.acknowledged ≤ dialogue.slices

namespace Sound

variable {dialogue : Dialogue τ}

theorem start (setup : Setup) (channel : τ) : (Dialogue.start setup channel).Sound where
  contest := .start setup channel
  reckons := .empty _
  heard_le := Nat.le_refl 0
  acknowledged_le := Nat.le_refl 0

/-- What happens on the link without a step is to be looked at on the link only. -/
theorem onLink (sound : dialogue.Sound) {event : Contest.Event τ}
    (history : (dialogue.contest.act event).history.slices = dialogue.slices)
    (reckons : (dialogue.contest.act event).history.Reckons (dialogue.contest.act event).framer
      (dialogue.contest.act event).shared.sends dialogue.reckoning) :
    Sound { dialogue with contest := dialogue.contest.act event } where
  contest := sound.contest.act event
  reckons := reckons
  heard_le := sound.heard_le
  acknowledged_le := by
    unfold slices
    rw [history]
    exact sound.acknowledged_le

theorem step (sound : dialogue.Sound) (n : Nat) : (dialogue.step n).Sound := by
  unfold Dialogue.step
  cases found : dialogue.contest.shared.send? n with
  | none => exact sound
  | some place =>
      have mem := SharedLink.mem_of_send? found
      have outcome := sound.contest.follows.outcome mem
      have stepped := Contest.step_eq found
      have more : dialogue.slices ≤ (dialogue.contest.step n).history.slices := by
        rw [stepped]
        exact outcome.slices_le
      refine ⟨sound.contest.step n, ?_, ?_, Nat.le_trans sound.acknowledged_le more⟩
      · dsimp only
        rw [stepped, Contest.framer, SharedLink.move_link, SharedLink.move_sends]
        exact sound.reckons.step sound.contest.follows sound.contest.waits mem outcome
      · rw [Reckoning.heard_record]
        exact sound.heard_le

theorem abandon (sound : dialogue.Sound) (n : Nat) :
    (dialogue.act (.link (.abandon n))).Sound := by
  cases found : dialogue.contest.shared.send? n with
  | none =>
      have same : dialogue.contest.act (.abandon n) = dialogue.contest := by
        simp [Contest.act, Contest.abandon, SharedLink.abandon, found]
      refine sound.onLink ?_ ?_
      · rw [same, slices]
      · rw [same]
        exact sound.reckons
  | some place =>
      have mem := SharedLink.mem_of_send? found
      have abandoned : dialogue.contest.act (.abandon n) = _ := Contest.abandon_eq found
      refine sound.onLink ?_ ?_
      · rw [abandoned, slices, History.slices, History.frames, History.attempts_close]
        rfl
      · rw [abandoned]
        exact sound.reckons.abandon sound.contest.follows sound.contest.waits mem

/-- An acknowledgment comes in. -/
theorem hear (sound : dialogue.Sound) (toCome : dialogue.reckoning.heard < dialogue.acknowledged) :
    Sound { dialogue with
      contest := dialogue.contest.act (.receive Frame.acknowledgment.encode)
      reckoning := dialogue.reckoning.hear dialogue.contest.framer.acknowledgment } where
  contest := sound.contest.act (.receive _)
  reckons := by
    have reckons := sound.reckons.hear (Nat.lt_of_lt_of_le toCome sound.acknowledged_le)
    rw [← Framer.receive_acknowledgment] at reckons
    exact reckons
  heard_le := toCome
  acknowledged_le := sound.acknowledged_le

/-- **Whatever happens, the reckoning stays right.** -/
theorem act (sound : dialogue.Sound) (event : Event τ) : (dialogue.act event).Sound := by
  cases event with
  | link event =>
      cases event with
      | send payload =>
          refine sound.onLink rfl (sound.reckons.begin sound.contest.follows ?_ payload _ _)
          intro mem
          obtain ⟨send, memSends, number⟩ := List.mem_map.mp mem
          have known := sound.contest.accounts.known send memSends
          omega
      | step n => exact sound.step n
      | abandon n => exact sound.abandon n
      | receive text =>
          unfold Dialogue.act
          dsimp only
          split
          case isTrue => exact sound
          case isFalse other =>
            have slot := dialogue.contest.framer.acknowledgment_receive
              (Bool.not_eq_true _ ▸ other)
            exact sound.onLink rfl (sound.reckons.of_slot_eq slot)
      | acknowledge => exact sound.onLink rfl sound.reckons
      | channel after => exact sound.onLink rfl sound.reckons
      | clocks timer wall => exact sound.onLink rfl sound.reckons
  | acknowledge =>
      unfold Dialogue.act
      dsimp only
      split
      case isTrue toCome =>
        exact ⟨sound.contest, sound.reckons, Nat.le_succ_of_le sound.heard_le, toCome⟩
      case isFalse => exact sound
  | hear =>
      unfold Dialogue.act
      dsimp only
      split
      case isTrue toCome => exact sound.hear toCome
      case isFalse => exact sound

theorem run (sound : dialogue.Sound) (events : List (Event τ)) : (dialogue.run events).Sound := by
  induction events generalizing dialogue with
  | nil => exact sound
  | cons event rest ih => exact ih (sound.act event)

end Sound

/-- A send is about to hand over a frame that is not its first one. -/
def HandsOn (dialogue : Dialogue τ) (n : Nat) : Prop :=
  ∃ attempt frame rest, dialogue.contest.history.current = some attempt ∧ attempt.number = n ∧
    attempt.handed ≠ [] ∧ (n, .transmitting frame rest) ∈ dialogue.contest.shared.sends

/-- With which acknowledgment a send goes on. -/
structure Released (dialogue : Dialogue τ) (n : Nat) : Prop where
  /-- The slice that was accepted last is its own. -/
  own : ∃ slice, dialogue.contest.dataFrames.getLast? = some slice ∧
    slice ∈ dialogue.contest.history.handedBy n
  /-- The acknowledgment is for the slice as many slices ago as acknowledgments were still to come
  when the send turned to its own. -/
  number_add_behind :
    dialogue.reckoning.release.number + dialogue.reckoning.release.behind = dialogue.slices
  /-- The peer has sent it. -/
  number_le : dialogue.reckoning.release.number ≤ dialogue.acknowledged
  /-- If none was still to come, the peer has acknowledged the send's own slice. -/
  inStep : dialogue.reckoning.release.behind = 0 → dialogue.slices ≤ dialogue.acknowledged
  /-- Not more were still to come than sends were given up halfway. -/
  behind_le : dialogue.reckoning.release.behind ≤ dialogue.contest.history.lapses

/-- **An acknowledgment releases a send that was still to come when another one was given up.**
Whatever happens on a link, and however long acknowledgments take: a send that hands over a frame
which is not its first goes on with an acknowledgment that the peer has sent, but for a slice as
many slices ago as acknowledgments were still to come when it turned to its own.  So it goes on with
its own if there were none, as it is unless sends were given up halfway. -/
theorem released (setup : Setup) (channel : τ) (events : List (Event τ)) (n : Nat)
    (handsOn : ((start setup channel).run events).HandsOn n) :
    ((start setup channel).run events).Released n := by
  have sound := (Sound.start setup channel).run events
  obtain ⟨attempt, frame, rest, current, rfl, handed, mem⟩ := handsOn
  obtain ⟨sum, number, behind⟩ := sound.reckons.released attempt current handed frame rest mem
  have acknowledged := Nat.le_trans number sound.heard_le
  refine ⟨⟨attempt.handed.getLast handed, ?_, ?_⟩, sum, acknowledged, fun none => ?_, behind⟩
  · exact sound.contest.getLast?_dataFrames current (List.getLast?_eq_some_getLast handed)
  · rw [History.handedBy_of_mem sound.contest.accounts
      (List.mem_append_right _ (Option.mem_toList.mpr current))]
    exact List.getLast_mem handed
  · rw [none] at sum
    exact Nat.le_trans (Nat.le_of_eq sum.symm) acknowledged

/-- A dialogue over a channel in memory, with frames of two characters. -/
def sample (events : List (Event MemoryChannel)) : Dialogue MemoryChannel :=
  (start ⟨2, ⟨1⟩, ⟨1⟩, ⟨1000⟩⟩ { MemoryChannel.new with isOpen := true }).run events

/-- A payload of two frames, and the peer acknowledges the first one before the second one is up. -/
def punctual : List (Event MemoryChannel) :=
  [.link (.send "abcd"), .link (.step 0), .link (.step 0), .acknowledge, .hear, .link (.step 0)]

/-- The first payload is given up because no acknowledgment comes.  It comes when the second payload
has handed over its first frame. -/
def belated : List (Event MemoryChannel) :=
  [.link (.send "abcd"), .link (.step 0), .link (.step 0), .link (.clocks 1500 1500),
    .link (.step 0), .link (.send "wxyz"), .link (.step 1), .link (.step 1), .acknowledge, .hear,
    .link (.step 1)]

/-- Nothing was given up, and so the send goes on when its own slice was acknowledged. -/
theorem released_punctual :
    (sample punctual).HandsOn 0 ∧ (sample punctual).slices ≤ (sample punctual).acknowledged := by
  have handsOn : (sample punctual).HandsOn 0 :=
    ⟨⟨0, "abcd", [⟨.more, "ab"⟩]⟩, ⟨.final, "cd"⟩, [], rfl, rfl, by simp, by decide +kernel⟩
  exact ⟨handsOn, (released _ _ _ 0 handsOn).inStep (by decide +kernel)⟩

/-- The second payload goes on with the acknowledgment of the first one's slice: it hands over its
final frame while its own slice, the second one, is not acknowledged. -/
theorem handsOn_belated :
    (sample belated).HandsOn 1 ∧ (sample belated).acknowledged < (sample belated).slices := by
  have handsOn : (sample belated).HandsOn 1 :=
    ⟨⟨1, "wxyz", [⟨.more, "wx"⟩]⟩, ⟨.final, "yz"⟩, [], rfl, rfl, by simp, by decide +kernel⟩
  exact ⟨handsOn, by decide +kernel⟩

end Dialogue

end RemoteAgent
