import RemoteAgent.Proofs.Peer

/-!
# Two peers that send to each other

Two peers are joined by their channels: what one puts on its channel comes in at the other, in this
order.  Data frames and acknowledgments of both directions share the channels, any number of sends
contends for the lock of each peer, and everything may happen in any order.  `Exchange.run` takes a
list of moves, so that a statement about all lists is one about every interleaving.

## One direction at a time

`Flow a b` is what holds of the frames that `b` has read of the channel of `a`, whatever `a` and `b`
do in the other direction.  It has two clauses about data, which make `b` an assembly of a part of
the channel, and two about acknowledgments, which count.  The counts of both directions taken
together are what keeps an acknowledgment from being stray: the acknowledgments that `a` can read
are slices of `a` that `b` has read, and of those there is at most one more than `a` has heard
acknowledgments of (`History.Paced.slices_cases`).
-/

namespace RemoteAgent

/-! ## What one side has read of the other -/

/-- What `b` has made of the frames that it has read of the channel of `a`. -/
structure Flow (a b : Peer) : Prop where
  /-- What is read was sent. -/
  read : b.reports.length ≤ a.wire.length
  /-- The packets and the buffer are those of the frames that were read. -/
  assembled : Assembly.ofFrames (a.wire.take b.reports.length) = ⟨b.delivered, b.buffer⟩
  /-- Every slice that was read is acknowledged, or is to be. -/
  echoed : (a.wire.take b.reports.length).countP Frame.isSlice =
    b.wire.countP (fun frame => !frame.isData) + b.owed
  /-- Every acknowledgment that was read was heard. -/
  heard : (a.wire.take b.reports.length).countP (fun frame => !frame.isData) = b.heard
  /-- None was stray. -/
  welcome : .ok .strayAcknowledgment ∉ b.reports

namespace Flow

variable {a b : Peer}

/-- What is put on the channel later is not read yet. -/
theorem of_sender_grown (flow : Flow a b) {grown : Peer} {added : List Frame}
    (wire : grown.wire = a.wire ++ added) : Flow grown b := by
  have same : grown.wire.take b.reports.length = a.wire.take b.reports.length := by
    rw [wire, List.take_append_of_le_length flow.read]
  refine ⟨?_, ?_, ?_, ?_, flow.welcome⟩
  · have := flow.read
    rw [wire, List.length_append]
    omega
  · rw [same, flow.assembled]
  · rw [same, flow.echoed]
  · rw [same, flow.heard]

/-- The reader may do whatever leaves what it has read alone, and acknowledges slices only. -/
theorem of_reader_moved (flow : Flow a b) {moved : Peer} (reports : moved.reports = b.reports)
    (buffer : moved.buffer = b.buffer)
    (acknowledged : moved.wire.countP (fun frame => !frame.isData) + moved.owed =
      b.wire.countP (fun frame => !frame.isData) + b.owed) : Flow a moved := by
  refine ⟨reports ▸ flow.read, ?_, ?_, ?_, reports ▸ flow.welcome⟩
  · rw [Peer.delivered, reports, buffer]
    exact flow.assembled
  · rw [reports, acknowledged]
    exact flow.echoed
  · rw [Peer.heard, reports]
    exact flow.heard

/-- The reader takes in the next frame. -/
theorem of_reader_takes (flow : Flow a b) {after : Peer} {frame : Frame}
    (next : a.wire[b.reports.length]? = some frame) (takes : b.Takes after frame) :
    Flow a after := by
  obtain ⟨inside, rfl⟩ := List.getElem?_eq_some_iff.mp next
  have wire : after.wire = b.wire := by
    rw [Peer.wire, takes.channel, Peer.wire]
  have front : a.wire.take after.reports.length =
      a.wire.take b.reports.length ++ [a.wire[b.reports.length]] := by
    rw [takes.reported, List.take_append_getElem]
  refine ⟨?_, ?_, ?_, ?_, takes.welcome flow.welcome⟩
  · rw [takes.reported]
    exact inside
  · rw [front, Assembly.ofFrames_concat, flow.assembled, takes.assembled]
  · rw [front, List.countP_append, flow.echoed, takes.owed, wire, Nat.add_assoc]
  · rw [front, List.countP_append, flow.heard, takes.heard]

end Flow

/-! ## Both directions -/

/-- Both peers are sound, and so are both directions. -/
structure Joined (a b : Peer) : Prop where
  /-- The one. -/
  left : a.Sound
  /-- The other. -/
  right : b.Sound
  /-- What the one sends. -/
  forth : Flow a b
  /-- What the other sends. -/
  back : Flow b a

theorem Joined.symm {a b : Peer} (joined : Joined a b) : Joined b a :=
  ⟨joined.right, joined.left, joined.back, joined.forth⟩

/-- **An acknowledgment that can be read is waited for.** -/
theorem Joined.heard_lt {a b : Peer} (joined : Joined a b) {frame : Frame}
    (next : b.wire[a.reports.length]? = some frame) (acknowledges : frame.isData = false) :
    a.heard < a.history.slices := by
  obtain ⟨inside, rfl⟩ := List.getElem?_eq_some_iff.mp next
  have front : (b.wire.take (a.reports.length + 1)).countP (fun frame => !frame.isData) =
      a.heard + 1 := by
    rw [← List.take_append_getElem inside, List.countP_append, joined.back.heard]
    simp [acknowledges]
  have read : (b.wire.take (a.reports.length + 1)).countP (fun frame => !frame.isData) ≤
      b.wire.countP fun frame => !frame.isData :=
    (List.take_sublist ..).countP_le
  have echoed := joined.forth.echoed
  have sent : (a.wire.take b.reports.length).countP Frame.isSlice ≤ a.history.slices := by
    rw [← joined.left.countP_isSlice]
    exact (List.take_sublist ..).countP_le
  -- What was heard and this one were sent for slices that were read, and those were sent.
  omega

/-- What a peer may do next. -/
inductive Move where
  /-- A payload is passed to `send`. -/
  | send (payload : String)
  /-- A send takes a step. -/
  | step (n : Nat)
  /-- The next frame of the other peer comes in. -/
  | receive
  /-- A slice that came in is acknowledged. -/
  | acknowledge
  /-- The clocks are set. -/
  | clocks (timer wall : Nat)

/-- What becomes of a peer when it moves beside another one. -/
def Peer.act (own other : Peer) : Move → Peer
  | .send payload => own.begin payload
  | .step n => own.step n
  | .receive =>
    match other.channel.sent[own.reports.length]? with
    | some text => own.receive text
    | none => own
  | .acknowledge => own.acknowledge
  | .clocks timer wall => own.setClocks timer wall

/-- A move forgets no result. -/
theorem Peer.finished_suffix_act (own other : Peer) (move : Move) :
    own.shared.finished <:+ (own.act other move).shared.finished := by
  cases move with
  | send payload => exact List.suffix_refl own.shared.finished
  | step n => exact own.finished_suffix_step n
  | receive =>
      unfold Peer.act
      cases other.channel.sent[own.reports.length]? with
      | none => exact List.suffix_refl own.shared.finished
      | some text => exact List.suffix_refl own.shared.finished
  | acknowledge =>
      unfold Peer.act Peer.acknowledge
      by_cases nothing : own.owed = 0
      · simp [nothing]
      · simp [nothing]
  | clocks timer wall => exact List.suffix_refl own.shared.finished

/-- **One move of one side keeps both directions.** -/
theorem Joined.act {a b : Peer} (joined : Joined a b) (move : Move)
    (inTime : ¬ (a.act b move).TimedOut) : Joined (a.act b move) b := by
  cases move with
  | send payload =>
      have wire : (a.begin payload).wire = a.wire ++ [] := (List.append_nil _).symm
      exact ⟨joined.left.begin payload, joined.right, joined.forth.of_sender_grown wire,
        joined.back.of_reader_moved rfl rfl rfl⟩
  | step n =>
      obtain ⟨sound, added, wire, data⟩ := joined.left.step n inTime
      have acknowledgments : (a.step n).wire.countP (fun frame => !frame.isData) =
          a.wire.countP fun frame => !frame.isData := by
        -- A send adds data frames only.
        have none : added.countP (fun frame => !frame.isData) = 0 := by
          rw [List.countP_eq_zero]
          intro frame mem
          simp [data frame mem]
        rw [wire, List.countP_append, none, Nat.add_zero]
      exact ⟨sound, joined.right, joined.forth.of_sender_grown wire,
        joined.back.of_reader_moved rfl (joined.left.buffer_step n)
          (congrArg (· + a.owed) acknowledgments)⟩
  | receive =>
      unfold Peer.act at inTime ⊢
      cases came : b.channel.sent[a.reports.length]? with
      | none => exact joined
      | some text =>
          -- Everything on a channel is the text of a frame.
          have next : (b.wire.map Frame.encode)[a.reports.length]? = some text := by
            rw [← joined.right.encoded, Array.getElem?_toList, came]
          rw [List.getElem?_map, Option.map_eq_some_iff] at next
          obtain ⟨frame, next, rfl⟩ := next
          obtain ⟨sound, takes⟩ := joined.left.receive frame (joined.heard_lt next)
          have wire : (a.receive frame.encode).wire = a.wire ++ [] := by
            rw [Peer.wire, takes.channel, List.append_nil, Peer.wire]
          exact ⟨sound, joined.right, joined.forth.of_sender_grown wire,
            joined.back.of_reader_takes next takes⟩
  | acknowledge =>
      by_cases nothing : a.owed = 0
      · have same : a.act b .acknowledge = a := by
          simp [Peer.act, Peer.acknowledge, nothing]
        rw [same]
        exact joined
      · obtain ⟨sound, wire⟩ := joined.left.acknowledge nothing
        have owed : a.acknowledge.owed = a.owed - 1 := by
          simp [Peer.acknowledge, nothing]
        have reports : a.acknowledge.reports = a.reports := by
          simp [Peer.acknowledge, nothing]
        have buffer : a.acknowledge.buffer = a.buffer := by
          simp [Peer.acknowledge, nothing, Peer.buffer]
        refine ⟨sound, joined.right, joined.forth.of_sender_grown wire,
          joined.back.of_reader_moved reports buffer ?_⟩
        have one : [Frame.acknowledgment].countP (fun frame => !frame.isData) = 1 := rfl
        show a.acknowledge.wire.countP _ + a.acknowledge.owed = _
        rw [wire, List.countP_append, one, owed]
        omega
  | clocks timer wall =>
      have wire : (a.setClocks timer wall).wire = a.wire ++ [] := (List.append_nil _).symm
      exact ⟨joined.left.setClocks timer wall, joined.right, joined.forth.of_sender_grown wire,
        joined.back.of_reader_moved rfl rfl rfl⟩

/-! ## Runs -/

/-- The two sides. -/
inductive Side where
  | left
  | right
  deriving DecidableEq

/-- The side that faces a side. -/
def Side.opposite : Side → Side
  | left => right
  | right => left

/-- Two peers that are joined by their channels. -/
structure Exchange where
  /-- The one. -/
  left : Peer
  /-- The other. -/
  right : Peer

namespace Exchange

/-- Two peers that nothing has happened to. -/
def start (left right : Setup) : Exchange := ⟨.start left.framer, .start right.framer⟩

/-- The peer of a side. -/
def peer (exchange : Exchange) : Side → Peer
  | .left => exchange.left
  | .right => exchange.right

/-- One side moves. -/
def act (exchange : Exchange) (side : Side) (move : Move) : Exchange :=
  match side with
  | .left => { exchange with left := exchange.left.act exchange.right move }
  | .right => { exchange with right := exchange.right.act exchange.left move }

/-- The sides move in the given order. -/
def run (exchange : Exchange) (moves : List (Side × Move)) : Exchange :=
  moves.foldl (fun exchange (side, move) => exchange.act side move) exchange

/-- On no side an acknowledgment did not come in time. -/
def InTime (exchange : Exchange) : Prop := ∀ side, ¬ (exchange.peer side).TimedOut

theorem InTime.of_act {exchange : Exchange} {side : Side} {move : Move}
    (inTime : (exchange.act side move).InTime) : exchange.InTime := by
  intro who late
  refine inTime who (late.mono ?_)
  cases side with
  | left =>
      cases who with
      | left => exact Peer.finished_suffix_act ..
      | right => exact List.suffix_refl exchange.right.shared.finished
  | right =>
      cases who with
      | left => exact List.suffix_refl exchange.left.shared.finished
      | right => exact Peer.finished_suffix_act ..

theorem InTime.of_run {exchange : Exchange} {moves : List (Side × Move)}
    (inTime : (exchange.run moves).InTime) : exchange.InTime := by
  induction moves generalizing exchange with
  | nil => exact inTime
  | cons move rest ih => exact (ih inTime).of_act

theorem joined_start (left right : Setup) :
    Joined (start left right).left (start left right).right :=
  ⟨.start left.frameLimit_framer_ne_zero rfl rfl, .start right.frameLimit_framer_ne_zero rfl rfl,
    ⟨Nat.le_refl _, rfl, rfl, rfl, by simp [start, Peer.start]⟩,
    ⟨Nat.le_refl _, rfl, rfl, rfl, by simp [start, Peer.start]⟩⟩

theorem joined_act {exchange : Exchange} (joined : Joined exchange.left exchange.right)
    (side : Side) (move : Move) (inTime : (exchange.act side move).InTime) :
    Joined (exchange.act side move).left (exchange.act side move).right := by
  cases side with
  | left => exact joined.act move (inTime .left)
  | right => exact (joined.symm.act move (inTime .right)).symm

/-- Both directions are kept by every run. -/
theorem joined_run {exchange : Exchange} (joined : Joined exchange.left exchange.right)
    (moves : List (Side × Move)) (inTime : (exchange.run moves).InTime) :
    Joined (exchange.run moves).left (exchange.run moves).right := by
  induction moves generalizing exchange with
  | nil => exact joined
  | cons move rest ih =>
      have later : ((exchange.act move.1 move.2).run rest).InTime := inTime
      exact ih (joined_act joined move.1 move.2 later.of_run) later

end Exchange

/-! ## What arrives -/

/-- What one side has sent, and what the other has made of it, are in order. -/
structure Intact (sender receiver : Peer) : Prop where
  /-- Every turn of the lock has a payload that was passed to `send`. -/
  passed : ∀ turn ∈ sender.history.turns, sender.begun[turn.1]? = some turn.2
  /-- None of them has two turns. -/
  once : (sender.history.turns.map Prod.fst).Nodup
  /-- The packets that were handed out are the first of these payloads, in the order of the turns.
  -/
  inOrder : receiver.delivered <+: sender.history.turns.map Prod.snd
  /-- When everything is read and nobody has the lock, they are all of them. -/
  complete : sender.history.current = none → receiver.reports.length = sender.wire.length →
    receiver.delivered = sender.history.turns.map Prod.snd
  /-- The slices that were sent are the acknowledgments that were heard, or one more. -/
  paced : sender.wire.countP Frame.isSlice = sender.heard ∨
    sender.wire.countP Frame.isSlice = sender.heard + 1
  /-- No acknowledgment was stray. -/
  welcome : .ok .strayAcknowledgment ∉ sender.reports

theorem Joined.intact {a b : Peer} (joined : Joined a b) : Intact a b := by
  have packets := joined.left.packets_wire
  have turns : a.history.turns.map Prod.snd =
      (a.history.past.map fun entry => entry.1.payload) ++
        a.history.current.toList.map Attempt.payload := by
    simp [History.turns, History.attempts, Function.comp_def]
  refine ⟨joined.left.accounts.passed, joined.left.accounts.once, ?_, fun none all => ?_, ?_,
    joined.back.welcome⟩
  · have read : b.delivered = (Assembly.ofFrames (a.wire.take b.reports.length)).packets := by
      rw [joined.forth.assembled]
    have first := Assembly.packets_prefix (List.take_prefix b.reports.length a.wire)
    rw [← read, packets] at first
    rw [turns]
    exact first.trans (List.prefix_append ..)
  · have read := joined.forth.assembled
    rw [all, List.take_length] at read
    rw [turns, none, ← packets, read]
    simp
  · rw [joined.left.countP_isSlice]
    exact joined.left.paced.slices_cases joined.left.follows

/-- **Two peers that send to each other as they like lose, double, merge and reorder nothing.**
Whatever the frame limits, and whatever the order in which sends are begun, take their steps and
frames of both directions come in, in both directions the packets that were handed out are the first
payloads in the order in which their sends took the lock, at most one slice is not acknowledged, and
no acknowledgment is stray. -/
theorem exchange_intact (left right : Setup) (moves : List (Side × Move))
    (inTime : ((Exchange.start left right).run moves).InTime) (side : Side) :
    Intact (((Exchange.start left right).run moves).peer side)
      (((Exchange.start left right).run moves).peer side.opposite) := by
  have joined := Exchange.joined_run (Exchange.joined_start left right) moves inTime
  cases side with
  | left => exact joined.intact
  | right => exact joined.symm.intact

/-- Two sends on the left and one on the right, with slices crossing each other. -/
def crossing : List (Side × Move) :=
  [(.left, .send "abcd"), (.left, .send "e"), (.right, .send "xy"), (.left, .step 0),
    (.left, .step 1), (.left, .step 0), (.right, .step 0), (.right, .step 0), (.right, .receive),
    (.left, .receive), (.right, .acknowledge), (.left, .acknowledge), (.left, .receive),
    (.right, .receive), (.left, .step 0), (.left, .step 0), (.left, .step 1), (.left, .step 1),
    (.right, .step 0), (.right, .step 0), (.right, .receive), (.right, .receive), (.left, .receive)]

/-- What becomes of it. -/
def crossed : Exchange :=
  (Exchange.start ⟨2, ⟨9⟩, ⟨3⟩, ⟨5⟩⟩ ⟨1, ⟨9⟩, ⟨3⟩, ⟨5⟩⟩).run crossing

theorem exchange_intact_crossing :
    crossed.InTime ∧ Intact crossed.left crossed.right ∧
      crossed.right.delivered = ["abcd", "e"] ∧ crossed.left.delivered = ["xy"] := by
  have inTime : crossed.InTime := by
    rintro side ⟨entry, mem, span, late⟩
    have good : (crossed.peer side).shared.finished.all (·.2.isOk) = true := by
      cases side <;> rfl
    have ok := List.all_eq_true.mp good entry mem
    rw [late] at ok
    cases ok
  exact ⟨inTime, exchange_intact _ _ crossing inTime .left, rfl, rfl⟩

end RemoteAgent
