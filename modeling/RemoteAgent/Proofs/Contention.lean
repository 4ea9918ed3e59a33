import Mathlib.Data.List.Nodup
import RemoteAgent.Proofs.Peer

/-!
# Sends that contend for the lock

Any number of sends on one link, over any transport: each of them may get through, wait for the lock
for too long, wait for an acknowledgment for too long, be refused by the transport, or be given up
from outside at any of the places where it waits.  Frames come in meanwhile, and the channel may do
what it likes between two steps.

`Contest.orderly` says what this comes to at every moment.  One send has the lock or none, and the
flag of the framer tells which; an acknowledgment is waited for only on account of a slice that this
send hands over or has handed over last; the data frames that the transport has accepted are those
of the sends, one send after the other, of each of them the first frames, and all of them exactly if
it has returned without an error; and whoever has waited for the lock for too long has left no
trace.

`History.Describes` and `History.Accounts` know the holds of the lock.  What is added here is what
the code itself can be asked: a tape of the frames that the transport accepts, and the results that
sends return.

## Main definitions

* `Taped`: a transport with a tape of what it accepts.
* `Contest`: the sends on a link, with what the code does not keep of them.
* `Contest.Consists`: what the accepted data frames are made of.
* `Contest.Orderly`: what holds of the sends at every moment.
-/

namespace RemoteAgent

variable {τ : Type}

/-! ## A tape of what is accepted -/

/-- A transport with a tape of what it accepts. -/
structure Taped (τ : Type) where
  /-- The transport. -/
  channel : τ
  /-- Every text that it has accepted, the oldest first. -/
  tape : List String

/-- A tape goes on where the transport accepts. -/
def Taped.send [Transport τ] (text : String) (taped : Taped τ) :
    Except TransportError Unit × Taped τ :=
  let (result, channel) := Transport.send text taped.channel
  (result, ⟨channel, if result.isOk then taped.tape ++ [text] else taped.tape⟩)

instance [Transport τ] : Transport (Taped τ) where
  isOpen taped := Transport.isOpen taped.channel
  openAt url taped :=
    let (result, channel) := Transport.openAt url taped.channel
    (result, { taped with channel })
  send := Taped.send
  listen taped := Transport.listen taped.channel
  poll taped := (Transport.poll taped.channel).map fun (result, channel) =>
    (result, { taped with channel })
  close taped := { taped with channel := Transport.close taped.channel }

/-- The data frame that a text is, if it is one. -/
def Frame.dataOf? (text : String) : Option Frame :=
  (Frame.parse text).toOption.filter Frame.isData

/-- The data frames among the accepted texts. -/
def Taped.dataFrames (taped : Taped τ) : List Frame := taped.tape.filterMap Frame.dataOf?

/-- The transport knows nothing of the lock, so its errors are not those of the lock. -/
def Transport.KnowsNoLock (τ : Type) [Transport τ] : Prop :=
  ∀ text (channel : τ) span, (Transport.send text channel).1 ≠ .error (.lockTimeout span)

/-- A channel in memory refuses a frame only because it is closed. -/
theorem MemoryChannel.knowsNoLock : Transport.KnowsNoLock MemoryChannel := by
  intro text channel span refused
  change (channel.send text).1 = _ at refused
  unfold MemoryChannel.send at refused
  split at refused <;> cases refused

/-- An accepted frame stands on the tape if it is a data frame. -/
theorem Link.dataFrames_transmit [Transport τ] (link : Link (Taped τ)) (frame : Frame) :
    (link.transmit frame).2.transport.dataFrames =
      link.transport.dataFrames ++
        if (link.transmit frame).1.isOk && frame.isData then [frame] else [] := by
  show List.filterMap Frame.dataOf? (if (link.transmit frame).1.isOk then _ else _) = _
  cases accepted : (link.transmit frame).1.isOk with
  | false => simp [Taped.dataFrames]
  | true =>
      cases data : frame.isData with
      | false => simp [Taped.dataFrames, Frame.dataOf?, Except.toOption, Option.filter, data]
      | true => simp [Taped.dataFrames, Frame.dataOf?, Except.toOption, Option.filter, data]

/-- A move brings nobody in. -/
theorem Numbered.mem_of_mem_moved {α : Type} {items : List (Nat × α)} {n m : Nat}
    {next : Option α} (known : next = none ∨ n ∈ items.map Prod.fst)
    (mem : m ∈ (moved items n next).map Prod.fst) : m ∈ items.map Prod.fst := by
  obtain ⟨⟨_, item⟩, memMoved, rfl⟩ := List.mem_map.mp mem
  rcases mem_moved.mp memMoved with ⟨-, old⟩ | ⟨rfl, here⟩
  · exact List.mem_map_of_mem old
  · rcases known with rfl | known
    · cases here
    · exact known

/-! ## How sends end -/

namespace History.Outcome

variable [Transport τ] {history recorded : History} {link : Link τ} {n : Nat} {place : Sending}
  {stepped : Sending.Step τ}

/-- A send that goes on closes no attempt. -/
theorem past_of_going (outcome : history.Outcome link n place stepped recorded) {next : Sending}
    (going : stepped.1 = .going next) : recorded.past = history.past := by
  cases outcome with
  | refused => cases going
  | last => cases going
  | ackTimeout => cases going
  | _ => rfl

/-- A send ends with the lock, and its attempt ends with the same result; or it ends without the
lock, because it has waited too long, and leaves everything as it is. -/
theorem done_cases (outcome : history.Outcome link n place stepped recorded)
    {result : Except TransportError Unit} (ended : stepped.1 = .done result) :
    (∃ attempt, attempt.number = n ∧
        recorded.past = history.past ++ [(attempt, .returned result)] ∧
        ∀ error, result = .error error → (∃ span, error = .ackTimeout span) ∨
          ∃ text, (Transport.send text link.transport).1 = .error error) ∨
      (stepped.2 = link ∧ recorded = history ∧
        (∃ payload since again, place = .acquiring payload since again) ∧
        ∃ span, result = .error (.lockTimeout span)) := by
  cases outcome with
  | polled => cases ended
  | lockTimeout =>
      cases ended
      exact .inr ⟨rfl, rfl, ⟨_, _, _, rfl⟩, _, rfl⟩
  | locked => cases ended
  | @refused frame rest error attempt current number answer =>
      cases ended
      refine .inl ⟨attempt, number, rfl, ?_⟩
      rintro _ ⟨⟩
      exact .inr ⟨frame.encode, answer⟩
  | slice => cases ended
  | @last frame attempt current number =>
      cases ended
      refine .inl ⟨attempt.hand frame, number, rfl, ?_⟩
      rintro _ ⟨⟩
  | turned => cases ended
  | waited => cases ended
  | @ackTimeout rest deadline attempt current number =>
      cases ended
      refine .inl ⟨attempt, number, rfl, ?_⟩
      rintro _ ⟨⟩
      exact .inl ⟨_, rfl⟩

/-- Who has left without a turn of the lock does not come back for one. -/
theorem gone (outcome : history.Outcome link n place stepped recorded)
    {sends : List (Nat × Sending)} (mem : (n, place) ∈ sends) {m : Nat}
    (never : m ∉ history.turns.map Prod.fst) (left : m ∉ sends.map Prod.fst) :
    m ∉ recorded.turns.map Prod.fst ∧
      m ∉ (Numbered.moved sends n stepped.1.next?).map Prod.fst := by
  have known : n ∈ sends.map Prod.fst := List.mem_map_of_mem mem
  refine ⟨fun turn => ?_, fun moved => left (Numbered.mem_of_mem_moved (.inr known) moved)⟩
  obtain ⟨same, -⟩ | ⟨payload, -, -, -, turns, -⟩ := outcome.turns_cases
  · exact never (same ▸ turn)
  · rw [turns, List.map_append, List.mem_append] at turn
    rcases turn with old | new
    · exact never old
    · obtain rfl : m = n := by simpa using new
      exact left known

end History.Outcome

/-- The results that sends have returned are those of their attempts, or say that the lock was taken
for too long. -/
structure History.Results [Transport τ] (history : History) (begun : List String)
    (sends : List (Nat × Sending)) (finished : List (Nat × Except TransportError Unit)) : Prop where
  /-- What an attempt has ended with was returned. -/
  returned : ∀ attempt result, (attempt, .returned result) ∈ history.past →
    (attempt.number, result) ∈ finished
  /-- What was returned ended an attempt, or comes of a send that has had no turn and will have
  none. -/
  ended : ∀ n result, (n, result) ∈ finished →
    (∃ attempt, (attempt, .returned result) ∈ history.past ∧ attempt.number = n) ∨
      (n ∉ history.turns.map Prod.fst ∧ n ∉ sends.map Prod.fst ∧ n < begun.length ∧
        ∃ span, result = .error (.lockTimeout span))
  /-- An attempt fails for want of an acknowledgment, or with an error of the transport. -/
  caused : ∀ attempt error, (attempt, .returned (.error error)) ∈ history.past →
    (∃ span, error = .ackTimeout span) ∨
      ∃ text, ∃ channel : τ, (Transport.send text channel).1 = .error error

namespace History.Results

variable [Transport τ] {history recorded : History} {begun : List String}
  {sends : List (Nat × Sending)} {finished : List (Nat × Except TransportError Unit)}

theorem empty : History.empty.Results (τ := τ) [] [] [] where
  returned := by simp [History.empty]
  ended := by simp
  caused := by simp [History.empty]

theorem begin (results : history.Results (τ := τ) begun sends finished) (payload : String)
    (place : Sending) :
    history.Results (τ := τ) (begun ++ [payload]) (sends ++ [(begun.length, place)]) finished where
  returned := results.returned
  ended n result mem := by
    rcases results.ended n result mem with attempt | ⟨noTurn, left, known, span⟩
    · exact .inl attempt
    · refine .inr ⟨noTurn, ?_, by simp; omega, span⟩
      simpa using ⟨by simpa using left, by omega⟩
  caused := results.caused

/-- Where no attempt ends, the results stay as they are, if nobody comes back who has left. -/
theorem keep (results : history.Results (τ := τ) begun sends finished)
    {others : List (Nat × Sending)}
    (past : ∀ attempt result, (attempt, .returned result) ∈ recorded.past ↔
      (attempt, .returned result) ∈ history.past)
    (gone : ∀ m, m ∉ history.turns.map Prod.fst → m ∉ sends.map Prod.fst →
      m ∉ recorded.turns.map Prod.fst ∧ m ∉ others.map Prod.fst) :
    recorded.Results (τ := τ) begun others finished where
  returned attempt result mem := results.returned attempt result ((past _ _).mp mem)
  ended n result mem := by
    rcases results.ended n result mem with ⟨attempt, memPast, number⟩ | ⟨never, left, rest⟩
    · exact .inl ⟨attempt, (past _ _).mpr memPast, number⟩
    · obtain ⟨never, left⟩ := gone n never left
      exact .inr ⟨never, left, rest⟩
  caused attempt error mem := results.caused attempt error ((past _ _).mp mem)

/-- What an attempt ends with is returned. -/
theorem close (results : history.Results (τ := τ) begun sends finished)
    {others : List (Nat × Sending)} {attempt : Attempt} {result : Except TransportError Unit}
    (past : recorded.past = history.past ++ [(attempt, .returned result)])
    (gone : ∀ m, m ∉ history.turns.map Prod.fst → m ∉ sends.map Prod.fst →
      m ∉ recorded.turns.map Prod.fst ∧ m ∉ others.map Prod.fst)
    (cause : ∀ error, result = .error error → (∃ span, error = .ackTimeout span) ∨
      ∃ text, ∃ channel : τ, (Transport.send text channel).1 = .error error) :
    recorded.Results (τ := τ) begun others ((attempt.number, result) :: finished) where
  returned other result mem := by
    rw [past] at mem
    rcases List.mem_append.mp mem with old | new
    · exact List.mem_cons_of_mem _ (results.returned other result old)
    · obtain ⟨rfl, same⟩ := Prod.mk.inj (List.mem_singleton.mp new)
      obtain rfl := Ending.returned.inj same
      exact List.mem_cons_self
  ended n result mem := by
    rw [past]
    rcases List.mem_cons.mp mem with new | old
    · obtain ⟨rfl, rfl⟩ := Prod.mk.inj new
      exact .inl ⟨attempt, List.mem_append_right _ List.mem_cons_self, rfl⟩
    · rcases results.ended n result old with ⟨other, memPast, number⟩ | ⟨never, left, rest⟩
      · exact .inl ⟨other, List.mem_append_left _ memPast, number⟩
      · obtain ⟨never, left⟩ := gone n never left
        exact .inr ⟨never, left, rest⟩
  caused other error mem := by
    rw [past] at mem
    rcases List.mem_append.mp mem with old | new
    · exact results.caused other error old
    · obtain ⟨rfl, same⟩ := Prod.mk.inj (List.mem_singleton.mp new)
      exact cause error (Ending.returned.inj same).symm

/-- A send that has had no turn may return that it has waited for too long. -/
theorem late (results : history.Results (τ := τ) begun sends finished) {n : Nat} {span : Duration}
    (never : n ∉ history.turns.map Prod.fst) (left : n ∉ sends.map Prod.fst)
    (known : n < begun.length) :
    history.Results (τ := τ) begun sends ((n, .error (.lockTimeout span)) :: finished) where
  returned attempt result mem := List.mem_cons_of_mem _ (results.returned attempt result mem)
  ended m result mem := by
    rcases List.mem_cons.mp mem with new | old
    · obtain ⟨rfl, rfl⟩ := Prod.mk.inj new
      exact .inr ⟨never, left, known, span, rfl⟩
    · exact results.ended m result old
  caused := results.caused

variable {link : Link τ} {n : Nat} {place : Sending} {stepped : Sending.Step τ}

/-- What a step adds to the results is the result of its send. -/
theorem step (results : history.Results (τ := τ) begun sends finished)
    (accounts : history.Accounts begun sends) (mem : (n, place) ∈ sends)
    (outcome : history.Outcome link n place stepped recorded) :
    recorded.Results (τ := τ) begun (Numbered.moved sends n stepped.1.next?)
      ((stepped.1.result?.map (n, ·)).toList ++ finished) := by
  have gone := fun m => outcome.gone mem (m := m)
  cases progress : stepped.1 with
  | going next =>
      rw [progress] at gone
      refine results.keep (fun attempt result => ?_) gone
      rw [outcome.past_of_going progress]
  | done result =>
      rw [progress] at gone
      obtain ⟨attempt, rfl, past, cause⟩ | ⟨-, rfl, ⟨payload, since, again, rfl⟩, span, rfl⟩ :=
        outcome.done_cases progress
      · refine results.close past gone fun error failed => ?_
        rcases cause error failed with late | ⟨text, refused⟩
        · exact .inl late
        · exact .inr ⟨text, _, refused⟩
      · have kept := results.keep (fun _ _ => Iff.rfl) gone
        exact kept.late (accounts.waiting _ _ _ _ mem).2 (by simp [Numbered.moved, Progress.next?])
          (accounts.known _ mem)

/-- Giving a send up returns nothing. -/
theorem abandon (results : history.Results (τ := τ) begun sends finished) (n : Nat) :
    (history.close n .abandoned).Results (τ := τ) begun (Numbered.moved sends n none) finished := by
  refine results.keep (fun attempt result => ?_) fun m never left => ⟨?_, fun moved => ?_⟩
  · unfold History.close
    split
    · split <;> simp
    · rfl
  · simpa [History.turns] using never
  · exact left (Numbered.mem_of_mem_moved (.inl rfl) moved)

end History.Results

/-- Giving a send up gives nobody a turn. -/
theorem History.Accounts.abandon {history : History} {begun : List String}
    {sends : List (Nat × Sending)} (accounts : history.Accounts begun sends) (n : Nat) :
    (history.close n .abandoned).Accounts begun (Numbered.moved sends n none) := by
  have turns : (history.close n .abandoned).turns = history.turns := by
    simp [History.turns]
  have others : ∀ send ∈ Numbered.moved sends n none, send ∈ sends := by
    rintro ⟨m, place⟩ mem
    rcases Numbered.mem_moved.mp mem with ⟨-, old⟩ | ⟨-, ⟨⟩⟩
    exact old
  exact ⟨fun send mem => accounts.known send (others send mem),
    fun m payload since again mem => turns ▸ accounts.waiting m payload since again (others _ mem),
    turns ▸ accounts.passed, turns ▸ accounts.once⟩

/-- A send that waits for an acknowledgment has handed over a slice. -/
def History.Waits (history : History) (sends : List (Nat × Sending)) : Prop :=
  ∀ attempt rest deadline, history.current = some attempt →
    (attempt.number, .waiting rest deadline) ∈ sends → attempt.handed ≠ []

namespace History.Waits

variable {history recorded : History} {sends : List (Nat × Sending)}

/-- Sends that do not wait may move as they like. -/
theorem moved (waits : history.Waits sends) {n : Nat} {next : Option Sending}
    (elsewhere : ∀ rest deadline, next ≠ some (.waiting rest deadline)) :
    history.Waits (Numbered.moved sends n next) := by
  intro attempt rest deadline current mem
  rcases Numbered.mem_moved.mp mem with ⟨-, old⟩ | ⟨-, here⟩
  · exact waits attempt rest deadline current old
  · exact absurd here (elsewhere rest deadline)

variable [Transport τ] {link : Link τ} {n : Nat} {place : Sending} {stepped : Sending.Step τ}

theorem step (waits : history.Waits sends) (mem : (n, place) ∈ sends)
    (outcome : history.Outcome link n place stepped recorded) :
    recorded.Waits (Numbered.moved sends n stepped.1.next?) := by
  cases outcome with
  | polled => exact waits.moved (by simp [Progress.next?])
  | lockTimeout => exact waits.moved (by simp [Progress.next?])
  | locked =>
      rintro _ rest deadline ⟨⟩ mem
      cases Numbered.eq_of_mem_moved mem
  | refused => rintro _ rest deadline ⟨⟩
  | slice =>
      rintro _ rest deadline ⟨⟩ -
      simp [Attempt.hand]
  | last => rintro _ rest deadline ⟨⟩
  | turned => exact waits.moved (by simp [Progress.next?])
  | waited =>
      intro attempt rest deadline current moved
      rcases Numbered.mem_moved.mp moved with ⟨-, old⟩ | ⟨sameNumber, ⟨⟩⟩
      · exact waits attempt rest deadline current old
      · exact waits attempt _ _ current (sameNumber ▸ mem)
  | ackTimeout => rintro _ rest deadline ⟨⟩

end History.Waits

/-! ## What each send has handed over -/

namespace History

variable {history : History}

/-- What send `n` has handed over in its hold of the lock; nothing, if it has had none. -/
def handedBy (history : History) (n : Nat) : List Frame :=
  ((history.attempts.find? (·.number = n)).map Attempt.handed).getD []

theorem map_fst_turns (history : History) :
    history.turns.map Prod.fst = history.attempts.map Attempt.number := by
  simp [turns, Function.comp_def]

/-- A send has one hold of the lock at most. -/
theorem Accounts.unique {begun : List String} {sends : List (Nat × Sending)}
    (accounts : history.Accounts begun sends) {attempt other : Attempt}
    (mem : attempt ∈ history.attempts) (otherMem : other ∈ history.attempts)
    (number : attempt.number = other.number) : attempt = other := by
  have once := accounts.once
  rw [map_fst_turns] at once
  exact List.inj_on_of_nodup_map once mem otherMem number

theorem handedBy_of_mem {begun : List String} {sends : List (Nat × Sending)}
    (accounts : history.Accounts begun sends) {attempt : Attempt}
    (mem : attempt ∈ history.attempts) : history.handedBy attempt.number = attempt.handed := by
  cases found : history.attempts.find? (·.number = attempt.number) with
  | none =>
      have missing := List.find?_eq_none.mp found attempt mem
      simp at missing
  | some other =>
      have number : other.number = attempt.number := by simpa using List.find?_some found
      obtain rfl := accounts.unique (List.mem_of_find?_eq_some found) mem number
      simp [handedBy, found]

theorem handedBy_of_not_mem {n : Nat} (never : n ∉ history.attempts.map Attempt.number) :
    history.handedBy n = [] := by
  have missing : history.attempts.find? (·.number = n) = none := by
    rw [List.find?_eq_none]
    intro attempt mem
    have other : attempt.number ≠ n := by
      rintro rfl
      exact never (List.mem_map_of_mem mem)
    simpa using other
  simp [handedBy, missing]

/-- The sends of which `count` were begun: those that have had the lock, in the order in which they
took it, and then the others. -/
def order (history : History) (count : Nat) : List Nat :=
  history.attempts.map Attempt.number ++
    (List.range count).filter (· ∉ history.attempts.map Attempt.number)

theorem order_perm {begun : List String} {sends : List (Nat × Sending)}
    (accounts : history.Accounts begun sends) :
    (history.order begun.length).Perm (List.range begun.length) := by
  have once := accounts.once
  rw [map_fst_turns] at once
  have distinct : (history.order begun.length).Nodup := by
    refine once.append (List.nodup_range.filter _) ?_
    intro n taken left
    simpa [taken] using (List.mem_filter.mp left).2
  rw [List.perm_ext_iff_of_nodup distinct List.nodup_range]
  intro n
  have known : n ∈ history.attempts.map Attempt.number → n < begun.length := by
    rw [← map_fst_turns]
    exact accounts.lt_of_mem_turns
  by_cases taken : n ∈ history.attempts.map Attempt.number
  · simp [order, List.mem_append, taken, known taken]
  · simp only [order, List.mem_append, taken, false_or, List.mem_filter, List.mem_range,
      not_false_eq_true, decide_true, and_true]

/-- The frames of a history are what its sends have handed over. -/
theorem frames_eq_flatMap {begun : List String} {sends : List (Nat × Sending)}
    (accounts : history.Accounts begun sends) (count : Nat) :
    history.frames = (history.order count).flatMap history.handedBy := by
  have others : ((List.range count).filter (· ∉ history.attempts.map Attempt.number)).flatMap
      history.handedBy = [] := by
    rw [List.flatMap_eq_nil_iff]
    intro n mem
    exact handedBy_of_not_mem (by simpa using (List.mem_filter.mp mem).2)
  rw [order, List.flatMap_append, others, List.append_nil, List.flatMap_map, frames]
  exact List.flatMap_congr fun attempt mem => (handedBy_of_mem accounts mem).symm

end History

/-! ## The sends on a link -/

/-- A send is busy with a slice: it hands the slice over, or it has done so last of all and waits
for the acknowledgment. -/
def Sending.Attends (accepted : List Frame) (slice : Frame) : Sending → Prop
  | .acquiring _ _ _ => False
  | .transmitting frame _ => frame = slice
  | .waiting _ _ => accepted.getLast? = some slice

/-- The sends on a link, with what the code does not keep of them. -/
structure Contest (τ : Type) where
  /-- The link, and the sends that are under way on it. -/
  shared : SharedLink (Taped τ)
  /-- Everything that was passed to `send`; the place in the list is the number of the send. -/
  begun : List String
  /-- The holds of the send lock. -/
  history : History

namespace Contest

/-- What can happen on a link. -/
inductive Event (τ : Type) where
  /-- A payload is passed to `send`. -/
  | send (payload : String)
  /-- A send takes a step. -/
  | step (n : Nat)
  /-- A send is given up, wherever it is. -/
  | abandon (n : Nat)
  /-- A frame comes in. -/
  | receive (text : String)
  /-- A slice that came in is acknowledged. -/
  | acknowledge
  /-- Something becomes of the channel: it is dropped, or opened again. -/
  | channel (after : τ)
  /-- The clocks are set. -/
  | clocks (timer wall : Nat)

/-- A framer that nothing has happened to, on any channel. -/
def start (setup : Setup) (channel : τ) : Contest τ where
  shared := .ofLink ⟨setup.framer, ⟨channel, []⟩, 0, 0⟩
  begun := []
  history := .empty

/-- The framer. -/
def framer (contest : Contest τ) : Framer := contest.shared.link.framer

/-- The data frames that the transport has accepted. -/
def dataFrames (contest : Contest τ) : List Frame := contest.shared.link.transport.dataFrames

/-- The sends between taking the lock and giving it back. -/
def holders (contest : Contest τ) : List Nat :=
  (contest.shared.sends.filter (·.2.holdsLock)).map Prod.fst

/-- Puts a link in the place of the one that there is. -/
def onLink (contest : Contest τ) (link : Link (Taped τ)) : Contest τ :=
  { contest with shared := { contest.shared with link } }

variable [Transport τ]

/-- Lets a send take a step. -/
def step (contest : Contest τ) (n : Nat) : Contest τ :=
  { contest with
    shared := contest.shared.step n
    history := contest.shared.record contest.history n }

/-- Gives a send up. -/
def abandon (contest : Contest τ) (n : Nat) : Contest τ :=
  { contest with
    shared := contest.shared.abandon n
    history := match contest.shared.send? n with
      | some _ => contest.history.close n .abandoned
      | none => contest.history }

/-- What becomes of a link when something happens on it. -/
def act (contest : Contest τ) : Event τ → Contest τ
  | .send payload =>
    { contest with
      shared := contest.shared.begin contest.begun.length payload
      begun := contest.begun ++ [payload] }
  | .step n => contest.step n
  | .abandon n => contest.abandon n
  | .receive text => contest.onLink (contest.shared.link.receive text).2
  | .acknowledge => contest.onLink (contest.shared.link.transmit .acknowledgment).2
  | .channel after =>
    contest.onLink { contest.shared.link with
      transport := { contest.shared.link.transport with channel := after } }
  | .clocks timer wall => contest.onLink { contest.shared.link with timer, wall }

/-- Lets things happen in the given order. -/
def run (contest : Contest τ) (events : List (Event τ)) : Contest τ := events.foldl act contest

/-- What the history, the tape and the results have to do with each other. -/
structure Sound (contest : Contest τ) : Prop where
  /-- The history tells what happened. -/
  follows : contest.shared.Follows contest.history
  /-- The turns of the lock belong to what was passed to `send`. -/
  accounts : contest.history.Accounts contest.begun contest.shared.sends
  /-- The results are those of the attempts. -/
  results : contest.history.Results (τ := Taped τ) contest.begun contest.shared.sends
    contest.shared.finished
  /-- Who waits has handed over something. -/
  waits : contest.history.Waits contest.shared.sends
  /-- The data frames on the tape are those of the history. -/
  taped : contest.dataFrames = contest.history.frames

namespace Sound

variable {contest : Contest τ}

theorem start (setup : Setup) (channel : τ) : (Contest.start setup channel).Sound where
  follows := History.describes_empty setup.frameLimit_framer_ne_zero rfl rfl
  accounts := .empty
  results := .empty
  waits := by simp [History.Waits, Contest.start, History.empty]
  taped := rfl

theorem begin (sound : contest.Sound) (payload : String) :
    (contest.act (.send payload)).Sound where
  follows := by
    refine sound.follows.begin (fun mem => ?_) payload
    obtain ⟨send, memSends, number⟩ := List.mem_map.mp mem
    have known := sound.accounts.known send memSends
    omega
  accounts := sound.accounts.begin payload _
  results := sound.results.begin payload _
  waits attempt rest deadline current mem := by
    rcases List.mem_append.mp mem with old | new
    · exact sound.waits attempt rest deadline current old
    · obtain ⟨-, ⟨⟩⟩ := Prod.mk.inj (List.mem_singleton.mp new)
  taped := sound.taped

theorem step (sound : contest.Sound) (n : Nat) : (contest.step n).Sound := by
  cases found : contest.shared.send? n with
  | none =>
      have same : contest.step n = contest := by
        simp [Contest.step, SharedLink.step, SharedLink.record, found]
      rw [same]
      exact sound
  | some place =>
      have mem := SharedLink.mem_of_send? found
      have outcome := sound.follows.outcome mem
      have moved : (contest.step n).shared =
          contest.shared.move n (place.step contest.shared.link).2
            (place.step contest.shared.link).1 := by
        simp [Contest.step, SharedLink.step, found]
      have history : (contest.step n).history =
          contest.history.record contest.shared.link n place := by
        simp [Contest.step, SharedLink.record, found]
      have sends : (contest.step n).shared.sends = Numbered.moved contest.shared.sends n
          (place.step contest.shared.link).1.next? := by
        rw [moved, SharedLink.move_sends]
      have finished : (contest.step n).shared.finished =
          ((place.step contest.shared.link).1.result?.map (n, ·)).toList ++
            contest.shared.finished := by
        rw [moved]
        cases (place.step contest.shared.link).1 <;> rfl
      refine ⟨sound.follows.step n, ?_, ?_, ?_, ?_⟩
      · rw [history, sends]
        exact sound.accounts.step mem outcome
      · rw [history, sends, finished]
        exact sound.results.step sound.accounts mem outcome
      · rw [history, sends]
        exact sound.waits.step mem outcome
      · rw [history, dataFrames, moved, SharedLink.move_link]
        obtain ⟨channel, frames⟩ | ⟨frame, rest, rfl, channel, frames⟩ := outcome.transport_frames
        · rw [channel, frames]
          exact sound.taped
        · have data : frame.isData = true := by
            obtain ⟨attempt, current, rfl⟩ := sound.follows.current_of_holds mem rfl
            have tail := (sound.follows.continues_of_mem current mem).tail
            simpa [Frame.isData] using tail.kind_ne_acknowledge List.mem_cons_self
          rw [channel, frames, Link.dataFrames_transmit, data, Bool.and_true]
          exact congrArg (· ++ _) sound.taped

theorem abandon (sound : contest.Sound) (n : Nat) : (contest.abandon n).Sound := by
  cases found : contest.shared.send? n with
  | none =>
      have same : contest.abandon n = contest := by
        simp [Contest.abandon, SharedLink.abandon, found]
      rw [same]
      exact sound
  | some place =>
      have mem := SharedLink.mem_of_send? found
      have history : (contest.abandon n).history = contest.history.close n .abandoned := by
        simp [Contest.abandon, found]
      have moved : (contest.abandon n).shared =
          { contest.shared with
            link := place.abandon contest.shared.link
            sends := Numbered.moved contest.shared.sends n none } := by
        simp [Contest.abandon, SharedLink.abandon, found, Numbered.moved]
      have transport : (place.abandon contest.shared.link).transport =
          contest.shared.link.transport := by
        unfold Sending.abandon
        split <;> rfl
      refine ⟨?_, ?_, ?_, fun attempt rest deadline current waiting => ?_, ?_⟩
      · rw [SharedLink.Follows, history, moved]
        exact History.Describes.abandon sound.follows mem
      · rw [history, moved]
        exact sound.accounts.abandon n
      · rw [history, moved]
        exact sound.results.abandon n
      · rw [history] at current
        rw [moved] at waiting
        have waits : contest.history.Waits (Numbered.moved contest.shared.sends n none) :=
          sound.waits.moved (by simp)
        exact waits attempt rest deadline (History.current_of_close current) waiting
      · rw [history, dataFrames, moved, transport, History.frames, History.attempts_close]
        exact sound.taped

/-- Nothing that happens to the link alone has to do with the sends, if it leaves the framer as it
is for them and the data frames on the tape. -/
theorem onLink (sound : contest.Sound) {link : Link (Taped τ)}
    (describes : contest.history.Describes link.framer contest.shared.sends)
    (taped : link.transport.dataFrames = contest.dataFrames) : (contest.onLink link).Sound :=
  ⟨describes, sound.accounts, sound.results, sound.waits, taped.trans sound.taped⟩

/-- **Whatever happens on a link, its history is told rightly.** -/
theorem act (sound : contest.Sound) (event : Event τ) : (contest.act event).Sound := by
  cases event with
  | send payload => exact sound.begin payload
  | step n => exact sound.step n
  | abandon n => exact sound.abandon n
  | receive text => exact sound.onLink (History.Describes.receive sound.follows text) rfl
  | acknowledge =>
      refine sound.onLink sound.follows ?_
      rw [Link.dataFrames_transmit]
      simp [Frame.isData, Frame.acknowledgment, dataFrames]
  | channel after => exact sound.onLink sound.follows rfl
  | clocks timer wall => exact sound.onLink sound.follows rfl

theorem run (sound : contest.Sound) (events : List (Event τ)) : (contest.run events).Sound := by
  induction events generalizing contest with
  | nil => exact sound
  | cons event rest ih => exact ih (sound.act event)

end Sound

/-! ## What the sends come to -/

/-- The data frames that were accepted are those of the sends, one send after the other in this
order; of each of them they are its `run`. -/
structure Consists (contest : Contest τ) (order : List Nat) (run : Nat → List Frame) : Prop where
  /-- Every send has its place in the order. -/
  everyone : order.Perm (List.range contest.begun.length)
  /-- The frames of different sends are not mixed up. -/
  frames : contest.dataFrames = order.flatMap run
  /-- A send hands its frames over from the first one on. -/
  first : ∀ n payload, contest.begun[n]? = some payload → run n <+: contest.framer.chunks payload
  /-- It has handed over all of them exactly when it has returned without an error. -/
  whole : ∀ n payload, contest.begun[n]? = some payload →
    (run n = contest.framer.chunks payload ↔ (n, .ok ()) ∈ contest.shared.finished)
  /-- It has handed over none if it has waited for the lock for too long. -/
  late : Transport.KnowsNoLock τ → ∀ n span,
    (n, .error (.lockTimeout span)) ∈ contest.shared.finished → run n = []

/-- What holds of the sends on a link at every moment. -/
structure Orderly (contest : Contest τ) : Prop where
  /-- The flag is up exactly while a send has the lock, and no two sends have it. -/
  lock : (contest.framer.sending = false ∧ contest.holders = []) ∨
    (contest.framer.sending = true ∧ ∃ n, contest.holders = [n])
  /-- An acknowledgment is waited for only while the send that has the lock is busy with a slice of
  its own. -/
  waiter : contest.framer.acknowledgment ≠ .none → ∃ n payload slice place,
    contest.holders = [n] ∧ (n, place) ∈ contest.shared.sends ∧
      contest.begun[n]? = some payload ∧ slice ∈ contest.framer.chunks payload ∧
      slice.kind = .more ∧ place.Attends contest.dataFrames slice
  /-- The accepted data frames are those of one send after the other. -/
  segments : ∃ order run, contest.Consists order run
  /-- Who gives up waiting for the lock leaves the link as it is, and the lock with whom it is. -/
  timeout : Transport.KnowsNoLock τ → ∀ n span,
    (contest.step n).shared.finished =
        (n, .error (.lockTimeout span)) :: contest.shared.finished →
      (contest.step n).shared.link = contest.shared.link ∧
        (contest.step n).holders = contest.holders

namespace Sound

variable {contest : Contest τ}

theorem holders_of_free (sound : contest.Sound) (none : contest.history.current = none) :
    contest.holders = [] := by
  have idle := (sound.follows.free none).2.2
  rw [holders, List.map_eq_nil_iff, List.filter_eq_nil_iff]
  intro send mem
  simp [idle send mem]

theorem holders_of_held (sound : contest.Sound) {attempt : Attempt}
    (current : contest.history.current = some attempt) : contest.holders = [attempt.number] := by
  obtain ⟨-, only, place, mem, continues⟩ := sound.follows.held attempt current
  have distinct : contest.holders.Nodup :=
    sound.follows.distinct.sublist (List.filter_sublist.map _)
  rw [← List.perm_singleton, List.perm_ext_iff_of_nodup distinct (List.nodup_singleton _)]
  intro n
  rw [List.mem_singleton]
  constructor
  · intro holder
    obtain ⟨send, memHolder, rfl⟩ := List.mem_map.mp holder
    obtain ⟨memSend, holds⟩ := List.mem_filter.mp memHolder
    exact only send memSend holds
  · rintro rfl
    exact List.mem_map.mpr ⟨_, List.mem_filter.mpr ⟨mem, continues.holds⟩, rfl⟩

theorem lock (sound : contest.Sound) :
    (contest.framer.sending = false ∧ contest.holders = []) ∨
      (contest.framer.sending = true ∧ ∃ n, contest.holders = [n]) := by
  cases current : contest.history.current with
  | none => exact .inl ⟨(sound.follows.free current).1, sound.holders_of_free current⟩
  | some attempt =>
      exact .inr ⟨(sound.follows.held attempt current).1, _, sound.holders_of_held current⟩

/-- What the holder of the lock has handed over last stands last among the frames. -/
theorem getLast?_dataFrames (sound : contest.Sound) {attempt : Attempt}
    (current : contest.history.current = some attempt) {frame : Frame}
    (last : attempt.handed.getLast? = some frame) :
    contest.dataFrames.getLast? = some frame := by
  simp [sound.taped, History.frames, History.attempts, current, List.getLast?_append, last]

theorem waiter (sound : contest.Sound) (waited : contest.framer.acknowledgment ≠ .none) :
    ∃ n payload slice place, contest.holders = [n] ∧ (n, place) ∈ contest.shared.sends ∧
      contest.begun[n]? = some payload ∧ slice ∈ contest.framer.chunks payload ∧
      slice.kind = .more ∧ place.Attends contest.dataFrames slice := by
  cases current : contest.history.current with
  | none => exact absurd (sound.follows.free current).2.1 waited
  | some attempt =>
      obtain ⟨-, -, place, mem, continues⟩ := sound.follows.held attempt current
      have passed : contest.begun[attempt.number]? = some attempt.payload :=
        sound.accounts.passed (attempt.number, attempt.payload)
          (by simp [History.turns, History.attempts, current])
      have chunks : attempt.handed ++ place.remaining = contest.framer.chunks attempt.payload :=
        continues.chunks
      cases place with
      | acquiring => cases continues.holds
      | transmitting frame rest =>
          refine ⟨_, _, frame, _, sound.holders_of_held current, mem, passed, ?_,
            continues.fits.mp waited, rfl⟩
          rw [← chunks]
          exact List.mem_append_right _ List.mem_cons_self
      | waiting rest deadline =>
          -- The holder has handed over something, and the last of it was not the end.
          have some_ := sound.waits attempt rest deadline current mem
          have last := List.getLast?_eq_some_getLast some_
          have memHanded := List.getLast_mem some_
          refine ⟨_, _, attempt.handed.getLast some_, _, sound.holders_of_held current, mem, passed,
            ?_, ?_, sound.getLast?_dataFrames current last⟩
          · rw [← chunks]
            exact List.mem_append_left _ memHanded
          · have tail : Frame.IsTail (attempt.handed ++ rest) :=
              (show attempt.handed ++ rest = _ from chunks) ▸ Frame.isTail_chunks ..
            exact tail.kind_eq_more continues.tail.ne_nil memHanded

/-- A transport that knows nothing of the lock lets no attempt fail for it. -/
theorem not_lockTimeout (sound : contest.Sound) (knows : Transport.KnowsNoLock τ)
    (attempt : Attempt) (span : Duration) :
    (attempt, .returned (.error (.lockTimeout span))) ∉ contest.history.past := by
  intro mem
  obtain ⟨_, ⟨⟩⟩ | ⟨text, taped, refused⟩ := sound.results.caused attempt _ mem
  exact knows text taped.channel span refused

/-- An attempt is complete exactly when its send has returned without an error. -/
theorem complete_iff (sound : contest.Sound) {attempt : Attempt}
    (mem : attempt ∈ contest.history.attempts) :
    attempt.IsComplete contest.framer.frameLimit ↔
      (attempt.number, .ok ()) ∈ contest.shared.finished := by
  constructor
  · intro complete
    rcases List.mem_append.mp mem with past | current
    · obtain ⟨⟨_, ending⟩, memPast, rfl⟩ := List.mem_map.mp past
      obtain rfl := (sound.follows.past _ memPast).2.mp complete
      exact sound.results.returned _ _ memPast
    · obtain ⟨-, -, place, -, continues⟩ :=
        sound.follows.held attempt (Option.mem_toList.mp current)
      exact absurd complete continues.not_complete
  · intro finished
    obtain ⟨other, memPast, number⟩ | ⟨-, -, -, _, ⟨⟩⟩ := sound.results.ended _ _ finished
    have otherMem : other ∈ contest.history.attempts :=
      List.mem_append_left _ (List.mem_map_of_mem memPast)
    obtain rfl := sound.accounts.unique otherMem mem number
    exact (sound.follows.past _ memPast).2.mpr rfl

/-- The attempt that a send has had, if it has had one, is about what was passed to it. -/
theorem attempt_cases (sound : contest.Sound) {n : Nat} {payload : String}
    (passed : contest.begun[n]? = some payload) :
    (∃ attempt ∈ contest.history.attempts, attempt.number = n ∧ attempt.payload = payload ∧
        contest.history.handedBy n = attempt.handed) ∨
      (n ∉ contest.history.attempts.map Attempt.number ∧ contest.history.handedBy n = []) := by
  by_cases taken : n ∈ contest.history.attempts.map Attempt.number
  · obtain ⟨attempt, mem, rfl⟩ := List.mem_map.mp taken
    have turn := sound.accounts.passed (attempt.number, attempt.payload)
      (List.mem_map.mpr ⟨attempt, mem, rfl⟩)
    rw [passed] at turn
    exact .inl ⟨attempt, mem, rfl, (Option.some.inj turn).symm,
      History.handedBy_of_mem sound.accounts mem⟩
  · exact .inr ⟨taken, History.handedBy_of_not_mem taken⟩

theorem consists (sound : contest.Sound) :
    contest.Consists (contest.history.order contest.begun.length) contest.history.handedBy where
  everyone := History.order_perm sound.accounts
  frames := sound.taped.trans (History.frames_eq_flatMap sound.accounts _)
  first n payload passed := by
    obtain ⟨attempt, mem, rfl, rfl, handed⟩ | ⟨-, handed⟩ := sound.attempt_cases passed
    · rw [handed]
      exact History.Describes.handed_prefix sound.follows mem
    · rw [handed]
      exact List.nil_prefix
  whole n payload passed := by
    obtain ⟨attempt, mem, rfl, rfl, handed⟩ | ⟨never, handed⟩ := sound.attempt_cases passed
    · rw [handed]
      exact sound.complete_iff mem
    · have something := (Frame.isTail_chunks contest.framer.frameLimit payload).ne_nil
      rw [handed]
      refine ⟨fun empty => absurd empty.symm something, fun finished => ?_⟩
      obtain ⟨attempt, memPast, rfl⟩ | ⟨-, -, -, _, ⟨⟩⟩ := sound.results.ended _ _ finished
      have mem : attempt ∈ contest.history.attempts :=
        List.mem_append_left _ (List.mem_map_of_mem memPast)
      exact absurd (List.mem_map_of_mem mem) never
  late knows n span finished := by
    obtain ⟨attempt, memPast, -⟩ | ⟨never, -⟩ := sound.results.ended _ _ finished
    · exact absurd memPast (sound.not_lockTimeout knows attempt span)
    · rw [History.map_fst_turns] at never
      exact History.handedBy_of_not_mem never

/-- A send that leaves without the lock takes it from nobody. -/
theorem filter_moved (sound : contest.Sound) {n : Nat} {place : Sending}
    (mem : (n, place) ∈ contest.shared.sends) (idle : place.holdsLock = false) :
    (Numbered.moved contest.shared.sends n none).filter (·.2.holdsLock) =
      contest.shared.sends.filter (·.2.holdsLock) := by
  simp only [Numbered.moved, Option.map_none, Option.toList_none, List.append_nil,
    List.filter_filter]
  refine List.filter_congr fun send memSend => ?_
  by_cases same : send.1 = n
  · subst same
    have here := Numbered.unique sound.follows.distinct memSend mem
    simp [here, idle]
  · simp [same]

theorem timeout (sound : contest.Sound) (knows : Transport.KnowsNoLock τ) {n : Nat}
    {span : Duration} (late : (contest.step n).shared.finished =
      (n, .error (.lockTimeout span)) :: contest.shared.finished) :
    (contest.step n).shared.link = contest.shared.link ∧
      (contest.step n).holders = contest.holders := by
  cases found : contest.shared.send? n with
  | none =>
      have same : (contest.step n).shared = contest.shared := by
        simp [Contest.step, SharedLink.step, found]
      exact ⟨by rw [same], by rw [holders, same, holders]⟩
  | some place =>
      have moved : (contest.step n).shared =
          contest.shared.move n (place.step contest.shared.link).2
            (place.step contest.shared.link).1 := by
        simp [Contest.step, SharedLink.step, found]
      have mem := SharedLink.mem_of_send? found
      have outcome := sound.follows.outcome mem
      rw [moved] at late
      cases progress : (place.step contest.shared.link).1 with
      | going next => simp [progress, SharedLink.move] at late
      | done result =>
          obtain rfl : result = .error (.lockTimeout span) := by
            simpa [progress, SharedLink.move] using late
          -- The step cannot have been taken with the lock: it is the transport that fails then.
          obtain ⟨attempt, -, -, cause⟩ | ⟨link, -, ⟨_, _, _, rfl⟩, -⟩ :=
            outcome.done_cases progress
          · obtain ⟨_, ⟨⟩⟩ | ⟨text, refused⟩ := cause _ rfl
            exact absurd refused (knows text contest.shared.link.transport.channel span)
          · refine ⟨by rw [moved, SharedLink.move_link, link], ?_⟩
            rw [holders, moved, SharedLink.move_sends, progress, holders]
            exact congrArg _ (sound.filter_moved mem rfl)

end Sound

/-- **Sends that contend for the lock keep out of each other's way, however they end.**  Over any
transport, and whatever the order in which sends begin, take their steps, are given up and frames
come in: the flag is up exactly while one send has the lock; an acknowledgment is waited for on
account of a slice of this send only; the data frames that were accepted are the first frames of one
send after the other, and all frames of those that have returned without an error; and who waits for
the lock for too long leaves no trace. -/
theorem orderly (setup : Setup) (channel : τ) (events : List (Event τ)) :
    ((start setup channel).run events).Orderly := by
  have sound := (Sound.start setup channel).run events
  exact ⟨sound.lock, sound.waiter, ⟨_, _, sound.consists⟩, fun knows _ _ => sound.timeout knows⟩

/-- Three sends contend.  The first one has the lock and waits for the acknowledgment of its first
slice, and the lock timeout passes. -/
def contending : List (Event MemoryChannel) :=
  [.send "abcd", .send "ef", .send "gh", .step 0, .step 0, .clocks 1 1]

/-- What becomes of that. -/
def contended : Contest MemoryChannel :=
  (start ⟨2, ⟨1⟩, ⟨1⟩, ⟨5⟩⟩ { MemoryChannel.new with isOpen := true }).run contending

/-- The third send gives up waiting for the lock.  It has handed over nothing, and leaves the link
as it is and the lock with the first one. -/
theorem orderly_contended :
    Transport.KnowsNoLock MemoryChannel ∧ contended.holders = [0] ∧
      contended.framer.acknowledgment ≠ .none ∧
      (contended.step 2).shared.finished = [(2, .error (.lockTimeout ⟨1⟩))] ∧
      (contended.step 2).shared.link = contended.shared.link ∧
      (contended.step 2).holders = [0] ∧
      ∃ order run, (contended.step 2).Consists order run ∧ run 2 = [] := by
  have holds : contended.holders = [0] := by decide +kernel
  have finished : (contended.step 2).shared.finished = [(2, .error (.lockTimeout ⟨1⟩))] := by
    decide +kernel
  have before : contended.Orderly := orderly _ _ contending
  have after : (contended.step 2).Orderly := by
    have later := orderly ⟨2, ⟨1⟩, ⟨1⟩, ⟨5⟩⟩ { MemoryChannel.new with isOpen := true }
      (contending ++ [.step 2])
    exact later
  obtain ⟨link, holders⟩ := before.timeout MemoryChannel.knowsNoLock 2 ⟨1⟩ finished
  obtain ⟨order, run, consists⟩ := after.segments
  have nothing : run 2 = [] := by
    refine consists.late MemoryChannel.knowsNoLock 2 ⟨1⟩ ?_
    rw [finished]
    exact List.mem_singleton_self _
  exact ⟨MemoryChannel.knowsNoLock, holds, by decide +kernel, finished, link,
    holders.trans holds, order, run, consists, nothing⟩

/-- Three sends contend: the first is given up after its first slice, the second gets through, and
the third has waited for the lock for too long. -/
example : ((start ⟨2, ⟨1⟩, ⟨1⟩, ⟨5⟩⟩ ({ MemoryChannel.new with isOpen := true })).run
      [.send "abcd", .send "ef", .send "gh", .step 0, .step 0, .clocks 1 1, .step 2, .abandon 0,
        .step 1, .step 1]).dataFrames = [⟨.more, "ab"⟩, ⟨.final, "ef"⟩] := by
  rfl

end Contest

end RemoteAgent
