import RemoteAgent.Proofs.Deliveries

/-!
# What becomes of envelopes

A chronicle is kept beside an agent whose activities deliver envelopes.  It has the history of the
send lock, the texts whose delivery was begun, and the deliveries that are over with the way in
which they ended.  All three are read off the steps, from the place that an activity was at and the
answer of the transport (`Chronicle.step`).

`Chronicle.Tells` ties the chronicle to the framer and to the deliveries under way.  Its two clauses
about texts are what the statements about the writer come from:

* an activity has begun the deliveries that it has left behind and, if it is at one, that one, in
  this order: it never works on two at a time, and leaves none without an ending;
* the payloads that it has handed over completely are the texts of the deliveries that ended well,
  in this order: a text that is sent again after a break of the transport is the same text, and the
  attempt that broke was no complete one.

The second one needs to know that a send carries the text of its delivery at every place, which the
places after the first one do not show.  There the current attempt shows it.
-/

namespace RemoteAgent

variable {τ φ η : Type}

/-- A delivery that is over. -/
structure Departure where
  /-- The number of the activity. -/
  number : Nat
  /-- What was to be delivered. -/
  text : String
  /-- How it ended. -/
  ending : Ending

/-- What the activities of an agent have done about deliveries. -/
structure Chronicle where
  /-- The holds of the send lock. -/
  history : History
  /-- The texts whose delivery was begun, each with the number of the activity. -/
  begun : List (Nat × String)
  /-- The deliveries that are over, the first one first. -/
  left : List Departure

/-- The sends that deliveries have got to. -/
def Delivery.sends (deliveries : List (Nat × Delivery)) : List (Nat × Sending) :=
  deliveries.filterMap fun item => item.2.sending?.map (item.1, ·)

namespace Chronicle

/-- Nothing was done. -/
def empty : Chronicle := ⟨.empty, [], []⟩

/-- What activity `n` has begun to deliver. -/
def begunBy (chronicle : Chronicle) (n : Nat) : List String :=
  (chronicle.begun.filter (·.1 = n)).map Prod.snd

/-- The deliveries of activity `n` that are over. -/
def leftBy (chronicle : Chronicle) (n : Nat) : List Departure :=
  chronicle.left.filter (·.number = n)

/-- The history moves on, and activity `n` leaves a delivery behind if it has an ending. -/
def leave (chronicle : Chronicle) (history : History) (n : Nat) (text : String)
    (ending : Option Ending) : Chronicle :=
  { chronicle with
    history
    left := chronicle.left ++ (ending.map (Departure.mk n text)).toList }

/-- The history after a step of a delivery. -/
def recordSend [Transport τ] (history : History) (agent : Agent τ φ η) (n : Nat)
    (delivery : Delivery) : History :=
  match delivery.sending? with
  | some place => history.record agent.link n place
  | none => history

/-- A delivery takes a step. -/
def deliver [Transport τ] (chronicle : Chronicle) (agent : Agent τ φ η) (n : Nat)
    (delivery : Delivery) : Chronicle :=
  chronicle.leave (recordSend chronicle.history agent n delivery) n delivery.text
    ((delivery.step agent n).1.result?.map .returned)

/-- An activity begins to deliver an envelope. -/
def begin (chronicle : Chronicle) (agent : Agent τ φ η) (n : Nat) (envelope : Json) : Chronicle :=
  { chronicle with begun := chronicle.begun ++ [(n, Codec.encode envelope)] }.leave
    chronicle.history n (Codec.encode envelope)
    ((Delivery.start agent envelope).result?.map .returned)

/-- An activity is given up. -/
def abandon (chronicle : Chronicle) (n : Nat) (task : Task) : Chronicle :=
  match task.delivery? with
  | some delivery =>
    chronicle.leave (chronicle.history.close n .abandoned) n delivery.text (some .abandoned)
  | none => chronicle

/-- An activity takes a step. -/
def step [Transport τ] (chronicle : Chronicle) (agent : Agent τ φ η) (n : Nat) (task : Task) :
    Chronicle :=
  match task.delivery? with
  | some delivery => chronicle.deliver agent n delivery
  | none =>
    match task.envelope? agent with
    | some envelope => chronicle.begin agent n envelope
    | none => chronicle

/-- What activity `n` is delivering. -/
def underway (deliveries : List (Nat × Delivery)) (n : Nat) : List String :=
  (deliveries.filter (·.1 = n)).map (·.2.text)

/-- **The chronicle tells what happened, up to where the deliveries are now.** -/
structure Tells (chronicle : Chronicle) (framer : Framer) (deliveries : List (Nat × Delivery)) :
    Prop where
  /-- No two deliveries have one number. -/
  distinct : (deliveries.map Prod.fst).Nodup
  /-- The history is that of the sends. -/
  describes : chronicle.history.Describes framer (Delivery.sends deliveries)
  /-- A send that looks at the lock carries the text of its delivery. -/
  waiting : ∀ n text payload since again,
    (n, .sending text (.acquiring payload since again)) ∈ deliveries → payload = text
  /-- So does the current attempt. -/
  holding : ∀ n text place attempt, (n, .sending text place) ∈ deliveries →
    chronicle.history.current = some attempt → attempt.number = n → attempt.payload = text
  /-- What was begun is over or under way. -/
  begun : ∀ n, chronicle.begunBy n =
    (chronicle.leftBy n).map Departure.text ++ underway deliveries n
  /-- What is handed over completely is what ended well. -/
  sent : ∀ n, chronicle.history.completedBy n =
    ((chronicle.leftBy n).filter (·.ending.isOk)).map Departure.text

/-! ## Deliveries and their sends -/

section Projection

variable {deliveries : List (Nat × Delivery)} {n m : Nat} {delivery : Delivery}

theorem mem_sends {place : Sending} :
    (n, place) ∈ Delivery.sends deliveries ↔
      ∃ text, (n, .sending text place) ∈ deliveries := by
  unfold Delivery.sends
  rw [List.mem_filterMap]
  constructor
  · rintro ⟨⟨m, other⟩, mem, here⟩
    cases other with
    | reopening => cases here
    | sending text at_ =>
        cases here
        exact ⟨text, mem⟩
  · rintro ⟨text, mem⟩
    exact ⟨_, mem, rfl⟩

theorem sends_moved (next : Option Delivery) :
    Delivery.sends (Numbered.moved deliveries n next) =
      Numbered.moved (Delivery.sends deliveries) n (next.bind Delivery.sending?) := by
  unfold Numbered.moved
  rw [Delivery.sends, List.filterMap_append]
  congr 1
  · induction deliveries with
    | nil => rfl
    | cons item rest ih =>
        obtain ⟨m, other⟩ := item
        by_cases same : m = n
        · cases other with
          | reopening => simpa [Delivery.sends, Delivery.sending?, same] using ih
          | sending => simpa [Delivery.sends, Delivery.sending?, same] using ih
        · cases other with
          | reopening => simpa [Delivery.sends, Delivery.sending?, same] using ih
          | sending => simpa [Delivery.sends, Delivery.sending?, same] using ih
  · cases next with
    | none => rfl
    | some other => cases other <;> rfl

theorem underway_moved (next : Option Delivery) :
    underway (Numbered.moved deliveries n next) m =
      if n = m then (next.map Delivery.text).toList else underway deliveries m := by
  unfold underway
  rw [Numbered.filter_moved]
  split
  · cases next <;> rfl
  · rfl

theorem underway_of_fresh (fresh : n ∉ deliveries.map Prod.fst) : underway deliveries n = [] := by
  rw [underway, Numbered.filter_of_fresh fresh, List.map_nil]

theorem underway_of_mem (distinct : (deliveries.map Prod.fst).Nodup)
    (mem : (n, delivery) ∈ deliveries) : underway deliveries n = [delivery.text] := by
  rw [underway, Numbered.filter_of_mem distinct mem, List.map_singleton]

end Projection

/-! ## Keeping account -/

section Account

variable {chronicle : Chronicle} {history : History} {n m : Nat} {text : String}

theorem leftBy_leave (ending : Option Ending) :
    (chronicle.leave history n text ending).leftBy m =
      chronicle.leftBy m ++ if n = m then (ending.map (Departure.mk n text)).toList else [] := by
  unfold leave leftBy
  rw [List.filter_append]
  cases ending with
  | none => simp
  | some ending => by_cases same : n = m <;> simp [same]

/-- What an activity works on next, and the ending of what it has worked on, come to the text that
it has worked on. -/
theorem begunBy_moved {framer : Framer} {deliveries : List (Nat × Delivery)} {delivery : Delivery}
    (tells : chronicle.Tells framer deliveries) (mem : (n, delivery) ∈ deliveries)
    {next : Option Delivery} {ending : Option Ending}
    (one : (ending.map fun _ => delivery.text).toList ++ (next.map Delivery.text).toList =
      [delivery.text]) (m : Nat) :
    (chronicle.leave history n delivery.text ending).begunBy m =
      ((chronicle.leave history n delivery.text ending).leftBy m).map Departure.text ++
        underway (Numbered.moved deliveries n next) m := by
  have old : chronicle.begunBy m = (chronicle.leftBy m).map Departure.text ++ underway deliveries m :=
    tells.begun m
  rw [leftBy_leave, underway_moved]
  show chronicle.begunBy m = (chronicle.leftBy m ++ _).map Departure.text ++ _
  rw [old, List.map_append, List.append_assoc]
  congr 1
  by_cases same : n = m
  · subst same
    -- Activity `n` is the only one whose account changes, and its text stands on one side of it.
    rw [underway_of_mem tells.distinct mem, ← one]
    cases ending <;> simp
  · simp [same]

/-- A delivery that ends well is the one that has been handed over completely. -/
theorem completedBy_moved {framer : Framer} {deliveries : List (Nat × Delivery)}
    (tells : chronicle.Tells framer deliveries) {ending : Option Ending}
    (completed : ∀ m, history.completedBy m = chronicle.history.completedBy m ++
      if n = m ∧ ending.any Ending.isOk then [text] else []) (m : Nat) :
    (chronicle.leave history n text ending).history.completedBy m =
      (((chronicle.leave history n text ending).leftBy m).filter (·.ending.isOk)).map
        Departure.text := by
  rw [leftBy_leave]
  show history.completedBy m = _
  rw [completed, tells.sent, List.filter_append, List.map_append]
  congr 1
  by_cases same : n = m
  · cases ending with
    | none => simp
    | some ending => cases ok : ending.isOk <;> simp [same, ok]
  · simp [same]

end Account

/-! ## Steps -/

namespace Tells

variable {chronicle : Chronicle} {deliveries : List (Nat × Delivery)} {n : Nat}

/-- A delivery that has not got to a send has no send. -/
theorem not_mem_sends {framer : Framer} (tells : chronicle.Tells framer deliveries)
    {delivery : Delivery} (mem : (n, delivery) ∈ deliveries) (none : delivery.sending? = none) :
    n ∉ (Delivery.sends deliveries).map Prod.fst := by
  intro memSends
  obtain ⟨⟨m, place⟩, here, rfl⟩ := List.mem_map.mp memSends
  obtain ⟨text, other⟩ := mem_sends.mp here
  have same := Numbered.unique tells.distinct mem other
  rw [same] at none
  cases none

/-- The current attempt belongs to a delivery that has got to a send. -/
theorem number_ne {framer : Framer} (tells : chronicle.Tells framer deliveries)
    (none : n ∉ (Delivery.sends deliveries).map Prod.fst) (attempt : Attempt)
    (current : chronicle.history.current = some attempt) : attempt.number ≠ n := by
  rintro rfl
  obtain ⟨-, -, place, mem, -⟩ := tells.describes.held attempt current
  exact none (List.mem_map_of_mem mem)

/-- A delivery that has not got to a send goes on, at most to the point where it begins one, or ends
without success. -/
theorem moved_idle {framer : Framer} (tells : chronicle.Tells framer deliveries)
    {delivery : Delivery} (mem : (n, delivery) ∈ deliveries) (early : delivery.sending? = none)
    {next : Option Delivery} {ending : Option Ending}
    (one : (ending.map fun _ => delivery.text).toList ++ (next.map Delivery.text).toList =
      [delivery.text])
    (begins : ∀ text place, next = some (.sending text place) →
      ∃ since, place = .acquiring text since none)
    (bad : ∀ reason, ending = some reason → reason.isOk = false) :
    (chronicle.leave chronicle.history n delivery.text ending).Tells framer
      (Numbered.moved deliveries n next) := by
  have fresh := tells.not_mem_sends mem early
  refine ⟨Numbered.nodup_moved tells.distinct, ?_, ?_, ?_, ?_, ?_⟩
  · rw [sends_moved]
    refine tells.describes.idle_moved (fun place here => ?_) (tells.number_ne fresh)
    obtain ⟨other, rfl, at_⟩ := Option.bind_eq_some_iff.mp here
    cases other with
    | reopening => cases at_
    | sending text place' =>
        cases at_
        obtain ⟨since, rfl⟩ := begins _ _ rfl
        rfl
  · intro m text payload since again moved
    rcases Numbered.mem_moved.mp moved with ⟨-, old⟩ | ⟨-, here⟩
    · exact tells.waiting m text payload since again old
    · obtain ⟨_, ⟨⟩⟩ := begins _ _ here
      rfl
  · intro m text place attempt moved current number
    rcases Numbered.mem_moved.mp moved with ⟨-, old⟩ | ⟨rfl, -⟩
    · exact tells.holding m text place attempt old current number
    · exact absurd number (tells.number_ne fresh attempt current)
  · exact begunBy_moved tells mem one
  · refine completedBy_moved tells fun m => ?_
    cases ending with
    | none => simp
    | some reason => simp [bad reason rfl]

/-- A delivery whose send takes a step goes on with it, or ends with it. -/
theorem moved_sending [Transport τ] {link after : Link τ}
    (tells : chronicle.Tells link.framer deliveries) {text : String} {place : Sending}
    (mem : (n, .sending text place) ∈ deliveries)
    {progress : Progress Sending (Except TransportError Unit)}
    (stepped : place.step link = (progress, after)) (next : Option Delivery)
    (ending : Option Ending) (sending : next.bind Delivery.sending? = progress.next?)
    (one : (ending.map fun _ => text).toList ++ (next.map Delivery.text).toList = [text])
    (good : ending.any Ending.isOk = true ↔ progress = .done (.ok ())) :
    (chronicle.leave (chronicle.history.record link n place) n text ending).Tells after.framer
      (Numbered.moved deliveries n next) := by
  have memSends : (n, place) ∈ Delivery.sends deliveries := mem_sends.mpr ⟨text, mem⟩
  have outcome := tells.describes.outcome memSends
  have describes := tells.describes.step memSends
  rw [stepped] at outcome describes
  -- The delivery keeps its text, so what is known of the text is known of the next place.
  have keeps : ∀ other here, next = some (.sending other here) →
      other = text ∧ progress.next? = some here := by
    rintro other here rfl
    refine ⟨?_, sending.symm⟩
    cases ending <;> simp_all [Delivery.text]
  refine ⟨Numbered.nodup_moved tells.distinct, ?_, ?_, ?_, ?_, ?_⟩
  · rw [sends_moved, sending]
    exact describes
  · intro m other payload since again moved
    rcases Numbered.mem_moved.mp moved with ⟨-, old⟩ | ⟨-, here⟩
    · exact tells.waiting m other payload since again old
    · obtain ⟨rfl, going⟩ := keeps _ _ here
      obtain ⟨-, stays⟩ | ⟨_, _, _, -, -, leaves⟩ := outcome.turns_cases
      · obtain ⟨_, _, _, _, rfl, same⟩ := stays _ going rfl
        cases same
        exact tells.waiting n _ _ _ _ mem
      · cases leaves _ going
  · intro m other here attempt moved current number
    obtain ⟨old, oldCurrent, oldNumber, oldPayload⟩ | ⟨mine, since, again, rfl⟩ :=
      outcome.current_cases current
    · rw [← oldPayload]
      rcases Numbered.mem_moved.mp moved with ⟨-, oldMem⟩ | ⟨rfl, now⟩
      · exact tells.holding m other here old oldMem oldCurrent (oldNumber.trans number)
      · obtain ⟨rfl, -⟩ := keeps _ _ now
        exact tells.holding m _ place old mem oldCurrent (oldNumber.trans number)
    · rcases Numbered.mem_moved.mp moved with ⟨different, -⟩ | ⟨rfl, now⟩
      · exact absurd (number.symm.trans mine) different
      · obtain ⟨rfl, -⟩ := keeps _ _ now
        exact tells.waiting m _ _ _ _ mem
  · exact begunBy_moved tells mem one
  · refine completedBy_moved tells fun m => ?_
    obtain ⟨unfinished, same⟩ | ⟨finished, attempt, current, number, more⟩ :=
      outcome.completedBy_cases m
    · rw [same, if_neg fun both => unfinished (good.mp both.2), List.append_nil]
    · rw [more, tells.holding n text place attempt mem current number]
      simp [good.mpr finished]

/-- **A step of any delivery keeps the chronicle true.** -/
theorem deliver [Transport τ] {agent : Agent τ φ η}
    (tells : chronicle.Tells agent.link.framer deliveries) {delivery : Delivery}
    (mem : (n, delivery) ∈ deliveries) :
    (chronicle.deliver agent n delivery).Tells (delivery.step agent n).2.link.framer
      (Numbered.moved deliveries n (delivery.step agent n).1.next?) := by
  have outcome : Delivery.Outcome agent n delivery (delivery.step agent n) :=
    Delivery.outcome delivery
  unfold Chronicle.deliver
  generalize delivery.step agent n = stepped at outcome ⊢
  cases outcome with
  | reopens framer =>
      rw [framer]
      exact tells.moved_idle mem rfl rfl (by rintro _ _ ⟨⟩) (by rintro _ ⟨⟩)
  | @opened _ _ since _ framer =>
      rw [framer]
      refine tells.moved_idle mem rfl rfl ?_ (by rintro _ ⟨⟩)
      rintro _ _ ⟨⟩
      exact ⟨since, rfl⟩
  | givenUp framer =>
      rw [framer]
      refine tells.moved_idle mem rfl rfl (by rintro _ _ ⟨⟩) ?_
      rintro _ ⟨⟩
      rfl
  | sends stepped =>
      exact tells.moved_sending mem stepped (some (.sending _ _)) none rfl rfl (by simp)
  | sent stepped =>
      exact tells.moved_sending mem stepped none (some (.returned (.ok ()))) rfl rfl
        (by simp [Ending.isOk])
  | @retries text _ _ error stepped =>
      exact tells.moved_sending mem stepped (some (.reopening text .requesting)) none rfl rfl
        (by simp)
  | @fails _ _ _ error stepped =>
      exact tells.moved_sending mem stepped none (some (.returned (.error error))) rfl rfl
        (by simp [Ending.isOk])

/-- A new delivery first sees to the transport, or finds the connection given up. -/
theorem begin {agent : Agent τ φ η} {framer : Framer} (tells : chronicle.Tells framer deliveries)
    (fresh : n ∉ deliveries.map Prod.fst) (envelope : Json) :
    (chronicle.begin agent n envelope).Tells framer
      (Numbered.moved deliveries n (Delivery.start agent envelope).next?) := by
  have started : Delivery.start agent envelope = .done (.error .halted) ∨
      Delivery.start agent envelope = .going (.reopening (Codec.encode envelope) .requesting) := by
    unfold Delivery.start
    split
    · exact .inl rfl
    · exact .inr rfl
  -- The new delivery has not got to a send, so those that have are the old ones.
  have early : ∀ m text place,
      (m, .sending text place) ∈
        Numbered.moved deliveries n (Delivery.start agent envelope).next? →
      (m, .sending text place) ∈ deliveries := by
    intro m text place moved
    rcases Numbered.mem_moved.mp moved with ⟨-, old⟩ | ⟨-, here⟩
    · exact old
    · rcases started with halted | going
      · rw [halted] at here
        cases here
      · rw [going] at here
        cases here
  refine ⟨Numbered.nodup_moved tells.distinct, ?_,
    fun m text payload since again mem => tells.waiting m text payload since again (early _ _ _ mem),
    fun m text place attempt mem => tells.holding m text place attempt (early _ _ _ mem),
    fun m => ?_, fun m => ?_⟩
  · have none : (Delivery.start agent envelope).next?.bind Delivery.sending? = none := by
      rcases started with halted | going
      · rw [halted]
        rfl
      · rw [going]
        rfl
    have freshSends : n ∉ (Delivery.sends deliveries).map Prod.fst := by
      intro mem
      obtain ⟨⟨m, place⟩, memSends, rfl⟩ := List.mem_map.mp mem
      obtain ⟨text, mem⟩ := mem_sends.mp memSends
      exact fresh (List.mem_map_of_mem mem)
    rw [sends_moved, none, Numbered.moved_of_fresh freshSends, Option.map_none,
      Option.toList_none, List.append_nil]
    exact tells.describes
  · have begun : (chronicle.begin agent n envelope).begunBy m =
        chronicle.begunBy m ++ if n = m then [Codec.encode envelope] else [] := by
      by_cases same : n = m <;> simp [Chronicle.begin, leave, begunBy, same]
    rw [begun, Chronicle.begin, leftBy_leave, underway_moved]
    show _ = (chronicle.leftBy m ++ _).map Departure.text ++ _
    rw [tells.begun m, List.map_append, List.append_assoc, List.append_assoc]
    congr 1
    by_cases same : n = m
    · subst same
      rw [underway_of_fresh fresh]
      rcases started with halted | going
      · simp [halted, Progress.result?, Progress.next?]
      · simp [going, Progress.result?, Progress.next?, Delivery.text]
    · simp [same]
  · rw [Chronicle.begin, leftBy_leave, List.filter_append]
    show chronicle.history.completedBy m =
      ((chronicle.leftBy m).filter _ ++ _).map Departure.text
    rw [tells.sent, List.map_append]
    rcases started with halted | going
    · by_cases same : n = m <;> simp [halted, Progress.result?, Ending.isOk, same]
    · simp [going, Progress.result?]

/-- An activity that delivers is given up. -/
theorem abandon {agent : Agent τ φ η} (tells : chronicle.Tells agent.link.framer deliveries)
    {delivery : Delivery} (mem : (n, delivery) ∈ deliveries) {task : Task}
    (delivers : task.delivery? = some delivery) :
    (chronicle.abandon n task).Tells (delivery.abandon agent n).link.framer
      (Numbered.moved deliveries n none) := by
  have left : ∀ m other, (m, other) ∈ Numbered.moved deliveries n none →
      (m, other) ∈ deliveries := by
    intro m other moved
    rcases Numbered.mem_moved.mp moved with ⟨-, old⟩ | ⟨-, ⟨⟩⟩
    exact old
  have describes : (chronicle.history.close n .abandoned).Describes
      (delivery.abandon agent n).link.framer
      (Numbered.moved (Delivery.sends deliveries) n none) := by
    cases delivery with
    | reopening text place =>
        have fresh := tells.not_mem_sends mem rfl
        rw [History.close_of_ne _ (tells.number_ne fresh)]
        exact tells.describes.idle_moved (by simp) (tells.number_ne fresh)
    | sending text place => exact tells.describes.abandon (mem_sends.mpr ⟨text, mem⟩)
  unfold Chronicle.abandon
  rw [delivers]
  refine ⟨Numbered.nodup_moved tells.distinct, ?_,
    fun m text payload since again moved => tells.waiting m text payload since again (left _ _ moved),
    fun m text place attempt moved current => ?_, begunBy_moved tells mem rfl,
    completedBy_moved tells fun m => ?_⟩
  · rw [sends_moved]
    exact describes
  · exact tells.holding m text place attempt (left _ _ moved) (History.current_of_close current)
  · simp [Ending.isOk, History.completedBy_close_abandoned]

/-- A frame comes in. -/
theorem hear {framer after : Framer} (tells : chronicle.Tells framer deliveries)
    (hears : framer.Hears after) : chronicle.Tells after deliveries := by
  refine ⟨tells.distinct, ?_, tells.waiting, tells.holding, tells.begun, tells.sent⟩
  cases hears with
  | nothing => exact tells.describes
  | frame text => exact tells.describes.receive text

end Tells

end Chronicle

end RemoteAgent
