import RemoteAgent.Config
import RemoteAgent.Proofs.Indentation

/-!
# Configurations in files

A file holds any of the fields of a configuration, in any order and among other entries, or the
first of them by position.  What it gives is a list of fields and the trees of their values
(`Config.Gives`), and what it makes of a configuration is that these fields have these values and
all others are kept (`Config.Sets`).

Each field is read by its type, and each of the five types has its own way to be read.  What they
have in common is that a tree is read as something exactly if it has the value that this is written
as, and one lemma (`Config.map_eq_some_iff_get`) turns that into what is said of every field: what
is put into it is its value afterwards, and the other fields keep theirs.  The induction over the
entries of a file then needs no field by name (`Config.sets_cons_iff`).

A saved file is indented, and its keys do not ascend; it is read as the tree of its entries
(`Json.exists_ofText?_renderIndented`), which gives every field.

## Main definitions

* `Config.Gives`: what the tree of a file gives for which field.
* `Config.Sets`: some fields of a configuration are set, and the others are kept.

## Main results

* `Config.ofSource?_eq_some_iff`: the configuration of a tree.
* `Config.ofText?_save`: what is saved is the configuration.
* `Config.load_faithful`: which texts are loaded as a configuration.
-/

namespace RemoteAgent.Config

open Json (Source resolve)

/-! ## Values of fields -/

section Values

variable {source : Source}

theorem text?_eq_some_iff {text : String} :
    text? source = some text ↔ resolve 0 source = some (.string text) := by
  cases source <;> simp [text?, resolve]

theorem flag?_eq_some_iff {flag : Bool} :
    flag? source = some flag ↔ resolve 0 source = some (.bool flag) := by
  cases source <;> simp [flag?, resolve]

theorem integer?_eq_some_iff {n : Int} :
    integer? source = some n ↔ resolve 0 source = some (Json.ofInt n) := by
  cases source with
  | number numeral =>
    simp only [integer?, resolve, Numeral.toNumber?, Json.ofInt]
    cases numeral.toInt? <;> simp
  | _ => simp [integer?, resolve, Json.ofInt]

theorem natural?_eq_some_iff {bound n : Nat} :
    natural? bound source = some n ↔ resolve 0 source = some (Json.ofNat n) ∧ n < bound := by
  rw [Json.ofNat, ← integer?_eq_some_iff, natural?]
  cases integer? source with
  | none => simp
  | some k =>
    simp
    omega

theorem uint64?_eq_some_iff {n : UInt64} :
    uint64? source = some n ↔ resolve 0 source = some (Json.ofNat n.toNat) := by
  simp only [uint64?, Option.map_eq_some_iff, natural?_eq_some_iff]
  constructor
  · rintro ⟨k, ⟨value, below⟩, rfl⟩
    rwa [UInt64.toNat_ofNat_of_lt' below]
  · intro value
    exact ⟨n.toNat, ⟨value, n.toNat_lt⟩, UInt64.ofNat_toNat⟩

theorem uint32?_eq_some_iff {n : UInt32} :
    uint32? source = some n ↔ resolve 0 source = some (Json.ofNat n.toNat) := by
  simp only [uint32?, Option.map_eq_some_iff, natural?_eq_some_iff]
  constructor
  · rintro ⟨k, ⟨value, below⟩, rfl⟩
    rwa [UInt32.toNat_ofNat_of_lt' below]
  · intro value
    exact ⟨n.toNat, ⟨value, n.toNat_lt⟩, UInt32.ofNat_toNat⟩

theorem int64?_eq_some_iff {n : Int64} :
    int64? source = some n ↔ resolve 0 source = some (Json.ofInt n.toInt) := by
  rw [← integer?_eq_some_iff, int64?]
  cases integer? source with
  | none => simp
  | some k =>
    constructor
    · intro read
      obtain ⟨⟨low, high⟩, same⟩ := Option.ite_none_right_eq_some.mp read
      rw [← Option.some_inj.mp same, Int64.toInt_ofInt_of_le (by omega) (by omega)]
    · intro same
      obtain rfl := Option.some_inj.mp same
      have fits := And.intro n.le_toInt n.toInt_lt
      simpa [Int64.ofInt_toInt] using fits

/-- Null is a value of this field, and no other field has it. -/
theorem optionalUInt64?_eq_some_iff {o : Option UInt64} :
    optionalUInt64? source = some o ↔
      resolve 0 source = some (Json.ofOption (o.map fun n => Json.ofNat n.toNat)) := by
  by_cases null : source = .null
  · subst null
    cases o <;> simp [optionalUInt64?, resolve, Json.ofOption, Json.ofNat, Json.ofInt]
  · have notNull : resolve 0 source ≠ some .null := by
      cases source <;> simp_all [resolve]
    have read : optionalUInt64? source = (uint64? source).map some := by
      cases source <;> simp_all [optionalUInt64?]
    rw [read]
    cases o with
    | none => simpa [Json.ofOption] using notNull
    | some n => simpa [Json.ofOption] using uint64?_eq_some_iff

end Values

/-! ## One field -/

theorem ofInt_injective : Function.Injective Json.ofInt := by
  intro a b same
  simpa [Json.ofInt] using same

theorem ofNat_injective : Function.Injective Json.ofNat := by
  intro a b same
  exact Int.ofNat_inj.mp (ofInt_injective same)

theorem ofOption_injective : Function.Injective fun o : Option UInt64 =>
    Json.ofOption (o.map fun n => Json.ofNat n.toNat) := by
  intro a b same
  cases a <;> cases b
  case none.none => rfl
  case some.some => exact congrArg some (UInt64.toNat_inj.mp (ofNat_injective same))
  all_goals simp [Json.ofOption, Json.ofNat, Json.ofInt] at same

/-- A configuration is what its fields are. -/
theorem eq_of_get {c d : Config} (same : ∀ field, c.get field = d.get field) : c = d := by
  obtain ⟨⟩ := c
  obtain ⟨⟩ := d
  rw [mk.injEq]
  exact ⟨Json.string.inj (same .url),
    UInt64.toNat_inj.mp (ofNat_injective (same .frameLimit)),
    UInt32.toNat_inj.mp (ofNat_injective (same .reconnectLimit)),
    UInt64.toNat_inj.mp (ofNat_injective (same .reconnectDelay)),
    UInt64.toNat_inj.mp (ofNat_injective (same .lockTimeout)),
    UInt64.toNat_inj.mp (ofNat_injective (same .lockPoll)),
    UInt64.toNat_inj.mp (ofNat_injective (same .ackTimeout)),
    ofOption_injective (same .keepaliveInterval),
    Int64.toInt_inj.mp (ofInt_injective (same .defaultDepth)), Json.bool.inj (same .debug)⟩

/-- A value that is read by the type of a field is put into the place of that field. -/
theorem map_eq_some_iff_get {α : Type} {read : Source → Option α} {write : α → Json}
    (reads : ∀ {source a}, read source = some a ↔ resolve 0 source = some (write a))
    {field : Field} (view : Config → α) {c c' : Config} {update : α → Config}
    (gets : ∀ d : Config, d.get field = write (view d)) (viewed : ∀ a, view (update a) = a)
    (others : ∀ a, ∀ other ≠ field, (update a).get other = c.get other) {source : Source} :
    (read source).map update = some c' ↔
      resolve 0 source = some (c'.get field) ∧ ∀ other ≠ field, c'.get other = c.get other := by
  rw [Option.map_eq_some_iff]
  constructor
  · rintro ⟨a, value, rfl⟩
    rw [gets, viewed]
    exact ⟨reads.mp value, others a⟩
  · rintro ⟨value, kept⟩
    refine ⟨view c', reads.mpr (gets c' ▸ value), eq_of_get fun other => ?_⟩
    by_cases same : other = field
    · rw [same, gets, gets, viewed]
    · rw [others _ other same, kept other same]

/-- **What is put into a field is its value afterwards, and the other fields keep theirs.** -/
theorem put?_eq_some_iff {c c' : Config} {field : Field} {source : Source} :
    c.put? field source = some c' ↔
      resolve 0 source = some (c'.get field) ∧ ∀ other ≠ field, c'.get other = c.get other := by
  cases field with
  | url =>
    exact map_eq_some_iff_get text?_eq_some_iff url (fun _ => rfl) (fun _ => rfl)
      (by rintro a ⟨⟩ <;> simp [get])
  | frameLimit =>
    exact map_eq_some_iff_get uint64?_eq_some_iff frameLimit (fun _ => rfl) (fun _ => rfl)
      (by rintro a ⟨⟩ <;> simp [get])
  | reconnectLimit =>
    exact map_eq_some_iff_get uint32?_eq_some_iff reconnectLimit (fun _ => rfl) (fun _ => rfl)
      (by rintro a ⟨⟩ <;> simp [get])
  | reconnectDelay =>
    exact map_eq_some_iff_get uint64?_eq_some_iff reconnectDelay (fun _ => rfl) (fun _ => rfl)
      (by rintro a ⟨⟩ <;> simp [get])
  | lockTimeout =>
    exact map_eq_some_iff_get uint64?_eq_some_iff lockTimeout (fun _ => rfl) (fun _ => rfl)
      (by rintro a ⟨⟩ <;> simp [get])
  | lockPoll =>
    exact map_eq_some_iff_get uint64?_eq_some_iff lockPoll (fun _ => rfl) (fun _ => rfl)
      (by rintro a ⟨⟩ <;> simp [get])
  | ackTimeout =>
    exact map_eq_some_iff_get uint64?_eq_some_iff ackTimeout (fun _ => rfl) (fun _ => rfl)
      (by rintro a ⟨⟩ <;> simp [get])
  | keepaliveInterval =>
    exact map_eq_some_iff_get optionalUInt64?_eq_some_iff keepaliveInterval (fun _ => rfl)
      (fun _ => rfl) (by rintro a ⟨⟩ <;> simp [get])
  | defaultDepth =>
    exact map_eq_some_iff_get int64?_eq_some_iff defaultDepth (fun _ => rfl) (fun _ => rfl)
      (by rintro a ⟨⟩ <;> simp [get])
  | debug =>
    exact map_eq_some_iff_get flag?_eq_some_iff debug (fun _ => rfl) (fun _ => rfl)
      (by rintro a ⟨⟩ <;> simp [get])

/-- Whether something can be put into a field is a matter of the field alone. -/
theorem isSome_put? (c d : Config) (field : Field) (source : Source) :
    (c.put? field source).isSome = (d.put? field source).isSome := by
  cases field <;> simp [put?]

/-! ## Several fields -/

/-- One configuration is another one with some fields set to the values that are given for them. No
field is given twice, and every other field is kept. -/
structure Sets (given : List (Field × Source)) (before after : Config) : Prop where
  /-- No field is given twice. -/
  distinct : (given.map Prod.fst).Nodup
  /-- A field that is given has the value that its tree writes. -/
  value : ∀ entry ∈ given, resolve 0 entry.2 = some (after.get entry.1)
  /-- A field that is not given is as it was. -/
  others : ∀ field, field ∉ given.map Prod.fst → after.get field = before.get field

theorem sets_nil_iff {before after : Config} : Sets [] before after ↔ before = after := by
  constructor
  · exact fun sets => eq_of_get fun field => (sets.others field List.not_mem_nil).symm
  · rintro rfl
    exact ⟨List.nodup_nil, nofun, fun _ _ => rfl⟩

/-- The first field is put into its place, and it is none of the others. -/
theorem sets_cons_iff {field : Field} {source : Source} {rest : List (Field × Source)}
    {before after : Config} :
    Sets ((field, source) :: rest) before after ↔
      field ∉ rest.map Prod.fst ∧
        ∃ between, before.put? field source = some between ∧ Sets rest between after := by
  constructor
  · intro sets
    obtain ⟨notLater, distinct⟩ := List.nodup_cons.mp sets.distinct
    have value : resolve 0 source = some (after.get field) := sets.value _ List.mem_cons_self
    have takes : (before.put? field source).isSome := by
      rw [isSome_put? before after, put?_eq_some_iff.mpr ⟨value, fun _ _ => rfl⟩]
      rfl
    obtain ⟨between, put⟩ := Option.isSome_iff_exists.mp takes
    obtain ⟨valueBetween, kept⟩ := put?_eq_some_iff.mp put
    refine ⟨notLater, between, put, distinct,
      fun entry mem => sets.value entry (List.mem_cons_of_mem _ mem), fun other notGiven => ?_⟩
    by_cases same : other = field
    · rw [same]
      exact Option.some_inj.mp (value.symm.trans valueBetween)
    · rw [kept other same]
      exact sets.others other (List.not_mem_cons_of_ne_of_not_mem same notGiven)
  · rintro ⟨notLater, between, put, sets⟩
    obtain ⟨value, kept⟩ := put?_eq_some_iff.mp put
    refine ⟨List.nodup_cons.mpr ⟨notLater, sets.distinct⟩, ?_, fun other notGiven => ?_⟩
    · rw [List.forall_mem_cons]
      exact ⟨by rw [value, sets.others field notLater], sets.value⟩
    · obtain ⟨ne, notGiven⟩ := List.ne_and_not_mem_of_not_mem_cons notGiven
      rw [sets.others other notGiven, kept other ne]

/-! ## What a tree gives -/

/-- The entries of an object that have the name of a field. -/
def known (entries : List (Option String × Source)) : List (Field × Source) :=
  entries.filterMap fun entry => (entry.1.bind Field.ofName?).map (·, entry.2)

/-- What the tree of a file gives for which field: an object by name, where it may hold whatever it
likes under other names, and an array by position. -/
inductive Gives : Source → List (Field × Source) → Prop
  | object {entries : List (Option String × Source)} (named : ∀ entry ∈ entries, entry.1 ≠ none) :
      Gives (.object entries) (known entries)
  | array {items : List Source} (few : items.length ≤ Field.all.length) :
      Gives (.array items) (Field.all.zip items)

theorem putFields?_eq_some_iff {before after : Config} {seen : List Field}
    {entries : List (Option String × Source)} :
    before.putFields? seen entries = some after ↔
      (∀ entry ∈ entries, entry.1 ≠ none) ∧
        (∀ field ∈ (known entries).map Prod.fst, field ∉ seen) ∧
        Sets (known entries) before after := by
  induction entries generalizing before seen with
  | nil => simp [putFields?, known, sets_nil_iff]
  | cons entry rest ih =>
    obtain ⟨key, source⟩ := entry
    cases key with
    | none => simp [putFields?]
    | some name =>
      cases named : Field.ofName? name with
      | none => simp [putFields?, named, known, ih]
      | some field =>
        have here : known ((some name, source) :: rest) = (field, source) :: known rest := by
          simp [known, named]
        rw [here, sets_cons_iff]
        by_cases again : field ∈ seen
        · simp [putFields?, named, again]
        · cases put : before.put? field source with
          | none => simp [putFields?, named, again, put]
          | some between =>
            simp only [putFields?, named, again, put, if_false, ih]
            constructor
            · rintro ⟨names, unseen, sets⟩
              refine ⟨by simpa using names, ?_, fun mem => ?_, between, rfl, sets⟩
              · rw [List.map_cons, List.forall_mem_cons]
                exact ⟨again, fun other mem => List.not_mem_of_not_mem_cons (unseen other mem)⟩
              · exact unseen field mem List.mem_cons_self
            · rintro ⟨names, unseen, notLater, _, ⟨⟩, sets⟩
              rw [List.map_cons, List.forall_mem_cons] at unseen
              refine ⟨by simpa using names, fun other mem => ?_, sets⟩
              refine List.not_mem_cons_of_ne_of_not_mem (fun same => ?_) (unseen.2 other mem)
              exact notLater (same ▸ mem)

theorem putItems?_eq_some_iff {before after : Config} {fields : List Field}
    (distinct : fields.Nodup) {items : List Source} :
    before.putItems? fields items = some after ↔
      items.length ≤ fields.length ∧ Sets (fields.zip items) before after := by
  induction fields generalizing before items with
  | nil => cases items <;> simp [putItems?, sets_nil_iff]
  | cons field fields ih =>
    obtain ⟨notLater, distinct⟩ := List.nodup_cons.mp distinct
    cases items with
    | nil => simp [putItems?, sets_nil_iff]
    | cons source rest =>
      have absent : field ∉ (fields.zip rest).map Prod.fst := fun mem => by
        obtain ⟨entry, mem, same⟩ := List.mem_map.mp mem
        exact notLater (same ▸ (List.of_mem_zip mem).1)
      rw [List.zip_cons_cons, sets_cons_iff]
      cases put : before.put? field source with
      | none => simp [putItems?, put]
      | some between => simp [putItems?, put, ih distinct, absent]

/-- **The configuration of a tree** has the values that are given, and the default for what is not.
-/
theorem ofSource?_eq_some_iff {source : Source} {c : Config} :
    ofSource? source = some c ↔ ∃ given, Gives source given ∧ Sets given default c := by
  cases source with
  | object entries =>
    rw [ofSource?, putFields?_eq_some_iff]
    constructor
    · rintro ⟨named, -, sets⟩
      exact ⟨_, .object named, sets⟩
    · rintro ⟨_, gives, sets⟩
      cases gives with
      | object named => exact ⟨named, fun _ _ => List.not_mem_nil, sets⟩
  | array items =>
    rw [ofSource?, putItems?_eq_some_iff (by decide)]
    constructor
    · rintro ⟨few, sets⟩
      exact ⟨_, .array few, sets⟩
    · rintro ⟨_, gives, sets⟩
      cases gives with
      | array few => exact ⟨few, sets⟩
  | _ =>
    constructor
    · nofun
    · rintro ⟨_, ⟨⟩, _⟩

/-! ## Saved files -/

theorem ofName?_name (field : Field) : Field.ofName? field.name = some field := by
  cases field <;> rfl

/-- The value of every field is one that can be spelled, and nothing is nested in it. -/
theorem isIntegral_get (c : Config) (field : Field) :
    (c.get field).IsIntegral ∧ (c.get field).nesting = 0 := by
  have natural {n : Nat} (below : n < 18446744073709551616) : (Json.ofNat n).IsIntegral :=
    .int ⟨by omega, by omega⟩
  have small (n : UInt32) : n.toNat < 18446744073709551616 :=
    Nat.lt_trans n.toNat_lt (by decide)
  cases field
  case url => exact ⟨.string _, rfl⟩
  case debug => exact ⟨.bool _, rfl⟩
  case defaultDepth =>
    have low := c.defaultDepth.le_toInt
    have high := c.defaultDepth.toInt_lt
    exact ⟨.int ⟨by omega, by omega⟩, rfl⟩
  case reconnectLimit => exact ⟨natural (small _), rfl⟩
  case keepaliveInterval =>
    rw [get]
    cases c.keepaliveInterval with
    | none => exact ⟨.null, rfl⟩
    | some n => exact ⟨natural n.toNat_lt, rfl⟩
  all_goals exact ⟨natural (UInt64.toNat_lt _), rfl⟩

theorem forall₂_of_resolveFields {limit : Nat} {entries : List (Option String × Source)}
    {fields : List (String × Json)} (resolved : Json.resolveFields limit entries = some fields) :
    List.Forall₂ (fun entry field => entry.1 = some field.1 ∧
      resolve limit entry.2 = some field.2) entries fields := by
  induction entries generalizing fields with
  | nil =>
    cases resolved
    exact .nil
  | cons entry rest ih =>
    unfold Json.resolveFields at resolved
    split at resolved
    case h_1 name value others named first more =>
      cases resolved
      exact .cons ⟨named, first⟩ (ih more)
    case h_2 => cases resolved

theorem mem_all (field : Field) : field ∈ Field.all := by
  cases field <;> decide

/-- Entries that have the names and the values of some fields give just these. -/
theorem known_of_forall₂ {c : Config} {entries : List (Option String × Source)}
    {fields : List Field} (each : List.Forall₂ (fun entry field =>
      entry.1 = some field.name ∧ resolve 0 entry.2 = some (c.get field)) entries fields) :
    (∀ entry ∈ entries, entry.1 ≠ none) ∧ (known entries).map Prod.fst = fields ∧
      ∀ entry ∈ known entries, resolve 0 entry.2 = some (c.get entry.1) := by
  induction each with
  | nil => exact ⟨nofun, rfl, nofun⟩
  | @cons entry field entries fields first _ ih =>
    obtain ⟨key, source⟩ := entry
    obtain ⟨rfl, value⟩ : key = some field.name ∧ resolve 0 source = some (c.get field) := first
    have here :
        known ((some field.name, source) :: entries) = (field, source) :: known entries := by
      simp [known, ofName?_name]
    rw [here]
    simpa [value] using ih

/-- **What is saved is the configuration.** -/
theorem ofText?_save (c : Config) : ofText? c.save = some c := by
  have spells : ∀ entry ∈ Field.all.map fun field => (field.name, c.get field),
      Json.Spells 0 (Json.renderNested 1 entry.2).toList entry.2 := by
    rw [List.forall_mem_map]
    intro field _
    obtain ⟨integral, flat⟩ := c.isIntegral_get field
    exact integral.spells Json.writesSpellings_renderNested (Nat.le_of_eq flat) 1
  obtain ⟨entries, read, resolved⟩ := Json.exists_ofText?_renderIndented spells
  have each := List.forall₂_map_right_iff.mp (forall₂_of_resolveFields resolved)
  obtain ⟨named, fields, values⟩ := known_of_forall₂ each
  have sets : Sets (known entries) default c := by
    refine ⟨?_, values, fun field absent => ?_⟩
    · rw [fields]
      decide
    · rw [fields] at absent
      exact absurd (mem_all field) absent
  rw [ofText?, save, read, Option.bind_some, ofSource?_eq_some_iff]
  exact ⟨_, .object named, sets⟩

/-! ## Loading -/

theorem validate_eq_ok_iff {c : Config} :
    c.validate = .ok () ↔ c.frameLimit ≠ 0 ∧ c.lockPoll ≠ 0 := by
  unfold validate
  split
  · simp_all
  · split <;> simp_all

theorem load_of_ofText? (path : String) {text : String} {c : Config}
    (read : ofText? text = some c) : load path (some text) = c.validate.map fun _ => c := by
  simp only [load, read]
  cases c.validate <;> rfl

theorem load_eq_ok_iff {path text : String} {c : Config} :
    load path (some text) = .ok c ↔ ofText? text = some c ∧ c.validate = .ok () := by
  cases read : ofText? text with
  | none => simp [load, read, throw, throwThe, MonadExceptOf.throw]
  | some d =>
    rw [load_of_ofText? path read]
    cases valid : d.validate with
    | error error =>
      constructor
      · nofun
      · rintro ⟨⟨⟩, ok⟩
        cases valid.symm.trans ok
    | ok =>
      constructor
      · rintro ⟨⟩
        exact ⟨rfl, valid⟩
      · rintro ⟨⟨⟩, -⟩
        rfl

/-- **A configuration and its file.**  What is saved is loaded as the same configuration, whatever
its text and its numbers are, unless it is refused as unusable.  A text that is loaded gives the
loaded configuration: the fields that stand in it have the values that stand there, in whatever
order they come and whatever stands among them under other names, and every other field has its
default.  Saved and loaded again, it is the same. -/
theorem load_faithful (path : String) (c : Config) :
    (c.validate = .ok () ↔ c.frameLimit ≠ 0 ∧ c.lockPoll ≠ 0) ∧
    (c.validate = .ok () → load path (some c.save) = .ok c) ∧
    (∀ error, c.validate = .error error → load path (some c.save) = .error error) ∧
    ∀ text,
      (load path (some text) = .ok c ↔
        c.validate = .ok () ∧ ∃ source given, Source.ofText? text = some source ∧
          Gives source given ∧ Sets given default c) ∧
      (load path (some text) = .ok c → load path (some c.save) = .ok c) := by
  have saved := c.ofText?_save
  refine ⟨validate_eq_ok_iff, fun valid => load_eq_ok_iff.mpr ⟨saved, valid⟩,
    fun error refused => ?_, fun text => ⟨?_, fun loaded => ?_⟩⟩
  · rw [load_of_ofText? path saved, refused]
    rfl
  · rw [load_eq_ok_iff, and_comm, ofText?, Option.bind_eq_some_iff]
    refine and_congr_right fun _ => exists_congr fun source => ?_
    rw [ofSource?_eq_some_iff, ← exists_and_left]
  · exact load_eq_ok_iff.mpr ⟨saved, (load_eq_ok_iff.mp loaded).2⟩

/-- Two fields in another order, and between them an entry that would be no value by itself. -/
example :
    load "agent.json" (some "\x7b\"debug\": true, \"x\": [1e999], \"lock_poll_ms\": 7\x7d") =
      .ok { default with lockPoll := 7, debug := true } := by
  decide +kernel

end RemoteAgent.Config
