import RemoteAgent.Codec
import RemoteAgent.Proofs.Lexing
import RemoteAgent.Proofs.Packet
import RemoteAgent.Proofs.Truncation

/-!
# An envelope on the wire and back

An envelope is printed, cut into frames, put together again and parsed.  Cutting does not look at
what it cuts: a border may fall inside an escape or between the digits of a number.  That is no
trouble, since what comes out at the other end is the whole text again
(`Framer.receiveAll_of_isTail`), and only the text is parsed.

A printed value is parsed in three layers.  Its text is read as tokens, wherever it stands
(`Token.Reads`); the tokens complete one tree, whatever array or object they stand in
(`Source.Completes`); and the tree has the value, if it is not nested too deep.  A text that passes
all three *spells* the value (`Json.Spells`), and one lemma for each kind of value says that what is
put together from spellings is one.  There is more than one way of writing values, and what these
have in common is that each kind of value is put together so (`Json.WritesSpellings`); the induction
over the value is the same for all of them (`Json.IsIntegral.spells`).

## Main definitions

* `Json.IsIntegral`: a value whose numbers are integers of 64 bits.
* `Json.Spells`: a text that is read as a value.
* `Json.WritesSpellings`: a way of writing values whose texts spell them.

## Main results

* `Json.parse_render`: printing and parsing give the value back.
* `Codec.round_trip`: so do printing, cutting, putting together and parsing.
-/

namespace RemoteAgent

namespace Json

/-! ## Trees -/

namespace Source

/-- A value may come next. -/
inductive Expecting.TakesValue : Expecting → Prop
  | value : TakesValue .value
  | firstItem : TakesValue .firstItem

/-- A key may come next, in an object that holds some entries already. -/
inductive Expecting.TakesKey : Expecting → List (Option String × Source) → Prop
  | key (held : List (Option String × Source)) : TakesKey (.key held) held
  | firstKey : TakesKey .firstKey []

/-- The tokens are a tree, wherever a value may stand. -/
def Completes (tokens : List Token) (source : Source) : Prop :=
  ∀ unclosed {expecting : Expecting}, expecting.TakesValue →
    tokens.foldlM shift (.inside unclosed expecting) = some (place source unclosed)

/-- The tokens are some items of an array. -/
def CompletesItems (tokens : List Token) (sources : List Source) : Prop :=
  ∀ held unclosed {expecting : Expecting}, expecting.TakesValue →
    tokens.foldlM shift (.inside (.array held :: unclosed) expecting) =
      some (.inside (.array (sources.reverse ++ held) :: unclosed) .separator)

/-- The tokens are some entries of an object. -/
def CompletesFields (tokens : List Token) (fields : List (Option String × Source)) : Prop :=
  ∀ {held} unclosed {expecting : Expecting}, expecting.TakesKey held →
    ∃ key, tokens.foldlM shift (.inside unclosed expecting) =
      some (.inside (.object (fields.reverse ++ held) key :: unclosed) .separator)

variable {token : Token} {tokens others : List Token} {source : Source} {sources : List Source}
  {fields : List (Option String × Source)} {key : Option String}

/-- Only the end of an array without items is no start of a value. -/
theorem shift_of_takesValue {expecting : Expecting} (takes : expecting.TakesValue)
    (noEnd : token ≠ .closeArray) (unclosed : List Unclosed) :
    shift (.inside unclosed expecting) token = shiftValue unclosed token := by
  cases takes with
  | value => rfl
  | firstItem =>
    unfold shift
    dsimp only
    split
    · exact absurd rfl noEnd
    · rfl

/-- A token that is a value by itself. -/
theorem completes_token (noEnd : token ≠ .closeArray)
    (whole : ∀ unclosed, shiftValue unclosed token = some (place source unclosed)) :
    Completes [token] source := by
  intro unclosed expecting takes
  rw [List.foldlM_cons, shift_of_takesValue takes noEnd, whole]
  rfl

theorem Completes.ofTokens? (completes : Completes tokens source) :
    ofTokens? tokens = some source := by
  rw [Source.ofTokens?, completes [] .value]
  rfl

theorem Completes.item (completes : Completes tokens source) :
    CompletesItems tokens [source] := by
  intro held unclosed expecting takes
  exact completes (.array held :: unclosed) takes

theorem CompletesItems.cons (first : Completes tokens source)
    (rest : CompletesItems others sources) :
    CompletesItems (tokens ++ .comma :: others) (source :: sources) := by
  intro held unclosed expecting takes
  have after := rest (source :: held) unclosed .value
  rw [List.foldlM_append, first (.array held :: unclosed) takes]
  rw [List.reverse_cons, List.append_assoc, List.singleton_append, ← after]
  rfl

theorem completes_nil_array : Completes [.openArray, .closeArray] (.array []) := by
  intro unclosed expecting takes
  rw [List.foldlM_cons, shift_of_takesValue takes (by decide)]
  rfl

theorem CompletesItems.array (items : CompletesItems tokens sources) :
    Completes (.openArray :: (tokens ++ [.closeArray])) (.array sources) := by
  intro unclosed expecting takes
  rw [List.foldlM_cons, shift_of_takesValue takes (by decide)]
  show (tokens ++ [Token.closeArray]).foldlM shift (.inside (.array [] :: unclosed) .firstItem) = _
  rw [List.foldlM_append, items [] unclosed .firstItem]
  show some (place (.array (sources.reverse ++ []).reverse) unclosed) = _
  rw [List.append_nil, List.reverse_reverse]

/-- A key and a value, up to where a comma or the end may follow. -/
theorem Completes.entry (completes : Completes tokens source) {expecting : Expecting}
    {held : List (Option String × Source)} (takes : expecting.TakesKey held)
    (unclosed : List Unclosed) (key : Option String) :
    (Token.string key :: .colon :: tokens).foldlM shift (.inside unclosed expecting) =
      some (.inside (.object ((key, source) :: held) key :: unclosed) .separator) := by
  have value := completes (.object held key :: unclosed) .value
  cases takes <;> exact value

theorem Completes.field (completes : Completes tokens source) (key : Option String) :
    CompletesFields (.string key :: .colon :: tokens) [(key, source)] := by
  intro held unclosed expecting takes
  exact ⟨key, completes.entry takes unclosed key⟩

theorem CompletesFields.cons (first : Completes tokens source)
    (rest : CompletesFields others fields) :
    CompletesFields (.string key :: .colon :: (tokens ++ .comma :: others))
      ((key, source) :: fields) := by
  intro held unclosed expecting takes
  obtain ⟨last, after⟩ := rest unclosed (.key ((key, source) :: held))
  refine ⟨last, ?_⟩
  rw [List.reverse_cons, List.append_assoc, List.singleton_append, ← after]
  rw [← List.cons_append, ← List.cons_append, List.foldlM_append,
    first.entry takes unclosed key]
  rfl

theorem completes_nil_object : Completes [.openObject, .closeObject] (.object []) := by
  intro unclosed expecting takes
  rw [List.foldlM_cons, shift_of_takesValue takes (by decide)]
  rfl

theorem CompletesFields.object (entries : CompletesFields tokens fields) :
    Completes (.openObject :: (tokens ++ [.closeObject])) (.object fields) := by
  intro unclosed expecting takes
  obtain ⟨last, inner⟩ := entries unclosed .firstKey
  rw [List.foldlM_cons, shift_of_takesValue takes (by decide)]
  show (tokens ++ [Token.closeObject]).foldlM shift (.inside unclosed .firstKey) = _
  rw [List.foldlM_append, inner]
  show some (place (.object (fields.reverse ++ []).reverse) unclosed) = _
  rw [List.append_nil, List.reverse_reverse]

end Source

/-! ## Spellings -/

/-- A text spells a value: it is read as the tokens of a tree that has this value. -/
def Spells (limit : Nat) (text : List Char) (value : Json) : Prop :=
  ∃ tokens source, Token.Reads text tokens ∧ Source.Completes tokens source ∧
    resolve limit source = some value

/-- A text spells some items of an array. -/
def SpellsItems (limit : Nat) (text : List Char) (items : List Json) : Prop :=
  ∃ tokens sources, Token.Reads text tokens ∧ Source.CompletesItems tokens sources ∧
    resolveItems limit sources = some items

/-- A text spells some entries of an object. -/
def SpellsFields (limit : Nat) (text : List Char) (fields : List (String × Json)) : Prop :=
  ∃ tokens sources, Token.Reads text tokens ∧ Source.CompletesFields tokens sources ∧
    resolveFields limit sources = some fields

section Spells

variable {limit : Nat}

theorem Spells.parseWithin {text : String} {value : Json}
    (spells : Spells limit text.toList value) : parseWithin limit text = some value := by
  obtain ⟨tokens, source, reads, completes, resolved⟩ := spells
  rw [Json.parseWithin, Source.ofText?, reads.lexes.scan, Option.bind_some,
    completes.ofTokens?, Option.bind_some, resolved]

theorem spells_null : Spells limit (render .null).toList .null :=
  ⟨_, .null, Token.reads_null, Source.completes_token (by decide) fun _ => rfl, rfl⟩

theorem spells_bool (flag : Bool) : Spells limit (render (.bool flag)).toList (.bool flag) := by
  have reads : Token.Reads (render (.bool flag)).toList [.bool flag] := by
    cases flag
    · exact Token.reads_bool false
    · exact Token.reads_bool true
  exact ⟨_, .bool flag, reads, Source.completes_token (by simp) fun _ => rfl, rfl⟩

theorem spells_int {n : Int} (inRange : Number.InRange (.int n)) :
    Spells limit (render (.number (.int n))).toList (.number (.int n)) := by
  refine ⟨_, .number (.ofInt n), Token.reads_int n,
    Source.completes_token (by simp) fun _ => rfl, ?_⟩
  rw [resolve, Numeral.toNumber?_ofInt inRange, Option.map_some]

theorem spells_string (text : String) :
    Spells limit (render (.string text)).toList (.string text) :=
  ⟨_, .string (some text), Token.reads_quote text,
    Source.completes_token (by simp) fun _ => rfl, rfl⟩

variable {text others : List Char} {value : Json} {items : List Json}
  {fields : List (String × Json)}

theorem Spells.item (spells : Spells limit text value) : SpellsItems limit text [value] := by
  obtain ⟨tokens, source, reads, completes, resolved⟩ := spells
  exact ⟨tokens, [source], reads, completes.item, by simp [resolveItems, resolved]⟩

/-- An item and the others, with a comma between them. -/
theorem SpellsItems.cons (first : Spells limit text value) (rest : SpellsItems limit others items) :
    SpellsItems limit (text ++ ',' :: others) (value :: items) := by
  obtain ⟨tokens, source, reads, completes, resolved⟩ := first
  obtain ⟨more, sources, readsRest, completesRest, resolvedRest⟩ := rest
  exact ⟨_, source :: sources, reads.join .comma readsRest, .cons completes completesRest,
    by simp [resolveItems, resolved, resolvedRest]⟩

theorem spells_nil_array : Spells (limit + 1) ['[', ']'] (.array []) :=
  ⟨_, .array [], .cons .openArray (.cons .closeArray .nil), Source.completes_nil_array, rfl⟩

theorem SpellsItems.array (spells : SpellsItems limit text items) :
    Spells (limit + 1) ('[' :: (text ++ [']'])) (.array items) := by
  obtain ⟨tokens, sources, reads, completes, resolved⟩ := spells
  exact ⟨_, .array sources, (reads.join .closeArray .nil).cons .openArray, completes.array,
    by rw [resolve, resolved, Option.map_some]⟩

theorem Spells.field (key : String) (spells : Spells limit text value) :
    SpellsFields limit ((quote key).toList ++ ':' :: text) [(key, value)] := by
  obtain ⟨tokens, source, reads, completes, resolved⟩ := spells
  exact ⟨_, [(some key, source)], (Token.reads_quote key).join .colon reads,
    completes.field (some key), by simp [resolveFields, resolved]⟩

/-- An entry and the others, with a colon behind its key and a comma behind its value. -/
theorem SpellsFields.cons (key : String) (first : Spells limit text value)
    (rest : SpellsFields limit others fields) :
    SpellsFields limit ((quote key).toList ++ ':' :: (text ++ ',' :: others))
      ((key, value) :: fields) := by
  obtain ⟨tokens, source, reads, completes, resolved⟩ := first
  obtain ⟨more, sources, readsRest, completesRest, resolvedRest⟩ := rest
  exact ⟨_, (some key, source) :: sources,
    (Token.reads_quote key).join .colon (reads.join .comma readsRest),
    Source.CompletesFields.cons completes completesRest,
    by simp [resolveFields, resolved, resolvedRest]⟩

theorem spells_nil_object : Spells (limit + 1) ['{', '}'] (.object []) :=
  ⟨_, .object [], .cons .openObject (.cons .closeObject .nil), Source.completes_nil_object, rfl⟩

theorem SpellsFields.object (spells : SpellsFields limit text fields)
    (sorted : Fields.Sorted fields) :
    Spells (limit + 1) ('{' :: (text ++ ['}'])) (.object fields) := by
  obtain ⟨tokens, sources, reads, completes, resolved⟩ := spells
  exact ⟨_, .object sources, (reads.join .closeObject .nil).cons .openObject, completes.object,
    by rw [resolve, resolved, Option.map_some, Fields.ofList_of_sorted sorted]⟩

/-- Items that can be spelled can be spelled with commas between them. -/
theorem spellsItems {item : Json} {rest : List Json}
    (each : ∀ value ∈ item :: rest, Spells limit (render value).toList value) :
    SpellsItems limit (renderItems (item :: rest)).toList (item :: rest) := by
  induction rest generalizing item with
  | nil => exact (each item List.mem_cons_self).item
  | cons next rest ih =>
    have later := ih fun value mem => each value (List.mem_cons_of_mem _ mem)
    rw [renderItems]
    · simpa using SpellsItems.cons (each item List.mem_cons_self) later
    · simp

/-- So can entries, with a colon behind each key. -/
theorem spellsFields {entry : String × Json} {rest : List (String × Json)}
    (each : ∀ field ∈ entry :: rest, Spells limit (render field.2).toList field.2) :
    SpellsFields limit (renderFields (entry :: rest)).toList (entry :: rest) := by
  induction rest generalizing entry with
  | nil => simpa [renderFields] using (each entry List.mem_cons_self).field entry.1
  | cons next rest ih =>
    have later := ih fun field mem => each field (List.mem_cons_of_mem _ mem)
    rw [renderFields]
    · simpa using SpellsFields.cons entry.1 (each entry List.mem_cons_self) later
    · simp

theorem spells_array (each : ∀ item ∈ items, Spells limit (render item).toList item) :
    Spells (limit + 1) (render (.array items)).toList (.array items) := by
  cases items with
  | nil => exact spells_nil_array
  | cons item rest => simpa [render] using (spellsItems each).array

theorem spells_object (sorted : Fields.Sorted fields)
    (each : ∀ entry ∈ fields, Spells limit (render entry.2).toList entry.2) :
    Spells (limit + 1) (render (.object fields)).toList (.object fields) := by
  cases fields with
  | nil => exact spells_nil_object
  | cons entry rest => simpa [render] using (spellsFields each).object sorted

end Spells

/-! ## Printing and parsing -/

/-- A value whose numbers are integers of 64 bits, with a sign or without.  Its strings and keys are
any texts, and the keys of an object ascend. -/
inductive IsIntegral : Json → Prop
  | null : IsIntegral .null
  | bool (flag : Bool) : IsIntegral (.bool flag)
  | int {n : Int} (inRange : Number.InRange (.int n)) : IsIntegral (.number (.int n))
  | string (text : String) : IsIntegral (.string text)
  | array {items : List Json} (each : ∀ item ∈ items, IsIntegral item) :
      IsIntegral (.array items)
  | object {fields : List (String × Json)} (sorted : Fields.Sorted fields)
      (each : ∀ entry ∈ fields, IsIntegral entry.2) : IsIntegral (.object fields)

/-- A way of writing values, each at its depth of nesting, that writes spellings.  The text of a
value without parts is one, and so is the text of an array or object if the texts of its parts
are. -/
structure WritesSpellings (write : Nat → Json → String) : Prop where
  null : ∀ limit depth, Spells limit (write depth .null).toList .null
  bool : ∀ limit depth flag, Spells limit (write depth (.bool flag)).toList (.bool flag)
  int : ∀ limit depth n, Number.InRange (.int n) →
    Spells limit (write depth (.number (.int n))).toList (.number (.int n))
  string : ∀ limit depth text, Spells limit (write depth (.string text)).toList (.string text)
  array : ∀ limit depth items,
    (∀ item ∈ items, Spells limit (write (depth + 1) item).toList item) →
    Spells (limit + 1) (write depth (.array items)).toList (.array items)
  object : ∀ limit depth fields, Fields.Sorted fields →
    (∀ entry ∈ fields, Spells limit (write (depth + 1) entry.2).toList entry.2) →
    Spells (limit + 1) (write depth (.object fields)).toList (.object fields)

/-- What is written of a value in such a way spells it, up to the limit on its nesting. -/
theorem IsIntegral.spells {write : Nat → Json → String} (writes : WritesSpellings write)
    {value : Json} (integral : value.IsIntegral) {limit : Nat} (low : value.nesting ≤ limit)
    (depth : Nat) : Spells limit (write depth value).toList value := by
  induction integral generalizing limit depth with
  | null => exact writes.null limit depth
  | bool flag => exact writes.bool limit depth flag
  | int inRange => exact writes.int limit depth _ inRange
  | string text => exact writes.string limit depth text
  | array each ih =>
    obtain ⟨below, rfl⟩ : ∃ below, limit = below + 1 := Nat.exists_eq_add_one.mpr (by
      rw [nesting] at low
      omega)
    have levels := nestingItems_le_iff.mp (Nat.le_of_succ_le_succ low)
    exact writes.array below depth _ fun item mem => ih item mem (levels item mem) (depth + 1)
  | object sorted each ih =>
    obtain ⟨below, rfl⟩ : ∃ below, limit = below + 1 := Nat.exists_eq_add_one.mpr (by
      rw [nesting] at low
      omega)
    have levels := nestingFields_le_iff.mp (Nat.le_of_succ_le_succ low)
    exact writes.object below depth _ sorted fun entry mem =>
      ih entry mem (levels entry mem) (depth + 1)

/-- Printing does not look at the depth. -/
theorem writesSpellings_render : WritesSpellings fun _ => render where
  null _ _ := spells_null
  bool _ _ flag := spells_bool flag
  int _ _ _ inRange := spells_int inRange
  string _ _ text := spells_string text
  array _ _ _ each := spells_array each
  object _ _ _ sorted each := spells_object sorted each

/-- **Printing and parsing give the value back**, whatever its strings and keys are. -/
theorem parse_render {value : Json} (integral : value.IsIntegral)
    (low : value.nesting ≤ nestingLimit) : parse value.render = some value :=
  (integral.spells writesSpellings_render low 0).parseWithin

end Json

/-! ## Cutting and putting together -/

/-- **An envelope comes back as it was**, whatever the frame limits of both sides are.  A receiver
that has nothing in its buffer keeps every frame but the last and takes a packet out of the last
one, which decodes to the envelope; after that it has nothing in its buffer again. -/
theorem Codec.round_trip (codec : Codec) (sender receiver : Framer) (fresh : receiver.buffer = "")
    {envelope : Json} (integral : envelope.IsIntegral)
    (low : envelope.nesting ≤ Json.nestingLimit) :
    ∃ packet,
      receiver.receiveAll ((sender.chunks (encode envelope)).map Frame.encode) =
        (List.replicate ((sender.chunks (encode envelope)).length - 1) (.ok .continued) ++
          [.ok (.packet packet)], receiver) ∧
      codec.decode packet = ⟨.ok envelope, []⟩ := by
  have isTail : Frame.IsTail (sender.chunks (encode envelope)) := Frame.isTail_chunks _ _
  have whole : Frame.text (sender.chunks (encode envelope)) = encode envelope :=
    Frame.text_chunks _ _
  have same : { receiver with buffer := "" } = receiver := by rw [← fresh]
  refine ⟨encode envelope, ?_, ?_⟩
  · rw [Framer.receiveAll_of_isTail isTail, whole, same, fresh, String.empty_append]
  · rw [decode, encode, Json.parse_render integral low]
    rfl

/-- Here the text is cut inside an escape and inside a number. -/
theorem Codec.round_trip_torn :
    let envelope := Json.array [.string "a\n", .object [("k", .number (.int (-1000)))]]
    let receiver := Framer.new 1 ⟨0⟩ ⟨0⟩ ⟨0⟩
    envelope.IsIntegral ∧ envelope.nesting ≤ Json.nestingLimit ∧
      ∃ packet,
        receiver.receiveAll ["C[\"a\\", "Cn\",\x7b", "C\"k\":", "C-100", "F0\x7d]"] =
          (List.replicate 4 (.ok .continued) ++ [.ok (.packet packet)], receiver) ∧
        (⟨true⟩ : Codec).decode packet = ⟨.ok envelope, []⟩ := by
  intro envelope receiver
  let sender := Framer.new 4 ⟨0⟩ ⟨0⟩ ⟨0⟩
  have number : Number.InRange (.int (-1000)) := by
    constructor <;> decide
  have fields : (Json.object [("k", .number (.int (-1000)))]).IsIntegral := by
    apply Json.IsIntegral.object
    · exact List.pairwise_singleton _ _
    · intro entry mem
      rw [List.mem_singleton.mp mem]
      exact .int number
  have integral : envelope.IsIntegral := by
    apply Json.IsIntegral.array
    intro item mem
    rcases List.mem_pair.mp mem with rfl | rfl
    · exact .string _
    · exact fields
  have low : envelope.nesting ≤ Json.nestingLimit := by decide
  have wire : (sender.chunks (encode envelope)).map Frame.encode =
      ["C[\"a\\", "Cn\",\x7b", "C\"k\":", "C-100", "F0\x7d]"] := by decide
  have count : (sender.chunks (encode envelope)).length = 5 := by decide
  have trip := Codec.round_trip ⟨true⟩ sender receiver rfl integral low
  rw [wire, count] at trip
  exact ⟨integral, low, trip⟩

end RemoteAgent
