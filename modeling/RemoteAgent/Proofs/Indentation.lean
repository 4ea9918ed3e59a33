import RemoteAgent.Proofs.RoundTrip

/-!
# Indented text read back

Indented text is the text of a value with blanks in it: a new line with two blanks for each level in
front of every item, every entry and the end of what is not empty, and one blank behind every colon.
Blanks are no tokens, in front of a text (`Token.Reads.behind`) and behind it
(`Token.Reads.ahead`), where they end a numeral as a mark does.  So an indented text is spelled
together in the same way as one without blanks.

## Main definitions

* `Token.Blanks`: characters that may stand between tokens.

## Main results

* `Json.exists_ofText?_renderIndented`: an object is read as the tree of its entries.
* `Json.parse_renderIndented`: indenting and parsing give the value back.
-/

namespace RemoteAgent.Json

namespace Token

/-- Some characters that may stand between tokens. -/
def Blanks (chars : List Char) : Prop := ∀ c ∈ chars, isBlank c = true

variable {blanks text rest : List Char} {tokens : List Token}

theorem Lexes.behind (between : Blanks blanks) (lexes : Lexes rest tokens) :
    Lexes (blanks ++ rest) tokens := by
  induction blanks with
  | nil => exact lexes
  | cons c blanks ih =>
    obtain ⟨blank, between⟩ := List.forall_mem_cons.mp between
    exact .blank blank (ih between)

/-- No blank belongs to a numeral. -/
theorem EndsNumeral.behind (between : Blanks blanks) (ends : EndsNumeral rest) :
    EndsNumeral (blanks ++ rest) := by
  cases blanks with
  | nil => exact ends
  | cons c blanks =>
    have blank := between c List.mem_cons_self
    simp only [isBlank, Bool.or_eq_true, beq_iff_eq] at blank
    rcases blank with ((rfl | rfl) | rfl) | rfl <;> exact ⟨rfl, by decide, by decide, by decide⟩

/-- Behind some blanks a text is read as it is without. -/
theorem Reads.behind (between : Blanks blanks) (reads : Reads text tokens) :
    Reads (blanks ++ text) tokens := by
  intro rest others ends lexes
  rw [List.append_assoc]
  exact (reads ends lexes).behind between

/-- So it is ahead of some blanks. -/
theorem Reads.ahead (between : Blanks blanks) (reads : Reads text tokens) :
    Reads (text ++ blanks) tokens := by
  intro rest others ends lexes
  rw [List.append_assoc]
  exact reads (EndsNumeral.behind between ends) (lexes.behind between)

theorem blanks_newLine (depth : Nat) : Blanks (newLine depth).toList := by
  intro c mem
  simp only [newLine, String.toList_append, String.toList_ofList, List.mem_append,
    List.mem_replicate] at mem
  rcases mem with feed | ⟨-, rfl⟩
  · rw [List.mem_singleton.mp feed]
    rfl
  · rfl

end Token

section Spells

variable {limit : Nat} {blanks text : List Char} {value : Json} {items : List Json}
  {fields : List (String × Json)}

theorem Spells.behind (between : Token.Blanks blanks) (spells : Spells limit text value) :
    Spells limit (blanks ++ text) value := by
  obtain ⟨tokens, source, reads, rest⟩ := spells
  exact ⟨tokens, source, reads.behind between, rest⟩

theorem SpellsItems.ahead (between : Token.Blanks blanks) (spells : SpellsItems limit text items) :
    SpellsItems limit (text ++ blanks) items := by
  obtain ⟨tokens, sources, reads, rest⟩ := spells
  exact ⟨tokens, sources, reads.ahead between, rest⟩

theorem SpellsFields.behind (between : Token.Blanks blanks)
    (spells : SpellsFields limit text fields) : SpellsFields limit (blanks ++ text) fields := by
  obtain ⟨tokens, sources, reads, rest⟩ := spells
  exact ⟨tokens, sources, reads.behind between, rest⟩

theorem SpellsFields.ahead (between : Token.Blanks blanks)
    (spells : SpellsFields limit text fields) : SpellsFields limit (text ++ blanks) fields := by
  obtain ⟨tokens, sources, reads, rest⟩ := spells
  exact ⟨tokens, sources, reads.ahead between, rest⟩

/-- Items that can be spelled can be spelled on a line each. -/
theorem spells_nestedItems (depth : Nat) {item : Json} {rest : List Json}
    (each : ∀ value ∈ item :: rest, Spells limit (renderNested depth value).toList value) :
    SpellsItems limit (nestedItems depth (item :: rest)).toList (item :: rest) := by
  induction rest generalizing item with
  | nil =>
    have first := (each item List.mem_cons_self).behind (Token.blanks_newLine depth)
    simpa [nestedItems] using first.item
  | cons next rest ih =>
    have first := (each item List.mem_cons_self).behind (Token.blanks_newLine depth)
    have later := ih fun value mem => each value (List.mem_cons_of_mem _ mem)
    rw [nestedItems]
    · simpa using SpellsItems.cons first later
    · simp

/-- So can entries, with a blank behind each colon. -/
theorem spells_nestedFields (depth : Nat) {entry : String × Json} {rest : List (String × Json)}
    (each : ∀ field ∈ entry :: rest, Spells limit (renderNested depth field.2).toList field.2) :
    SpellsFields limit (nestedFields depth (entry :: rest)).toList (entry :: rest) := by
  have blank : Token.Blanks [' '] := by simp [Token.Blanks, Token.isBlank]
  induction rest generalizing entry with
  | nil =>
    have value := (each entry List.mem_cons_self).behind blank
    have line := (value.field entry.1).behind (Token.blanks_newLine depth)
    simpa [nestedFields] using line
  | cons next rest ih =>
    have value := (each entry List.mem_cons_self).behind blank
    have later := ih fun field mem => each field (List.mem_cons_of_mem _ mem)
    have lines := (SpellsFields.cons entry.1 value later).behind (Token.blanks_newLine depth)
    rw [nestedFields]
    · simpa using lines
    · simp

theorem spells_nestedArray (depth : Nat)
    (each : ∀ item ∈ items, Spells limit (renderNested (depth + 1) item).toList item) :
    Spells (limit + 1) (renderNested depth (.array items)).toList (.array items) := by
  cases items with
  | nil => simpa [renderNested] using spells_nil_array
  | cons item rest =>
    have lines := (spells_nestedItems (depth + 1) each).ahead (Token.blanks_newLine depth)
    rw [renderNested]
    · simpa using lines.array
    · simp

theorem spells_nestedObject (depth : Nat) (sorted : Fields.Sorted fields)
    (each : ∀ entry ∈ fields, Spells limit (renderNested (depth + 1) entry.2).toList entry.2) :
    Spells (limit + 1) (renderNested depth (.object fields)).toList (.object fields) := by
  cases fields with
  | nil => simpa [renderNested] using spells_nil_object
  | cons entry rest =>
    have lines := (spells_nestedFields (depth + 1) each).ahead (Token.blanks_newLine depth)
    rw [renderNested]
    · simpa using lines.object sorted
    · simp

end Spells

/-- A value without parts stands on its line as it would without blanks. -/
theorem writesSpellings_renderNested : WritesSpellings renderNested where
  null _ depth := by
    rw [renderNested]
    exact spells_null
  bool _ depth flag := by
    have same : renderNested depth (.bool flag) = render (.bool flag) := by
      cases flag <;> simp [renderNested, render]
    rw [same]
    exact spells_bool flag
  int _ depth _ inRange := by
    rw [renderNested]
    exact spells_int inRange
  string _ depth text := by
    rw [renderNested]
    exact spells_string text
  array _ depth _ each := spells_nestedArray depth each
  object _ depth _ sorted each := spells_nestedObject depth sorted each

/-- An object on indented lines is read as the tree of its entries, in whatever order its keys
are. -/
theorem exists_ofText?_renderIndented {limit : Nat} {fields : List (String × Json)}
    (each : ∀ entry ∈ fields, Spells limit (renderNested 1 entry.2).toList entry.2) :
    ∃ entries, Source.ofText? (renderIndented (.object fields)) = some (.object entries) ∧
      resolveFields limit entries = some fields := by
  cases fields with
  | nil => exact ⟨[], rfl, rfl⟩
  | cons entry rest =>
    obtain ⟨tokens, entries, reads, completes, resolved⟩ :=
      (spells_nestedFields 1 each).ahead (Token.blanks_newLine 0)
    have whole := ((reads.join .closeObject .nil).cons .openObject).lexes
    have shape : (renderIndented (.object (entry :: rest))).toList =
        '{' :: ((nestedFields 1 (entry :: rest)).toList ++ (newLine 0).toList ++ ['}']) := by
      rw [renderIndented, renderNested]
      · simp
      · simp
    rw [← shape] at whole
    refine ⟨entries, ?_, resolved⟩
    rw [Source.ofText?, whole.scan, Option.bind_some, completes.object.ofTokens?]

/-- **Indenting and parsing give the value back**, whatever its strings and keys are. -/
theorem parse_renderIndented {value : Json} (integral : value.IsIntegral)
    (low : value.nesting ≤ nestingLimit) : parse value.renderIndented = some value :=
  (integral.spells writesSpellings_renderNested low 0).parseWithin

end RemoteAgent.Json
