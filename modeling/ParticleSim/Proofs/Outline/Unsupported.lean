import ParticleSim.Proofs.Outline.AcceptedLines
import ParticleSim.Proofs.Outline.OneLine
import ParticleSim.Proofs.Outline.PlainForms
/-!
Values that start like an anchor, an alias, a tag, a block scalar or a directive. On the line of a
key or dash, and as a line of its own, such a value makes the document unreadable. The reader of
flow collections does not look for it and takes it for plain text.
-/
namespace ParticleSim.Outline

def unsupported : List Char :=
  ['&', '*', '!', '|', '>', '%', '@', '\x60']

def refusal (c : Char) : Surprise :=
  if c = '|' || c = '>' then .blockScalar
  else if c = '&' || c = '*' || c = '!' then .anchor
  else .reserved c

/-- The line holds the value: behind the dashes in front of it, as a whole or behind a key. -/
inductive Line.Holds : Line → List Char → Prop where
  | whole {line : Line} (noItem : isItem line.text = false) (noEntry : line.entry? = .ok none) :
    line.Holds line.text
  | entry {line : Line} {entry : Entry} (noItem : isItem line.text = false)
    (written : line.entry? = .ok (some entry)) : line.Holds entry.value
  | item {line : Line} {value : List Char} (item : isItem line.text = true)
    (inside : line.afterDash.Holds value) : line.Holds value

theorem Line.Holds.read {line : Line} {value : List Char} (holds : line.Holds value)
    (accepted : line.Accepted) : ReadsValue line.number value := by
  induction holds with
  | whole noItem noEntry =>
    cases accepted with
    | item item _ => simp [noItem] at item
    | entry _ written _ => simp [noEntry] at written
    | value _ _ read => exact read
  | entry noItem written =>
    cases accepted with
    | item item _ => simp [noItem] at item
    | value _ noEntry _ => simp [noEntry] at written
    | entry _ written' read =>
      cases written.symm.trans written'
      exact read
  | @item line value item inside ih =>
    cases accepted with
    | entry noItem _ _ => simp [noItem] at item
    | value noItem _ _ => simp [noItem] at item
    | item _ accepted =>
      by_cases filled : line.afterDash.text = []
      · -- a dash alone holds nothing
        cases inside with
        | whole _ _ => exact .inl filled
        | entry _ written => simp [Line.entry?, filled, splitKey] at written
        | item item _ => simp [filled, isItem] at item
      · exact ih (accepted filled)

section Readers

variable {c : Char} (mark : c ∈ unsupported)
include mark

theorem unsupported_cases : c = '&' ∨ c = '*' ∨ c = '!' ∨ c = '|' ∨ c = '>' ∨ c = '%' ∨ c = '@' ∨
    c = '\x60' := by
  simpa [unsupported] using mark

theorem readInline_unsupported (line column budget : Nat) (rest : List Char) :
    readInline line column budget (c :: rest) = .error ⟨line, column, .unexpected (refusal c)⟩ := by
  rcases unsupported_cases mark with rfl | rfl | rfl | rfl | rfl | rfl | rfl | rfl <;> rfl

theorem not_readsValue_unsupported (number : Nat) (rest : List Char) :
    ¬ReadsValue number (c :: rest) := by
  rintro (none | ⟨column, budget, node, read⟩)
  · cases none
  · rw [readInline_unsupported mark] at read
    cases read

theorem Plain.resolve_unsupported (rest : List Char) :
    resolve (c :: rest) = .string (String.ofList (c :: rest)) := by
  have otherwise : ∀ entry ∈ words, entry.1.toList.head?.all (· ∉ unsupported) = true := by
    decide +kernel
  have unlisted : ∀ value, (String.ofList (c :: rest), value) ∉ words := by
    intro value listed
    have other := otherwise _ listed
    simp [mark] at other
  rw [resolve_unlisted unlisted, number_eq]
  rcases unsupported_cases mark with rfl | rfl | rfl | rfl | rfl | rfl | rfl | rfl <;> rfl

theorem Flow.readPlain_unsupported (rest : List Char) :
    ∃ more, (readPlain false (c :: rest)).1 = c :: more := by
  have goes : (!(isBreak c || (false && c == ':'))) = true := by
    rcases unsupported_cases mark with rfl | rfl | rfl | rfl | rfl | rfl | rfl | rfl <;> rfl
  have other : c ≠ ' ' := ne_of_mem_of_not_mem mark (by decide)
  rw [readPlain]
  dsimp only
  rw [List.takeWhile_cons, if_pos goes]
  obtain ⟨more, -, -, kept⟩ := exists_trimEnd_append other [] _
  exact ⟨more, kept⟩

theorem Flow.readValue_unsupported (span : Span) (budget : Nat) (rest : List Char) :
    readValue span budget (c :: rest) =
      .ok (.ofString (String.ofList (readPlain false (c :: rest)).1),
        (readPlain false (c :: rest)).2) := by
  obtain ⟨more, plain⟩ := Flow.readPlain_unsupported mark rest
  have string := Plain.resolve_unsupported mark more
  rw [← plain] at string
  have scalar : readValue span budget (c :: rest) =
      .ok (.scalar (Plain.resolve (readPlain false (c :: rest)).1),
        (readPlain false (c :: rest)).2) := by
    rw [readValue.eq_def]
    rcases unsupported_cases mark with rfl | rfl | rfl | rfl | rfl | rfl | rfl | rfl <;> rfl
  rw [scalar, string]
  rfl

end Readers

/-- A value with an unsupported start on a line of its own, behind a dash or behind a key makes the
document unreadable. In a flow collection its text is read as a string. -/
theorem unsupported_value {c : Char} (mark : c ∈ unsupported) (rest : List Char) :
    (∀ (text : String) (i : Nat) (source : List Char) (line : Line),
      (sourceLines text)[i]? = some source → Line.ofSource? (i + 1) source = .ok (some line) →
        line.Holds (c :: rest) → ∃ e, parse text = .error e) ∧
    ∀ (span : Flow.Span) (budget : Nat), Flow.readValue span budget (c :: rest) =
      .ok (.ofString (String.ofList (Flow.readPlain false (c :: rest)).1),
        (Flow.readPlain false (c :: rest)).2) := by
  refine ⟨fun text i source line at_ content holds => ?_, fun span budget =>
    Flow.readValue_unsupported mark span budget rest⟩
  cases read : parse text with
  | error e => exact ⟨e, rfl⟩
  | ok tree =>
    have accepted := accepted_of_parse read at_ content
    exact absurd (holds.read accepted) (not_readsValue_unsupported mark line.number rest)

def anchored : String := "a:\n- - k: &x\n"

theorem unsupported_value_anchored : '&' ∈ unsupported ∧ (∃ e, parse anchored = .error e) ∧
    Flow.readValue ⟨1, 5⟩ 0 ['&', 'x', ']'] = .ok (.ofString "&x", [']']) := by
  have mark : '&' ∈ unsupported := by decide
  have line : (sourceLines anchored)[1]? = some ['-', ' ', '-', ' ', 'k', ':', ' ', '&', 'x'] := by
    decide +kernel
  have content : Line.ofSource? 2 ['-', ' ', '-', ' ', 'k', ':', ' ', '&', 'x'] =
      .ok (some ⟨2, 0, ['-', ' ', '-', ' ', 'k', ':', ' ', '&', 'x']⟩) := by decide
  have written : Line.entry? ⟨2, 4, ['k', ':', ' ', '&', 'x']⟩ =
      .ok (some ⟨"k", ['&', 'x'], 8⟩) := rfl
  have holds : (Line.mk 2 0 ['-', ' ', '-', ' ', 'k', ':', ' ', '&', 'x']).Holds ['&', 'x'] :=
    .item rfl (.item rfl (.entry rfl written))
  exact ⟨mark, (unsupported_value mark ['x']).1 _ _ _ _ line content holds,
    (unsupported_value mark ['x', ']']).2 ⟨1, 5⟩ 0⟩

/-- In a flow sequence an anchor is read as a string, and in front of a colon as a key. -/
theorem parse_flow_anchor : parse "[&a]" = .ok (.sequence [.ofString "&a"]) ∧
    parse "&a: b" = .ok (.mapping [("&a", .ofString "b")]) := by
  have item : Flow.readValue ⟨1, 5⟩ 127 ['&', 'a', ']'] = .ok (.ofString "&a", [']']) :=
    Flow.readValue_unsupported (by decide) ⟨1, 5⟩ 127 ['a', ']']
  have items : Flow.readValue ⟨1, 5⟩ maxDepth ['[', '&', 'a', ']'] =
      .ok (.sequence [.ofString "&a"], []) := by
    rw [maxDepth, Flow.readValue_sequence, Flow.readItems, skipSpaces_cons (by decide)]
    simp [item, bind, Except.bind, skipSpaces, isSpace, pure, Except.pure, Except.map]
  constructor
  · have one : OneLine ['[', '&', 'a', ']'] :=
      ⟨by decide, ⟨'[', _, rfl, by decide, by decide⟩, by simp⟩
    have whole : Outside ['[', '&', 'a', ']'] [] := (outside_nil_iff _ 1 1).mpr (by decide)
    have same : "[&a]" = String.ofList ['[', '&', 'a', ']'] := by decide
    rw [same, one.parse_whole whole (by decide), readDocument_value rfl rfl, readInline]
    simp [items, bind, Except.bind, skipSpaces, pure, Except.pure]
  · have one : OneLine ['&', 'a', ':', ' ', 'b'] :=
      ⟨by decide, ⟨'&', _, rfl, by decide, by decide⟩, by simp⟩
    have whole : Outside ['&', 'a', ':', ' ', 'b'] [] := (outside_nil_iff _ 1 1).mpr (by decide)
    have written : Line.entry? ⟨1, 0, ['&', 'a', ':', ' ', 'b']⟩ =
        .ok (some ⟨"&a", ['b'], 5⟩) := rfl
    have same : "&a: b" = String.ofList ['&', 'a', ':', ' ', 'b'] := by decide
    rw [same]
    exact one.parse_entry whole rfl written (by simp) rfl

end ParticleSim.Outline
