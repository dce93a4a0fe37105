import ParticleSim.Proofs.Outline.OneLine
/-!
Plain text behind a key. The reader of values takes it as it stands, and so is it read unless the
search for comments, which knows nothing of values, takes a quote within it for an opening one.
-/
namespace ParticleSim.Outline

def valueMarks : List Char :=
  ['#', '[', '{', '"', '\'', '|', '>', '&', '*', '!', '%', '@', '\x60']

/-- A text that may stand behind a key without quotes. Nothing is said of quotes and commas behind
its first character. -/
structure PlainText (text : List Char) : Prop where
  first : ∃ c rest, text = c :: rest ∧ c ≠ ' ' ∧ c ∉ valueMarks
  last : ∀ c ∈ text.getLast?, c ≠ ' '
  noBreak : '\n' ∉ text
  noReturn : '\r' ∉ text
  noTab : '\t' ∉ text
  noColon : ¬[':', ' '] <:+: text
  noComment : ¬[' ', '#'] <:+: text

theorem hasPair_iff (a b : Char) (text : List Char) :
    hasPair a b text = true ↔ [a, b] <:+: text := by
  induction text with
  | nil => simp [hasPair]
  | cons c rest ih =>
    rw [List.infix_cons_iff, ← ih]
    cases rest with
    | nil => simp [hasPair]
    | cons d rest => simp [hasPair, List.cons_prefix_cons, @eq_comm _ c a, @eq_comm _ d b]

def keyFront (key : String) : List Char :=
  keyText key ++ [':', ' ']

/-- The search gets to a quote behind the first text and takes it for the start of a quoted scalar,
but the second text, which starts with that quote, never closes it. -/
structure Dangling (front rest : List Char) : Prop where
  reached : Outside front rest
  opens : OpensBehind front
  quote : ∃ c ∈ rest.head?, Quoted.isQuote c = true
  never : Quoted.length? rest = none

/-- A line that is kept whole has no such quote. -/
theorem Outside.not_dangling {front rest : List Char} (whole : Outside (front ++ rest) []) :
    ¬Dangling front rest := by
  intro dangling
  have kept := (outside_nil_iff _ 1 1).mp whole
  rw [dangling.reached.dangling dangling.opens dangling.quote dangling.never] at kept
  cases kept

theorem Outside.keyFront (key : String) (rest : List Char) :
    Outside (keyFront key) rest ∧ OpensBehind (Outline.keyFront key) :=
  (Outside.keyText key (':' :: ' ' :: rest)).colon

namespace PlainText

section Reading

variable {text : List Char} (plain : PlainText text) (key : String)
include plain

theorem oneLine : OneLine (keyFront key ++ text) := by
  obtain ⟨c, rest, same, first⟩ := (Token.key key).first
  obtain ⟨d, more, shape, -⟩ := plain.first
  have nonempty : text ≠ [] := by simp [shape]
  constructor
  · have visible : '\n' ∉ keyText key := fun member => nomatch (Token.key key).visible '\n' member
    simp [keyFront, visible, plain.noBreak]
  · exact ⟨c, rest ++ [':', ' '] ++ text, by simp [keyFront, same], first⟩
  · intro e final
    rw [List.getLast?_append_of_ne_nil _ nonempty] at final
    refine ⟨plain.last e final, ?_⟩
    rintro rfl
    exact plain.noReturn (List.mem_of_getLast? final)

theorem readInline_eq (line column budget : Nat) :
    readInline line column budget text = .ok (.scalar (Plain.resolve text)) := by
  have apart : colonSpace? text = none :=
    colonSpace?_none (Bool.eq_false_iff.mpr fun has => plain.noColon ((hasPair_iff ..).mp has))
  obtain ⟨c, rest, rfl, -, other⟩ := plain.first
  simp only [valueMarks, List.mem_cons, not_or] at other
  simp [readInline, Quoted.isQuote, other, apart]

theorem parse_whole (whole : Outside (keyFront key ++ text) []) :
    parse (String.ofList (keyFront key ++ text)) =
      .ok (.mapping [(key, .scalar (Plain.resolve text))]) := by
  obtain ⟨column, written⟩ := entry?_key 1 0 key (' ' :: text) rfl
  obtain ⟨c, rest, shape, noSpace, -⟩ := plain.first
  have value : skipSpaces (' ' :: text) = text := by
    rw [skipSpaces_space, shape, skipSpaces_cons noSpace]
  have line : keyFront key ++ text = keyText key ++ ':' :: ' ' :: text := by simp [keyFront]
  have one := plain.oneLine key
  rw [value] at written
  rw [line] at whole one ⊢
  apply one.parse_entry whole (isItem_keyText key _) written
  · simp [shape]
  · exact plain.readInline_eq 1 column 127

/-- The search stops at nothing else in the text: its tabs and comments are ruled out. -/
theorem whole_or_dangling : Outside (keyFront key ++ text) [] ∨
    ∃ front rest, text = front ++ rest ∧ Dangling (keyFront key ++ front) rest := by
  have reached := (Outside.keyFront key text).1
  rcases reached.end_or_stopped with whole | ⟨front, rest, rfl, reached, stopped⟩
  · exact .inl whole
  · cases stopped with
    | tab rest => exact absurd (by simp) plain.noTab
    | dangling opens quote never => exact .inr ⟨front, rest, rfl, reached, opens, quote, never⟩
    | comment rest starts =>
      -- in front of `#` stands a space, and it belongs to the text
      cases last : front.getLast? with
      | none =>
        rw [List.getLast?_eq_none_iff] at last
        subst last
        obtain ⟨c, more, same, -, other⟩ := plain.first
        cases same
        exact absurd (by decide) other
      | some c =>
        obtain ⟨before, rfl⟩ := List.getLast?_eq_some_iff.mp last
        have space : c = ' ' := starts c (by simp)
        subst space
        exact absurd ⟨before, rest, by simp⟩ plain.noComment

/-- Plain text behind a key is read as what it stands for, its quotes and commas with it, exactly if
no quote in it is taken for the start of a quoted scalar that is never closed. Such a quote is a
fault of the document. -/
theorem parse_eq_iff :
    (parse (String.ofList (keyFront key ++ text)) =
        .ok (.mapping [(key, .scalar (Plain.resolve text))]) ↔
      ∀ front rest, text = front ++ rest → ¬Dangling (keyFront key ++ front) rest) ∧
    ∀ front rest, text = front ++ rest → Dangling (keyFront key ++ front) rest →
      parse (String.ofList (keyFront key ++ text)) =
        .error ⟨1, (keyFront key ++ front).length + 1, .unterminatedQuote⟩ := by
  have fails : ∀ front rest, text = front ++ rest → Dangling (keyFront key ++ front) rest →
      parse (String.ofList (keyFront key ++ text)) =
        .error ⟨1, (keyFront key ++ front).length + 1, .unterminatedQuote⟩ := by
    rintro front rest rfl dangling
    apply (plain.oneLine key).parse_error
    have fault := dangling.reached.dangling dangling.opens dangling.quote dangling.never 1 1
    rwa [List.append_assoc, Nat.add_comm] at fault
  refine ⟨⟨?_, ?_⟩, fails⟩
  · intro read front rest same dangling
    rw [fails front rest same dangling] at read
    cases read
  · intro none
    rcases plain.whole_or_dangling key with whole | ⟨front, rest, same, dangling⟩
    · exact plain.parse_whole key whole
    · exact absurd dangling (none front rest same)

end Reading

def chatty : List Char :=
  ['i', 't', '\'', 's', ' ', 'a', ' ', '-', ' ', '\'', 'b', '\'', ' ', '"', 'c']

theorem chatty_plain : PlainText chatty := by
  constructor
  · exact ⟨'i', chatty.tail, rfl, by decide, by decide⟩
  · simp [chatty]
  all_goals decide

theorem parse_eq_iff_chatty : PlainText chatty ∧
    parse (String.ofList (keyFront "k" ++ chatty)) =
      .ok (.mapping [("k", .scalar (Plain.resolve chatty))]) := by
  refine ⟨chatty_plain, (chatty_plain.parse_eq_iff "k").1.mpr ?_⟩
  have whole : Outside (keyFront "k" ++ chatty) [] := (outside_nil_iff _ 1 1).mpr (by decide)
  intro front rest same
  rw [same, ← List.append_assoc] at whole
  exact whole.not_dangling

def listed : List Char :=
  ['a', ',', ' ', '\'', 'b']

/-- The quote is an ordinary character of a plain text, and yet a fault. -/
theorem parse_listed : PlainText listed ∧
    parse "k: a, 'b" = .error ⟨1, 7, .unterminatedQuote⟩ := by
  have plain : PlainText listed := by
    constructor
    · exact ⟨'a', listed.tail, rfl, by decide, by decide⟩
    · simp [listed]
    all_goals decide
  have search : withoutComment 1 (.plain none none) 1 (keyFront "k" ++ listed) =
      .error ⟨1, 7, .unterminatedQuote⟩ := by decide
  have same : "k: a, 'b" = String.ofList (keyFront "k" ++ listed) := by decide
  rw [same]
  exact ⟨plain, (plain.oneLine "k").parse_error search⟩

end PlainText

end ParticleSim.Outline
