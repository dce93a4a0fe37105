import ParticleSim.Proofs.Outline.Scan

namespace ParticleSim.Outline

/-- A text that a line keeps as it is, from its first character to its last. -/
structure Token (text : List Char) : Prop where
  kept : Kept text
  first : ∃ c rest, text = c :: rest ∧ c ≠ ' ' ∧ c ≠ '\uFEFF'
  last : ∀ c ∈ text.getLast?, c ≠ ' '
  visible : ∀ c ∈ text, CharClass.isControl c = false

namespace Token

theorem bare {text : List Char} (bare : Bare text) : Token text := by
  obtain ⟨c, rest, same, other⟩ := bare.first
  refine ⟨Kept.bare bare, ⟨c, rest, same, ?_, ?_⟩, fun d final => (bare.last d final).1, ?_⟩
  · intro equal
    subst equal
    exact other (by decide)
  · intro equal
    subst equal
    exact other (by decide)
  · intro d member
    exact (Bool.or_eq_false_iff.mp (bare.clean d member)).1

theorem encode (text : List Char) : Token (Quoted.encode text) := by
  obtain ⟨rest, same⟩ := Quoted.encode_head text
  refine ⟨Kept.encode text, ⟨'"', rest, same, by decide, by decide⟩, ?_,
    Quoted.not_control_encode text⟩
  intro c final
  rw [Quoted.getLast?_encode] at final
  cases final
  decide

theorem key (name : String) : Token (keyText name) := by
  rw [keyText]
  split
  · exact encode name.toList
  · next safe => exact bare (bare_of_not_hazardous (Bool.not_eq_true _ ▸ safe))

theorem value (node : Node) : Token (inlineText node) := by
  cases node with
  | scalar value =>
    cases quoted : isQuoted value with
    | false => exact bare (bare_scalarText quoted)
    | true =>
      obtain ⟨s, -, form⟩ := quoted_scalarText quoted
      rw [inlineText, form]
      exact encode s.toList
  | sequence items =>
    have token : Token ['[', ']'] :=
      ⟨Kept.marks (by decide) (by decide), ⟨'[', [']'], rfl, by decide, by decide⟩, by simp,
        by simp [CharClass.isControl]⟩
    exact token
  | mapping fields =>
    have token : Token ['{', '}'] :=
      ⟨Kept.marks (by decide) (by decide), ⟨'{', ['}'], rfl, by decide, by decide⟩, by simp,
        by simp [CharClass.isControl]⟩
    exact token

variable {text content : List Char}

theorem colon (token : Token text) : Token (text ++ [':']) := by
  obtain ⟨c, rest, rfl, first⟩ := token.first
  refine ⟨token.kept.colon, ⟨c, rest ++ [':'], rfl, first⟩, ?_, ?_⟩
  · intro d final
    rw [List.getLast?_append_of_ne_nil _ (List.cons_ne_nil _ _)] at final
    cases final
    decide
  · intro d member
    rcases List.mem_append.mp member with member | member
    · exact token.visible d member
    · rw [List.mem_singleton.mp member]
      rfl

theorem entry (token : Token text) (inline : Token content) :
    Token (text ++ ':' :: ' ' :: content) := by
  obtain ⟨c, rest, rfl, first⟩ := token.first
  obtain ⟨d, more, rfl, -⟩ := inline.first
  refine ⟨token.kept.entry inline.kept, ⟨c, _, rfl, first⟩, ?_, ?_⟩
  · intro e final
    rw [List.getLast?_append_of_ne_nil _ (List.cons_ne_nil _ _), List.getLast?_cons_cons,
      List.getLast?_cons_cons] at final
    exact inline.last e final
  · intro e member
    rcases List.mem_append.mp member with member | member
    · exact token.visible e member
    · rcases List.mem_cons.mp member with rfl | member
      · rfl
      · rcases List.mem_cons.mp member with rfl | member
        · rfl
        · exact inline.visible e member

theorem dash (token : Token text) : Token ('-' :: ' ' :: text) := by
  obtain ⟨c, rest, rfl, -⟩ := token.first
  refine ⟨token.kept.dash, ⟨'-', _, rfl, by decide, by decide⟩, ?_, ?_⟩
  · intro d final
    rw [List.getLast?_cons_cons, List.getLast?_cons_cons] at final
    exact token.last d final
  · intro d member
    rw [List.mem_cons, List.mem_cons] at member
    rcases member with rfl | rfl | member
    · rfl
    · rfl
    · exact token.visible d member

end Token

structure LineText (text : List Char) : Prop extends Token text where
  noMarker : text ≠ ['-', '-', '-']

namespace LineText

theorem value (node : Node) : LineText (inlineText node) := by
  refine ⟨Token.value node, ?_⟩
  intro marker
  cases node with
  | scalar value =>
    rw [inlineText] at marker
    cases quoted : isQuoted value with
    | false =>
      have tight := (bare_scalarText quoted).noDash
      rw [marker] at tight
      cases tight
    | true =>
      obtain ⟨s, -, form⟩ := quoted_scalarText quoted
      obtain ⟨rest, same⟩ := Quoted.encode_head s.toList
      rw [form, same] at marker
      cases marker
  | sequence items => cases marker
  | mapping fields => cases marker

theorem colon (name : String) : LineText (keyText name ++ [':']) := by
  refine ⟨(Token.key name).colon, ?_⟩
  intro marker
  have member : ':' ∈ keyText name ++ [':'] := by simp
  rw [marker] at member
  exact absurd member (by decide)

theorem entry (name : String) (node : Node) :
    LineText (keyText name ++ ':' :: ' ' :: inlineText node) := by
  refine ⟨(Token.key name).entry (Token.value node), ?_⟩
  intro marker
  have member : ':' ∈ keyText name ++ ':' :: ' ' :: inlineText node := by simp
  rw [marker] at member
  exact absurd member (by decide)

theorem dash {text : List Char} (line : LineText text) : LineText ('-' :: ' ' :: text) :=
  ⟨line.toToken.dash, by simp⟩

end LineText

def AllLines (lines : List OutputLine) : Prop :=
  ∀ line ∈ lines, LineText line.2

theorem allLines_withDash {indent : Nat} {lines : List OutputLine} (all : AllLines lines) :
    AllLines (withDash indent lines) := by
  cases lines with
  | nil => exact all
  | cons line rest =>
    intro other member
    rcases List.mem_cons.mp member with rfl | member
    · exact (all line (List.mem_cons_self ..)).dash
    · exact all other (List.mem_cons_of_mem _ member)

mutual

theorem allLines_block (indent : Nat) : ∀ node, AllLines (blockLines indent node)
  | .scalar value => by simp [AllLines, blockLines]
  | .sequence items => by
    rw [blockLines]
    exact allLines_items indent items
  | .mapping fields => by
    rw [blockLines]
    exact allLines_fields indent fields

theorem allLines_items (indent : Nat) : ∀ items, AllLines (itemLines indent items)
  | [] => by simp [AllLines, itemLines]
  | item :: rest => by
    intro line member
    rw [itemLines, List.mem_append] at member
    rcases member with member | member
    · split at member
      · exact allLines_withDash (allLines_block (indent + 2) item) line member
      · rw [List.mem_singleton.mp member]
        exact (LineText.value item).dash
    · exact allLines_items indent rest line member

theorem allLines_fields (indent : Nat) : ∀ fields, AllLines (fieldLines indent fields)
  | [] => by simp [AllLines, fieldLines]
  | (key, value) :: rest => by
    intro line member
    rw [fieldLines, List.mem_append] at member
    rcases member with member | member
    · split at member
      · rcases List.mem_cons.mp member with rfl | member
        · exact LineText.colon key
        · exact allLines_block (indent + 2) value line member
      · rw [List.mem_singleton.mp member]
        exact LineText.entry key value
    · exact allLines_fields indent rest line member

end

theorem allLines_document (node : Node) : AllLines (documentLines node) := by
  rw [documentLines]
  split
  · exact allLines_block 0 node
  · intro line member
    rw [List.mem_singleton.mp member]
    exact LineText.value node

/-! The lines of the source. -/

def OutputLine.source (line : OutputLine) : List Char :=
  List.replicate line.1 ' ' ++ line.2

theorem ofSource?_source {line : OutputLine} (text : LineText line.2) (number : Nat) :
    Line.ofSource? number line.source = .ok (some ⟨number, line.1, line.2⟩) := by
  obtain ⟨indent, content⟩ := line
  dsimp only at text ⊢
  obtain ⟨c, rest, same, noSpace, -⟩ := text.first
  have nonempty : content ≠ [] := by
    rw [same]
    exact List.cons_ne_nil c rest
  have noReturn : dropReturn (OutputLine.source (indent, content)) =
      OutputLine.source (indent, content) := by
    rw [dropReturn, if_neg]
    rw [OutputLine.source, List.getLast?_append_of_ne_nil _ nonempty]
    intro final
    have visible := text.visible '\r' (List.mem_of_getLast? final)
    cases visible
  have skipped : skipSpaces (OutputLine.source (indent, content)) = content := by
    rw [OutputLine.source, skipSpaces, List.dropWhile_append_of_pos]
    · rw [same]
      exact skipSpaces_cons noSpace rest
    · intro d member
      rw [List.eq_of_mem_replicate member]
      rfl
  have width : (OutputLine.source (indent, content)).length - content.length = indent := by
    rw [OutputLine.source, List.length_append, List.length_replicate, Nat.add_sub_cancel]
  rw [Line.ofSource?]
  dsimp only
  rw [noReturn, skipped, width, text.kept.withoutComment_eq]
  dsimp only [Except.map]
  rw [trimEnd_of_last text.last, if_neg (by rw [List.isEmpty_iff]; exact nonempty)]

def numbered (number : Nat) : List OutputLine → List Line
  | [] => []
  | (indent, text) :: rest => ⟨number, indent, text⟩ :: numbered (number + 1) rest

theorem contentLines_source {lines : List OutputLine} (all : AllLines lines) (first : Bool)
    (number : Nat) :
    contentLines first number (lines.map OutputLine.source ++ [[]]) =
      .ok (numbered number lines) := by
  induction lines generalizing first number with
  | nil => rfl
  | cons line rest ih =>
    have text : LineText line.2 := all line (List.mem_cons_self ..)
    have following := ih (fun other member => all other (List.mem_cons_of_mem _ member))
    have noMarker : (first && (Line.mk number line.1 line.2).isMarker) = false := by
      rw [Line.isMarker, beq_eq_false_iff_ne.mpr text.noMarker, Bool.and_false, Bool.and_false]
    rw [List.map_cons, List.cons_append, contentLines, ofSource?_source text]
    dsimp only [bind, Except.bind]
    rw [noMarker, if_neg Bool.false_ne_true, following]
    rfl

theorem splitLines_append {line : List Char} (whole : '\n' ∉ line) (rest : List Char) :
    splitLines (line ++ '\n' :: rest) = line :: splitLines rest := by
  induction line with
  | nil => rw [List.nil_append, splitLines, if_pos rfl]
  | cons c line ih =>
    rw [List.mem_cons, not_or] at whole
    rw [List.cons_append, splitLines, if_neg (Ne.symm whole.1), ih whole.2]

theorem splitLines_characters {lines : List OutputLine} (all : AllLines lines) :
    splitLines (lines.flatMap OutputLine.characters) = lines.map OutputLine.source ++ [[]] := by
  induction lines with
  | nil => rfl
  | cons line rest ih =>
    have text : LineText line.2 := all line (List.mem_cons_self ..)
    have following := ih (fun other member => all other (List.mem_cons_of_mem _ member))
    have whole : '\n' ∉ line.source := by
      rw [OutputLine.source, List.mem_append]
      rintro (member | member)
      · exact absurd (List.eq_of_mem_replicate member) (by decide)
      · cases text.visible _ member
    have form : line.characters = line.source ++ ['\n'] := rfl
    rw [List.flatMap_cons, form, List.append_assoc, List.singleton_append, splitLines_append whole,
      following]
    rfl

theorem dropMark_characters {lines : List OutputLine} (all : AllLines lines) :
    dropMark (lines.flatMap OutputLine.characters) = lines.flatMap OutputLine.characters := by
  rw [dropMark.eq_def]
  split
  · next rest same =>
    cases lines with
    | nil => cases same
    | cons line more =>
      obtain ⟨indent, content⟩ := line
      obtain ⟨c, rest', shape, -, noMark⟩ := (all _ (List.mem_cons_self ..)).first
      dsimp only at shape
      subst shape
      -- a text that is not indented starts with its first character, which is no mark
      cases indent with
      | zero =>
        cases same
        exact absurd rfl noMark
      | succ indent => cases same
  · rfl

theorem ofText_characters {lines : List OutputLine} (all : AllLines lines) :
    Line.ofText (lines.flatMap OutputLine.characters) = .ok (numbered 1 lines) := by
  rw [Line.ofText, dropMark_characters all, splitLines_characters all, contentLines_source all]

end ParticleSim.Outline
