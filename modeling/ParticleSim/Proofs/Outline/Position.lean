import ParticleSim.Proofs.Outline.Entry
import ParticleSim.Proofs.Outline.SourceReading

namespace ParticleSim.Outline

def sourceLines (text : String) : List (List Char) :=
  splitLines (dropMark text.toList)

/-- What is read of a line of the source: its content, or all of it if the content cannot be told
from comments. -/
def readable (number : Nat) (source : List Char) : List Char :=
  match Line.ofSource? number source with
  | .ok (some line) => line.written
  | _ => dropReturn source

theorem readable_isPrefix (number : Nat) (source : List Char) :
    readable number source <+: dropReturn source := by
  have meets := ofSource?_meets number source
  rw [readable]
  split
  · next line read =>
    rw [read] at meets
    exact (meets line rfl).2.2
  · exact List.prefix_rfl

/-- A line and a column of a text, with what is read of the line before them and behind them. -/
def Stands (text : String) (line column : Nat) (before place : List Char) : Prop :=
  1 ≤ line ∧ ∃ source, (sourceLines text)[line - 1]? = some source ∧
    readable line source = before ++ place ∧ column = before.length + 1

/-- A line and a column that exist: one behind the last character of a line is still a column. -/
theorem Stands.bounds {text : String} {line column : Nat} {before place : List Char}
    (stands : Stands text line column before place) :
    1 ≤ line ∧ line ≤ (sourceLines text).length ∧ 1 ≤ column ∧
      ∃ source, (sourceLines text)[line - 1]? = some source ∧
        column ≤ (dropReturn source).length + 1 := by
  obtain ⟨first, source, found, whole, rfl⟩ := stands
  have inside := (readable_isPrefix line source).length_le
  rw [whole, List.length_append] at inside
  have last := (List.getElem?_eq_some_iff.mp found).1
  exact ⟨first, by omega, Nat.succ_pos _, source, found, by omega⟩

theorem Stands.of_splits {text : String} {line : Line} {column : Nat} {source : List Char}
    {before place : List Char} (at_ : SourceAt 1 (sourceLines text) line.number source)
    (read : Line.ofSource? line.number source = .ok (some line))
    (splits : line.Splits column before place) :
    Stands text line.number column (List.replicate line.indent ' ' ++ before) place := by
  obtain ⟨i, found, number⟩ := at_
  refine ⟨by omega, source, ?_, ?_, ?_⟩
  · rw [number, Nat.add_sub_cancel_left]
    exact found
  · rw [readable, read]
    dsimp only
    rw [Line.written, splits.1, List.append_assoc]
  · rw [splits.2, List.length_append, List.length_replicate]

/-- What a fault marks behind some text of a line it marks behind the indentation as well. -/
theorem Fault.Marks.indent {fault : Fault} {gap before place : List Char} (blank : Blank gap)
    (marks : fault.Marks before place) : fault.Marks (gap ++ before) place := by
  cases fault with
  | badIndentation => exact ⟨blank.append marks.1, marks.2⟩
  | tooDeep => exact marks.imp_left fun item => ⟨.blank blank item.1, item.2⟩
  | _ => exact marks

/-- The fault stands at its position and marks what it is about. A key that is repeated stands at an
earlier position as well. -/
def Placed (text : String) (e : ParseError) : Prop :=
  ∃ before place, Stands text e.line e.column before place ∧ e.fault.Marks before place ∧
    ∀ key, e.fault = .duplicateKey key → ∃ line column before first,
      Stands text line column before first ∧ StartsEntry key first ∧
      (line < e.line ∨ line = e.line ∧ column < e.column)

theorem placed_of_astray {text : String} {e : ParseError} {source : List Char}
    (at_ : SourceAt 1 (sourceLines text) e.line source)
    (unread : Line.ofSource? e.line source = .error e) : Placed text e := by
  have astray := ofSource?_meets e.line source
  rw [unread] at astray
  obtain ⟨-, kind, before, place, whole, column, marks⟩ := astray
  obtain ⟨i, found, number⟩ := at_
  refine ⟨before, place, ⟨by omega, source, ?_, ?_, by omega⟩, marks, ?_⟩
  · rw [number, Nat.add_sub_cancel_left]
    exact found
  · rw [readable, unread]
    exact whole
  · intro key duplicate
    rw [duplicate] at kind
    rcases kind with other | other
    · cases other
    · cases other

theorem placed_of_faultIn {text : String} {e : ParseError} {lines : List Line} {floor : Nat}
    (from_ : ∀ line ∈ lines, ∃ source, SourceAt 1 (sourceLines text) line.number source ∧
      Line.ofSource? line.number source = .ok (some line))
    (fault : FaultIn floor lines e) : Placed text e := by
  obtain ⟨⟨line, member, number, -, before, place, splits, marks⟩, repeated⟩ := fault
  obtain ⟨source, at_, read⟩ := from_ line member
  refine ⟨_, place, number ▸ Stands.of_splits at_ read splits,
    marks.indent (blank_replicate _), ?_⟩
  intro key duplicate
  obtain ⟨first, member, column, front, place, splits, entry, earlier⟩ := repeated key duplicate
  obtain ⟨source, at_, read⟩ := from_ first member
  exact ⟨first.number, column, _, place, Stands.of_splits at_ read splits, entry, earlier⟩

/-- A tree that is read has unique keys and nests no deeper than readers follow; a fault is placed
in the text. -/
theorem parse_meets (text : String) : Meets (Node.Fits maxDepth) (Placed text) (parse text) := by
  have meets := contentLines_meets true 1 (sourceLines text)
  change Meets _ _ (contentLines true 1 (sourceLines text) >>= readDocument)
  cases read : contentLines true 1 (sourceLines text) with
  | error e =>
    rw [read] at meets
    obtain ⟨source, at_, unread⟩ := meets
    exact placed_of_astray at_ unread
  | ok lines =>
    rw [read] at meets
    exact (readDocument_meets meets.1).faults fun e fault => placed_of_faultIn meets.2 fault

/-- The position of a fault exists, and what stands there is what the fault is about. A key that is
repeated stands at an earlier position as well. -/
theorem parse_error_position (text : String) (e : ParseError) (failed : parse text = .error e) :
    1 ≤ e.line ∧ e.line ≤ (sourceLines text).length ∧ 1 ≤ e.column ∧
      (∃ source, (sourceLines text)[e.line - 1]? = some source ∧
        e.column ≤ (dropReturn source).length + 1) ∧
      ∃ before place, Stands text e.line e.column before place ∧ e.fault.Marks before place ∧
        ∀ key, e.fault = .duplicateKey key → ∃ line column before first,
          Stands text line column before first ∧ StartsEntry key first ∧
          (line < e.line ∨ line = e.line ∧ column < e.column) := by
  have meets := parse_meets text
  rw [failed] at meets
  obtain ⟨before, place, stands, marks, repeated⟩ := meets
  obtain ⟨low, high, left, right⟩ := stands.bounds
  exact ⟨low, high, left, right, before, place, stands, marks, repeated⟩

def repeated : String := "a:\n  - \x7bb: 1, b: 2\x7d\n"

def fault? : Except ParseError Node → Option ParseError
  | .ok _ => none
  | .error e => some e

theorem eq_error_of_fault? {result : Except ParseError Node} {e : ParseError}
    (fault : fault? result = some e) : result = .error e := by
  cases result with
  | ok tree => cases fault
  | error e => exact congrArg Except.error (Option.some.inj fault)

theorem parse_repeated : parse repeated = .error ⟨2, 12, .duplicateKey "b"⟩ :=
  eq_error_of_fault? (by decide +kernel)

theorem parse_error_position_repeated :
    parse repeated = .error ⟨2, 12, .duplicateKey "b"⟩ ∧ 2 ≤ (sourceLines repeated).length ∧
      ∃ before place, Stands repeated 2 12 before place ∧ StartsEntry "b" place ∧
        ∃ line column before first, Stands repeated line column before first ∧
          StartsEntry "b" first ∧ (line < 2 ∨ line = 2 ∧ column < 12) := by
  obtain ⟨-, lines, -, -, before, place, stands, marks, earlier⟩ :=
    parse_error_position repeated _ parse_repeated
  exact ⟨parse_repeated, lines, before, place, stands, marks, earlier "b" rfl⟩

/-! Collections that nest too deep behind dashes are marked at a dash. -/

def dashes : Nat → List Char
  | 0 => ['x']
  | count + 1 => '-' :: ' ' :: dashes count

theorem mem_dashes {count : Nat} : ∀ c ∈ dashes count, c = '-' ∨ c = ' ' ∨ c = 'x' := by
  induction count with
  | zero => simp [dashes]
  | succ count ih => simpa [dashes] using ih

theorem lineText_dashes (count : Nat) : LineText (dashes count) := by
  induction count with
  | zero =>
    have scalar : inlineText (.ofString "x") = dashes 0 := by decide
    rw [← scalar]
    exact LineText.value (.ofString "x")
  | succ count ih => exact ih.dash

/-- The items that are left too deep start behind two characters for each level. -/
theorem readBlock_dashes (number indent budget : Nat) :
    readBlock budget [⟨number, indent, dashes (budget + 1)⟩] =
      .error ⟨number, indent + 2 * budget + 1, .tooDeep⟩ := by
  induction budget generalizing indent with
  | zero =>
    rw [readBlock, if_pos (by rfl)]
    rfl
  | succ budget ih =>
    have item : isItem (Line.mk number indent (dashes (budget + 1 + 1))).text = true := rfl
    rw [readBlock, if_pos item]
    dsimp only
    have column : indent + 2 + 2 * budget + 1 = indent + 2 * (budget + 1) + 1 := by omega
    have behind := afterDash_dash number indent (lineText_dashes (budget + 1)).toToken
    rw [readItems_item item, dashes, behind, if_neg (by simp [dashes]), ih, column]
    rfl

def compact (count : Nat) : String :=
  String.ofList (OutputLine.characters (0, dashes count))

theorem allLines_compact (count : Nat) : AllLines [(0, dashes count)] :=
  List.forall_mem_singleton.mpr (lineText_dashes count)

theorem toList_compact (count : Nat) :
    (compact count).toList = [(0, dashes count)].flatMap OutputLine.characters := by
  rw [compact, String.toList_ofList, List.flatMap_cons, List.flatMap_nil, List.append_nil]

theorem sourceLines_compact (count : Nat) : sourceLines (compact count) = [dashes count, []] := by
  rw [sourceLines, toList_compact, dropMark_characters (allLines_compact count),
    splitLines_characters (allLines_compact count)]
  rfl

theorem parse_compact :
    parse (compact (maxDepth + 1)) = .error ⟨1, 2 * maxDepth + 1, .tooDeep⟩ := by
  have lines : Line.ofText (compact (maxDepth + 1)).toList =
      .ok [⟨1, 0, dashes (maxDepth + 1)⟩] := by
    rw [toList_compact, ofText_characters (allLines_compact _)]
    rfl
  have failed := readBlock_dashes 1 0 maxDepth
  rw [Nat.zero_add] at failed
  rw [parse, lines]
  dsimp only [bind, Except.bind]
  rw [readDocument, failed]
  rfl

theorem readable_dashes (count : Nat) : readable 1 (dashes count) = dashes count := by
  have read := ofSource?_source (show LineText (0, dashes count).2 from lineText_dashes count) 1
  rw [show OutputLine.source (0, dashes count) = dashes count from rfl] at read
  rw [readable, read]
  rfl

/-- The first character of the line is another one than that which is reported. -/
theorem tooDeep_behind_dashes :
    ∃ e, parse (compact 129) = .error e ∧ e.fault = .tooDeep ∧
      ∀ before place, Stands (compact 129) e.line e.column before place →
        ¬(StartsContent before place ∨ place.head? = some '[' ∨ place.head? = some '{') := by
  refine ⟨_, parse_compact, rfl, ?_⟩
  rintro before place ⟨-, source, found, whole, column⟩
  rw [sourceLines_compact] at found
  cases found
  rw [readable_dashes] at whole
  rintro (⟨blank, -⟩ | bracket | brace)
  · -- a dash is the first of the characters before the place
    cases before with
    | nil => cases column
    | cons c rest =>
      have dash : '-' = c := (List.cons.inj whole).1
      exact absurd (blank c (List.mem_cons_self ..)) (dash ▸ by decide)
  · have member : '[' ∈ dashes 129 :=
      whole ▸ List.mem_append_right before (List.mem_of_head? bracket)
    exact absurd (mem_dashes '[' member) (by decide)
  · have member : '{' ∈ dashes 129 :=
      whole ▸ List.mem_append_right before (List.mem_of_head? brace)
    exact absurd (mem_dashes '{' member) (by decide)

end ParticleSim.Outline
