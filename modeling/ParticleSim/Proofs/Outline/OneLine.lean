import ParticleSim.Proofs.Outline.Outside
import ParticleSim.Proofs.Outline.Entry

namespace ParticleSim.Outline

structure OneLine (text : List Char) : Prop where
  noBreak : '\n' ∉ text
  first : ∃ c rest, text = c :: rest ∧ c ≠ ' ' ∧ c ≠ '\uFEFF'
  last : ∀ c ∈ text.getLast?, c ≠ ' ' ∧ c ≠ '\r'

theorem splitLines_of_not_mem {line : List Char} (whole : '\n' ∉ line) :
    splitLines line = [line] := by
  induction line with
  | nil => rfl
  | cons c line ih =>
    rw [List.mem_cons, not_or] at whole
    simp [splitLines, Ne.symm whole.1, ih whole.2]

namespace OneLine

variable {text : List Char}

theorem dropMark_eq (one : OneLine text) : dropMark text = text := by
  obtain ⟨c, rest, rfl, -, noMark⟩ := one.first
  rw [dropMark.eq_def]
  split
  · next same => exact absurd (List.cons.inj same).1 noMark
  · rfl

theorem ofSource?_eq (one : OneLine text) (number : Nat) :
    Line.ofSource? number text = (withoutComment number (.plain none none) 1 text).map fun kept =>
      if (trimEnd kept).isEmpty then none else some ⟨number, 0, trimEnd kept⟩ := by
  have noReturn : dropReturn text = text := by
    rw [dropReturn, if_neg]
    exact fun final => (one.last '\r' final).2 rfl
  have skipped : skipSpaces text = text := by
    obtain ⟨c, rest, rfl, noSpace, -⟩ := one.first
    exact skipSpaces_cons noSpace rest
  rw [Line.ofSource?]
  dsimp only
  rw [noReturn, skipped, Nat.sub_self]

theorem parse_error (one : OneLine text) {e : ParseError}
    (fault : withoutComment 1 (.plain none none) 1 text = .error e) :
    parse (String.ofList text) = .error e := by
  rw [parse, String.toList_ofList, Line.ofText, one.dropMark_eq,
    splitLines_of_not_mem one.noBreak, contentLines, one.ofSource?_eq, fault]
  rfl

/-- The document is read from what is left of its line. -/
theorem parse_kept (one : OneLine text) {kept : List Char}
    (search : withoutComment 1 (.plain none none) 1 text = .ok kept)
    (filled : trimEnd kept ≠ []) (noMarker : trimEnd kept ≠ ['-', '-', '-']) :
    parse (String.ofList text) = readDocument [⟨1, 0, trimEnd kept⟩] := by
  have noEnd : (trimEnd kept).isEmpty = false := by simpa using filled
  have first : (true && (Line.mk 1 0 (trimEnd kept)).isMarker) = false := by
    simp [Line.isMarker, noMarker]
  rw [parse, String.toList_ofList, Line.ofText, one.dropMark_eq,
    splitLines_of_not_mem one.noBreak, contentLines, one.ofSource?_eq, search]
  dsimp only [bind, Except.bind, Except.map]
  rw [noEnd, if_neg Bool.false_ne_true]
  dsimp only
  rw [first, if_neg Bool.false_ne_true]
  rfl

theorem trimEnd_eq (one : OneLine text) : trimEnd text = text :=
  trimEnd_of_last fun c final => (one.last c final).1

theorem ne_nil (one : OneLine text) : text ≠ [] := by
  obtain ⟨c, rest, rfl, -⟩ := one.first
  exact List.cons_ne_nil c rest

theorem parse_whole (one : OneLine text) (whole : Outside text [])
    (noMarker : text ≠ ['-', '-', '-']) :
    parse (String.ofList text) = readDocument [⟨1, 0, text⟩] := by
  have kept := one.parse_kept ((outside_nil_iff text 1 1).mp whole)
  rw [one.trimEnd_eq] at kept
  exact kept one.ne_nil noMarker

end OneLine

/-- What a line keeps as it is makes a document of one line. -/
theorem Token.oneLine {text : List Char} (token : Token text) : OneLine text := by
  constructor
  · exact fun member => nomatch token.visible '\n' member
  · exact token.first
  · intro c final
    refine ⟨token.last c final, ?_⟩
    rintro rfl
    cases token.visible '\r' (List.mem_of_getLast? final)

theorem readDocument_value {line : Line} (noItem : isItem line.text = false)
    (noEntry : line.entry? = .ok none) :
    readDocument [line] = readInline line.number (line.indent + 1) maxDepth line.text := by
  rw [readDocument]
  rw [show maxDepth = 127 + 1 from rfl, readBlock, noItem, if_neg Bool.false_ne_true, noEntry]
  dsimp only [bind, Except.bind]
  cases readInline line.number (line.indent + 1) (127 + 1) line.text <;> rfl

theorem readDocument_entry {line : Line} {entry : Entry} {node : Node}
    (noItem : isItem line.text = false) (written : line.entry? = .ok (some entry))
    (filled : entry.value ≠ [])
    (read : readInline line.number entry.column 127 entry.value = .ok node) :
    readDocument [line] = .ok (.mapping [(entry.key, node)]) := by
  have noEnd : entry.value.isEmpty = false := by simpa using filled
  have fields : readEntries (readBlock 127) 127 line.indent [line].length [] [line] =
      .ok ([(entry.key, node)], []) := by
    rw [List.length_singleton, readEntries_entry noItem written rfl, noEnd,
      if_neg Bool.false_ne_true, read]
    rfl
  rw [readDocument, show maxDepth = 127 + 1 from rfl, readBlock, noItem,
    if_neg Bool.false_ne_true, written]
  dsimp only [bind, Except.bind]
  rw [fields]
  rfl

theorem OneLine.parse_entry {text : List Char} (one : OneLine text) (whole : Outside text [])
    {entry : Entry} {node : Node} (noItem : isItem text = false)
    (written : Line.entry? ⟨1, 0, text⟩ = .ok (some entry)) (filled : entry.value ≠ [])
    (read : readInline 1 entry.column 127 entry.value = .ok node) :
    parse (String.ofList text) = .ok (.mapping [(entry.key, node)]) := by
  have noMarker : text ≠ ['-', '-', '-'] := by
    rintro rfl
    cases written
  rw [one.parse_whole whole noMarker]
  exact readDocument_entry noItem written filled read

end ParticleSim.Outline
