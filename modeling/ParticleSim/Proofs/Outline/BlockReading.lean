import ParticleSim.Proofs.Outline.LineReading

namespace ParticleSim.Outline

open ParticleSim.Outline.Flow (Located)

def Line.Splits (line : Line) (column : Nat) (before place : List Char) : Prop :=
  line.text = before ++ place ∧ column = line.indent + before.length + 1

def WrittenBefore (lines : List Line) (key : String) (number column : Nat) : Prop :=
  ∃ line ∈ lines, ∃ start before place, line.Splits start before place ∧ StartsEntry key place ∧
    (line.number < number ∨ line.number = number ∧ start < column)

/-- A fault of one of the lines. Lines that are badly indented stand at least as far in as `floor`,
and a key that is repeated is written before as well. -/
def FaultIn (floor : Nat) (lines : List Line) (e : ParseError) : Prop :=
  (∃ line ∈ lines, e.line = line.number ∧ (e.fault = .badIndentation → floor ≤ line.indent) ∧
    ∃ before place, line.Splits e.column before place ∧ e.fault.Marks before place) ∧
  ∀ key, e.fault = .duplicateKey key → WrittenBefore lines key e.line e.column

structure Tidy (lines : List Line) : Prop where
  content : ∀ line ∈ lines, ∃ c rest, line.text = c :: rest ∧ c ≠ ' '
  ascending : lines.Pairwise fun line later => line.number < later.number

theorem Tidy.suffix {lines last : List Line} (tidy : Tidy lines) (end_ : last <:+ lines) :
    Tidy last :=
  ⟨fun line member => tidy.content line (end_.subset member),
    tidy.ascending.sublist end_.sublist⟩

theorem Tidy.tail {line : Line} {rest : List Line} (tidy : Tidy (line :: rest)) : Tidy rest :=
  tidy.suffix (List.suffix_cons line rest)

/-! Faults of some lines are faults of more lines. -/

theorem WrittenBefore.mono {lines more : List Line} {key : String} {number column : Nat}
    (written : WrittenBefore lines key number column) (subset : lines ⊆ more) :
    WrittenBefore more key number column := by
  obtain ⟨line, member, place⟩ := written
  exact ⟨line, subset member, place⟩

theorem FaultIn.mono {floor deeper : Nat} {lines more : List Line} {e : ParseError}
    (fault : FaultIn deeper lines e) (le : floor ≤ deeper) (subset : lines ⊆ more) :
    FaultIn floor more e := by
  obtain ⟨⟨line, member, number, further, place⟩, repeated⟩ := fault
  exact ⟨⟨line, subset member, number, fun bad => Nat.le_trans le (further bad), place⟩,
    fun key duplicate => (repeated key duplicate).mono subset⟩

/-- A fault of the text of a line is a fault of the line. -/
theorem FaultIn.of_located {line : Line} {e : ParseError}
    (located : Located line.span line.text e) (floor : Nat) {lines : List Line}
    (member : line ∈ lines) : FaultIn floor lines e := by
  obtain ⟨number, place, ⟨before, same⟩, column, points, repeated⟩ := located
  have splits : ∀ {before place : List Char}, before ++ place = line.text →
      line.Splits (line.span.column place) before place := by
    intro before place same
    refine ⟨same.symm, ?_⟩
    rw [Flow.Span.column, Line.span, ← same, List.length_append]
    dsimp only
    omega
  refine ⟨⟨line, member, number, ?_, before, place, column ▸ splits same, points before⟩, ?_⟩
  · intro bad
    -- a fault that marks its place behind any text is no bad indentation
    have blank := bad ▸ points ['x']
    exact absurd (blank.1 'x' (List.mem_singleton_self _)) (by decide)
  · intro key duplicate
    obtain ⟨first, ⟨front, written⟩, longer, entry⟩ := repeated key duplicate
    refine ⟨line, member, _, front, first, splits written, entry, .inr ⟨number.symm, ?_⟩⟩
    rw [column, Flow.Span.column, Flow.Span.column, Line.span]
    have within := (show first <:+ line.text from ⟨front, written⟩).length_le
    dsimp only
    omega

theorem FaultIn.start {line : Line} {fault : Fault} {floor : Nat} {lines : List Line}
    (member : line ∈ lines) (marks : fault.Marks [] line.text)
    (further : fault = .badIndentation → floor ≤ line.indent)
    (repeated : ∀ key, fault = .duplicateKey key →
      WrittenBefore lines key line.number (line.indent + 1)) :
    FaultIn floor lines ⟨line.number, line.indent + 1, fault⟩ :=
  ⟨⟨line, member, rfl, further, [], line.text, ⟨rfl, rfl⟩, marks⟩, repeated⟩

theorem FaultIn.startUnexpected {line : Line} {lines : List Line} (member : line ∈ lines)
    (content : Surprise) (floor : Nat) :
    FaultIn floor lines ⟨line.number, line.indent + 1, .unexpected content⟩ :=
  .start member trivial (fun same => nomatch same) (fun _ same => nomatch same)

theorem FaultIn.startTooDeep {line : Line} {rest : List Line} (tidy : Tidy (line :: rest))
    (floor : Nat) : FaultIn floor (line :: rest) ⟨line.number, line.indent + 1, .tooDeep⟩ :=
  .start (List.mem_cons_self ..) (.inl ⟨.nil, tidy.content line (List.mem_cons_self ..)⟩)
    (fun same => nomatch same) (fun _ same => nomatch same)

theorem FaultIn.startBadIndentation {line : Line} {rest : List Line} (tidy : Tidy (line :: rest))
    {floor : Nat} (further : floor ≤ line.indent) :
    FaultIn floor (line :: rest) ⟨line.number, line.indent + 1, .badIndentation⟩ :=
  .start (List.mem_cons_self ..) ⟨by simp [Blank], tidy.content line (List.mem_cons_self ..)⟩
    (fun _ => further) (fun _ same => nomatch same)

/-! What stands behind the dash of an item. -/

/-- The dash stands before a space and the line that is read in its place. -/
theorem exists_dash {line : Line} (item : isItem line.text = true)
    (nonempty : line.afterDash.text.isEmpty = false) :
    ∃ gap, Blank gap ∧ line.text = ('-' :: ' ' :: gap) ++ line.afterDash.text := by
  have shape : line.afterDash.text = skipSpaces (line.text.drop 1) := rfl
  rw [shape] at nonempty ⊢
  generalize line.text = text at *
  rw [isItem.eq_def] at item
  split at item
  · cases nonempty
  · next rest =>
    obtain ⟨gap, blank, same⟩ := exists_blank_skipSpaces rest
    refine ⟨gap, blank, ?_⟩
    conv_lhs => rw [same]
    rfl
  · cases item

theorem Tidy.afterDash {line : Line} {rest : List Line} (tidy : Tidy (line :: rest))
    (nonempty : line.afterDash.text.isEmpty = false) : Tidy (line.afterDash :: rest) := by
  constructor
  · intro other member
    rcases List.mem_cons.mp member with rfl | member
    · cases left : line.afterDash.text with
      | nil =>
        rw [left] at nonempty
        cases nonempty
      | cons c more => exact ⟨c, more, rfl, ne_space_of_skipSpaces left⟩
    · exact tidy.tail.content other member
  · exact List.pairwise_cons.mpr (List.pairwise_cons.mp tidy.ascending)

/-- What a fault marks behind the dash it marks behind the spaces and the dash as well. -/
theorem Fault.Marks.dash {fault : Fault} {gap before place : List Char} (blank : Blank gap)
    (other : fault ≠ .badIndentation) (marks : fault.Marks before place) :
    fault.Marks ('-' :: ' ' :: gap ++ before) place := by
  cases fault with
  | badIndentation => exact absurd rfl other
  | tooDeep => exact marks.imp_left fun item => ⟨.dash (.blank blank item.1), item.2⟩
  | _ => exact marks

theorem FaultIn.afterDash {line : Line} {rest : List Line} {e : ParseError}
    (item : isItem line.text = true) (nonempty : line.afterDash.text.isEmpty = false)
    (fault : FaultIn (line.afterDash.indent + 1) (line.afterDash :: rest) e) :
    FaultIn (line.indent + 1) (line :: rest) e := by
  obtain ⟨gap, blank, whole⟩ := exists_dash item nonempty
  have count := congrArg List.length whole
  rw [List.length_append] at count
  have indent : line.afterDash.indent = line.indent + ('-' :: ' ' :: gap).length := by
    rw [show line.afterDash.indent =
      line.indent + (line.text.length - line.afterDash.text.length) from rfl]
    omega
  have splits : ∀ {column : Nat} {before place : List Char},
      line.afterDash.Splits column before place →
        line.Splits column ('-' :: ' ' :: gap ++ before) place := by
    rintro column before place ⟨same, rfl⟩
    refine ⟨?_, ?_⟩
    · rw [whole, same, List.append_assoc]
    · rw [indent, List.length_append]
      omega
  obtain ⟨⟨other, member, number, further, before, place, split, marks⟩, repeated⟩ := fault
  constructor
  · rcases List.mem_cons.mp member with rfl | member
    · have good : e.fault ≠ .badIndentation :=
        fun bad => absurd (further bad) (Nat.not_succ_le_self _)
      exact ⟨line, List.mem_cons_self .., number, fun bad => absurd bad good, _, place,
        splits split, marks.dash blank good⟩
    · refine ⟨other, List.mem_cons_of_mem _ member, number, fun bad => ?_, before, place, split,
        marks⟩
      exact Nat.le_trans (Nat.succ_le_succ (indent ▸ Nat.le_add_right ..)) (further bad)
  · intro key duplicate
    obtain ⟨first, member, start, front, key', split, entry, earlier⟩ := repeated key duplicate
    rcases List.mem_cons.mp member with rfl | member
    · exact ⟨line, List.mem_cons_self .., start, _, key', splits split, entry, earlier⟩
    · exact ⟨first, List.mem_cons_of_mem _ member, start, front, key', split, entry, earlier⟩

/-! What the readers of blocks do at a line of their indentation. -/

section Steps

variable {readBlock : List Line → Except ParseError (Node × List Line)} {line : Line}
  {budget bound : Nat} {fields : Fields Node} {rest : List Line}

theorem readItems_item (item : isItem line.text = true) :
    readItems readBlock line.indent (bound + 1) (line :: rest) = (do
      let (first, between) ← (if line.afterDash.text.isEmpty then
        readNested readBlock line.indent false rest else readBlock (line.afterDash :: rest))
      let (items, last) ← readItems readBlock line.indent bound between
      return (first :: items, last)) := by
  rw [readItems, if_neg (Nat.lt_irrefl _), if_neg (Nat.lt_irrefl _), item, Bool.not_true,
    if_neg Bool.false_ne_true]
  dsimp only
  cases line.afterDash.text.isEmpty with
  | true => rfl
  | false => rfl

theorem readEntries_entry {entry : Entry} (noItem : isItem line.text = false)
    (written : line.entry? = .ok (some entry)) (fresh : fields.contains entry.key = false) :
    readEntries readBlock budget line.indent (bound + 1) fields (line :: rest) = (do
      let (value, between) ← (if entry.value.isEmpty then
        readNested readBlock line.indent true rest
        else (readInline line.number entry.column budget entry.value).map (·, rest))
      readEntries readBlock budget line.indent bound (fields.insert entry.key value) between) := by
  rw [readEntries, if_neg (Nat.lt_irrefl _), if_neg (Nat.lt_irrefl _), noItem,
    if_neg Bool.false_ne_true, written]
  dsimp only [bind, Except.bind]
  rw [fresh, if_neg Bool.false_ne_true]
  cases entry.value.isEmpty with
  | true => rfl
  | false => rfl

end Steps

/-! The readers of blocks take any reader of nested blocks that is sound. -/

/-- The value fits, and the lines that remain are the last of those behind the first. -/
def ReadsBlock (budget : Nat) (rest : List Line) (result : Node × List Line) : Prop :=
  result.1.Fits budget ∧ result.2 <:+ rest

def KeysBefore (whole : List Line) (fields : Fields Node) (lines : List Line) : Prop :=
  ∀ key ∈ fields.keys, ∀ line ∈ lines, ∀ column, WrittenBefore whole key line.number column

theorem KeysBefore.insert {whole : List Line} {line : Line} {rest last : List Line}
    {fields : Fields Node} {key : String} {value : Node}
    (before : KeysBefore whole fields (line :: rest)) (tidy : Tidy (line :: rest))
    (inside : line ∈ whole) (starts : StartsEntry key line.text)
    (fresh : fields.contains key = false) (suffix : last <:+ rest) :
    KeysBefore whole (fields.insert key value) last := by
  intro name member other behind column
  have behind : other ∈ rest := suffix.subset behind
  rcases (Fields.mem_keys_insert (Fields.contains_eq_false_iff.mp fresh)).mp member with old | rfl
  · exact before name old other (List.mem_cons_of_mem _ behind) column
  · exact ⟨line, inside, _, [], line.text, ⟨rfl, rfl⟩, starts,
      .inl (List.rel_of_pairwise_cons tidy.ascending behind)⟩

section Blocks

variable {budget indent : Nat} {readBlock : List Line → Except ParseError (Node × List Line)}
variable (sound : ∀ line rest, Tidy (line :: rest) →
  Meets (ReadsBlock budget rest) (FaultIn (line.indent + 1) (line :: rest))
    (readBlock (line :: rest)))
include sound

theorem readNested_meets {lines : List Line} (tidy : Tidy lines) (parent : Nat)
    (sameLevel : Bool) :
    Meets (ReadsBlock budget lines) (FaultIn (parent + 1) lines)
      (readNested readBlock parent sameLevel lines) := by
  rw [readNested.eq_def]
  split
  · exact ⟨Node.fits_scalar budget .null, List.suffix_rfl⟩
  · next line rest =>
    split
    · next nested =>
      have level : parent ≤ line.indent := by
        simp only [Bool.or_eq_true, decide_eq_true_eq, Bool.and_eq_true, beq_iff_eq] at nested
        omega
      refine (sound line rest tidy).imp ?_ ?_
      · exact fun result reads => ⟨reads.1, reads.2.trans (List.suffix_cons line rest)⟩
      · exact fun e fault => fault.mono (Nat.succ_le_succ level) (List.Subset.refl _)
    · exact ⟨Node.fits_scalar budget .null, List.suffix_rfl⟩

theorem readItem_meets {line : Line} {rest : List Line} (tidy : Tidy (line :: rest))
    (item : isItem line.text = true) :
    Meets (ReadsBlock budget rest) (FaultIn (line.indent + 1) (line :: rest))
      (if line.afterDash.text.isEmpty then readNested readBlock line.indent false rest
        else readBlock (line.afterDash :: rest)) := by
  split
  · exact (readNested_meets sound tidy.tail line.indent false).faults
      fun e fault => fault.mono (Nat.le_refl _) (List.subset_cons_self line rest)
  · next filled =>
    have nonempty : line.afterDash.text.isEmpty = false := Bool.not_eq_true _ ▸ filled
    exact (sound _ rest (tidy.afterDash nonempty)).faults fun e fault =>
      fault.afterDash item nonempty

def ReadsItems (budget : Nat) (lines : List Line) (result : List Node × List Line) : Prop :=
  (∀ item ∈ result.1, item.Fits budget) ∧ result.2 <:+ lines

theorem readItems_item_meets {line : Line} {rest : List Line} {bound : Nat}
    (tidy : Tidy (line :: rest)) (item : isItem line.text = true)
    (following : ∀ lines, Tidy lines →
      Meets (ReadsItems budget lines) (FaultIn (line.indent + 1) lines)
        (readItems readBlock line.indent bound lines)) :
    Meets (ReadsItems budget rest) (FaultIn (line.indent + 1) (line :: rest))
      (readItems readBlock line.indent (bound + 1) (line :: rest)) := by
  rw [readItems_item item]
  refine (readItem_meets sound tidy item).bind ?_
  rintro ⟨first, between⟩ ⟨fits, last⟩
  refine ((following between (tidy.tail.suffix last)).faults fun e fault =>
    fault.mono (Nat.le_refl _) (List.subset_cons_of_subset line last.subset)).bind ?_
  rintro ⟨items, behind⟩ ⟨others, last'⟩
  exact ⟨List.forall_mem_cons.mpr ⟨fits, others⟩, last'.trans last⟩

theorem readItems_meets (bound : Nat) {lines : List Line} (tidy : Tidy lines) :
    Meets (ReadsItems budget lines) (FaultIn (indent + 1) lines)
      (readItems readBlock indent bound lines) := by
  have none : ∀ lines, ReadsItems budget lines ([], lines) :=
    fun lines => ⟨by simp, List.suffix_rfl⟩
  induction bound generalizing lines with
  | zero => exact none lines
  | succ bound ih =>
    cases lines with
    | nil => exact none []
    | cons line rest =>
      rcases Nat.lt_trichotomy line.indent indent with left | rfl | right
      · rw [readItems, if_pos left]
        exact none _
      · cases item : isItem line.text with
        | false =>
          rw [readItems, if_neg (Nat.lt_irrefl _), if_neg (Nat.lt_irrefl _), item]
          exact none _
        | true =>
          refine (readItems_item_meets sound tidy item fun lines tidy => ih tidy).values ?_
          exact fun result reads => ⟨reads.1, reads.2.trans (List.suffix_cons line rest)⟩
      · rw [readItems, if_neg (Nat.lt_asymm right), if_pos right]
        exact FaultIn.startBadIndentation tidy right

def ReadsEntries (budget : Nat) (lines : List Line) (result : Fields Node × List Line) : Prop :=
  Node.FieldsFit budget result.1 ∧ result.2 <:+ lines

theorem readValue_meets {line : Line} {rest : List Line} (tidy : Tidy (line :: rest))
    {entry : Entry} (suffix : entry.value <:+ line.text)
    (column : entry.column + entry.value.length = line.span.stop) :
    Meets (ReadsBlock budget rest) (FaultIn (line.indent + 1) (line :: rest))
      (if entry.value.isEmpty then readNested readBlock line.indent true rest
        else (readInline line.number entry.column budget entry.value).map (·, rest)) := by
  split
  · exact (readNested_meets sound tidy.tail line.indent true).faults
      fun e fault => fault.mono (Nat.le_refl _) (List.subset_cons_self line rest)
  · have meets := readInline_meets line.number entry.column budget entry.value
    rw [column] at meets
    refine (meets.faults fun e located => ?_).map fun node fits => ⟨fits, List.suffix_rfl⟩
    exact .of_located (located.mono suffix) _ (List.mem_cons_self ..)

theorem readEntries_entry_meets {line : Line} {rest whole : List Line} {bound : Nat} {entry : Entry}
    {fields : Fields Node} (tidy : Tidy (line :: rest)) (inside : line :: rest <:+ whole)
    (noItem : isItem line.text = false) (written : line.entry? = .ok (some entry))
    (fit : Node.FieldsFit budget fields) (before : KeysBefore whole fields (line :: rest))
    (following : ∀ fields lines, Tidy lines → lines <:+ whole → Node.FieldsFit budget fields →
      KeysBefore whole fields lines →
      Meets (ReadsEntries budget lines) (FaultIn (line.indent + 1) whole)
        (readEntries readBlock budget line.indent bound fields lines)) :
    Meets (ReadsEntries budget rest) (FaultIn (line.indent + 1) whole)
      (readEntries readBlock budget line.indent (bound + 1) fields (line :: rest)) := by
  have meets := entry?_meets line
  rw [written] at meets
  obtain ⟨starts, suffix, column⟩ := meets entry rfl
  have member : line ∈ whole := inside.subset (List.mem_cons_self ..)
  cases known : fields.contains entry.key with
  | true =>
    rw [readEntries, if_neg (Nat.lt_irrefl _), if_neg (Nat.lt_irrefl _), noItem,
      if_neg Bool.false_ne_true, written]
    dsimp only [bind, Except.bind]
    rw [known, if_pos rfl]
    refine FaultIn.start member starts (fun same => nomatch same) ?_
    rintro key ⟨⟩
    exact before entry.key (Fields.contains_iff.mp known) line (List.mem_cons_self ..) _
  | false =>
    rw [readEntries_entry noItem written known]
    refine ((readValue_meets sound tidy suffix column).faults fun e fault =>
      fault.mono (Nat.le_refl _) inside.subset).bind ?_
    rintro ⟨value, between⟩ ⟨fits, last⟩
    have further : between <:+ whole := last.trans ((List.suffix_cons line rest).trans inside)
    refine (following _ between (tidy.tail.suffix last) further (fit.insert known fits)
      (before.insert tidy member starts known last)).values ?_
    exact fun result reads => ⟨reads.1, reads.2.trans last⟩

theorem readEntries_meets (bound : Nat) {whole lines : List Line} {fields : Fields Node}
    (tidy : Tidy lines) (inside : lines <:+ whole) (fit : Node.FieldsFit budget fields)
    (before : KeysBefore whole fields lines) :
    Meets (ReadsEntries budget lines) (FaultIn (indent + 1) whole)
      (readEntries readBlock budget indent bound fields lines) := by
  induction bound generalizing lines fields with
  | zero => exact ⟨fit, List.suffix_rfl⟩
  | succ bound ih =>
    cases lines with
    | nil => exact ⟨fit, List.suffix_rfl⟩
    | cons line rest =>
      have member : line ∈ whole := inside.subset (List.mem_cons_self ..)
      rcases Nat.lt_trichotomy line.indent indent with left | rfl | right
      · rw [readEntries, if_pos left]
        exact ⟨fit, List.suffix_rfl⟩
      · cases item : isItem line.text with
        | true =>
          rw [readEntries, if_neg (Nat.lt_irrefl _), if_neg (Nat.lt_irrefl _), item, if_pos rfl]
          exact FaultIn.startUnexpected member _ _
        | false =>
          cases written : line.entry? with
          | error e =>
            have meets := entry?_meets line
            rw [written] at meets
            rw [readEntries, if_neg (Nat.lt_irrefl _), if_neg (Nat.lt_irrefl _), item,
              if_neg Bool.false_ne_true, written]
            exact FaultIn.of_located meets _ member
          | ok found =>
            cases found with
            | none =>
              rw [readEntries, if_neg (Nat.lt_irrefl _), if_neg (Nat.lt_irrefl _), item,
                if_neg Bool.false_ne_true, written]
              exact FaultIn.startUnexpected member _ _
            | some entry =>
              refine (readEntries_entry_meets sound tidy inside item written fit before
                fun fields lines tidy inside fit before => ih tidy inside fit before).values ?_
              exact fun result reads => ⟨reads.1, reads.2.trans (List.suffix_cons line rest)⟩
      · rw [readEntries, if_neg (Nat.lt_asymm right), if_pos right]
        exact (FaultIn.startBadIndentation tidy right).mono (Nat.le_refl _) inside.subset

end Blocks

/-- The value fits and what remains are the last lines; or a fault marks a place in one of the
lines. -/
theorem readBlock_meets (budget : Nat) {line : Line} {rest : List Line}
    (tidy : Tidy (line :: rest)) :
    Meets (ReadsBlock budget rest) (FaultIn (line.indent + 1) (line :: rest))
      (readBlock budget (line :: rest)) := by
  induction budget using Nat.strongRecOn generalizing line rest with
  | ind budget ih =>
    have member : line ∈ line :: rest := List.mem_cons_self ..
    rw [readBlock.eq_def]
    dsimp only
    split
    · next item =>
      cases budget with
      | zero => exact FaultIn.startTooDeep tidy _
      | succ budget =>
        have sound := fun line rest (tidy : Tidy (line :: rest)) =>
          ih budget (Nat.lt_succ_self budget) tidy
        refine (readItems_item_meets sound tidy item fun lines tidy =>
          readItems_meets sound _ tidy).map ?_
        exact fun result reads => ⟨Node.fits_sequence reads.1, reads.2⟩
    · next noItem =>
      have noItem : isItem line.text = false := Bool.not_eq_true _ ▸ noItem
      have meets := entry?_meets line
      cases written : line.entry? with
      | error e =>
        rw [written] at meets
        exact FaultIn.of_located meets _ member
      | ok found =>
        cases found with
        | none =>
          have inline := readInline_meets line.number (line.indent + 1) budget line.text
          rw [Nat.add_right_comm] at inline
          refine (inline.faults fun e located => ?_).bind fun node fits =>
            ⟨fits, List.suffix_rfl⟩
          exact FaultIn.of_located located _ member
        | some entry =>
          cases budget with
          | zero => exact FaultIn.startTooDeep tidy _
          | succ budget =>
            have sound := fun line rest (tidy : Tidy (line :: rest)) =>
              ih budget (Nat.lt_succ_self budget) tidy
            refine (readEntries_entry_meets sound tidy List.suffix_rfl noItem written (.nil budget)
              (fun _ member => absurd member List.not_mem_nil)
              fun fields lines tidy inside fit before =>
                readEntries_meets sound _ tidy inside fit before).map ?_
            exact fun result reads => ⟨reads.1.mapping, reads.2⟩

theorem readDocument_meets {lines : List Line} (tidy : Tidy lines) :
    Meets (Node.Fits maxDepth) (FaultIn 0 lines) (readDocument lines) := by
  cases lines with
  | nil => exact Node.fits_scalar maxDepth .null
  | cons first rest =>
    refine ((readBlock_meets maxDepth tidy).faults fun e fault =>
      fault.mono (Nat.zero_le _) (List.Subset.refl _)).bind ?_
    rintro ⟨node, after⟩ ⟨fits, last⟩
    dsimp only
    split
    · exact fits
    · next line more =>
      have member : line ∈ first :: rest :=
        List.mem_cons_of_mem first (last.subset (List.mem_cons_self ..))
      have tidy := tidy.tail.suffix last
      split
      · exact FaultIn.startUnexpected member _ _
      · exact (FaultIn.startBadIndentation tidy (Nat.zero_le _)).mono (Nat.le_refl _)
          (List.subset_cons_of_subset first last.subset)

end ParticleSim.Outline
