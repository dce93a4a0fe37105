import ParticleSim.Proofs.Outline.Position

namespace ParticleSim.Outline

def ReadsValue (number : Nat) (value : List Char) : Prop :=
  value = [] ∨ ∃ column budget node, readInline number column budget value = .ok node

/-- The line is an item that holds nothing or what is a line again, an entry, or a value. -/
inductive Line.Accepted : Line → Prop where
  | item {line : Line} (item : isItem line.text = true)
    (inside : line.afterDash.text ≠ [] → line.afterDash.Accepted) : line.Accepted
  | entry {line : Line} {entry : Entry} (noItem : isItem line.text = false)
    (written : line.entry? = .ok (some entry)) (read : ReadsValue line.number entry.value) :
    line.Accepted
  | value {line : Line} (noItem : isItem line.text = false) (noEntry : line.entry? = .ok none)
    (read : ReadsValue line.number line.text) : line.Accepted

def Consumes (lines rest : List Line) : Prop :=
  ∃ consumed, lines = consumed ++ rest ∧ ∀ line ∈ consumed, line.Accepted

namespace Consumes

variable {lines between rest : List Line} {line : Line}

theorem refl (lines : List Line) : Consumes lines lines :=
  ⟨[], rfl, by simp⟩

theorem trans (first : Consumes lines between) (second : Consumes between rest) :
    Consumes lines rest := by
  obtain ⟨front, rfl, accepted⟩ := first
  obtain ⟨back, rfl, further⟩ := second
  refine ⟨front ++ back, (List.append_assoc ..).symm, ?_⟩
  intro line member
  exact (List.mem_append.mp member).elim (accepted line) (further line)

theorem cons (accepted : line.Accepted) (consumes : Consumes lines rest) :
    Consumes (line :: lines) rest := by
  obtain ⟨consumed, rfl, further⟩ := consumes
  exact ⟨line :: consumed, rfl, List.forall_mem_cons.mpr ⟨accepted, further⟩⟩

end Consumes

/-! The readers of blocks take any reader of nested blocks that accepts the first line and consumes
those behind it. -/

section Blocks

variable {budget indent : Nat} {readBlock : List Line → Except ParseError (Node × List Line)}
variable (sound : ∀ line rest, Meets (fun result => line.Accepted ∧ Consumes rest result.2)
  (fun _ => True) (readBlock (line :: rest)))
include sound

theorem readNested_consumes (parent : Nat) (sameLevel : Bool) (lines : List Line) :
    Meets (fun result => Consumes lines result.2) (fun _ => True)
      (readNested readBlock parent sameLevel lines) := by
  rw [readNested.eq_def]
  split
  · exact .refl []
  · next line rest =>
    split
    · exact (sound line rest).values fun result reads => .cons reads.1 reads.2
    · exact .refl _

theorem readItems_item_consumes {line : Line} {rest : List Line} {bound : Nat}
    (item : isItem line.text = true)
    (following : ∀ lines, Meets (fun result => Consumes lines result.2) (fun _ => True)
      (readItems readBlock line.indent bound lines)) :
    Meets (fun result => line.Accepted ∧ Consumes rest result.2) (fun _ => True)
      (readItems readBlock line.indent (bound + 1) (line :: rest)) := by
  have inside : Meets (fun result => line.Accepted ∧ Consumes rest result.2) (fun _ => True)
      (if line.afterDash.text.isEmpty then readNested readBlock line.indent false rest
        else readBlock (line.afterDash :: rest)) := by
    split
    · next empty =>
      have accepted : line.Accepted :=
        .item item fun filled => absurd (List.isEmpty_iff.mp empty) filled
      exact (readNested_consumes sound line.indent false rest).values fun result consumes =>
        ⟨accepted, consumes⟩
    · exact (sound line.afterDash rest).values fun result reads =>
        ⟨.item item fun _ => reads.1, reads.2⟩
  rw [readItems_item item]
  apply inside.bind
  rintro ⟨first, between⟩ ⟨accepted, consumes⟩
  apply (following between).bind
  rintro ⟨items, last⟩ further
  exact ⟨accepted, consumes.trans further⟩

theorem readItems_consumes (bound : Nat) (lines : List Line) :
    Meets (fun result => Consumes lines result.2) (fun _ => True)
      (readItems readBlock indent bound lines) := by
  induction bound generalizing lines with
  | zero => exact .refl lines
  | succ bound ih =>
    cases lines with
    | nil => exact .refl []
    | cons line rest =>
      rcases Nat.lt_trichotomy line.indent indent with left | rfl | right
      · rw [readItems, if_pos left]
        exact .refl _
      · cases item : isItem line.text with
        | false =>
          rw [readItems, if_neg (Nat.lt_irrefl _), if_neg (Nat.lt_irrefl _), item]
          exact .refl _
        | true =>
          exact (readItems_item_consumes sound item ih).values fun result reads =>
            .cons reads.1 reads.2
      · rw [readItems, if_neg (Nat.lt_asymm right), if_pos right]
        trivial

theorem readEntries_entry_consumes {line : Line} {rest : List Line} {bound : Nat} {entry : Entry}
    {fields : Fields Node} (noItem : isItem line.text = false)
    (written : line.entry? = .ok (some entry))
    (following : ∀ fields lines, Meets (fun result => Consumes lines result.2) (fun _ => True)
      (readEntries readBlock budget line.indent bound fields lines)) :
    Meets (fun result => line.Accepted ∧ Consumes rest result.2) (fun _ => True)
      (readEntries readBlock budget line.indent (bound + 1) fields (line :: rest)) := by
  have value : Meets (fun result => line.Accepted ∧ Consumes rest result.2) (fun _ => True)
      (if entry.value.isEmpty then readNested readBlock line.indent true rest
        else (readInline line.number entry.column budget entry.value).map (·, rest)) := by
    split
    · next empty =>
      have accepted : line.Accepted :=
        .entry noItem written (.inl (List.isEmpty_iff.mp empty))
      exact (readNested_consumes sound line.indent true rest).values fun result consumes =>
        ⟨accepted, consumes⟩
    · cases read : readInline line.number entry.column budget entry.value with
      | error e => trivial
      | ok node => exact ⟨.entry noItem written (.inr ⟨_, _, node, read⟩), .refl rest⟩
  cases known : fields.contains entry.key with
  | true =>
    rw [readEntries, if_neg (Nat.lt_irrefl _), if_neg (Nat.lt_irrefl _), noItem,
      if_neg Bool.false_ne_true, written]
    dsimp only [bind, Except.bind]
    rw [known, if_pos rfl]
    trivial
  | false =>
    rw [readEntries_entry noItem written known]
    apply value.bind
    rintro ⟨node, between⟩ ⟨accepted, consumes⟩
    exact (following _ between).values fun result further => ⟨accepted, consumes.trans further⟩

theorem readEntries_consumes (bound : Nat) (fields : Fields Node) (lines : List Line) :
    Meets (fun result => Consumes lines result.2) (fun _ => True)
      (readEntries readBlock budget indent bound fields lines) := by
  induction bound generalizing fields lines with
  | zero => exact .refl lines
  | succ bound ih =>
    cases lines with
    | nil => exact .refl []
    | cons line rest =>
      rcases Nat.lt_trichotomy line.indent indent with left | rfl | right
      · rw [readEntries, if_pos left]
        exact .refl _
      · cases item : isItem line.text with
        | true =>
          rw [readEntries, if_neg (Nat.lt_irrefl _), if_neg (Nat.lt_irrefl _), item, if_pos rfl]
          trivial
        | false =>
          cases written : line.entry? with
          | error e =>
            rw [readEntries, if_neg (Nat.lt_irrefl _), if_neg (Nat.lt_irrefl _), item,
              if_neg Bool.false_ne_true, written]
            trivial
          | ok found =>
            cases found with
            | none =>
              rw [readEntries, if_neg (Nat.lt_irrefl _), if_neg (Nat.lt_irrefl _), item,
                if_neg Bool.false_ne_true, written]
              trivial
            | some entry =>
              exact (readEntries_entry_consumes sound item written ih).values fun result reads =>
                .cons reads.1 reads.2
      · rw [readEntries, if_neg (Nat.lt_asymm right), if_pos right]
        trivial

end Blocks

theorem readBlock_consumes (budget : Nat) (line : Line) (rest : List Line) :
    Meets (fun result => line.Accepted ∧ Consumes rest result.2) (fun _ => True)
      (readBlock budget (line :: rest)) := by
  induction budget using Nat.strongRecOn generalizing line rest with
  | ind budget ih =>
    rw [readBlock.eq_def]
    dsimp only
    split
    · next item =>
      cases budget with
      | zero => trivial
      | succ budget =>
        have sound := ih budget (Nat.lt_succ_self budget)
        exact (readItems_item_consumes sound item fun lines =>
          readItems_consumes sound _ lines).map fun result reads => reads
    · next noItem =>
      have noItem : isItem line.text = false := Bool.not_eq_true _ ▸ noItem
      cases written : line.entry? with
      | error e => trivial
      | ok found =>
        cases found with
        | none =>
          cases read : readInline line.number (line.indent + 1) budget line.text with
          | error e => trivial
          | ok node => exact ⟨.value noItem written (.inr ⟨_, _, node, read⟩), .refl rest⟩
        | some entry =>
          cases budget with
          | zero => trivial
          | succ budget =>
            have sound := ih budget (Nat.lt_succ_self budget)
            exact (readEntries_entry_consumes sound noItem written fun fields lines =>
              readEntries_consumes sound _ fields lines).map fun result reads => reads

theorem readDocument_accepts {lines : List Line} {tree : Node}
    (read : readDocument lines = .ok tree) : ∀ line ∈ lines, line.Accepted := by
  cases lines with
  | nil => simp
  | cons first rest =>
    have meets := readBlock_consumes maxDepth first rest
    rw [readDocument] at read
    cases block : readBlock maxDepth (first :: rest) with
    | error e =>
      rw [block] at read
      cases read
    | ok result =>
      rw [block] at read meets
      obtain ⟨accepted, consumed, rfl, further⟩ := meets
      -- a line that is left over is a fault
      have none : result.2 = [] := by
        cases left : result.2 with
        | nil => rfl
        | cons line more =>
          dsimp only [bind, Except.bind] at read
          rw [left] at read
          dsimp only at read
          split at read
          · cases read
          · cases read
      rw [none, List.append_nil]
      exact List.forall_mem_cons.mpr ⟨accepted, further⟩

/-- A line with content is among those that are read, unless it is the marker. -/
theorem mem_contentLines {first : Bool} {number : Nat} {sources : List (List Char)}
    {lines : List Line} (read : contentLines first number sources = .ok lines) {i : Nat}
    {source : List Char} (at_ : sources[i]? = some source) {line : Line}
    (content : Line.ofSource? (number + i) source = .ok (some line)) :
    line ∈ lines ∨ line.isMarker = true := by
  induction sources generalizing first number lines i with
  | nil => simp at at_
  | cons head rest ih =>
    rw [contentLines] at read
    cases found : Line.ofSource? number head with
    | error e =>
      rw [found] at read
      cases read
    | ok here =>
      rw [found] at read
      -- the line stands on the first line of the source, or behind it
      have behind : ∀ {j flag more}, i = j + 1 → contentLines flag (number + 1) rest = .ok more →
          line ∈ more ∨ line.isMarker = true := by
        rintro j flag more rfl read
        apply ih read at_
        rwa [Nat.add_right_comm]
      have starts : i = 0 → here = some line := by
        rintro rfl
        cases at_
        rw [Nat.add_zero, found] at content
        exact Except.ok.inj content
      cases here with
      | none =>
        cases i with
        | zero => cases starts rfl
        | succ j => exact behind rfl read
      | some other =>
        dsimp only [bind, Except.bind] at read
        split at read
        · next marker =>
          cases i with
          | zero =>
            cases starts rfl
            exact .inr (Bool.and_eq_true _ _ ▸ marker).2
          | succ j => exact behind rfl read
        · cases later : contentLines false (number + 1) rest with
          | error e =>
            rw [later] at read
            cases read
          | ok more =>
            rw [later] at read
            cases read
            cases i with
            | zero =>
              cases starts rfl
              exact .inl (List.mem_cons_self ..)
            | succ j => exact (behind rfl later).imp_left (List.mem_cons_of_mem _)

/-- The marker could be read as a value: it is a text of dashes. -/
theorem Line.accepted_of_isMarker {line : Line} (marker : line.isMarker = true) :
    line.Accepted := by
  obtain ⟨number, indent, text⟩ := line
  rw [Line.isMarker, Bool.and_eq_true, beq_iff_eq, beq_iff_eq] at marker
  obtain ⟨rfl, rfl⟩ := marker
  exact .value rfl rfl (.inr ⟨1, 0, _, rfl⟩)

theorem accepted_of_parse {text : String} {tree : Node} (read : parse text = .ok tree) {i : Nat}
    {source : List Char} (at_ : (sourceLines text)[i]? = some source) {line : Line}
    (content : Line.ofSource? (i + 1) source = .ok (some line)) : line.Accepted := by
  rw [parse] at read
  cases lines : Line.ofText text.toList with
  | error e =>
    rw [lines] at read
    cases read
  | ok all =>
    rw [lines] at read
    rw [Nat.add_comm] at content
    rcases mem_contentLines lines at_ content with member | marker
    · exact readDocument_accepts read line member
    · exact line.accepted_of_isMarker marker

end ParticleSim.Outline
