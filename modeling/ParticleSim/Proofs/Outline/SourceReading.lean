import ParticleSim.Proofs.Outline.BlockReading

namespace ParticleSim.Outline

/-! The search for comments. -/

/-- A fault of the text that starts at a column: a tab, or a quoted scalar that is never closed. -/
def Astray (number column : Nat) (text : List Char) (e : ParseError) : Prop :=
  e.line = number ∧ (e.fault = .tab ∨ e.fault = .unterminatedQuote) ∧
    ∃ before place, text = before ++ place ∧ e.column = column + before.length ∧
      e.fault.Marks before place

/-- A fault of the text, or of the quoted scalar that is open in front of it. -/
def Misread (number : Nat) (scan : Scan) (column : Nat) (text : List Char) (e : ParseError) :
    Prop :=
  Astray number column text e ∨ ∃ mark opened, scan = .quoted mark opened ∧
    e = ⟨number, opened, .unterminatedQuote⟩ ∧ Quoted.length? (mark :: text) = none

theorem Astray.append {number column : Nat} (form : List Char) {text : List Char} {e : ParseError}
    (astray : Astray number (column + form.length) text e) :
    Astray number column (form ++ text) e := by
  obtain ⟨line, kind, before, place, same, start, marks⟩ := astray
  refine ⟨line, kind, form ++ before, place, ?_, ?_, ?_⟩
  · rw [same, List.append_assoc]
  · rw [start, List.length_append, Nat.add_assoc]
  · rcases kind with tab | quote
    · rw [tab] at marks ⊢
      exact marks
    · rw [quote] at marks ⊢
      exact marks

theorem Misread.append {number column opened : Nat} {mark : Char} (form : List Char)
    {text : List Char} {e : ParseError}
    (misread : Misread number (.quoted mark opened) (column + form.length) text e)
    (measures : Quoted.length? (mark :: text) = none →
      Quoted.length? (mark :: (form ++ text)) = none) :
    Misread number (.quoted mark opened) column (form ++ text) e := by
  rcases misread with astray | ⟨_, _, same, fault, never⟩
  · exact .inl (astray.append form)
  · cases same
    exact .inr ⟨mark, opened, rfl, fault, measures never⟩

/-- The mark of a scalar that is never closed stands where it opened. -/
theorem Misread.after {number column : Nat} {previous significant : Option Char} {c : Char}
    {text : List Char} {e : ParseError}
    (misread : Misread number (Scan.after previous significant column c) (column + 1) text e) :
    Astray number column (c :: text) e := by
  rcases misread with astray | ⟨mark, opened, same, rfl, never⟩
  · exact Astray.append [c] astray
  · rw [Scan.after] at same
    split at same
    · next opens =>
      cases same
      exact ⟨rfl, .inr rfl, [], _, rfl, rfl, ⟨c, rfl, (Bool.and_eq_true _ _ ▸ opens).1⟩, never⟩
    · cases same

/-! Scalars that are never closed. -/

namespace Quoted

theorem eq_of_isQuote {mark : Char} (isMark : isQuote mark = true) : mark = '"' ∨ mark = '\'' := by
  rwa [isQuote, Bool.or_eq_true, beq_iff_eq, beq_iff_eq] at isMark

theorem length?_double (text : List Char) : length? ('"' :: text) = none ↔ endDouble text = none :=
  Option.map_eq_none_iff

theorem length?_single (text : List Char) : length? ('\'' :: text) = none ↔ endSingle text = none :=
  Option.map_eq_none_iff

theorem length?_empty {mark : Char} (isMark : isQuote mark = true) : length? [mark] = none := by
  rcases eq_of_isQuote isMark with rfl | rfl
  · rfl
  · rfl

theorem length?_escape (letter : Char) {text : List Char} (never : length? ('"' :: text) = none) :
    length? ('"' :: '\\' :: letter :: text) = none := by
  rw [length?_double, endDouble_escape, Option.map_eq_none_iff]
  exact (length?_double text).mp never

theorem length?_doubled {text : List Char} (never : length? ('\'' :: text) = none) :
    length? ('\'' :: '\'' :: '\'' :: text) = none := by
  rw [length?_single, endSingle_double, Option.map_eq_none_iff]
  exact (length?_single text).mp never

theorem length?_other {mark c : Char} (isMark : isQuote mark = true) (other : c ≠ mark)
    (noEscape : mark = '"' → c ≠ '\\') {text : List Char}
    (never : length? (mark :: text) = none) : length? (mark :: c :: text) = none := by
  rcases eq_of_isQuote isMark with rfl | rfl
  · rw [length?_double, endDouble_inert ⟨other, noEscape rfl⟩, Option.map_eq_none_iff]
    exact (length?_double text).mp never
  · rw [length?_single, endSingle_other other, Option.map_eq_none_iff]
    exact (length?_single text).mp never

end Quoted

theorem meets_copy {bad bad' : ParseError → Prop} {text : List Char}
    {result : Except ParseError (List Char)} (meets : Meets (· <+: text) bad result)
    (form : List Char) (faults : ∀ e, bad e → bad' e) :
    Meets (· <+: form ++ text) bad' (result.map (form ++ ·)) :=
  (meets.faults faults).map fun _ kept => (List.prefix_append_right_inj form).mpr kept

theorem withoutComment_meets (number : Nat) (scan : Scan) (column : Nat) (text : List Char)
    (isMark : ∀ mark opened, scan = .quoted mark opened → Quoted.isQuote mark = true) :
    Meets (· <+: text) (Misread number scan column text)
      (withoutComment number scan column text) := by
  fun_induction withoutComment number scan column text with
  | case1 => exact List.prefix_rfl
  | case2 mark opened =>
    exact .inr ⟨mark, opened, rfl, rfl, Quoted.length?_empty (isMark mark opened rfl)⟩
  | case3 previous significant column rest =>
    exact .inl ⟨rfl, .inl rfl, [], _, rfl, rfl, rfl⟩
  | case4 => exact List.nil_prefix
  | case5 previous significant column c rest _ _ scan ih =>
    refine meets_copy (ih ?_) [c] fun e misread => .inl misread.after
    intro mark opened same
    dsimp only [scan, Scan.after] at same
    split at same
    · next opens =>
      cases same
      exact (Bool.and_eq_true _ _ ▸ opens).1
    · cases same
  | case6 mark opened column c escape =>
    rw [Bool.and_eq_true, decide_eq_true_eq, decide_eq_true_eq] at escape
    obtain ⟨rfl, rfl⟩ := escape
    exact .inr ⟨_, opened, rfl, rfl, rfl⟩
  | case7 mark opened column c escape letter rest ih =>
    rw [Bool.and_eq_true, decide_eq_true_eq, decide_eq_true_eq] at escape
    obtain ⟨rfl, rfl⟩ := escape
    exact meets_copy (ih isMark) ['\\', letter] fun e misread =>
      Misread.append ['\\', letter] misread (Quoted.length?_escape letter)
  | case8 => exact List.prefix_rfl
  | case9 opened column mark d rest _ doubled ih =>
    rw [Bool.and_eq_true, decide_eq_true_eq, decide_eq_true_eq] at doubled
    obtain ⟨rfl, rfl⟩ := doubled
    exact meets_copy (ih isMark) ['\'', '\''] fun e misread =>
      Misread.append ['\'', '\''] misread Quoted.length?_doubled
  | case10 opened column mark d rest _ _ ih =>
    refine meets_copy (ih (fun _ _ same => nomatch same)) [mark] fun e misread => .inl ?_
    rcases misread with astray | ⟨_, _, same, -⟩
    · exact Astray.append [mark] astray
    · cases same
  | case11 mark opened column c rest noEscape other ih =>
    refine meets_copy (ih isMark) [c] fun e misread => Misread.append [c] misread ?_
    refine Quoted.length?_other (isMark mark opened rfl) other ?_
    rintro rfl rfl
    exact noEscape rfl

/-! The lines of the source. -/

theorem Blank.eq_replicate {gap : List Char} (blank : Blank gap) :
    gap = List.replicate gap.length ' ' :=
  List.eq_replicate_iff.mpr ⟨rfl, blank⟩

def Line.written (line : Line) : List Char :=
  List.replicate line.indent ' ' ++ line.text

theorem ofSource?_meets (number : Nat) (source : List Char) :
    Meets (fun found => ∀ line ∈ found, line.number = number ∧
        (∃ c rest, line.text = c :: rest ∧ c ≠ ' ') ∧ line.written <+: dropReturn source)
      (Astray number 1 (dropReturn source)) (Line.ofSource? number source) := by
  obtain ⟨gap, blank, same⟩ := exists_blank_skipSpaces (dropReturn source)
  have indent : (dropReturn source).length - (skipSpaces (dropReturn source)).length =
      gap.length := by
    have count := congrArg List.length same
    rw [List.length_append] at count
    omega
  rw [Line.ofSource?]
  dsimp only
  rw [indent]
  have meets := withoutComment_meets number (.plain none none) (gap.length + 1)
    (skipSpaces (dropReturn source)) (fun _ _ same => nomatch same)
  refine (meets.faults fun e misread => ?_).map fun kept inside => ?_
  · rcases misread with astray | ⟨_, _, same, -⟩
    · rw [same]
      rw [Nat.add_comm] at astray
      exact astray.append gap
    · cases same
  · split
    · exact fun line found => absurd found (by simp)
    · next filled =>
      rintro line ⟨⟩
      have text : trimEnd kept <+: skipSpaces (dropReturn source) :=
        (trimEnd_isPrefix kept).trans inside
      refine ⟨rfl, ?_, ?_⟩
      · dsimp only
        rw [List.isEmpty_iff] at filled
        obtain ⟨c, rest, left⟩ := List.exists_cons_of_ne_nil filled
        rw [left] at text ⊢
        obtain ⟨more, whole⟩ := text
        exact ⟨c, rest, rfl, ne_space_of_skipSpaces whole.symm⟩
      · rw [Line.written, ← blank.eq_replicate]
        conv_rhs => rw [same]
        exact (List.prefix_append_right_inj gap).mpr text

def SourceAt (start : Nat) (sources : List (List Char)) (number : Nat) (source : List Char) :
    Prop :=
  ∃ i, sources[i]? = some source ∧ number = start + i

theorem SourceAt.head (start : Nat) (source : List Char) (rest : List (List Char)) :
    SourceAt start (source :: rest) start source := ⟨0, rfl, rfl⟩

theorem SourceAt.tail {start number : Nat} {first source : List Char} {rest : List (List Char)}
    (at_ : SourceAt (start + 1) rest number source) :
    SourceAt start (first :: rest) number source := by
  obtain ⟨i, found, rfl⟩ := at_
  exact ⟨i + 1, found, by omega⟩

/-- The lines with content come from lines of the source, in order; or a line of the source has a
fault. -/
theorem contentLines_meets (first : Bool) (number : Nat) (sources : List (List Char)) :
    Meets (fun lines => Tidy lines ∧ ∀ line ∈ lines, ∃ source,
        SourceAt number sources line.number source ∧
        Line.ofSource? line.number source = .ok (some line))
      (fun e => ∃ source, SourceAt number sources e.line source ∧
        Line.ofSource? e.line source = .error e)
      (contentLines first number sources) := by
  induction sources generalizing first number with
  | nil => exact ⟨⟨by simp, List.Pairwise.nil⟩, by simp⟩
  | cons source rest ih =>
    -- what comes from the lines behind the first comes from all lines
    have behind : ∀ flag, Meets (fun lines => Tidy lines ∧ ∀ line ∈ lines, number < line.number ∧
          ∃ other, SourceAt number (source :: rest) line.number other ∧
            Line.ofSource? line.number other = .ok (some line))
        (fun e => ∃ other, SourceAt number (source :: rest) e.line other ∧
          Line.ofSource? e.line other = .error e) (contentLines flag (number + 1) rest) := by
      intro flag
      refine (ih flag (number + 1)).imp ?_ ?_
      · rintro lines ⟨tidy, from_⟩
        refine ⟨tidy, fun line member => ?_⟩
        obtain ⟨other, at_, read⟩ := from_ line member
        obtain ⟨i, -, later⟩ := id at_
        exact ⟨by omega, other, at_.tail, read⟩
      · rintro e ⟨other, at_, read⟩
        exact ⟨other, at_.tail, read⟩
    have meets := ofSource?_meets number source
    rw [contentLines]
    cases read : Line.ofSource? number source with
    | error e =>
      rw [read] at meets
      obtain ⟨rfl, -⟩ := meets
      exact ⟨source, SourceAt.head .., read⟩
    | ok found =>
      cases found with
      | none => exact (behind first).values fun lines good =>
          ⟨good.1, fun line member => (good.2 line member).2⟩
      | some line =>
        rw [read] at meets
        obtain ⟨rfl, content, -⟩ := meets line rfl
        dsimp only [bind, Except.bind]
        split
        · exact (behind first).values fun lines good =>
            ⟨good.1, fun line member => (good.2 line member).2⟩
        · refine Meets.bind (behind false) ?_
          rintro lines ⟨tidy, from_⟩
          refine ⟨⟨List.forall_mem_cons.mpr ⟨content, tidy.content⟩,
            List.pairwise_cons.mpr ⟨fun other member => (from_ other member).1, tidy.ascending⟩⟩,
            List.forall_mem_cons.mpr ⟨⟨source, SourceAt.head .., read⟩,
              fun other member => (from_ other member).2⟩⟩

end ParticleSim.Outline
