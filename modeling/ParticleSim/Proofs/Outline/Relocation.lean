import ParticleSim.Proofs.Outline.BlockReading
/-!
Reading lines in another place. When the lines have other numbers and stand further in, all by the
same number of columns, readers find the same tree, or the same fault in the other place.
-/
namespace ParticleSim.Outline

/-- How lines change their place: their numbers, and how far they move to the right. -/
structure Shift where
  renumber : Nat → Nat
  right : Nat

def ParseError.move (shift : Shift) (e : ParseError) : ParseError :=
  ⟨shift.renumber e.line, e.column + shift.right, e.fault⟩

def Line.move (shift : Shift) (line : Line) : Line :=
  ⟨shift.renumber line.number, line.indent + shift.right, line.text⟩

@[simp]
theorem Line.move_number (shift : Shift) (line : Line) :
    (line.move shift).number = shift.renumber line.number := rfl

@[simp]
theorem Line.move_indent (shift : Shift) (line : Line) :
    (line.move shift).indent = line.indent + shift.right := rfl

@[simp]
theorem Line.move_text (shift : Shift) (line : Line) : (line.move shift).text = line.text := rfl

def Entry.move (shift : Shift) (entry : Entry) : Entry :=
  ⟨entry.key, entry.value, entry.column + shift.right⟩

def Flow.Span.move (shift : Shift) (span : Flow.Span) : Flow.Span :=
  ⟨shift.renumber span.line, span.stop + shift.right⟩

/-- The second outcome is the first one in another place, with its value changed as well. -/
def Moves {α β : Type} (shift : Shift) (value : α → β) (first : Except ParseError α)
    (second : Except ParseError β) : Prop :=
  second = (first.map value).mapError (ParseError.move shift)

namespace Moves

variable {α β γ δ : Type} {shift : Shift} {value : α → β} {value' : γ → δ}
  {first : Except ParseError α} {second : Except ParseError β}

theorem bind (moves : Moves shift value first second) {next : α → Except ParseError γ}
    {next' : β → Except ParseError δ}
    (after : ∀ a, first = .ok a → Moves shift value' (next a) (next' (value a))) :
    Moves shift value' (first >>= next) (second >>= next') := by
  cases first with
  | error e =>
    rw [moves]
    rfl
  | ok a =>
    rw [moves]
    exact after a rfl

theorem map (moves : Moves shift value first second) {f : α → γ} {f' : β → δ}
    (after : ∀ a, f' (value a) = value' (f a)) :
    Moves shift value' (first.map f) (second.map f') := by
  cases first with
  | error e =>
    rw [moves]
    rfl
  | ok a =>
    rw [moves]
    exact congrArg Except.ok (after a)

/-- Where the value stays as it is, the outcomes differ in the place of a fault. -/
theorem eq {first second : Except ParseError α} (moves : Moves shift id first second) :
    second = first.mapError (ParseError.move shift) := by
  rw [moves]
  cases first with
  | error e => rfl
  | ok a => rfl

end Moves

theorem Meets.of_ok {ε α : Type} {good : α → Prop} {bad : ε → Prop} {result : Except ε α} {a : α}
    (meets : Meets good bad result) (read : result = .ok a) : good a := by
  rw [read] at meets
  exact meets

theorem readAt_moves (shift : Shift) (line column : Nat) (text : List Char) :
    Moves shift id (Quoted.readAt line column text)
      (Quoted.readAt (shift.renumber line) (column + shift.right) text) := by
  rw [Quoted.readAt, Quoted.readAt]
  cases Quoted.read text with
  | ok result => rfl
  | error flaw =>
    cases flaw with
    | unterminated => rfl
    | badEscape offset sequence =>
      have same : column + shift.right + offset = column + offset + shift.right :=
        Nat.add_right_comm ..
      rw [Moves]
      dsimp only [Except.map, Except.mapError, Quoted.Flaw.toError, ParseError.move]
      rw [same]

/-! Flow collections. -/

namespace Flow

variable {shift : Shift} {span : Span}

theorem Span.column_move {text : List Char} (room : text.length ≤ span.stop) :
    (span.move shift).column text = span.column text + shift.right := by
  rw [Span.column, Span.column, Span.move]
  dsimp only
  omega

theorem fail_moves {α β : Type} {value : α → β} {text : List Char}
    (room : text.length ≤ span.stop) (fault : Fault) :
    Moves shift value (span.fail text fault) ((span.move shift).fail text fault) := by
  rw [Span.fail, Span.fail, Span.column_move room]
  rfl

theorem readKey_moves {text : List Char} (room : text.length ≤ span.stop) :
    Moves shift id (readKey span text) (readKey (span.move shift) text) := by
  have checked : ∀ result : List Char × List Char, Moves shift id
      (if result.1.isEmpty then span.fail text (.unexpected .emptyKey)
        else pure (String.ofList result.1, result.2))
      (if result.1.isEmpty then (span.move shift).fail text (.unexpected .emptyKey)
        else pure (String.ofList result.1, result.2)) := by
    intro result
    split
    · exact fail_moves room _
    · rfl
  rw [readKey.eq_def, readKey.eq_def]
  dsimp only
  split
  · exact checked ([], [])
  · next c rest =>
    split
    · have moves := readAt_moves shift span.line (span.column (c :: rest)) (c :: rest)
      rw [← Span.column_move room] at moves
      exact moves.bind fun result _ => checked result
    · exact checked (readPlain true (c :: rest))

section Values

/-! Readers of items and entries take any reader of values that is sound and moves. -/

variable {budget : Nat} {readValue readValue' : List Char → Except ParseError (Node × List Char)}
variable
  (moves : ∀ text, text.length ≤ span.stop → Moves shift id (readValue text) (readValue' text))
include moves

theorem readEntryValue_moves {opened : List Char} (wide : opened.length ≤ span.stop)
    {text : List Char} (room : text.length ≤ span.stop) :
    Moves shift id (readEntryValue span readValue opened text)
      (readEntryValue (span.move shift) readValue' opened text) := by
  have inside := (skipSpaces_suffix text).length_le
  rw [readEntryValue.eq_def, readEntryValue.eq_def]
  split
  · exact fail_moves wide _
  · next c rest left =>
    rw [left] at inside
    split
    · rfl
    · exact moves _ (Nat.le_trans inside room)

variable (sound : ∀ text, text.length ≤ span.stop →
  Meets (Reads budget text) (Located span text) (readValue text))
include sound

theorem readItems_moves {opened : List Char} (wide : opened.length ≤ span.stop) (bound : Nat)
    {text : List Char} (room : text.length ≤ span.stop) :
    Moves shift id (readItems span readValue opened bound text)
      (readItems (span.move shift) readValue' opened bound text) := by
  induction bound generalizing text with
  | zero => exact fail_moves wide _
  | succ bound ih =>
    have inside := (skipSpaces_suffix text).length_le
    rw [readItems, readItems]
    split
    · exact fail_moves wide _
    · rfl
    · next c rest _ left =>
      rw [left] at inside
      have room := Nat.le_trans inside room
      refine (moves _ room).bind ?_
      rintro ⟨item, rest⟩ read
      have last := ((skipSpaces_suffix rest).trans ((sound _ room).of_ok read).2).length_le
      dsimp only [id]
      split
      · exact fail_moves wide _
      · next more left =>
        rw [left] at last
        have room := Nat.le_trans (Nat.le_of_succ_le last) room
        exact (ih room).bind fun result _ => rfl
      · rfl
      · next d more _ _ left =>
        rw [left] at last
        exact fail_moves (Nat.le_trans last room) _

theorem readEntries_moves {opened : List Char} (wide : opened.length ≤ span.stop) (bound : Nat)
    (fields : Fields Node) {text : List Char} (room : text.length ≤ span.stop) :
    Moves shift id (readEntries span readValue opened bound fields text)
      (readEntries (span.move shift) readValue' opened bound fields text) := by
  induction bound generalizing text fields with
  | zero => exact fail_moves wide _
  | succ bound ih =>
    have inside := (skipSpaces_suffix text).length_le
    rw [readEntries, readEntries]
    split
    · exact fail_moves wide _
    · rfl
    · next c rest _ left =>
      rw [left] at inside
      have room := Nat.le_trans inside room
      refine (readKey_moves room).bind ?_
      rintro ⟨key, afterKey⟩ read
      obtain ⟨written, gap, -, -, same⟩ := (readKey_meets room).of_ok read
      have behind : afterKey <:+ c :: rest := ⟨written ++ gap, same.symm⟩
      have colon := ((skipSpaces_suffix afterKey).trans behind).length_le
      dsimp only [id]
      split
      · exact fail_moves wide _
      · next afterColon left =>
        rw [left] at colon
        have within := Nat.le_trans (Nat.le_of_succ_le colon) room
        refine (readEntryValue_moves moves wide within).bind ?_
        rintro ⟨value, afterValue⟩ read
        have last := ((skipSpaces_suffix afterValue).trans
          ((readEntryValue_meets sound opened within).of_ok read).2).length_le
        dsimp only [id]
        split
        · exact fail_moves room _
        · split
          · exact fail_moves wide _
          · next more left =>
            rw [left] at last
            exact ih _ (Nat.le_trans (Nat.le_of_succ_le last) within)
          · rfl
          · next d more _ _ left =>
            rw [left] at last
            exact fail_moves (Nat.le_trans last within) _
      · next d more _ left =>
        rw [left] at colon
        exact fail_moves (Nat.le_trans colon room) _

end Values

theorem readValue_moves (budget : Nat) {text : List Char} (room : text.length ≤ span.stop) :
    Moves shift id (readValue span budget text) (readValue (span.move shift) budget text) := by
  induction budget using Nat.strongRecOn generalizing text with
  | ind budget ih =>
    have inside := (skipSpaces_suffix text).length_le
    rw [readValue.eq_def, readValue.eq_def]
    dsimp only
    split
    · exact fail_moves (Nat.zero_le _) _
    · next rest left =>
      rw [left] at inside
      have wide := Nat.le_trans inside room
      cases budget with
      | zero => exact fail_moves wide _
      | succ budget =>
        exact (readItems_moves (fun text room => ih budget (Nat.lt_succ_self budget) room)
          (fun text room => readValue_meets budget room) wide _
          (Nat.le_of_succ_le wide)).map fun _ => rfl
    · next rest left =>
      rw [left] at inside
      have wide := Nat.le_trans inside room
      cases budget with
      | zero => exact fail_moves wide _
      | succ budget =>
        exact (readEntries_moves (fun text room => ih budget (Nat.lt_succ_self budget) room)
          (fun text room => readValue_meets budget room) wide _ _
          (Nat.le_of_succ_le wide)).map fun _ => rfl
    · next c rest _ _ left =>
      rw [left] at inside
      have wide := Nat.le_trans inside room
      split
      · have moves := readAt_moves shift span.line (span.column (c :: rest)) (c :: rest)
        rw [← Span.column_move wide] at moves
        exact moves.map fun _ => rfl
      · split
        · exact fail_moves wide _
        · rfl

end Flow

/-! Lines and blocks. -/

variable {shift : Shift}

theorem fail_moves {α β : Type} {value : α → β} (line : Line) (fault : Fault) :
    Moves shift value (line.fail fault) ((line.move shift).fail fault) := by
  rw [Line.fail, Line.fail, Line.move_indent, Nat.add_right_comm]
  rfl

theorem readKey_moves (line : Line) (text : List Char) :
    Moves shift id (readKey line text) (readKey (line.move shift) text) := by
  rw [readKey.eq_def, readKey.eq_def]
  dsimp only [Line.move_number, Line.move_indent]
  rw [Nat.add_right_comm]
  split
  · rfl
  · next c rest _ =>
    split
    · refine (readAt_moves shift line.number (line.indent + 1) (c :: rest)).bind ?_
      rintro ⟨key, after⟩ -
      dsimp only [id]
      split
      · rfl
      · rw [Nat.add_right_comm (line.indent + 1)]
        rfl
    · rfl

theorem lineEntry_moves (line : Line) :
    Moves shift (Option.map (Entry.move shift)) line.entry?
      (Line.entry? (line.move shift)) := by
  rw [Line.entry?, Line.entry?]
  dsimp only [Line.move_text, Line.move_indent]
  split
  · rfl
  · next before after _ =>
    have column : ∀ offset, line.indent + shift.right + offset + 1 =
        line.indent + offset + 1 + shift.right := by omega
    refine (readKey_moves line before).bind fun key _ => ?_
    rw [column]
    rfl

theorem readInline_moves (shift : Shift) (line column budget : Nat) (text : List Char) :
    Moves shift id (readInline line column budget text)
      (readInline (shift.renumber line) (column + shift.right) budget text) := by
  -- a surprise in either text, its column counted from the start of the value
  have surprise : ∀ offset content, Moves shift (id : Node → Node)
      (.error ⟨line, column + offset, .unexpected content⟩)
      (.error ⟨shift.renumber line, column + shift.right + offset, .unexpected content⟩) := by
    intro offset content
    rw [Nat.add_right_comm]
    rfl
  rw [readInline.eq_def, readInline.eq_def]
  dsimp only
  split
  · rfl
  · next c rest =>
    split
    · have room : (c :: rest).length ≤ column + (c :: rest).length := Nat.le_add_left ..
      have span : Flow.Span.mk (shift.renumber line) (column + shift.right + (rest.length + 1)) =
          (Flow.Span.mk line (column + (rest.length + 1))).move shift := by
        rw [Nat.add_right_comm]
        rfl
      rw [span]
      refine (Flow.readValue_moves budget room).bind ?_
      rintro ⟨node, after⟩ read
      have last : (skipSpaces after).length ≤
          (Flow.Span.mk line (column + (rest.length + 1))).stop :=
        Nat.le_trans ((skipSpaces_suffix after).trans
          ((Flow.readValue_meets budget room).of_ok read).2).length_le room
      dsimp only [id]
      split
      · rfl
      · exact Flow.fail_moves last (.unexpected .afterFlow)
    · split
      · refine (readAt_moves shift line column (c :: rest)).bind ?_
        rintro ⟨value, after⟩ -
        dsimp only [id]
        split
        · rfl
        · exact surprise _ _
      · split
        · exact surprise 0 _
        · split
          · exact surprise 0 _
          · split
            · exact surprise 0 _
            · split
              · exact surprise _ _
              · rfl

theorem afterDash_move (line : Line) :
    (line.move shift).afterDash = line.afterDash.move shift := by
  rw [Line.afterDash, Line.afterDash, Line.move, Line.move]
  dsimp only
  rw [Nat.add_right_comm]

def moveRest {α : Type} (shift : Shift) (result : α × List Line) : α × List Line :=
  (result.1, result.2.map (Line.move shift))

section Blocks

/-! The readers of blocks take any reader of nested blocks that moves. -/

variable {readBlock : List Line → Except ParseError (Node × List Line)}
variable (moves : ∀ lines, Moves shift (moveRest shift) (readBlock lines)
  (readBlock (lines.map (Line.move shift))))
include moves

theorem readNested_moves (parent : Nat) (sameLevel : Bool) (lines : List Line) :
    Moves shift (moveRest shift) (readNested readBlock parent sameLevel lines)
      (readNested readBlock (parent + shift.right) sameLevel (lines.map (Line.move shift))) := by
  cases lines with
  | nil => rfl
  | cons next rest =>
    have level : (next.indent + shift.right == parent + shift.right) = (next.indent == parent) := by
      rw [Bool.eq_iff_iff, beq_iff_eq, beq_iff_eq, Nat.add_right_cancel_iff]
    rw [List.map_cons, readNested, readNested]
    simp only [Line.move_indent, Line.move_text, Nat.add_lt_add_iff_right, level]
    split
    · exact moves (next :: rest)
    · rfl

theorem readItems_moves (indent bound : Nat) (lines : List Line) :
    Moves shift (moveRest shift) (readItems readBlock indent bound lines)
      (readItems readBlock (indent + shift.right) bound (lines.map (Line.move shift))) := by
  induction bound generalizing lines with
  | zero => rfl
  | succ bound ih =>
    cases lines with
    | nil => rfl
    | cons line rest =>
      have following : ∀ first : Node × List Line, Moves shift (moveRest shift)
          (readItems readBlock indent bound first.2 >>= fun others =>
            pure (first.1 :: others.1, others.2))
          (readItems readBlock (indent + shift.right) bound (moveRest shift first).2 >>=
            fun others => pure ((moveRest shift first).1 :: others.1, others.2)) :=
        fun first => (ih first.2).bind fun _ _ => rfl
      rw [List.map_cons, readItems, readItems]
      simp only [Line.move_indent, Line.move_text, Nat.add_lt_add_iff_right, afterDash_move]
      split
      · rfl
      · split
        · exact fail_moves line _
        · split
          · rfl
          · split
            · exact (readNested_moves moves indent false rest).bind fun first _ => following first
            · exact (moves (line.afterDash :: rest)).bind fun first _ => following first

theorem readEntries_moves (budget indent bound : Nat) (fields : Fields Node) (lines : List Line) :
    Moves shift (moveRest shift) (readEntries readBlock budget indent bound fields lines)
      (readEntries readBlock budget (indent + shift.right) bound fields
        (lines.map (Line.move shift))) := by
  induction bound generalizing fields lines with
  | zero => rfl
  | succ bound ih =>
    cases lines with
    | nil => rfl
    | cons line rest =>
      rw [List.map_cons, readEntries, readEntries]
      simp only [Line.move_indent, Line.move_number, Nat.add_lt_add_iff_right]
      split
      · rfl
      · split
        · exact fail_moves line _
        · by_cases item : isItem line.text = true
          · rw [if_pos item, if_pos (show isItem (line.move shift).text = true from item)]
            exact fail_moves line _
          · rw [if_neg item, if_neg (show ¬isItem (line.move shift).text = true from item)]
            refine (lineEntry_moves line).bind fun found _ => ?_
            cases found with
            | none => exact fail_moves line _
            | some entry =>
              have following : ∀ value : Node × List Line, Moves shift (moveRest shift)
                  (readEntries readBlock budget indent bound (fields.insert entry.key value.1)
                    value.2)
                  (readEntries readBlock budget (indent + shift.right) bound
                    (fields.insert entry.key (moveRest shift value).1) (moveRest shift value).2) :=
                fun value => ih _ value.2
              dsimp only [Option.map_some, Entry.move]
              split
              · exact fail_moves line _
              · split
                · exact (readNested_moves moves indent true rest).bind fun value _ =>
                    following value
                · have inline : Moves shift (moveRest shift)
                      ((readInline line.number entry.column budget entry.value).map (·, rest))
                      ((readInline (shift.renumber line.number) (entry.column + shift.right)
                        budget entry.value).map (·, rest.map (Line.move shift))) :=
                    (readInline_moves shift line.number entry.column budget entry.value).map
                      fun _ => rfl
                  exact inline.bind fun value _ => following value

end Blocks

theorem readBlock_moves (budget : Nat) (lines : List Line) :
    Moves shift (moveRest shift) (readBlock budget lines)
      (readBlock budget (lines.map (Line.move shift))) := by
  induction budget using Nat.strongRecOn generalizing lines with
  | ind budget ih =>
    cases lines with
    | nil =>
      rw [readBlock.eq_def, readBlock.eq_def]
      rfl
    | cons line rest =>
      rw [List.map_cons, readBlock.eq_def, readBlock.eq_def]
      dsimp only [Line.move_indent, Line.move_number]
      rw [List.length_map]
      by_cases item : isItem line.text = true
      · rw [if_pos item, if_pos (show isItem (line.move shift).text = true from item)]
        cases budget with
        | zero => exact fail_moves line _
        | succ budget =>
          exact (readItems_moves (ih budget (Nat.lt_succ_self budget)) line.indent
            (rest.length + 1) (line :: rest)).map fun _ => rfl
      · rw [if_neg item, if_neg (show ¬isItem (line.move shift).text = true from item)]
        refine (lineEntry_moves line).bind fun found _ => ?_
        cases found with
        | none =>
          have moves := readInline_moves shift line.number (line.indent + 1) budget line.text
          rw [Nat.add_right_comm] at moves
          exact moves.bind fun _ _ => rfl
        | some entry =>
          cases budget with
          | zero => exact fail_moves line _
          | succ budget =>
            have moves := readEntries_moves (ih budget (Nat.lt_succ_self budget)) budget
              line.indent (rest.length + 1) [] (line :: rest)
            dsimp only [Option.map_some, List.length_cons]
            rw [List.length_map]
            exact moves.map fun _ => rfl

/-- A document in another place is read as the same tree, or with the same fault in its place. -/
theorem readDocument_moves (lines : List Line) :
    Moves shift id (readDocument lines) (readDocument (lines.map (Line.move shift))) := by
  cases lines with
  | nil => rfl
  | cons first rest =>
    refine (readBlock_moves maxDepth (first :: rest)).bind ?_
    rintro ⟨node, after⟩ -
    cases after with
    | nil => rfl
    | cons line more =>
      have level : (line.move shift).indent = (first.move shift).indent ↔
          line.indent = first.indent := Nat.add_right_cancel_iff
      by_cases same : line.indent = first.indent
      · change Moves shift id (if _ then _ else _) (if _ then _ else _)
        rw [if_pos same, if_pos (level.mpr same)]
        exact fail_moves line _
      · change Moves shift id (if _ then _ else _) (if _ then _ else _)
        rw [if_neg same, if_neg (mt level.mp same)]
        exact fail_moves line _

end ParticleSim.Outline
