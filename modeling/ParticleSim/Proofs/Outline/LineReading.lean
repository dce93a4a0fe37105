import ParticleSim.Proofs.Outline.Bare
import ParticleSim.Proofs.Outline.FlowReading

namespace ParticleSim.Outline

open ParticleSim.Outline.Flow (Located located_unexpected located_of_flawed)

def Line.span (line : Line) : Flow.Span := ⟨line.number, line.indent + line.text.length + 1⟩

theorem Line.column_span (line : Line) : line.span.column line.text = line.indent + 1 := by
  rw [Flow.Span.column, Line.span]
  dsimp only
  omega

theorem Line.room (line : Line) : line.text.length ≤ line.span.stop := by
  rw [Line.span]
  dsimp only
  omega

/-- Something unexpected, at a column counted in another way. -/
theorem located_column {line stop column : Nat} {text place : List Char}
    (inside : place <:+ text) (same : stop - place.length = column) (content : Surprise) :
    Located ⟨line, stop⟩ text ⟨line, column, .unexpected content⟩ := by
  rw [← same]
  exact located_unexpected inside content

/-! The entry on a line. -/

theorem splitAtColon_split {text before after : List Char}
    (found : splitAtColon text = some (before, after)) : text = before ++ ':' :: after := by
  induction text generalizing before with
  | nil => cases found
  | cons c rest ih =>
    rw [splitAtColon] at found
    split at found
    · next colon =>
      cases found
      rw [Bool.and_eq_true, decide_eq_true_eq] at colon
      rw [colon.1]
      rfl
    · obtain ⟨⟨front, back⟩, later, same⟩ := Option.map_eq_some_iff.mp found
      cases same
      exact congrArg (c :: ·) (ih later)

/-- What a key is split into. A quoted key is split off where its scalar ends. -/
theorem splitKey_split {text before after : List Char}
    (found : splitKey text = some (before, after)) :
    (∃ gap, Blank gap ∧ text = before ++ gap ++ ':' :: after) ∧
      ∀ c ∈ text.head?, Quoted.isQuote c = true →
        ∃ n, Quoted.length? text = some n ∧ before = text.take n := by
  rw [splitKey.eq_def] at found
  split at found
  · cases found
  · next c rest =>
    split at found
    · cases found
    · split at found
      · next quote =>
        obtain ⟨n, length, found⟩ := Option.bind_eq_some_iff.mp found
        split at found
        · next value left =>
          split at found
          · cases found
            obtain ⟨gap, blank, same⟩ := exists_blank_skipSpaces ((c :: rest).drop n)
            refine ⟨⟨gap, blank, ?_⟩, fun _ _ _ => ⟨n, length, rfl⟩⟩
            rw [← left, List.append_assoc, ← same, List.take_append_drop]
          · cases found
        · cases found
      · next noQuote =>
        refine ⟨⟨[], by simp [Blank], ?_⟩, ?_⟩
        · rw [List.append_nil]
          exact splitAtColon_split found
        · intro d head quote
          cases head
          exact absurd quote noQuote

theorem quotedKey_meets {line : Line} {n : Nat} (length : Quoted.length? line.text = some n)
    (quote : ∃ c ∈ line.text.head?, Quoted.isQuote c = true) :
    trimEnd (line.text.take n) = line.text.take n ∧
      Meets (fun (key, after) => after = [] ∧
          Quoted.read (line.text.take n) = .ok (key, []))
        (Located line.span line.text)
        (Quoted.readAt line.number (line.indent + 1) (line.text.take n)) := by
  obtain ⟨mark, isMark, again, body, same⟩ := Quoted.length?_endsWith length
  constructor
  · apply trimEnd_of_last
    intro c last
    rw [same, List.getLast?_concat, Option.mem_some_iff] at last
    rw [← last]
    rintro rfl
    cases isMark
  · refine ((Quoted.read_meets (line.text.take n)).mapError ?_).values ?_
    · intro flaw flawed
      rw [← line.column_span]
      refine located_of_flawed line.room quote ?_
      cases flaw with
      | unterminated =>
        have never : Quoted.length? (line.text.take n) = none := flawed
        rw [again] at never
        cases never
      | badEscape offset sequence =>
        refine ⟨flawed.1, flawed.2.1.trans ?_, flawed.2.2⟩
        exact (List.take_prefix n line.text).drop _
    · rintro ⟨key, after⟩ ⟨written, whole, measured, read⟩
      dsimp only at whole
      have none : after = [] := by
        have count := congrArg List.length whole
        rw [again] at measured
        rw [List.length_append, List.length_take, ← Option.some.inj measured] at count
        exact List.eq_nil_of_length_eq_zero (by omega)
      refine ⟨none, ?_⟩
      rw [none, List.append_nil] at whole
      rw [whole]
      exact read 0

theorem readKey_meets {line : Line} {before after : List Char}
    (found : splitKey line.text = some (before, after)) :
    Meets (StartsEntry · line.text) (Located line.span line.text) (readKey line before) := by
  obtain ⟨⟨gap, blank, same⟩, quoted⟩ := splitKey_split found
  obtain ⟨trail, blank', trimmed⟩ := exists_blank_trimEnd before
  rw [readKey]
  split
  · exact located_column List.suffix_rfl line.column_span _
  · next c rest key =>
    have head : line.text.head? = some c := by
      rw [same, trimmed, key]
      rfl
    split
    · next quote =>
      obtain ⟨n, length, rfl⟩ := quoted c head quote
      obtain ⟨whole, meets⟩ := quotedKey_meets length ⟨c, head, quote⟩
      rw [whole] at key
      rw [key] at meets
      refine meets.bind ?_
      rintro ⟨name, left⟩ ⟨rfl, read⟩
      refine ⟨_, gap, after, .quoted ?_, blank, same⟩
      rw [String.toList_ofList, key]
      exact read
    · next noQuote =>
      refine ⟨c :: rest, trail ++ gap, after, .plain String.toList_ofList ?_,
        blank'.append blank, ?_⟩
      · exact Bool.not_eq_true _ ▸ noQuote
      · rw [same, trimmed, key]
        simp only [List.append_assoc]

theorem entry?_meets (line : Line) :
    Meets (fun found => ∀ entry ∈ found, StartsEntry entry.key line.text ∧
        entry.value <:+ line.text ∧ entry.column + entry.value.length = line.span.stop)
      (Located line.span line.text) line.entry? := by
  rw [Line.entry?]
  split
  · exact fun entry impossible => absurd impossible (by simp)
  · next before after found =>
    refine (readKey_meets found).bind ?_
    intro key starts entry same
    cases same
    obtain ⟨gap, -, split⟩ := (splitKey_split found).1
    have suffix : skipSpaces after <:+ line.text := by
      refine (skipSpaces_suffix after).trans ⟨before ++ gap ++ [':'], ?_⟩
      rw [split]
      simp only [List.append_assoc, List.singleton_append]
    refine ⟨starts, suffix, ?_⟩
    have fewer := suffix.length_le
    rw [Line.span]
    dsimp only
    omega

/-! The value on a line. -/

theorem colonSpace?_le {text : List Char} {offset : Nat} (found : colonSpace? text = some offset) :
    offset ≤ text.length := by
  fun_induction colonSpace? text generalizing offset with
  | case1 => cases found; exact Nat.zero_le _
  | case2 c rest _ ih =>
    obtain ⟨inner, later, rfl⟩ := Option.map_eq_some_iff.mp found
    exact Nat.succ_le_succ (ih later)
  | case3 => cases found

theorem readInline_meets (line column budget : Nat) (text : List Char) :
    Meets (Node.Fits budget) (Located ⟨line, column + text.length⟩ text)
      (readInline line column budget text) := by
  have room : text.length ≤ column + text.length := Nat.le_add_left ..
  have start : Flow.Span.column ⟨line, column + text.length⟩ text = column :=
    Nat.add_sub_cancel ..
  rw [readInline.eq_def]
  dsimp only
  split
  · exact Node.fits_scalar budget _
  · next c rest =>
    split
    · refine (Flow.readValue_meets budget room).bind ?_
      rintro ⟨node, after⟩ ⟨fits, inside⟩
      dsimp only
      split
      · exact fits
      · exact located_column ((skipSpaces_suffix after).trans inside) rfl _
    · split
      · next quote =>
        have meets : Meets _ (Located ⟨line, column + (c :: rest).length⟩ (c :: rest)) _ :=
          Flow.readAt_meets room ⟨c, rfl, quote⟩
        rw [start] at meets
        refine meets.bind ?_
        rintro ⟨value, after⟩ ⟨written, same, -, -⟩
        dsimp only
        split
        · exact Node.fits_scalar budget _
        · have inside : after <:+ c :: rest := ⟨written, same.symm⟩
          have fewer := inside.length_le
          refine located_column inside ?_ _
          rw [List.length_cons] at fewer ⊢
          omega
      · split
        · exact located_column List.suffix_rfl start _
        · split
          · exact located_column List.suffix_rfl start _
          · split
            · exact located_column List.suffix_rfl start _
            · split
              · next offset found =>
                have within := colonSpace?_le found
                refine located_column (List.drop_suffix offset (c :: rest)) ?_ _
                rw [List.length_drop]
                omega
              · exact Node.fits_scalar budget _

end ParticleSim.Outline
