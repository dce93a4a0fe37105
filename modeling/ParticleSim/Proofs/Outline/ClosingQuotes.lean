import ParticleSim.Proofs.Outline.Outside
/-!
Three scanners look for the end of a quoted scalar: one decodes it, one measures it, and one skips
it in the search for a comment. All three stop behind the same quote. Only the first looks at what
escapes mean, and so it may refuse a scalar of which the others know the end.
-/
namespace ParticleSim.Outline

open Quoted

/-- One move of the search inside a quoted scalar: the characters that it copies at once, what
follows them, and whether they close the scalar. -/
inductive Move (mark : Char) : List Char → List Char → Bool → Prop where
  | escape (escaped : Char) (rest : List Char) (double : mark = '"') :
    Move mark ['\\', escaped] rest false
  | doubled (rest : List Char) (single : mark = '\'') : Move mark [mark, mark] rest false
  | char {c : Char} (rest : List Char) (other : c ≠ mark) (plain : mark = '"' → c ≠ '\\') :
    Move mark [c] rest false
  | close {rest : List Char} (alone : mark = '\'' → rest.head? ≠ some mark) :
    Move mark [mark] rest true

inductive Closes (mark : Char) : List Char → List Char → Prop where
  | last {form rest : List Char} (move : Move mark form rest true) : Closes mark form rest
  | later {form inner rest : List Char} (move : Move mark form (inner ++ rest) false)
    (closes : Closes mark inner rest) : Closes mark (form ++ inner) rest

def Scan.moved (mark : Char) (opened : Nat) (closes : Bool) : Scan :=
  if closes then .plain (some mark) (some mark) else .quoted mark opened

/-- The search for a comment that the mark opened closes the scalar behind its inside and goes on
with the rest as plain text. -/
def ClosesBehind (mark : Char) (inner rest : List Char) : Prop :=
  Closes mark inner rest ∧ ∀ number opened column,
    withoutComment number (.quoted mark opened) column (inner ++ rest) =
      (withoutComment number (.plain (some mark) (some mark)) (column + inner.length) rest).map
        (inner ++ ·)

section Moves

variable {mark : Char} {form inner rest text : List Char} {closes : Bool}

theorem Move.withoutComment_eq (quote : isQuote mark = true) (move : Move mark form rest closes)
    (number opened column : Nat) :
    withoutComment number (.quoted mark opened) column (form ++ rest) =
      (withoutComment number (.moved mark opened closes) (column + form.length) rest).map
        (form ++ ·) := by
  cases move with
  | escape escaped rest double =>
    subst double
    rw [List.cons_append, withoutComment.eq_def]
    rfl
  | doubled rest single =>
    subst single
    rw [List.cons_append, withoutComment.eq_def]
    rfl
  | @char c rest other plain =>
    have noEscape : ¬(mark = '"' && c = '\\') = true := by
      simp only [Bool.and_eq_true, decide_eq_true_eq]
      exact fun given => plain given.1 given.2
    rw [List.singleton_append, withoutComment.eq_def]
    dsimp only
    rw [if_neg noEscape, if_neg other]
    rfl
  | close alone =>
    have noEscape : ¬(mark = '"' && mark = '\\') = true := by
      rcases eq_of_isQuote quote with rfl | rfl <;> decide
    rw [List.singleton_append, withoutComment.eq_def]
    dsimp only
    rw [if_neg noEscape, if_pos rfl]
    cases rest with
    | nil => rfl
    | cons d rest =>
      have single : ¬(mark = '\'' && d = '\'') = true := by
        simp only [Bool.and_eq_true, decide_eq_true_eq]
        rintro ⟨rfl, rfl⟩
        exact alone rfl rfl
      dsimp only
      rw [if_neg single]
      rfl

theorem endSingle_close (alone : rest.head? ≠ some '\'') : endSingle ('\'' :: rest) = some 1 := by
  rw [endSingle.eq_def]
  dsimp only
  rw [if_pos rfl]
  split
  · exact absurd rfl alone
  · rfl

theorem Move.length?_eq (quote : isQuote mark = true) (move : Move mark form rest closes) :
    length? (mark :: (form ++ rest)) =
      if closes then some 2 else (length? (mark :: rest)).map (· + form.length) := by
  have further {measured : Option Nat} (count : Nat) :
      (measured.map (· + count)).map (· + 1) = (measured.map (· + 1)).map (· + count) := by
    cases measured with
    | none => rfl
    | some n => exact congrArg some (Nat.add_right_comm n count 1)
  rcases eq_of_isQuote quote with rfl | rfl
  · cases move with
    | escape escaped rest => exact (congrArg _ (endDouble_escape escaped rest)).trans (further 2)
    | doubled rest single => cases single
    | char rest other plain =>
      exact (congrArg _ (endDouble_inert ⟨other, plain rfl⟩ rest)).trans (further 1)
    | close =>
      rw [List.singleton_append, length?, endDouble.eq_def]
      rfl
  · cases move with
    | escape escaped rest double => cases double
    | doubled rest => exact (congrArg _ (endSingle_double rest)).trans (further 2)
    | char rest other => exact (congrArg _ (endSingle_other other rest)).trans (further 1)
    | close alone => exact congrArg (Option.map (· + 1)) (endSingle_close (alone rfl))

/-- The search moves on inside a scalar unless the text ends, perhaps behind a backslash. -/
theorem exists_move (mark : Char) (text : List Char) :
    text = [] ∨ mark = '"' ∧ text = ['\\'] ∨
      ∃ c form rest closes, text = c :: (form ++ rest) ∧ Move mark (c :: form) rest closes := by
  cases text with
  | nil => exact .inl rfl
  | cons c rest =>
    right
    by_cases slash : mark = '"' ∧ c = '\\'
    · obtain ⟨double, rfl⟩ := slash
      cases rest with
      | nil => exact .inl ⟨double, rfl⟩
      | cons escaped rest => exact .inr ⟨_, _, rest, _, rfl, .escape escaped rest double⟩
    · right
      by_cases same : c = mark
      · subst same
        by_cases twice : c = '\'' ∧ rest.head? = some c
        · obtain ⟨rest, rfl⟩ := List.head?_eq_some_iff.mp twice.2
          exact ⟨c, [c], rest, _, rfl, .doubled rest twice.1⟩
        · exact ⟨c, [], rest, _, rfl, .close fun single next => twice ⟨single, next⟩⟩
      · exact ⟨c, [], rest, _, rfl, .char rest same fun double escape => slash ⟨double, escape⟩⟩

end Moves

section Closing

variable {mark : Char} {inner rest text : List Char} {n : Nat}

/-- What the search copies up to the quote that closes the scalar is as long as it is measured. -/
theorem Closes.length?_eq (quote : isQuote mark = true) (closes : Closes mark inner rest) :
    length? (mark :: (inner ++ rest)) = some (inner.length + 1) := by
  induction closes with
  | last move =>
    cases move
    exact Move.length?_eq quote (.close ‹_›)
  | later move _ ih =>
    rw [List.append_assoc, move.length?_eq quote, if_neg Bool.false_ne_true, ih, Option.map_some,
      List.length_append]
    exact congrArg some (by omega)

theorem Closes.behind (quote : isQuote mark = true) (closes : Closes mark inner rest) :
    ClosesBehind mark inner rest := by
  refine ⟨closes, fun number opened column => ?_⟩
  induction closes generalizing column with
  | last move => exact move.withoutComment_eq quote number opened column
  | @later form inner rest move _ ih =>
    have first := move.withoutComment_eq quote number opened column
    rw [Scan.moved, if_neg Bool.false_ne_true, ih] at first
    rw [List.append_assoc, first, List.length_append, Nat.add_assoc]
    cases withoutComment number _ _ rest <;> simp [Except.map]

theorem exists_closes (quote : isQuote mark = true) (measured : length? (mark :: text) = some n) :
    ∃ inner rest, text = inner ++ rest ∧ n = inner.length + 1 ∧ Closes mark inner rest := by
  induction size : text.length using Nat.strong_induction_on generalizing text n with
  | _ length ih =>
    rcases exists_move mark text with rfl | ⟨rfl, rfl⟩ | ⟨c, form, rest, closes, rfl, move⟩
    · rcases eq_of_isQuote quote with rfl | rfl <;> cases measured
    · cases measured
    · rw [← List.cons_append, move.length?_eq quote] at measured
      cases closes with
      | true =>
        cases measured
        refine ⟨_, _, rfl, ?_, .last move⟩
        cases move
        rfl
      | false =>
        rw [if_neg Bool.false_ne_true] at measured
        obtain ⟨m, behind, rfl⟩ := Option.map_eq_some_iff.mp measured
        have shorter : rest.length < length := by
          rw [← size, List.length_cons, List.length_append]
          omega
        obtain ⟨inner, rest, rfl, rfl, closes⟩ := ih _ shorter behind rfl
        refine ⟨(c :: form) ++ inner, rest, ?_, ?_, .later move closes⟩
        · simp
        · rw [List.length_append]
          omega

theorem length?_eq_iff (quote : isQuote mark = true) :
    length? (mark :: (inner ++ rest)) = some (inner.length + 1) ↔ ClosesBehind mark inner rest := by
  constructor
  · intro measured
    obtain ⟨body, behind, same, count, closes⟩ := exists_closes quote measured
    obtain ⟨rfl, rfl⟩ := List.append_inj same (Nat.succ.inj count)
    exact closes.behind quote
  · exact fun closes => closes.1.length?_eq quote

end Closing

section Readers

variable {mark : Char}

theorem readAt_fault {line column : Nat} {text : List Char} {e : ParseError}
    (refused : readAt line column text = .error e) : e = ⟨line, column, .unterminatedQuote⟩ ∧
      length? text = none ∨ ∃ place sequence, e = ⟨line, place, .invalidEscape sequence⟩ := by
  have meets := read_meets text
  rw [readAt] at refused
  cases outcome : read text with
  | ok result =>
    rw [outcome] at refused
    cases refused
  | error flaw =>
    rw [outcome] at refused meets
    cases flaw with
    | unterminated =>
      cases refused
      exact .inl ⟨rfl, meets⟩
    | badEscape offset sequence =>
      cases refused
      exact .inr ⟨_, _, rfl⟩

theorem readAt_ok {line column : Nat} {text value rest : List Char}
    (reads : readAt line column text = .ok (value, rest)) :
    ∃ scalar, text = scalar ++ rest ∧ length? text = some scalar.length := by
  have meets := read_meets text
  rw [readAt] at reads
  cases outcome : read text with
  | ok result =>
    rw [outcome] at reads meets
    cases reads
    obtain ⟨scalar, same, measured, -⟩ := meets
    exact ⟨scalar, same, measured⟩
  | error flaw =>
    rw [outcome] at reads
    cases reads

/-- No text stands behind a quoted key, since the key is split off where its scalar ends. -/
theorem entry?_fault {line : Line} {e : ParseError} (refused : line.entry? = .error e) :
    e.fault ≠ .unexpected .afterQuotedKey := by
  have key {before after : List Char} (found : splitKey line.text = some (before, after)) :
      Meets (fun _ => True) (fun e => e.fault ≠ .unexpected .afterQuotedKey)
        (readKey line before) := by
    obtain ⟨⟨gap, -, same⟩, quoted⟩ := splitKey_split found
    obtain ⟨trail, -, trimmed⟩ := exists_blank_trimEnd before
    rw [readKey]
    split
    · exact fun fault => by cases fault
    · next c rest shape =>
      have head : line.text.head? = some c := by
        rw [same, trimmed, shape]
        rfl
      split
      · next quote =>
        obtain ⟨n, length, rfl⟩ := quoted c head quote
        obtain ⟨whole, meets⟩ := quotedKey_meets length ⟨c, head, quote⟩
        rw [← shape, whole]
        cases outcome : readAt line.number (line.indent + 1) (line.text.take n) with
        | ok result =>
          rw [outcome] at meets
          obtain ⟨name, left⟩ := result
          obtain ⟨rfl, -⟩ := meets
          trivial
        | error e =>
          rcases readAt_fault outcome with ⟨rfl, -⟩ | ⟨place, sequence, rfl⟩ <;>
            exact fun fault => by cases fault
      · trivial
  rw [Line.entry?] at refused
  split at refused
  · cases refused
  · next before after found =>
    have meets := key found
    cases outcome : readKey line before with
    | ok name =>
      rw [outcome] at refused
      cases refused
    | error fault =>
      rw [outcome] at refused meets
      cases refused
      exact meets

/-- What is decoded is measured, and what is measured is where the search for a comment closes the
scalar. What is measured is decoded as well, unless an escape in it has no meaning. So no text is
ever found behind a quoted key. -/
theorem scanners_agree (quote : isQuote mark = true) (inner : List Char) (line column : Nat) :
    (∀ value rest, readAt line column (mark :: inner) = .ok (value, rest) →
      ∃ body, inner = body ++ rest ∧ length? (mark :: inner) = some (body.length + 1) ∧
        ClosesBehind mark body rest) ∧
    (∀ body rest, inner = body ++ rest →
      (length? (mark :: inner) = some (body.length + 1) ↔ ClosesBehind mark body rest)) ∧
    (∀ n, length? (mark :: inner) = some n →
      (∃ value, readAt line column (mark :: inner) = .ok (value, (mark :: inner).drop n)) ∨
        ∃ place sequence, readAt line column (mark :: inner) =
          .error ⟨line, place, .invalidEscape sequence⟩) ∧
    ∀ (line : Line) (e : ParseError), line.entry? = .error e →
      e.fault ≠ .unexpected .afterQuotedKey := by
  refine ⟨fun value rest reads => ?_, ?_, fun n measured => ?_, fun line e => entry?_fault⟩
  · obtain ⟨scalar, same, measured⟩ := readAt_ok reads
    cases scalar with
    | nil =>
      obtain ⟨body, behind, -, count, -⟩ := exists_closes quote measured
      cases count
    | cons c body =>
      obtain ⟨-, rfl⟩ := List.cons.inj same
      exact ⟨body, rfl, measured, (length?_eq_iff quote).mp measured⟩
  · rintro body rest rfl
    exact length?_eq_iff quote
  · cases outcome : readAt line column (mark :: inner) with
    | ok result =>
      obtain ⟨value, rest⟩ := result
      obtain ⟨scalar, same, measured'⟩ := readAt_ok outcome
      rw [measured] at measured'
      left
      refine ⟨value, ?_⟩
      rw [same, Option.some.inj measured', List.drop_left]
    | error e =>
      right
      rcases readAt_fault outcome with ⟨-, never⟩ | ⟨place, sequence, rfl⟩
      · rw [measured] at never
        cases never
      · exact ⟨place, sequence, rfl⟩

theorem scanners_agree_commented : isQuote '"' = true ∧
    ∃ body, ['a', '\\', '"', '"', ' ', '#'] = body ++ [' ', '#'] ∧
      length? ['"', 'a', '\\', '"', '"', ' ', '#'] = some (body.length + 1) ∧
      ClosesBehind '"' body [' ', '#'] :=
  have quote : isQuote '"' = true := rfl
  ⟨quote, (scanners_agree quote ['a', '\\', '"', '"', ' ', '#'] 1 1).1 ['a', '"'] [' ', '#']
    (by rfl)⟩

end Readers

end ParticleSim.Outline
