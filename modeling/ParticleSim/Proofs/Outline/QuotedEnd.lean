import ParticleSim.Proofs.Outline.Outcome

namespace ParticleSim.Outline.Quoted

def Inert (c : Char) : Prop := c ≠ '"' ∧ c ≠ '\\'

theorem inert_of_hexValue? {c : Char} {value : Nat} (hex : hexValue? c = some value) : Inert c := by
  constructor
  · rintro rfl
    cases hex
  · rintro rfl
    cases hex

theorem inert_of_hexNumber? {digits : List Char} {start value : Nat}
    (hex : digits.foldlM (fun total c => (hexValue? c).map (16 * total + ·)) start = some value) :
    ∀ c ∈ digits, Inert c := by
  induction digits generalizing start with
  | nil => simp
  | cons c rest ih =>
    rw [List.foldlM_cons, Option.bind_eq_bind, Option.bind_eq_some_iff] at hex
    obtain ⟨total, first, others⟩ := hex
    obtain ⟨_, digit, -⟩ := Option.map_eq_some_iff.mp first
    exact List.forall_mem_cons.mpr ⟨inert_of_hexValue? digit, ih others⟩

/-- No place of a `\u` escape with a meaning closes the scalar or starts another escape. -/
theorem inert_of_scalarValue? {p q r s decoded : Char}
    (means : scalarValue? p q r s = some decoded) : ∀ c ∈ [p, q, r, s], Inert c := by
  obtain ⟨point, hex, -⟩ := Option.bind_eq_some_iff.mp means
  have inert := inert_of_hexNumber? hex
  split at inert
  · next plus =>
    refine List.forall_mem_cons.mpr ⟨?_, inert⟩
    rw [plus]
    exact ⟨by decide, by decide⟩
  · exact inert

theorem endDouble_inert {c : Char} (inert : Inert c) (rest : List Char) :
    endDouble (c :: rest) = (endDouble rest).map (· + 1) := by
  rw [endDouble.eq_def]
  dsimp only
  rw [if_neg inert.2, if_neg inert.1]

theorem endDouble_escape (letter : Char) (rest : List Char) :
    endDouble ('\\' :: letter :: rest) = (endDouble rest).map (· + 2) := by
  rw [endDouble.eq_def]
  rfl

theorem endDouble_digits {p q r s decoded : Char} (means : scalarValue? p q r s = some decoded)
    (rest : List Char) :
    endDouble ('\\' :: 'u' :: p :: q :: r :: s :: rest) = (endDouble rest).map (· + 6) := by
  have inert := inert_of_scalarValue? means
  simp only [List.forall_mem_cons] at inert
  obtain ⟨inertP, inertQ, inertR, inertS, -⟩ := inert
  rw [endDouble_escape, endDouble_inert inertP, endDouble_inert inertQ, endDouble_inert inertR,
    endDouble_inert inertS]
  simp only [Option.map_map]
  rfl

section Outcome

variable (read : Nat → List Char → Except Flaw (List Char × List Char))
  (measure : List Char → Option Nat)

/-- The scalar is read to its end. What it is written in, which is as long as it is measured, can be
read without what follows. -/
def Closed (text : List Char) (result : List Char × List Char) : Prop :=
  ∃ written, text = written ++ result.2 ∧ measure text = some written.length ∧
    ∀ offset, read offset written = .ok (result.1, [])

/-- The scalar is never closed, or an escape in it has no meaning. The text starts at an offset. -/
def Flawed (start : Nat) (text : List Char) : Flaw → Prop
  | .unterminated => measure text = none
  | .badEscape offset sequence =>
    start ≤ offset ∧ sequence <+: text.drop (offset - start) ∧ sequence.head? = some '\\'

variable {read measure}

theorem meets_push (form : List Char) {rest : List Char} {decoded : Char} {start : Nat}
    (reads : ∀ offset text,
      read offset (form ++ text) = (read (offset + form.length) text).map (push decoded))
    (measures : measure (form ++ rest) = (measure rest).map (· + form.length))
    (meets : Meets (Closed read measure rest) (Flawed measure (start + form.length) rest)
      (read (start + form.length) rest)) :
    Meets (Closed read measure (form ++ rest)) (Flawed measure start (form ++ rest))
      ((read (start + form.length) rest).map (push decoded)) := by
  refine Meets.map (meets.imp (fun _ closed => closed) ?_) ?_
  · intro flaw flawed
    cases flaw with
    | unterminated =>
      have never : measure rest = none := flawed
      exact measures.trans (by rw [never]; rfl)
    | badEscape offset sequence =>
      obtain ⟨behind, found, slash⟩ := flawed
      refine ⟨by omega, ?_, slash⟩
      rwa [List.drop_append, List.drop_eq_nil_of_le (by omega), List.nil_append, Nat.sub_sub]
  · intro result closed
    obtain ⟨written, same, length, whole⟩ := closed
    refine ⟨form ++ written, ?_, ?_, ?_⟩
    · rw [same, List.append_assoc]
      rfl
    · rw [measures, length, Option.map_some, List.length_append, Nat.add_comm]
    · intro offset
      rw [reads, whole]
      rfl

end Outcome

theorem readDouble_meets (offset : Nat) (text : List Char) :
    Meets (Closed readDouble endDouble text) (Flawed endDouble offset text)
      (readDouble offset text) := by
  fun_induction readDouble offset text with
  | case1 => exact rfl
  | case2 offset rest =>
    refine ⟨['"'], rfl, ?_, ?_⟩
    · rw [endDouble.eq_def]
      rfl
    · intro offset
      rw [readDouble.eq_def]
      rfl
  | case3 =>
    change endDouble _ = none
    rw [endDouble.eq_def]
    rfl
  | case4 offset p q r s rest decoded means _ ih =>
    refine meets_push ['\\', 'u', p, q, r, s] ?_ (endDouble_digits means rest) ih
    intro offset text
    dsimp only [List.cons_append, List.nil_append]
    rw [readDouble.eq_def]
    simp only [means]
    rfl
  | case5 offset p q r s rest =>
    exact ⟨Nat.le_refl _, by simp, rfl⟩
  | case6 offset short =>
    exact ⟨Nat.le_refl _, by simp, rfl⟩
  | case7 offset letter rest _ noPoint decoded means _ ih =>
    refine meets_push ['\\', letter] ?_ (endDouble_escape letter rest) ih
    intro offset text
    dsimp only [List.cons_append, List.nil_append]
    rw [readDouble.eq_def]
    dsimp only
    rw [if_neg (by decide), if_pos rfl]
    split
    · next same => cases same
    · next same => cases same; exact absurd rfl noPoint
    · next same => cases same; exact absurd rfl noPoint
    · next same => cases same; rw [means]; rfl
  | case8 offset letter rest =>
    exact ⟨Nat.le_refl _, by simp, rfl⟩
  | case9 offset c rest quote backslash ih =>
    refine meets_push [c] ?_ (endDouble_inert ⟨quote, backslash⟩ rest) ih
    intro offset text
    dsimp only [List.cons_append, List.nil_append]
    rw [readDouble.eq_def]
    simp [quote, backslash]

theorem endSingle_double (rest : List Char) :
    endSingle ('\'' :: '\'' :: rest) = (endSingle rest).map (· + 2) := by
  rw [endSingle.eq_def]
  rfl

theorem endSingle_other {c : Char} (other : c ≠ '\'') (rest : List Char) :
    endSingle (c :: rest) = (endSingle rest).map (· + 1) := by
  rw [endSingle.eq_def]
  dsimp only
  rw [if_neg other]

/-- Offsets play no part between single quotes, where nothing is an escape. -/
theorem readSingle_meets (offset : Nat) (text : List Char) :
    Meets (Closed (fun _ => readSingle) endSingle text) (Flawed endSingle offset text)
      (readSingle text) := by
  fun_induction readSingle text generalizing offset with
  | case1 => exact rfl
  | case2 rest ih =>
    refine meets_push ['\'', '\''] ?_ (endSingle_double rest) (ih (offset + 2))
    intro offset text
    dsimp only [List.cons_append, List.nil_append]
    rw [readSingle.eq_def]
    rfl
  | case3 rest noQuote =>
    refine ⟨['\''], rfl, ?_, ?_⟩
    · rw [endSingle.eq_def]
      dsimp only
      rw [if_pos rfl]
      split
      · next rest => exact absurd rfl (noQuote rest)
      · rfl
    · intro offset
      dsimp only
      rw [readSingle.eq_def]
      rfl
  | case4 c rest quote ih =>
    refine meets_push [c] ?_ (endSingle_other quote rest) (ih (offset + 1))
    intro offset text
    dsimp only [List.cons_append, List.nil_append]
    rw [readSingle.eq_def]
    dsimp only
    rw [if_neg quote]

theorem meets_open (readBody : Nat → List Char → Except Flaw (List Char × List Char))
    {measure : List Char → Option Nat} {mark : Char} {body : List Char}
    (reads : ∀ text, read (mark :: text) = readBody 1 text)
    (measures : ∀ text, length? (mark :: text) = (measure text).map (· + 1))
    (meets : Meets (Closed readBody measure body) (Flawed measure 1 body) (readBody 1 body)) :
    Meets (Closed (fun _ => read) length? (mark :: body)) (Flawed length? 0 (mark :: body))
      (read (mark :: body)) := by
  rw [reads]
  refine meets.imp ?_ ?_
  · intro result closed
    obtain ⟨written, same, length, whole⟩ := closed
    refine ⟨mark :: written, congrArg (mark :: ·) same, ?_, fun _ => ?_⟩
    · rw [measures, length]
      rfl
    · exact (reads written).trans (whole 1)
  · intro flaw flawed
    cases flaw with
    | unterminated =>
      have never : measure body = none := flawed
      exact (measures body).trans (by rw [never]; rfl)
    | badEscape offset sequence =>
      obtain ⟨behind, found, slash⟩ := flawed
      obtain ⟨before, rfl⟩ : ∃ before, offset = before + 1 := ⟨offset - 1, by omega⟩
      exact ⟨Nat.zero_le _, found, slash⟩

/-- What is read is as long as it is measured, and needs nothing of what follows it. What is not
closed has no length. -/
theorem read_meets (text : List Char) :
    Meets (Closed (fun _ => read) length? text) (Flawed length? 0 text) (read text) := by
  rw [read.eq_def]
  split
  · next body => exact meets_open readDouble (fun _ => rfl) (fun _ => rfl) (readDouble_meets 1 body)
  · next body =>
    exact meets_open (fun _ => readSingle) (fun _ => rfl) (fun _ => rfl) (readSingle_meets 1 body)
  · next double single =>
    change length? text = none
    rw [length?.eq_def]
    split
    · next body => exact absurd rfl (double body)
    · next body => exact absurd rfl (single body)
    · rfl

def EndsWith (measure : List Char → Option Nat) (mark : Char) (text : List Char) (n : Nat) : Prop :=
  measure (text.take n) = some n ∧ ∃ body, text.take n = body ++ [mark]

theorem endsWith_push {measure measure' : List Char → Option Nat} {mark : Char}
    (form : List Char) {rest : List Char} {n : Nat}
    (measures : ∀ text, measure (form ++ text) = (measure' text).map (· + form.length))
    (ends : (measure' rest).map (· + form.length) = some n)
    (behind : ∀ {m}, measure' rest = some m → EndsWith measure' mark rest m) :
    EndsWith measure mark (form ++ rest) n := by
  obtain ⟨m, found, rfl⟩ := Option.map_eq_some_iff.mp ends
  obtain ⟨again, body, same⟩ := behind found
  have taken : (form ++ rest).take (m + form.length) = form ++ rest.take m := by
    rw [Nat.add_comm, List.take_length_add_append]
  refine ⟨?_, form ++ body, ?_⟩
  · rw [taken, measures, again]
    rfl
  · rw [taken, same, List.append_assoc]

theorem endDouble_endsWith {text : List Char} {n : Nat} (ends : endDouble text = some n) :
    EndsWith endDouble '"' text n := by
  fun_induction endDouble text generalizing n with
  | case1 => cases ends
  | case2 => cases ends
  | case3 letter rest ih => exact endsWith_push ['\\', letter] (endDouble_escape letter) ends ih
  | case4 rest =>
    cases ends
    exact ⟨by rw [List.take_succ_cons, List.take_zero, endDouble.eq_def]; rfl, [], rfl⟩
  | case5 c rest backslash quote ih =>
    exact endsWith_push [c] (endDouble_inert ⟨quote, backslash⟩) ends ih

theorem endSingle_endsWith {text : List Char} {n : Nat} (ends : endSingle text = some n) :
    EndsWith endSingle '\'' text n := by
  fun_induction endSingle text generalizing n with
  | case1 => cases ends
  | case2 rest ih => exact endsWith_push ['\'', '\''] endSingle_double ends ih
  | case3 rest =>
    cases ends
    exact ⟨by rw [List.take_succ_cons, List.take_zero, endSingle.eq_def]; rfl, [], rfl⟩
  | case4 c rest quote ih => exact endsWith_push [c] (endSingle_other quote) ends ih

theorem length?_endsWith {text : List Char} {n : Nat} (measured : length? text = some n) :
    ∃ mark, isQuote mark = true ∧ EndsWith length? mark text n := by
  rw [length?.eq_def] at measured
  split at measured
  · exact ⟨'"', rfl, endsWith_push ['"'] (fun _ => rfl) measured endDouble_endsWith⟩
  · exact ⟨'\'', rfl, endsWith_push ['\''] (fun _ => rfl) measured endSingle_endsWith⟩
  · cases measured

end ParticleSim.Outline.Quoted
