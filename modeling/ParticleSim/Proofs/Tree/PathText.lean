import ParticleSim.Proofs.Number.Digits
import ParticleSim.Proofs.Text.Escaped
import ParticleSim.Tree.Path

namespace ParticleSim.Path

def isPlain (c : Char) : Bool :=
  CharClass.isAlphanumeric c || c == '_' || c == '-' || c == '$'

theorem isPlain_marks : ∀ c ∈ ['.', '[', '('], isPlain c = false := by
  -- only the first runs of each table matter
  obtain ⟨letters, alphabetic⟩ : ∃ rest, Unicode.alphabetic = 65 :: 91 :: 97 :: 123 :: rest :=
    ⟨_, rfl⟩
  obtain ⟨digits, decimal⟩ : ∃ rest, Unicode.decimalDigit = 48 :: 58 :: 1632 :: 1642 :: rest :=
    ⟨_, rfl⟩
  obtain ⟨numbers, other⟩ : ∃ rest, Unicode.numberOnly = 178 :: 180 :: rest := ⟨_, rfl⟩
  simp [isPlain, CharClass.isAlphanumeric, alphabetic, decimal, other, CharRuns.contains]

theorem isPlainKey_iff {name : List Char} :
    isPlainKey name = true ↔ name ≠ [] ∧ ∀ c ∈ name, isPlain c = true := by
  rw [isPlainKey, Bool.and_eq_true, Bool.not_eq_true', List.isEmpty_eq_false_iff, List.all_eq_true]
  rfl

def bracketed : Step → List Char
  | .key name => Escaped.quoted name.toList
  | .index position => Decimal.digitsOf position

/-- A key may be shown as it is. Any other step is shown in brackets. -/
theorem stepText_cases (first : Bool) (step : Step) :
    (∃ name : String, step = .key name ∧ isPlainKey name.toList = true ∧
      stepText first step = (if first then [] else ['.']) ++ name.toList) ∨
    stepText first step = '[' :: (bracketed step ++ [']']) := by
  cases step with
  | key name =>
    rw [stepText]
    split
    · next plain => exact .inl ⟨name, rfl, plain, rfl⟩
    · exact .inr rfl
  | index position => exact .inr rfl

theorem stepText_head (first : Bool) (step : Step) :
    ∃ c rest, stepText first step = c :: rest ∧
      (c = '[' ∨ (first = false ∧ c = '.') ∨ (first = true ∧ isPlain c = true)) := by
  rcases stepText_cases first step with ⟨name, -, plain, shown⟩ | shown
  · rw [isPlainKey_iff] at plain
    rcases List.exists_cons_of_ne_nil plain.1 with ⟨c, rest, same⟩
    cases first with
    | false => exact ⟨'.', name.toList, shown, .inr (.inl ⟨rfl, rfl⟩)⟩
    | true =>
      rw [same] at shown plain
      exact ⟨c, rest, shown, .inr (.inr ⟨rfl, plain.2 c List.mem_cons_self⟩)⟩
  · exact ⟨'[', _, shown, .inl rfl⟩

theorem unambiguous_bracketed :
    Unambiguous (fun _ => True) (StartsOutside isDigit) bracketed := by
  have digits : Unambiguous (fun _ => True) (StartsOutside isDigit) Decimal.digitsOf :=
    .of_class (fun n _ => Decimal.isDigit_digitsOf n) fun m n same => by
      rw [← Decimal.ofDigits_digitsOf m, same, Decimal.ofDigits_digitsOf]
  -- a quotation mark is no digit
  have apart : ∀ (name : String) (position : Nat) (rest more : List Char),
      bracketed (.key name) ++ rest ≠ bracketed (.index position) ++ more := by
    intro name position rest more same
    rcases List.exists_cons_of_ne_nil (Decimal.digitsOf_ne_nil position) with ⟨c, others, written⟩
    rw [bracketed, bracketed, Escaped.quoted_append, written, List.cons_append,
      List.cons_eq_cons] at same
    have digit := Decimal.isDigit_digitsOf position c (by rw [written]; exact List.mem_cons_self)
    rw [← same.1] at digit
    cases digit
  intro step other rest more _ _ outside outside' same
  cases step with
  | key name =>
    cases other with
    | key name' =>
      rcases Escaped.selfDelimiting_quoted same with ⟨inside, behind⟩
      exact ⟨congrArg _ (String.toList_inj.mp inside), behind⟩
    | index position => exact absurd same (apart name position rest more)
  | index position =>
    cases other with
    | key name => exact absurd same.symm (apart name position more rest)
    | index position' =>
      rcases digits trivial trivial outside outside' same with ⟨rfl, behind⟩
      exact ⟨rfl, behind⟩

theorem unambiguous_plainKey : Unambiguous (fun name : String => isPlainKey name.toList = true)
    (StartsOutside isPlain) String.toList :=
  .of_class (fun _ plain => (isPlainKey_iff.mp plain).2) fun _ _ => String.toList_inj.mp

/-- Steps are told apart by their texts in front of another step or of nothing. -/
theorem unambiguous_stepText (first : Bool) :
    Unambiguous (fun _ => True) (StartsOutside isPlain) (stepText first) := by
  have apart : ∀ {name : String} {text rest more : List Char}, isPlainKey name.toList = true →
      (if first then [] else ['.']) ++ name.toList ++ rest ≠ '[' :: text ++ more := by
    intro name text rest more plain same
    rw [isPlainKey_iff] at plain
    rcases List.exists_cons_of_ne_nil plain.1 with ⟨c, others, written⟩
    cases first with
    | false => cases same
    | true =>
      have letter := plain.2 c (by rw [written]; exact List.mem_cons_self)
      rw [written] at same
      rw [(List.cons_eq_cons.mp same).1, isPlain_marks '[' (by decide)] at letter
      cases letter
  intro step other rest more _ _ outside outside' same
  rcases stepText_cases first step with ⟨name, rfl, plain, shown⟩ | shown
  · rcases stepText_cases first other with ⟨name', rfl, plain', shown'⟩ | shown'
    · rw [shown, shown', List.append_assoc, List.append_assoc, List.append_cancel_left_eq] at same
      rcases unambiguous_plainKey plain plain' outside outside' same with ⟨rfl, behind⟩
      exact ⟨rfl, behind⟩
    · rw [shown, shown'] at same
      exact absurd same (apart plain)
  · rcases stepText_cases first other with ⟨name', rfl, plain', shown'⟩ | shown'
    · rw [shown, shown'] at same
      exact absurd same.symm (apart plain')
    · rw [shown, shown', List.cons_append, List.cons_append, List.cons_inj_right,
        List.append_assoc, List.append_assoc] at same
      have closes : ∀ rest, StartsOutside isDigit ([']'] ++ rest) :=
        startsOutside_cons (by decide)
      rcases unambiguous_bracketed trivial trivial (closes rest) (closes more) same with
        ⟨rfl, behind⟩
      exact ⟨rfl, (List.cons_inj_right _).mp behind⟩

theorem startsOutside_stepText (step : Step) (rest : List Char) :
    StartsOutside isPlain (stepText false step ++ rest) := by
  rcases stepText_head false step with ⟨c, others, written, head⟩
  rw [written]
  apply startsOutside_cons
  rcases head with rfl | ⟨-, rfl⟩ | ⟨same, -⟩
  · exact isPlain_marks '[' (by decide)
  · exact isPlain_marks '.' (by decide)
  · cases same

theorem steps_inj {steps others : Path}
    (same : steps.flatMap (stepText false) = others.flatMap (stepText false)) : steps = others := by
  refine (unambiguous_stepText false).flatMap_inj
    (fun step rest _ _ => startsOutside_stepText step rest)
    startsOutside_nil (fun step _ empty => ?_) (fun _ _ => trivial) (fun _ _ => trivial) same
  rcases stepText_head false step with ⟨c, others, written, -⟩
  rw [written] at empty
  cases empty

/-- No step is rendered like the root. -/
theorem root_ne_step (step : Step) (rest : List Char) :
    "(root)".toList ≠ stepText true step ++ rest := by
  intro same
  rcases stepText_head true step with ⟨c, others, written, head⟩
  rw [written] at same
  have first : '(' = c := (List.cons_eq_cons.mp same).1
  rw [← first] at head
  rcases head with mark | ⟨mark, -⟩ | ⟨-, plain⟩
  · cases mark
  · cases mark
  · rw [isPlain_marks '(' (by decide)] at plain
    cases plain

theorem characters_inj {path other : Path} (same : path.characters = other.characters) :
    path = other := by
  cases path with
  | nil =>
    cases other with
    | nil => rfl
    | cons step rest => exact absurd same (root_ne_step step _)
  | cons step rest =>
    cases other with
    | nil => exact absurd same.symm (root_ne_step step _)
    | cons step' rest' =>
      have outside : ∀ steps : Path, StartsOutside isPlain (steps.flatMap (stepText false)) := by
        intro steps
        cases steps with
        | nil => exact startsOutside_nil
        | cons step steps => exact startsOutside_stepText step _
      rcases unambiguous_stepText true trivial trivial (outside rest) (outside rest') same with
        ⟨rfl, behind⟩
      rw [steps_inj behind]

/-- A rendered path names one place: paths with the same text are the same. -/
theorem text_eq_text_iff {path other : Path} : path.text = other.text ↔ path = other := by
  refine ⟨fun same => characters_inj ?_, congrArg text⟩
  exact String.ofList_injective same

end ParticleSim.Path
