import ParticleSim.Number.Literal
import ParticleSim.Proofs.Text.Unambiguous
import ParticleSim.Text.Escaped

namespace ParticleSim

def isHex (c : Char) : Bool := (hexValue? c).isSome

theorem hexValue?_digitChar : ∀ d < 16, hexValue? (Nat.digitChar d) = some d := by decide

theorem hexNumber?_concat (front : List Char) (c : Char) : hexNumber? (front ++ [c]) =
    (hexNumber? front).bind fun total => (hexValue? c).map (16 * total + ·) := by
  rw [hexNumber?, List.foldlM_append]
  simp only [List.foldlM_cons, List.foldlM_nil, Option.bind_eq_bind, bind_pure]
  rfl

theorem hexNumber?_toDigits (n : Nat) : hexNumber? (Nat.toDigits 16 n) = some n := by
  induction n using Nat.strongRecOn with
  | ind n ih =>
    by_cases small : n < 16
    · have single := hexNumber?_concat [] (Nat.digitChar n)
      rw [hexValue?_digitChar n small] at single
      rw [Nat.toDigits_of_lt_base small]
      simpa [hexNumber?] using single
    · rw [Nat.toDigits_of_base_le (by decide) (Nat.not_lt.mp small), hexNumber?_concat,
        ih (n / 16) (by omega), hexValue?_digitChar (n % 16) (Nat.mod_lt _ (by decide))]
      simp only [Option.bind_some, Option.map_some, Option.some_inj]
      omega

theorem isHex_toDigits (n : Nat) : ∀ c ∈ Nat.toDigits 16 n, isHex c = true := by
  have digit : ∀ d < 16, isHex (Nat.digitChar d) = true := by decide
  induction n using Nat.strongRecOn with
  | ind n ih =>
    intro c member
    by_cases small : n < 16
    · rw [Nat.toDigits_of_lt_base small, List.mem_singleton] at member
      rw [member]
      exact digit n small
    · rw [Nat.toDigits_of_base_le (by decide) (Nat.not_lt.mp small), List.mem_append,
        List.mem_singleton] at member
      rcases member with front | last
      · exact ih (n / 16) (by omega) c front
      · rw [last]
        exact digit _ (Nat.mod_lt _ (by decide))

theorem unambiguous_hexDigits :
    Unambiguous (fun _ => True) (StartsOutside isHex) (Nat.toDigits 16) :=
  .of_class (fun n _ => isHex_toDigits n) fun m n same => by
    have equal := congrArg hexNumber? same
    rwa [hexNumber?_toDigits, hexNumber?_toDigits, Option.some_inj] at equal

namespace Escaped

def named? : Char → Option Char
  | '"' => some '"'
  | '\\' => some '\\'
  | 'n' => some '\n'
  | 'r' => some '\r'
  | 't' => some '\t'
  | '0' => some '\x00'
  | _ => none

inductive Shown (c : Char) : List Char → Prop where
  | itself (quote : c ≠ '"') (backslash : c ≠ '\\') : Shown c [c]
  | letter (l : Char) (names : named? l = some c) : Shown c ['\\', l]
  | point : Shown c (codePoint c)

theorem shown (c : Char) : Shown c (character c) := by
  rw [character]
  split
  · next same => exact .letter '"' (by rw [same]; rfl)
  · next quote =>
    split
    · next same => exact .letter '\\' (by rw [same]; rfl)
    · next backslash =>
      split
      · next same => exact .letter 'n' (by rw [same]; rfl)
      · split
        · next same => exact .letter 'r' (by rw [same]; rfl)
        · split
          · next same => exact .letter 't' (by rw [same]; rfl)
          · split
            · next same => exact .letter '0' (by rw [same]; rfl)
            · split
              · exact .point
              · exact .itself quote backslash

theorem codePoint_append (c : Char) (rest : List Char) :
    codePoint c ++ rest = '\\' :: 'u' :: '{' :: (Nat.toDigits 16 c.toNat ++ '}' :: rest) := by
  rw [codePoint]
  simp only [List.append_assoc, List.cons_append, List.nil_append]

/-- The code point between braces tells the character. -/
theorem codePoint_inj {c d : Char} {rest more : List Char}
    (same : codePoint c ++ rest = codePoint d ++ more) : c = d ∧ rest = more := by
  rw [codePoint_append, codePoint_append] at same
  have digits := List.cons_inj_right _ |>.mp (List.cons_inj_right _ |>.mp
    (List.cons_inj_right _ |>.mp same))
  have stop : ∀ rest, StartsOutside isHex ('}' :: rest) := startsOutside_cons (by decide)
  rcases unambiguous_hexDigits trivial trivial (stop rest) (stop more) digits with
    ⟨number, behind⟩
  exact ⟨Char.ext (UInt32.toNat_inj.mp number), List.cons_inj_right _ |>.mp behind⟩

theorem selfDelimiting_character : SelfDelimiting character := by
  intro c d rest more same
  have left := shown c
  have right := shown d
  generalize character c = text at left same
  generalize character d = other at right same
  cases left with
  | itself quote backslash =>
    cases right with
    | itself _ _ => exact List.cons_eq_cons.mp same
    | letter _ _ => exact absurd (List.cons_eq_cons.mp same).1 backslash
    | point =>
      exact absurd (List.cons_eq_cons.mp (same.trans (codePoint_append d more))).1 backslash
  | letter l names =>
    cases right with
    | itself _ backslash => exact absurd (List.cons_eq_cons.mp same).1.symm backslash
    | letter l' names' =>
      rcases List.cons_eq_cons.mp (List.cons_eq_cons.mp same).2 with ⟨rfl, behind⟩
      exact ⟨Option.some_inj.mp (names.symm.trans names'), behind⟩
    | point =>
      have letters := (List.cons_eq_cons.mp (same.trans (codePoint_append d more))).2
      rw [(List.cons_eq_cons.mp letters).1] at names
      cases names
  | point =>
    cases right with
    | itself _ backslash =>
      exact absurd (List.cons_eq_cons.mp ((codePoint_append c rest).symm.trans same)).1.symm
        backslash
    | letter l names =>
      have letters := (List.cons_eq_cons.mp ((codePoint_append c rest).symm.trans same)).2
      rw [← (List.cons_eq_cons.mp letters).1] at names
      cases names
    | point => exact codePoint_inj same

theorem character_ne_quote (c : Char) (more rest : List Char) :
    character c ++ more ≠ '"' :: rest := by
  have is := shown c
  generalize character c = text at is
  intro same
  cases is with
  | itself quote _ => exact quote (List.cons_eq_cons.mp same).1
  | letter _ _ => exact absurd (List.cons_eq_cons.mp same).1 (by decide)
  | point =>
    exact absurd (List.cons_eq_cons.mp ((codePoint_append c more).symm.trans same)).1 (by decide)

theorem quoted_append (text rest : List Char) :
    quoted text ++ rest = '"' :: (text.flatMap character ++ '"' :: rest) := by
  rw [quoted, List.cons_append, List.cons_append, List.append_assoc, List.singleton_append]

/-- Quoted texts are told apart, whatever stands behind them. -/
theorem selfDelimiting_quoted : SelfDelimiting quoted := by
  intro text other rest more same
  rw [quoted_append, quoted_append, List.cons_inj_right] at same
  have ends : ∀ rest, True ∧ ∀ c more, True → character c ++ more ≠ '"' :: rest :=
    fun rest => ⟨trivial, fun c more _ => character_ne_quote c more rest⟩
  have characters : Unambiguous (fun _ => True) (fun _ => True) character :=
    selfDelimiting_character.unambiguous
  rcases characters.list (fun _ _ _ _ => trivial) (fun _ _ => trivial) (fun _ _ => trivial)
    (ends rest) (ends more) same with ⟨inside, behind⟩
  exact ⟨inside, (List.cons_inj_right _).mp behind⟩

end Escaped
end ParticleSim
