import ParticleSim.Json.Reader
import ParticleSim.Json.Writer
import ParticleSim.Proofs.Outline.QuotedForms

namespace ParticleSim.Json

inductive Written (c : Char) : List Char → Prop where
  | itself (quote : c ≠ '"') (backslash : c ≠ '\\') (visible : ¬c.toNat < 0x20) : Written c [c]
  | letter (l : Char) (noPoint : l ≠ 'u') (means : escape? l = some c) : Written c ['\\', l]
  | digits (p q r s : Char) (means : hexNumber? [p, q, r, s] = some c.toNat)
      (whole : c.toNat < 0xD800) : Written c ['\\', 'u', p, q, r, s]

def hasDigits (c : Char) : Bool :=
  match Escaped.fourDigits c with
  | ['\\', 'u', p, q, r, s] => hexNumber? [p, q, r, s] == some c.toNat
  | _ => false

theorem hasDigits_low : ∀ n < 0x20, hasDigits (Char.ofNat n) = true := by decide +kernel

theorem written_fourDigits {c : Char} (low : c.toNat < 0x20) :
    Written c (Escaped.fourDigits c) := by
  have has := hasDigits_low c.toNat low
  rw [Char.ofNat_toNat, hasDigits] at has
  split at has
  · next p q r s same =>
    rw [same]
    exact .digits p q r s (beq_iff_eq.mp has) (by omega)
  · cases has

theorem written (c : Char) : Written c (encodeChar c) := by
  rw [encodeChar]
  split
  · next same => exact .letter '"' (by decide) (by rw [same]; rfl)
  · next quote =>
    split
    · next same => exact .letter '\\' (by decide) (by rw [same]; rfl)
    · next backslash =>
      split
      · next same => exact .letter 'b' (by decide) (by rw [same]; rfl)
      · split
        · next same => exact .letter 'f' (by decide) (by rw [same]; rfl)
        · split
          · next same => exact .letter 'n' (by decide) (by rw [same]; rfl)
          · split
            · next same => exact .letter 'r' (by decide) (by rw [same]; rfl)
            · split
              · next same => exact .letter 't' (by decide) (by rw [same]; rfl)
              · split
                · next low => exact written_fourDigits low
                · next visible => exact .itself quote backslash visible

theorem newline_of_written {c : Char} {text : List Char} (is : Written c text) :
    '\n' ∉ text := by
  cases is with
  | itself quote backslash visible =>
    rw [List.mem_singleton]
    rintro rfl
    exact visible (by decide)
  | letter l noPoint means =>
    simp only [List.mem_cons, List.not_mem_nil, or_false]
    rintro (same | rfl)
    · cases same
    · cases means
  | digits p q r s means whole =>
    have other : ∀ d value, hexValue? d = some value → '\n' ≠ d := by
      rintro d value digit rfl
      cases digit
    simp only [hexNumber?, List.foldlM_cons, Option.bind_eq_bind, Option.bind_eq_some_iff,
      Option.map_eq_some_iff] at means
    rcases means with ⟨_, ⟨_, first, -⟩, _, ⟨_, second, -⟩, _, ⟨_, third, -⟩, _, ⟨_, fourth, -⟩, -⟩
    simp [other p _ first, other q _ second, other r _ third, other s _ fourth]

theorem readString?_written {c : Char} {text : List Char} (is : Written c text)
    (rest : List Char) : readString? (text ++ rest) = (readString? rest).map (push c) := by
  cases is with
  | itself quote backslash visible =>
    rw [List.cons_append, List.nil_append, readString?.eq_def]
    dsimp only
    rw [if_neg quote, if_neg backslash, if_neg visible]
  | letter l noPoint means =>
    rw [List.cons_append, List.cons_append, List.nil_append, readString?.eq_def]
    dsimp only
    rw [if_neg (by decide), if_pos rfl]
    split
    · next same => exact absurd (List.cons_eq_cons.mp same).1 noPoint
    · next same =>
      cases same
      rw [means]
    · next same => cases same
  | digits p q r s means whole =>
    have single : ¬(0xD800 ≤ c.toNat ∧ c.toNat < 0xDC00) := by omega
    have decoded : char? c.toNat = some c := Outline.Quoted.char?_eq_some_iff.mpr rfl
    dsimp only [List.cons_append, List.nil_append]
    rw [readString?.eq_def]
    simp only [means, if_neg single, decoded]
    rfl

/-- A string is read back from its characters, up to the closing quote. -/
theorem readString?_encode (text rest : List Char) :
    readString? (text.flatMap encodeChar ++ '"' :: rest) = some (text, rest) := by
  induction text with
  | nil =>
    rw [List.flatMap_nil, List.nil_append, readString?.eq_def]
    rfl
  | cons c text ih =>
    rw [List.flatMap_cons, List.append_assoc, readString?_written (written c), ih]
    rfl

theorem stringText_append (s : String) (rest : List Char) :
    stringText s ++ rest = '"' :: (s.toList.flatMap encodeChar ++ '"' :: rest) := by
  rw [stringText, List.cons_append, List.cons_append, List.append_assoc, List.singleton_append]

end ParticleSim.Json
