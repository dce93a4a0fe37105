import ParticleSim.Proofs.Outline.Bare

namespace ParticleSim.Outline.Quoted

inductive Written (c : Char) : List Char → Prop where
  | itself (quote : c ≠ '"') (backslash : c ≠ '\\') (visible : CharClass.isControl c = false) :
      Written c [c]
  | letter (l : Char) (noPoint : l ≠ 'u') (means : escape? l = some c)
      (visible : CharClass.isControl l = false) : Written c ['\\', l]
  | digits (p q r s : Char) (means : scalarValue? p q r s = some c)
      (clean : ∀ d ∈ [p, q, r, s], needsQuotes d = false) : Written c ['\\', 'u', p, q, r, s]

def hasDigits (c : Char) : Bool :=
  match Escaped.fourDigits c with
  | ['\\', 'u', p, q, r, s] =>
    scalarValue? p q r s == some c && [p, q, r, s].all fun d => !needsQuotes d
  | _ => false

theorem hasDigits_low : ∀ n < 0xA0, hasDigits (Char.ofNat n) = true := by decide +kernel

theorem written_digits {c : Char} (has : hasDigits c = true) :
    Written c (Escaped.fourDigits c) := by
  rw [hasDigits] at has
  split at has
  · next p q r s same =>
    rw [Bool.and_eq_true, beq_iff_eq, List.all_eq_true] at has
    rw [same]
    apply Written.digits p q r s has.1
    intro d member
    rw [← Bool.not_eq_true']
    exact has.2 d member
  · cases has

theorem written (c : Char) : Written c (encodeChar c) := by
  rw [encodeChar]
  split
  · next same => exact .letter '"' (by decide) (by rw [same]; rfl) rfl
  · next quote =>
    split
    · next same => exact .letter '\\' (by decide) (by rw [same]; rfl) rfl
    · next backslash =>
      split
      · next same => exact .letter 'n' (by decide) (by rw [same]; rfl) rfl
      · split
        · next same => exact .letter 't' (by decide) (by rw [same]; rfl) rfl
        · split
          · next same => exact .letter 'r' (by decide) (by rw [same]; rfl) rfl
          · split
            · next same => exact .letter '0' (by decide) (by rw [same]; rfl) rfl
            · split
              · next control =>
                apply written_digits
                rw [← Char.ofNat_toNat c]
                apply hasDigits_low
                rw [CharClass.isControl, Bool.or_eq_true, Bool.and_eq_true, decide_eq_true_eq,
                  decide_eq_true_eq, decide_eq_true_eq] at control
                omega
              · next control =>
                exact .itself quote backslash (Bool.not_eq_true _ ▸ control)

/-- Reading decodes a written character and goes on behind it. -/
theorem readDouble_written {c : Char} {text : List Char} (is : Written c text) (offset : Nat)
    (rest : List Char) : ∃ next, readDouble offset (text ++ rest) =
      (readDouble next rest).map (push c) := by
  cases is with
  | itself quote backslash =>
    refine ⟨offset + 1, ?_⟩
    rw [List.cons_append, List.nil_append, readDouble.eq_def]
    dsimp only
    rw [if_neg quote, if_neg backslash]
  | letter l noPoint means =>
    refine ⟨offset + 2, ?_⟩
    rw [List.cons_append, List.cons_append, List.nil_append, readDouble.eq_def]
    dsimp only
    rw [if_neg (by decide), if_pos rfl]
    split
    · next same => cases same
    · next same => cases same; exact absurd rfl noPoint
    · next same => cases same; exact absurd rfl noPoint
    · next same => cases same; rw [means]
  | digits p q r s means =>
    refine ⟨offset + 6, ?_⟩
    rw [List.cons_append, List.cons_append, List.cons_append, List.cons_append, List.cons_append,
      List.cons_append, List.nil_append, readDouble.eq_def]
    dsimp only
    rw [if_neg (by decide), if_pos rfl]
    simp only [means]

theorem readDouble_encode (text rest : List Char) (offset : Nat) :
    readDouble offset (text.flatMap encodeChar ++ '"' :: rest) = .ok (text, rest) := by
  induction text generalizing offset with
  | nil =>
    rw [List.flatMap_nil, List.nil_append, readDouble.eq_def]
    rfl
  | cons c text ih =>
    rcases readDouble_written (written c) offset (text.flatMap encodeChar ++ '"' :: rest) with
      ⟨next, step⟩
    rw [List.flatMap_cons, List.append_assoc, step, ih next]
    rfl

theorem ne_of_clean {c d : Char} (clean : needsQuotes c = false) (special : needsQuotes d = true) :
    c ≠ d := by
  intro equal
  subst equal
  rw [clean] at special
  cases special

theorem endDouble_clean {c : Char} (clean : needsQuotes c = false) (rest : List Char) :
    endDouble (c :: rest) = (endDouble rest).map (· + 1) := by
  rw [endDouble.eq_def]
  dsimp only
  rw [if_neg (ne_of_clean clean rfl), if_neg (ne_of_clean clean rfl)]

theorem endDouble_written {c : Char} {text : List Char} (is : Written c text) (rest : List Char) :
    endDouble (text ++ rest) = (endDouble rest).map (· + text.length) := by
  cases is with
  | itself quote backslash =>
    rw [List.cons_append, List.nil_append, endDouble.eq_def]
    dsimp only
    rw [if_neg backslash, if_neg quote]
    rfl
  | letter l noPoint means =>
    rw [List.cons_append, List.cons_append, List.nil_append, endDouble.eq_def]
    dsimp only
    rw [if_pos rfl]
    rfl
  | digits p q r s means clean =>
    simp only [List.mem_cons, List.not_mem_nil, or_false, forall_eq_or_imp, forall_eq] at clean
    rcases clean with ⟨cleanP, cleanQ, cleanR, cleanS⟩
    rw [List.cons_append, List.cons_append, List.cons_append, List.cons_append, List.cons_append,
      List.cons_append, List.nil_append, endDouble.eq_def]
    dsimp only
    rw [if_pos rfl, endDouble_clean cleanP, endDouble_clean cleanQ, endDouble_clean cleanR,
      endDouble_clean cleanS]
    simp only [Option.map_map]
    rfl

theorem endDouble_encode (text rest : List Char) :
    endDouble (text.flatMap encodeChar ++ '"' :: rest) =
      some ((text.flatMap encodeChar).length + 1) := by
  induction text with
  | nil =>
    rw [List.flatMap_nil, List.nil_append, endDouble.eq_def]
    rfl
  | cons c text ih =>
    rw [List.flatMap_cons, List.append_assoc, endDouble_written (written c), ih, Option.map_some,
      List.length_append, Nat.add_comm _ (encodeChar c).length, Nat.add_assoc]

theorem length?_encode (text rest : List Char) :
    length? (encode text ++ rest) = some (encode text).length := by
  rw [encode, List.cons_append, List.cons_append, List.append_assoc, List.singleton_append, length?,
    endDouble_encode, Option.map_some, List.length_cons, List.length_append, List.length_singleton]

theorem readAt_encode (line column : Nat) (text : List Char) :
    readAt line column (encode text) = .ok (text, []) := by
  rw [encode, readAt, List.cons_append, read, readDouble_encode]
  rfl

theorem not_control_encode (text : List Char) :
    ∀ c ∈ encode text, CharClass.isControl c = false := by
  have written_visible : ∀ {c : Char} {form : List Char}, Written c form →
      ∀ d ∈ form, CharClass.isControl d = false := by
    intro c form is d member
    cases is with
    | itself quote backslash visible =>
      rw [List.mem_singleton.mp member]
      exact visible
    | letter l noPoint means visible =>
      simp only [List.mem_cons, List.not_mem_nil, or_false] at member
      rcases member with rfl | rfl
      · rfl
      · exact visible
    | digits p q r s means clean =>
      rcases List.mem_cons.mp member with rfl | member
      · rfl
      · rcases List.mem_cons.mp member with rfl | member
        · rfl
        · exact (Bool.or_eq_false_iff.mp (clean d member)).1
  intro c member
  rw [encode, List.cons_append, List.mem_cons, List.mem_append, List.mem_singleton,
    List.mem_flatMap] at member
  rcases member with rfl | ⟨d, -, inside⟩ | rfl
  · rfl
  · exact written_visible (written d) c inside
  · rfl

/-! What the readers make of a quoted text. -/

theorem encode_head (text : List Char) : ∃ rest, encode text = '"' :: rest :=
  ⟨text.flatMap encodeChar ++ ['"'], rfl⟩

theorem getLast?_encode (text : List Char) : (encode text).getLast? = some '"' := by
  rw [encode, List.getLast?_append_of_ne_nil _ (List.cons_ne_nil _ _)]
  rfl

end Quoted

open Quoted

theorem trimEnd_encode (text : List Char) : trimEnd (encode text) = encode text :=
  trimEnd_of_last fun c final => by
    rw [getLast?_encode] at final
    cases final
    decide

theorem splitKey_encode (text : List Char) : splitKey (encode text) = none := by
  have length := length?_encode text []
  rw [List.append_nil] at length
  rcases encode_head text with ⟨rest, shape⟩
  rw [shape] at length ⊢
  simp [splitKey, isQuote, length, skipSpaces]

theorem splitKey_encode_key (text : List Char) {after : List Char} (ends : endsKey after = true) :
    splitKey (encode text ++ ':' :: after) = some (encode text, after) := by
  have length := length?_encode text (':' :: after)
  have front : (encode text ++ ':' :: after).take (encode text).length = encode text :=
    List.take_left
  have back : (encode text ++ ':' :: after).drop (encode text).length = ':' :: after :=
    List.drop_left
  rcases encode_head text with ⟨rest, shape⟩
  rw [shape] at length front back ⊢
  rw [List.cons_append] at length front back ⊢
  have colon : skipSpaces (':' :: after) = ':' :: after := rfl
  simp only [splitKey, isQuote, length, Option.bind_some, front, back, colon, ends]
  rfl

theorem readKey_encode (line : Line) (text : List Char) :
    readKey line (encode text) = .ok (String.ofList text) := by
  have read := readAt_encode line.number (line.indent + 1) text
  have trimmed := trimEnd_encode text
  rcases encode_head text with ⟨rest, shape⟩
  rw [shape] at read trimmed ⊢
  rw [readKey, trimmed]
  dsimp only
  rw [if_pos (show isQuote '"' = true from rfl), read]
  rfl

theorem readInline_encode (line column budget : Nat) (text : List Char) :
    readInline line column budget (encode text) = .ok (.ofString (String.ofList text)) := by
  have read := readAt_encode line column text
  rcases encode_head text with ⟨rest, shape⟩
  rw [shape] at read ⊢
  rw [readInline.eq_def]
  dsimp only
  rw [if_neg (by decide), if_pos (show isQuote '"' = true from rfl), read]
  rfl

end ParticleSim.Outline
