import ParticleSim.Proofs.Number.Numeral
import ParticleSim.Proofs.Number.Units

namespace ParticleSim

theorem roundDiv_cases (n d : Nat) (tie : Tie) :
    (roundDiv n d tie = n / d ∧ 2 * (n % d) ≤ d) ∨
      (roundDiv n d tie = n / d + 1 ∧ d ≤ 2 * (n % d)) := by
  rw [roundDiv]
  split
  · next below => exact .inl ⟨rfl, below.le⟩
  · next low =>
    split
    · next above => exact .inr ⟨rfl, above.le⟩
    · next high =>
      split
      · exact .inr ⟨rfl, not_lt.mp low⟩
      · exact .inl ⟨rfl, not_lt.mp high⟩

theorem roundDiv_near {d : Nat} (positive : 0 < d) (n : Nat) (tie : Tie) :
    2 * |(roundDiv n d tie : ℚ) - n / d| ≤ 1 := by
  have unit : (0 : ℚ) < d := by exact_mod_cast positive
  have parts : (d : ℚ) * (n / d : ℕ) + (n % d : ℕ) = n := by exact_mod_cast Nat.div_add_mod n d
  have quotient : (n : ℚ) / d = (n / d : ℕ) + (n % d : ℕ) / d := by
    rw [div_eq_iff unit.ne', add_mul, div_mul_cancel₀ _ unit.ne', mul_comm]
    exact parts.symm
  have rest : ((n % d : ℕ) : ℚ) / d < 1 :=
    (div_lt_one unit).mpr (by exact_mod_cast Nat.mod_lt n positive)
  rcases roundDiv_cases n d tie with ⟨same, low⟩ | ⟨same, high⟩
  · have half : (2 : ℚ) * (n % d : ℕ) ≤ d := by exact_mod_cast low
    rw [same, quotient, sub_add_cancel_left, abs_neg, abs_of_nonneg (by positivity),
      ← mul_div_assoc]
    exact (div_le_one unit).mpr half
  · have half : (d : ℚ) ≤ 2 * (n % d : ℕ) := by exact_mod_cast high
    have most : 1 ≤ 2 * (((n % d : ℕ) : ℚ) / d) := by
      rw [← mul_div_assoc]
      exact (one_le_div unit).mpr half
    rw [same, quotient, Nat.cast_add_one, add_sub_add_left_eq_sub, abs_of_pos (by linarith)]
    linarith

theorem Decimal.rounded_near (places : Nat) (v : Exact) :
    2 * |(rounded places v : ℚ) - v.significand * 2 ^ v.exponent * 10 ^ places| ≤ 1 := by
  have near := roundDiv_near (Nat.two_pow_pos (-v.exponent).toNat)
    (v.significand * 2 ^ v.exponent.toNat * 10 ^ places) .even
  have value : ((v.significand * 2 ^ v.exponent.toNat * 10 ^ places : Nat) : ℚ) /
      (2 ^ (-v.exponent).toNat : Nat) = v.significand * 2 ^ v.exponent * 10 ^ places := by
    have power : (2 : ℚ) ^ v.exponent = 2 ^ v.exponent.toNat / 2 ^ (-v.exponent).toNat := by
      rw [← zpow_natCast, ← zpow_natCast, ← zpow_sub₀ two_ne_zero]
      congr 1
      omega
    push_cast
    rw [power]
    ring
  rw [value] at near
  exact near

/-- The text of a number rounded to a count of decimal places, or the word for what is none. -/
inductive WritesRounded (places : Nat) (x : Float) (text : String) : Prop where
  | number (count : Nat) (finite : x.isFinite = true)
    (writes : WritesDecimal text.toList ⟨Binary64.isNegative x, count, -places⟩)
    (near : 2 * |(count : ℚ) - (Binary64.exact x).significand * 2 ^ (Binary64.exact x).exponent *
      10 ^ places| ≤ 1)
  | infinite (infinite : x.isInf = true)
    (word : text = if Binary64.isNegative x then "-inf" else "inf")
  | nan (missing : x.isNaN = true) (word : text = "NaN")

section Places

variable {digits : List Char} {places : Nat} (all : ∀ c ∈ digits, isDigit c = true)
  (longer : places < digits.length)
include all longer

omit all in
theorem take_places_ne_nil : digits.take (digits.length - places) ≠ [] := by
  rw [ne_eq, List.take_eq_nil_iff, not_or, ← List.length_eq_zero_iff]
  omega

theorem unsigned?_places (negative : Bool) :
    Literal.unsigned? negative (digits.take (digits.length - places) ++
        '.' :: digits.drop (digits.length - places)) =
      some ⟨negative, ofDigits digits, -places⟩ := by
  have count : (digits.drop (digits.length - places)).length = places := by
    rw [List.length_drop]
    omega
  rw [Literal.unsigned_point negative (take_places_ne_nil longer)
    (fun c member => all c (List.mem_of_mem_take member))
    fun c member => all c (List.mem_of_mem_drop member), List.take_append_drop, count]

theorem writesDecimal_places (negative : Bool) {text : List Char}
    (layout : text = if negative then
        '-' :: (digits.take (digits.length - places) ++
          '.' :: digits.drop (digits.length - places))
      else digits.take (digits.length - places) ++
        '.' :: digits.drop (digits.length - places)) :
    WritesDecimal text ⟨negative, ofDigits digits, -places⟩ := by
  apply Literal.ofText?_eq_some_iff.mp
  rw [layout]
  cases negative with
  | true => exact unsigned?_places all longer true
  | false =>
    rcases List.exists_cons_of_ne_nil (take_places_ne_nil longer) with ⟨c, front, same⟩
    have first : isDigit c = true :=
      all c (List.mem_of_mem_take (same ▸ List.mem_cons_self : c ∈ digits.take _))
    have read := unsigned?_places all longer false
    rw [same] at read
    rw [if_neg Bool.false_ne_true, Literal.ofText?, same, List.cons_append,
      splitSign_head first]
    exact read

end Places

theorem fixed_digits {places count : Nat} {digits : List Char}
    (padded : digits = List.replicate (places + 1 - (Decimal.digitsOf count).length) '0' ++
      Decimal.digitsOf count) :
    (∀ c ∈ digits, isDigit c = true) ∧ places < digits.length ∧ ofDigits digits = count := by
  subst padded
  refine ⟨?_, ?_, ?_⟩
  · intro c member
    rcases List.mem_append.mp member with zero | digit
    · rw [List.eq_of_mem_replicate zero]
      rfl
    · exact Decimal.isDigit_digitsOf _ c digit
  · rw [List.length_append, List.length_replicate]
    omega
  · rw [ofDigits_zeros_append, Decimal.ofDigits_digitsOf]

theorem writesRounded_special (places : Nat) {x : Float} (special : ¬x.isFinite = true) :
    WritesRounded places x (String.ofList (specialText x)) := by
  cases missing : x.isNaN with
  | true =>
    refine .nan missing ?_
    rw [specialText, if_pos missing]
  | false =>
    have infinite : x.isInf = true := by
      by_contra bounded
      exact special (Binary64.isFinite_iff.mpr ⟨missing, Bool.eq_false_of_not_eq_true bounded⟩)
    refine .infinite infinite ?_
    rw [specialText, missing, if_neg Bool.false_ne_true]
    cases Binary64.isNegative x <;> rfl

theorem writesRounded_fixed {places : Nat} (positive : 0 < places) (x : Float) :
    WritesRounded places x (fixed places x) := by
  by_cases finite : x.isFinite = true
  · refine .number (Decimal.rounded places (Binary64.exact x)) finite ?_
      (Decimal.rounded_near places _)
    generalize value : Decimal.rounded places (Binary64.exact x) = count
    obtain ⟨digits, padded⟩ : ∃ digits, digits = List.replicate
      (places + 1 - (Decimal.digitsOf count).length) '0' ++ Decimal.digitsOf count := ⟨_, rfl⟩
    rcases fixed_digits padded with ⟨all, longer, same⟩
    rw [← same]
    apply writesDecimal_places all longer
    rw [fixed, String.toList_ofList, if_pos finite]
    dsimp only
    rw [value, ← padded, Binary64.exact_negative, if_neg positive.ne']
  · rw [fixed, if_neg finite]
    exact writesRounded_special places finite

end ParticleSim
