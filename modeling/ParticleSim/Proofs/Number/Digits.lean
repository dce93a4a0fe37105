import Mathlib.Tactic
import ParticleSim.Number.Literal

namespace ParticleSim

theorem digitChar_spec : ∀ d < 10, isDigit (Nat.digitChar d) = true ∧
    digitValue (Nat.digitChar d) = d := by decide

theorem ofDigits_append (front back : List Char) :
    ofDigits (front ++ back) = ofDigits front * 10 ^ back.length + ofDigits back := by
  have general : ∀ (digits : List Char) (total : Nat),
      digits.foldl (fun total c => 10 * total + digitValue c) total =
        total * 10 ^ digits.length + ofDigits digits := by
    intro digits
    induction digits with
    | nil => simp [ofDigits]
    | cons c rest ih =>
      intro total
      rw [ofDigits, List.foldl_cons, List.foldl_cons, ih, ih, List.length_cons]
      ring
  rw [ofDigits, List.foldl_append, general]
  rfl

theorem ofDigits_zeros (count : Nat) : ofDigits (List.replicate count '0') = 0 := by
  induction count with
  | zero => rfl
  | succ count ih =>
    rw [List.replicate_succ', ofDigits_append, ih]
    rfl

theorem ofDigits_zeros_append (count : Nat) (digits : List Char) :
    ofDigits (List.replicate count '0' ++ digits) = ofDigits digits := by
  rw [ofDigits_append, ofDigits_zeros, Nat.zero_mul, Nat.zero_add]

theorem ofDigits_append_zeros (digits : List Char) (count : Nat) :
    ofDigits (digits ++ List.replicate count '0') = ofDigits digits * 10 ^ count := by
  rw [ofDigits_append, ofDigits_zeros, List.length_replicate, Nat.add_zero]

namespace Decimal

theorem digitsOf_small {n : Nat} (small : n < 10) : digitsOf n = [Nat.digitChar n] :=
  Nat.toDigits_of_lt_base small

theorem digitsOf_large {n : Nat} (large : 10 ≤ n) :
    digitsOf n = digitsOf (n / 10) ++ [Nat.digitChar (n % 10)] :=
  Nat.toDigits_of_base_le (by decide) large

theorem digitsOf_ne_nil (n : Nat) : digitsOf n ≠ [] :=
  Nat.toDigits_ne_nil

theorem isDigit_digitsOf (n : Nat) : ∀ c ∈ digitsOf n, isDigit c = true := by
  induction n using Nat.strong_induction_on with
  | _ n ih =>
    intro c member
    by_cases small : n < 10
    · rw [digitsOf_small small, List.mem_singleton] at member
      rw [member]
      exact (digitChar_spec n small).1
    · rw [digitsOf_large (by omega), List.mem_append, List.mem_singleton] at member
      rcases member with front | last
      · exact ih (n / 10) (by omega) c front
      · rw [last]
        exact (digitChar_spec (n % 10) (by omega)).1

theorem ofDigits_digitsOf (n : Nat) : ofDigits (digitsOf n) = n := by
  induction n using Nat.strong_induction_on with
  | _ n ih =>
    by_cases small : n < 10
    · rw [digitsOf_small small]
      simpa [ofDigits] using (digitChar_spec n small).2
    · rw [digitsOf_large (by omega), ofDigits_append, ih (n / 10) (by omega)]
      have last : ofDigits [Nat.digitChar (n % 10)] = n % 10 := by
        simpa [ofDigits] using (digitChar_spec (n % 10) (by omega)).2
      rw [last, List.length_singleton]
      omega

theorem lt_pow_length (n : Nat) : n < 10 ^ (digitsOf n).length :=
  (Nat.length_toDigits_le_iff (by decide) Nat.length_toDigits_pos).mp (le_refl _)

theorem pow_length_le {n : Nat} (positive : 0 < n) : 10 ^ ((digitsOf n).length - 1) ≤ n := by
  by_contra less
  by_cases single : (digitsOf n).length - 1 = 0
  · rw [single, pow_zero] at less
    omega
  · have := (Nat.length_toDigits_le_iff (b := 10) (by decide) (Nat.pos_of_ne_zero single)).mpr
      (not_le.mp less)
    change (digitsOf n).length ≤ _ at this
    omega

theorem length_add_le {c k places : Nat} (positive : 0 < c) (small : c * 10 ^ k < 10 ^ places) :
    (digitsOf c).length + k ≤ places := by
  by_contra many
  have reached : 10 ^ places ≤ c * 10 ^ k :=
    calc 10 ^ places ≤ 10 ^ ((digitsOf c).length - 1 + k) :=
          Nat.pow_le_pow_right (by decide) (by omega)
      _ = 10 ^ ((digitsOf c).length - 1) * 10 ^ k := Nat.pow_add ..
      _ ≤ c * 10 ^ k := Nat.mul_le_mul_right _ (pow_length_le positive)
  omega

end Decimal
end ParticleSim
