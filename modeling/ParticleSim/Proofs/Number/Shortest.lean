import Mathlib.Tactic
import ParticleSim.Proofs.Number.Digits
import ParticleSim.Proofs.Number.Rounding
/-!
The shortest digits of a number. They denote a value that rounds to the number, so that reading them
gives the number back.
-/
namespace ParticleSim.Decimal
open Binary64

theorem ten_zpow (k : Int) : (10 : ℚ) ^ k = 10 ^ k.toNat / 10 ^ (-k).toNat := by
  rw [← zpow_natCast, ← zpow_natCast, ← zpow_sub₀ (by norm_num)]
  congr 1
  omega

theorem two_zpow (k : Int) : (2 : ℚ) ^ k = 2 ^ k.toNat / 2 ^ (-k).toNat := by
  rw [← zpow_natCast, ← zpow_natCast, ← zpow_sub₀ (by norm_num)]
  congr 1
  omega

namespace Interval

/-- The value lies inside, and the ends only where they belong to the interval. -/
structure Contains (i : Interval) (value : ℚ) : Prop where
  low : i.low / i.denominator ≤ value
  high : value ≤ i.high / i.denominator
  inside : i.closed = false → i.low / i.denominator < value ∧ value < i.high / i.denominator

section Grid

variable {i : Interval} (proper : 0 < i.denominator) (k : Int)
include proper

theorem end_le_grid (a c : Nat) : (a : ℚ) / i.denominator ≤ c * 10 ^ k ↔
    a * 10 ^ (-k).toNat ≤ c * (i.denominator * 10 ^ k.toNat) := by
  have positive : (0 : ℚ) < i.denominator := by exact_mod_cast proper
  rw [ten_zpow, mul_div_assoc', div_le_div_iff₀ positive (by positivity)]
  rw [show (c : ℚ) * 10 ^ k.toNat * i.denominator = c * (i.denominator * 10 ^ k.toNat) by ring]
  exact_mod_cast Iff.rfl

theorem grid_le_end (a c : Nat) : (c : ℚ) * 10 ^ k ≤ a / i.denominator ↔
    c * (i.denominator * 10 ^ k.toNat) ≤ a * 10 ^ (-k).toNat := by
  have positive : (0 : ℚ) < i.denominator := by exact_mod_cast proper
  rw [ten_zpow, mul_div_assoc', div_le_div_iff₀ (by positivity) positive]
  rw [show (c : ℚ) * 10 ^ k.toNat * i.denominator = c * (i.denominator * 10 ^ k.toNat) by ring]
  exact_mod_cast Iff.rfl

theorem end_lt_grid (a c : Nat) : (a : ℚ) / i.denominator < c * 10 ^ k ↔
    a * 10 ^ (-k).toNat < c * (i.denominator * 10 ^ k.toNat) := by
  rw [← not_le, ← not_le, grid_le_end proper]

theorem grid_lt_end (a c : Nat) : (c : ℚ) * 10 ^ k < a / i.denominator ↔
    c * (i.denominator * 10 ^ k.toNat) < a * 10 ^ (-k).toNat := by
  rw [← not_le, ← not_le, end_le_grid proper]

def reaches (i : Interval) (a b : Nat) : Bool :=
  if i.closed then a ≤ b else a < b

omit proper in
/-- The nearest multiple is one of the two neighbours of the value, and is missing only if neither
lies in the interval. -/
theorem nearest_cases (tie : Tie) {unit lower : Nat} (scale : unit = i.denominator * 10 ^ k.toNat)
    (floor : lower = i.value * 10 ^ (-k).toNat / unit) :
    (i.nearest? tie k = some lower ∧ i.reaches (i.low * 10 ^ (-k).toNat) (lower * unit) = true) ∨
    (i.nearest? tie k = some (lower + 1) ∧
      i.reaches ((lower + 1) * unit) (i.high * 10 ^ (-k).toNat) = true) ∨
    (i.nearest? tie k = none ∧ i.reaches (i.low * 10 ^ (-k).toNat) (lower * unit) = false ∧
      i.reaches ((lower + 1) * unit) (i.high * 10 ^ (-k).toNat) = false) := by
  have shape : i.nearest? tie k =
      if i.reaches (i.low * 10 ^ (-k).toNat) (lower * unit) &&
        i.reaches ((lower + 1) * unit) (i.high * 10 ^ (-k).toNat) then
        if 2 * (i.value * 10 ^ (-k).toNat % unit) < unit then some lower
        else if unit < 2 * (i.value * 10 ^ (-k).toNat % unit) then some (lower + 1)
        else some (if tie.takesUpper lower then lower + 1 else lower)
      else if i.reaches (i.low * 10 ^ (-k).toNat) (lower * unit) then some lower
      else if i.reaches ((lower + 1) * unit) (i.high * 10 ^ (-k).toNat) then some (lower + 1)
      else none := by
    subst scale floor
    rfl
  rw [shape]
  cases lowerIn : i.reaches (i.low * 10 ^ (-k).toNat) (lower * unit) <;>
    cases upperIn : i.reaches ((lower + 1) * unit) (i.high * 10 ^ (-k).toNat)
  · exact .inr (.inr ⟨rfl, rfl, rfl⟩)
  · exact .inr (.inl ⟨rfl, rfl⟩)
  · exact .inl ⟨rfl, rfl⟩
  · simp only [Bool.and_self, ↓reduceIte, and_true]
    split
    · exact .inl rfl
    · split
      · exact .inr (.inl rfl)
      · split
        · exact .inr (.inl rfl)
        · exact .inl rfl

theorem contains_nearest (below : i.low < i.value) (above : i.value < i.high) {tie : Tie} {c : Nat}
    (found : i.nearest? tie k = some c) :
    i.Contains (c * 10 ^ k) := by
  have positive : (0 : ℚ) < i.denominator := by exact_mod_cast proper
  have unit : 0 < i.denominator * 10 ^ k.toNat := by positivity
  have bottom : (i.low : ℚ) / i.denominator < i.value / i.denominator := by
    apply div_lt_div_of_pos_right _ positive
    exact_mod_cast below
  have top : (i.value : ℚ) / i.denominator < i.high / i.denominator := by
    apply div_lt_div_of_pos_right _ positive
    exact_mod_cast above
  have under := Nat.div_mul_le_self (i.value * 10 ^ (-k).toNat) (i.denominator * 10 ^ k.toNat)
  have past := (Nat.lt_div_mul_add (a := i.value * 10 ^ (-k).toNat) unit).le
  rw [← Nat.succ_mul] at past
  rw [← grid_le_end proper] at under
  rw [← end_le_grid proper] at past
  rcases nearest_cases k tie rfl rfl with ⟨same, lowerIn⟩ | ⟨same, upperIn⟩ | ⟨missing, -⟩
  · rw [same] at found
    cases found
    have upper := lt_of_le_of_lt under top
    cases closed : i.closed with
    | true =>
      rw [reaches, closed, if_pos rfl, decide_eq_true_eq, ← end_le_grid proper] at lowerIn
      exact ⟨lowerIn, upper.le, fun h => by rw [closed] at h; cases h⟩
    | false =>
      rw [reaches, closed, if_neg Bool.false_ne_true, decide_eq_true_eq, ← end_lt_grid proper]
        at lowerIn
      exact ⟨lowerIn.le, upper.le, fun _ => ⟨lowerIn, upper⟩⟩
  · rw [same] at found
    cases found
    have lower := lt_of_lt_of_le bottom past
    cases closed : i.closed with
    | true =>
      rw [reaches, closed, if_pos rfl, decide_eq_true_eq, ← grid_le_end proper] at upperIn
      exact ⟨lower.le, upperIn, fun h => by rw [closed] at h; cases h⟩
    | false =>
      rw [reaches, closed, if_neg Bool.false_ne_true, decide_eq_true_eq, ← grid_lt_end proper]
        at upperIn
      exact ⟨lower.le, upperIn.le, fun _ => ⟨lower, upperIn⟩⟩
  · rw [missing] at found
    cases found

theorem nearest_ne_none (tie : Tie)
    (fine : (10 : ℚ) ^ k < i.high / i.denominator - i.low / i.denominator) :
    i.nearest? tie k ≠ none := by
  intro missing
  rcases nearest_cases k tie rfl rfl with ⟨same, -⟩ | ⟨same, -⟩ | ⟨-, lowerOut, upperOut⟩
  · rw [same] at missing
    cases missing
  · rw [same] at missing
    cases missing
  · generalize i.value * 10 ^ (-k).toNat / (i.denominator * 10 ^ k.toNat) = c at *
    have lower : (c : ℚ) * 10 ^ k ≤ i.low / i.denominator := by
      rw [grid_le_end proper]
      cases closed : i.closed <;> simp only [reaches, closed, Bool.false_eq_true, ↓reduceIte,
        decide_eq_false_iff_not, not_le, not_lt] at lowerOut
      · exact lowerOut
      · exact lowerOut.le
    have upper : (i.high : ℚ) / i.denominator ≤ ((c + 1 : Nat) : ℚ) * 10 ^ k := by
      rw [end_le_grid proper]
      cases closed : i.closed <;> simp only [reaches, closed, Bool.false_eq_true, ↓reduceIte,
        decide_eq_false_iff_not, not_le, not_lt] at upperOut
      · exact upperOut
      · exact upperOut.le
    push_cast at upper
    linarith

end Grid

theorem nearest_whole {i : Interval} (proper : 0 < i.denominator) (below : i.low < i.value)
    {n : Nat} (whole : i.value = n * i.denominator) (tie : Tie) : i.nearest? tie 0 ≠ none := by
  intro missing
  have unit : i.denominator = i.denominator * 10 ^ (0 : Int).toNat := (Nat.mul_one _).symm
  have quotient : n = i.value * 10 ^ (-(0 : Int)).toNat / i.denominator := by
    change n = i.value * 1 / i.denominator
    rw [Nat.mul_one, whole, Nat.mul_div_cancel _ proper]
  rcases nearest_cases 0 tie unit quotient with ⟨same, -⟩ | ⟨same, -⟩ | ⟨-, lowerOut, -⟩
  · rw [same] at missing
    cases missing
  · rw [same] at missing
    cases missing
  · have scaled : i.low * 10 ^ (-(0 : Int)).toNat = i.low := Nat.mul_one _
    rw [scaled, ← whole] at lowerOut
    cases closed : i.closed <;> simp [reaches, closed] at lowerOut <;> omega

/-- The decimal magnitude is small enough: the value reaches the power of ten below it. -/
theorem pow_magnitude_le {i : Interval} (proper : 0 < i.denominator) (positive : 0 < i.value) :
    (10 : ℚ) ^ (i.magnitude - 1) ≤ i.value / i.denominator := by
  have scale : (0 : ℚ) < i.denominator := by exact_mod_cast proper
  rw [magnitude]
  split
  · next large =>
    have whole : 0 < i.value / i.denominator := Nat.div_pos large proper
    have digits : 0 < (digitsOf (i.value / i.denominator)).length := Nat.length_toDigits_pos
    have exponent : ((digitsOf (i.value / i.denominator)).length : Int) - 1 =
        ((digitsOf (i.value / i.denominator)).length - 1 : Nat) := by omega
    rw [exponent, zpow_natCast, le_div_iff₀ scale]
    have : 10 ^ ((digitsOf (i.value / i.denominator)).length - 1) * i.denominator ≤ i.value :=
      le_trans (Nat.mul_le_mul_right _ (pow_length_le whole)) (Nat.div_mul_le_self _ _)
    exact_mod_cast this
  · next small =>
    have above := lt_pow_length ((i.denominator - 1) / i.value)
    rw [Nat.div_lt_iff_lt_mul positive] at above
    have reached : i.denominator ≤
        10 ^ (digitsOf ((i.denominator - 1) / i.value)).length * i.value := by omega
    rw [show (1 : Int) - (digitsOf ((i.denominator - 1) / i.value)).length - 1 =
      -((digitsOf ((i.denominator - 1) / i.value)).length : Int) by omega, zpow_neg, zpow_natCast,
      le_div_iff₀ scale, inv_mul_le_iff₀ (by positivity)]
    exact_mod_cast reached

variable {negative : Bool} {m : Nat} {e : Int}

theorem ofExact_proper (v : Exact) : 0 < (ofExact v).denominator := by
  simp only [ofExact]
  positivity

theorem ofExact_end (a : Nat) (v : Exact) :
    ((a * 2 ^ (v.exponent - 2).toNat : Nat) : ℚ) / (ofExact v).denominator =
      a / 4 * 2 ^ v.exponent := by
  have power : (2 : ℚ) ^ v.exponent = 4 * 2 ^ (v.exponent - 2) := by
    rw [zpow_sub₀ (by norm_num)]
    norm_num
    ring
  have inverse : -(v.exponent - 2) = 2 - v.exponent := by omega
  rw [power, two_zpow, inverse, ofExact]
  push_cast
  ring

theorem ofExact_low (canonical : Canonical m e) :
    ((ofExact ⟨negative, m, e⟩).low : ℚ) / (ofExact ⟨negative, m, e⟩).denominator =
      (m - gap m e) * 2 ^ e := by
  refine (ofExact_end _ ⟨negative, m, e⟩).trans ?_
  congr 1
  have one := canonical.positive
  rw [gap]
  split <;>
  · rw [Nat.cast_sub (by dsimp only; omega)]
    push_cast
    ring

theorem ofExact_value : ((ofExact ⟨negative, m, e⟩).value : ℚ) /
    (ofExact ⟨negative, m, e⟩).denominator = m * 2 ^ e := by
  refine (ofExact_end _ ⟨negative, m, e⟩).trans ?_
  push_cast
  ring

theorem ofExact_high : ((ofExact ⟨negative, m, e⟩).high : ℚ) /
    (ofExact ⟨negative, m, e⟩).denominator = (m + 1 / 2) * 2 ^ e := by
  refine (ofExact_end _ ⟨negative, m, e⟩).trans ?_
  push_cast
  ring

theorem roundsTo_of_contains (canonical : Canonical m e) {value : ℚ}
    (contains : (ofExact ⟨negative, m, e⟩).Contains value) : RoundsTo value m e := by
  rcases contains with ⟨low, high, inside⟩
  rw [ofExact_low canonical] at low inside
  rw [ofExact_high] at high inside
  refine ⟨low, high, fun odd => inside ?_⟩
  change (m % 2 == 0) = false
  rw [odd]
  rfl

theorem ofExact_below (canonical : Canonical m e) :
    (ofExact ⟨negative, m, e⟩).low < (ofExact ⟨negative, m, e⟩).value := by
  have one := canonical.positive
  apply Nat.mul_lt_mul_of_pos_right _ (by positivity)
  change 4 * m - (if m = 2 ^ 52 ∧ -1074 < e then 1 else 2) < 4 * m
  split <;> omega

theorem ofExact_above :
    (ofExact ⟨negative, m, e⟩).value < (ofExact ⟨negative, m, e⟩).high := by
  apply Nat.mul_lt_mul_of_pos_right _ (by positivity)
  omega

/-- Seventeen digits suffice. -/
theorem seventeen_digits (canonical : Canonical m e) :
    (10 : ℚ) ^ ((ofExact ⟨negative, m, e⟩).magnitude - 17) <
      (ofExact ⟨negative, m, e⟩).high / (ofExact ⟨negative, m, e⟩).denominator -
      (ofExact ⟨negative, m, e⟩).low / (ofExact ⟨negative, m, e⟩).denominator := by
  have one := canonical.positive
  have positive : 0 < (ofExact ⟨negative, m, e⟩).value :=
    Nat.lt_of_le_of_lt (Nat.zero_le _) (ofExact_below canonical)
  have magnitude := pow_magnitude_le (ofExact_proper ⟨negative, m, e⟩) positive
  rw [ofExact_value] at magnitude
  rw [ofExact_low canonical, ofExact_high]
  generalize (ofExact ⟨negative, m, e⟩).magnitude = p at *
  have unit : (0 : ℚ) < 2 ^ e := by positivity
  have bound : (m : ℚ) + 1 ≤ 2 ^ 53 := by exact_mod_cast canonical.bounded
  have scaled : (10 : ℚ) ^ (p - 17) = 10 ^ (p - 1) / 10 ^ 16 := by
    rw [show p - 17 = p - 1 - 16 by omega, zpow_sub₀ (by norm_num)]
    norm_num
  have width : (m : ℚ) / 10 ^ 16 < 1 / 2 + gap m e := by
    rw [gap]
    split
    · next power =>
      rw [power.1]
      norm_num
    · rw [div_lt_iff₀ (by norm_num)]
      linarith
  calc (10 : ℚ) ^ (p - 17) ≤ m * 2 ^ e / 10 ^ 16 := by
        rw [scaled]
        gcongr
    _ = m / 10 ^ 16 * 2 ^ e := by ring
    _ < (1 / 2 + gap m e) * 2 ^ e := mul_lt_mul_of_pos_right width unit
    _ = (m + 1 / 2) * 2 ^ e - (m - gap m e) * 2 ^ e := by ring

end Interval

/-- The shortest digits denote a value that rounds to the number. -/
theorem shortest_spec {m : Nat} {e : Int} (canonical : Canonical m e) (negative : Bool)
    (tie : Tie) :
    ∃ (c : Nat) (k : Int), shortest tie ⟨negative, m, e⟩ = ofCoefficient c k ∧
      RoundsTo (c * 10 ^ k) m e := by
  rw [shortest, if_neg canonical.positive.ne']
  dsimp only
  generalize found : List.findSome? _ (List.range 17) = answer
  cases answer with
  | none =>
    -- seventeen digits are always enough, so the last of the candidates was not refused
    have last := List.findSome?_eq_none_iff.mp found 16 (by decide)
    rw [Option.map_eq_none_iff] at last
    refine absurd last (Interval.nearest_ne_none (Interval.ofExact_proper _) _ tie ?_)
    have exponent : (Interval.ofExact ⟨negative, m, e⟩).magnitude - ((16 + 1 : Nat) : Int) =
        (Interval.ofExact ⟨negative, m, e⟩).magnitude - 17 := rfl
    rw [exponent]
    exact Interval.seventeen_digits canonical
  | some d =>
    rcases List.exists_of_findSome?_eq_some found with ⟨count, -, candidate⟩
    rw [Option.map_eq_some_iff] at candidate
    rcases candidate with ⟨c, nearest, rfl⟩
    refine ⟨c, _, rfl, ?_⟩
    exact Interval.roundsTo_of_contains canonical (Interval.contains_nearest
      (Interval.ofExact_proper _) _ (Interval.ofExact_below canonical) Interval.ofExact_above
      nearest)

theorem shortest_whole {m n : Nat} {e : Int} (canonical : Canonical m e)
    (whole : (m : ℚ) * 2 ^ e = n) (few : (digitsOf n).length ≤ 17) (negative : Bool) (tie : Tie) :
    ∃ c k : Nat, shortest tie ⟨negative, m, e⟩ = ofCoefficient c k ∧
      RoundsTo (c * 10 ^ (k : Int)) m e := by
  obtain ⟨i, same⟩ : ∃ i, i = Interval.ofExact ⟨negative, m, e⟩ := ⟨_, rfl⟩
  have proper : 0 < i.denominator := by
    rw [same]
    exact Interval.ofExact_proper _
  have below : i.low < i.value := by
    rw [same]
    exact Interval.ofExact_below canonical
  have above : i.value < i.high := by
    rw [same]
    exact Interval.ofExact_above
  have value : i.value = n * i.denominator := by
    have quotient := @Interval.ofExact_value negative m e
    have positive : (0 : ℚ) < i.denominator := by exact_mod_cast proper
    rw [← same, whole, div_eq_iff positive.ne'] at quotient
    exact_mod_cast quotient
  have magnitude : i.magnitude = (digitsOf n).length := by
    have large : i.denominator ≤ i.value := by
      rw [value]
      apply Nat.le_mul_of_pos_left
      rcases Nat.eq_zero_or_pos n with rfl | more
      · omega
      · exact more
    rw [Interval.magnitude, if_pos large, value, Nat.mul_div_cancel _ proper]
  have reached := Interval.nearest_whole proper below value tie
  have digits : 0 < (digitsOf n).length := List.length_pos_iff.mpr (digitsOf_ne_nil n)
  rw [shortest, if_neg canonical.positive.ne']
  dsimp only
  rw [← same, magnitude]
  obtain ⟨others, total⟩ : ∃ others, 17 = (digitsOf n).length + others :=
    ⟨17 - (digitsOf n).length, by omega⟩
  rw [total, List.range_add, List.findSome?_append]
  generalize found : List.findSome? _ (List.range (digitsOf n).length) = answer
  cases answer with
  | none =>
    -- as many digits as the whole number has are enough
    have last := List.findSome?_eq_none_iff.mp found ((digitsOf n).length - 1)
      (List.mem_range.mpr (by omega))
    have unit : ((digitsOf n).length : Int) - ((digitsOf n).length - 1 + 1 : Nat) = 0 := by omega
    rw [unit, Option.map_eq_none_iff] at last
    exact absurd last reached
  | some d =>
    rcases List.exists_of_findSome?_eq_some found with ⟨count, inside, candidate⟩
    rw [Option.map_eq_some_iff] at candidate
    rcases candidate with ⟨c, nearest, rfl⟩
    obtain ⟨k, place⟩ : ∃ k : Nat, ((digitsOf n).length : Int) - (count + 1 : Nat) = k :=
      ⟨(digitsOf n).length - (count + 1), by have := List.mem_range.mp inside; omega⟩
    rw [place] at nearest ⊢
    have contains := Interval.contains_nearest proper k below above nearest
    rw [same] at contains
    exact ⟨c, k, rfl, Interval.roundsTo_of_contains canonical contains⟩

theorem ofCoefficient_spec {c : Nat} (positive : 0 < c) (k : Int) :
    (ofCoefficient c k).digits ≠ [] ∧ (∀ x ∈ (ofCoefficient c k).digits, isDigit x = true) ∧
      (ofDigits (ofCoefficient c k).digits : ℚ) *
        10 ^ ((ofCoefficient c k).point - (ofCoefficient c k).digits.length) = c * 10 ^ k := by
  obtain ⟨zeros, split⟩ : ∃ zeros, digitsOf c =
      (ofCoefficient c k).digits ++ List.replicate zeros '0' := by
    refine ⟨((digitsOf c).reverse.takeWhile (· == '0')).length, ?_⟩
    have trailing : (digitsOf c).reverse.takeWhile (· == '0') =
        List.replicate ((digitsOf c).reverse.takeWhile (· == '0')).length '0' := by
      rw [List.eq_replicate_iff]
      refine ⟨rfl, fun x member => ?_⟩
      exact eq_of_beq (List.all_eq_true.mp List.all_takeWhile x member)
    rw [← List.reverse_inj, List.reverse_append, List.reverse_replicate, ← trailing]
    change _ = _ ++ ((digitsOf c).reverse.dropWhile (· == '0')).reverse.reverse
    rw [List.reverse_reverse, List.takeWhile_append_dropWhile]
  have value : ofDigits (ofCoefficient c k).digits * 10 ^ zeros = c := by
    rw [← ofDigits_append_zeros, ← split, ofDigits_digitsOf]
  refine ⟨?_, ?_, ?_⟩
  · intro empty
    rw [empty] at value
    simp [ofDigits] at value
    omega
  · intro x member
    apply isDigit_digitsOf c
    rw [split]
    exact List.mem_append_left _ member
  · have point : (ofCoefficient c k).point - (ofCoefficient c k).digits.length = zeros + k := by
      have total := congrArg List.length split
      rw [List.length_append, List.length_replicate] at total
      change ((digitsOf c).length : Int) + k - _ = _
      omega
    rw [point, zpow_add₀ (by norm_num), zpow_natCast, ← mul_assoc]
    congr 1
    exact_mod_cast value

end ParticleSim.Decimal
