import Mathlib.Tactic
import ParticleSim.Proofs.Number.Binary64
/-!
Rounding to the nearest binary64 number. A positive value rounds to the number in whose interval it
lies; division, multiplication and the reading of decimals round their exact result in this way.
-/
namespace ParticleSim.Binary64
open Float.Model Float.Model.UnpackedFloat

def Fits : Accuracy → ℚ → Prop
  | .exact, rest => rest = 0
  | .inexact .lt, rest => 0 < rest ∧ rest < 1 / 2
  | .inexact .eq, rest => rest = 1 / 2
  | .inexact .gt, rest => 1 / 2 < rest ∧ rest < 1

def Holds (em : ExtendedMantissa) (value : ℚ) : Prop :=
  Fits em.accuracy (value - em.mantissa)

theorem fits_bounds {accuracy : Accuracy} {rest : ℚ} (fits : Fits accuracy rest) :
    0 ≤ rest ∧ rest < 1 := by
  cases accuracy with
  | exact =>
    simp only [Fits] at fits
    constructor <;> linarith
  | inexact side =>
    cases side <;> simp only [Fits] at fits <;> constructor <;> linarith

theorem holds_start {n : Nat} {accuracy : Accuracy} {value : ℚ} (fits : Fits accuracy (value - n)) :
    Holds (.ofMantissaAndAccuracy n accuracy) value := by
  cases accuracy with
  | exact => exact fits
  | inexact side => cases side <;> exact fits

theorem holds_shiftRightOne {em : ExtendedMantissa} {value : ℚ} (holds : Holds em value) :
    Holds em.shiftRightOne (value / 2) := by
  rcases em with ⟨m, roundBit, stickyBit⟩
  have split : ((m / 2 : Nat) : ℚ) * 2 + (m % 2 : Nat) = m := by
    exact_mod_cast Nat.div_add_mod' m 2
  rcases Nat.mod_two_eq_zero_or_one m with even | odd
  · rw [even, Nat.cast_zero] at split
    cases roundBit <;> cases stickyBit <;>
      simp [Holds, ExtendedMantissa.shiftRightOne, ExtendedMantissa.accuracy, Fits, even]
        at holds ⊢ <;> first | linarith | constructor <;> linarith
  · rw [odd, Nat.cast_one] at split
    cases roundBit <;> cases stickyBit <;>
      simp [Holds, ExtendedMantissa.shiftRightOne, ExtendedMantissa.accuracy, Fits, odd]
        at holds ⊢ <;> first | linarith | constructor <;> linarith

theorem holds_shiftRight {em : ExtendedMantissa} {value : ℚ} (holds : Holds em value)
    (count : Nat) : Holds (em >>> count) (value / 2 ^ count) := by
  induction count with
  | zero =>
    rw [pow_zero, div_one]
    exact holds
  | succ count ih =>
    have step := holds_shiftRightOne ih
    rw [div_div, ← pow_succ] at step
    exact step

def Near (value : ℚ) (n : Nat) : Prop :=
  n - 1 / 2 ≤ value ∧ value ≤ n + 1 / 2 ∧ (n % 2 = 1 → n - 1 / 2 < value ∧ value < n + 1 / 2)

theorem roundedMantissa_eq {em : ExtendedMantissa} {value : ℚ} {n : Nat} (holds : Holds em value)
    (near : Near value n) : em.roundedMantissa = n := by
  rcases near with ⟨low, high, odd⟩
  have lift : ∀ a b : Nat, (a : ℚ) < b + 1 → a ≤ b := by
    intro a b less
    exact Nat.lt_succ_iff.mp (by exact_mod_cast less)
  rcases em with ⟨m, roundBit, stickyBit⟩
  cases roundBit <;> cases stickyBit <;>
    simp only [Holds, ExtendedMantissa.accuracy, Fits] at holds <;>
    simp only [ExtendedMantissa.roundedMantissa, ExtendedMantissa.accuracy,
      Accuracy.roundToNearestEven]
  · exact Nat.le_antisymm (lift _ _ (by linarith)) (lift _ _ (by linarith))
  · exact Nat.le_antisymm (lift _ _ (by linarith)) (lift _ _ (by linarith))
  · have above := lift m n (by linarith)
    have below := lift n (m + 1) (by push_cast; linarith)
    have cases : n = m ∨ n = m + 1 := by omega
    rcases cases with rfl | rfl
    · rcases Nat.mod_two_eq_zero_or_one n with even | uneven
      · omega
      · have := (odd uneven).2
        exact absurd this (by linarith)
    · rcases Nat.mod_two_eq_zero_or_one (m + 1) with even | uneven
      · omega
      · have := (odd uneven).1
        push_cast at this
        exact absurd this (by linarith)
  · exact Nat.le_antisymm (lift _ _ (by push_cast; linarith)) (lift _ _ (by push_cast; linarith))

/-- How far below a number the values lie that round to it, in units of its last place. Below a
power of two the numbers lie closer together. -/
def gap (significand : Nat) (exponent : Int) : ℚ :=
  if significand = 2 ^ 52 ∧ -1074 < exponent then 1 / 4 else 1 / 2

/-- The value is nearer to `significand · 2 ^ exponent` than to any other number, or halfway and the
significand is even. -/
structure RoundsTo (value : ℚ) (significand : Nat) (exponent : Int) : Prop where
  low : (significand - gap significand exponent) * 2 ^ exponent ≤ value
  high : value ≤ (significand + 1 / 2) * 2 ^ exponent
  odd : significand % 2 = 1 → (significand - gap significand exponent) * 2 ^ exponent < value ∧
    value < (significand + 1 / 2) * 2 ^ exponent

theorem gap_bounds (m : Nat) (e : Int) : 1 / 4 ≤ gap m e ∧ gap m e ≤ 1 / 2 := by
  unfold gap
  split <;> constructor <;> norm_num

theorem lt_of_two_zpow {a b : Int} {value : ℚ} (low : (2 : ℚ) ^ a ≤ value)
    (high : value < 2 ^ b) : a < b :=
  (zpow_lt_zpow_iff_right₀ (by norm_num)).mp (lt_of_le_of_lt low high)

/-- The exponent at which a value is rounded that rounds to a canonical number: that of the number,
or one less for a value just below a power of two. -/
theorem rounding_exponent {m n : Nat} {e k : Int} (canonical : Canonical m e) {value : ℚ}
    (low : (n : ℚ) * 2 ^ k ≤ value) (high : value < (n + 1) * 2 ^ k)
    (fine : k ≤ -1074 ∨ 2 ^ 52 ≤ n) (rounds : RoundsTo value m e) :
    Format.binary64.targetExponent (totalExponent n k) = e ∨
      Format.binary64.targetExponent (totalExponent n k) = e - 1 ∧ m = 2 ^ 52 ∧ -1074 < e ∧
        value < 2 ^ (52 + e) := by
  rcases canonical with ⟨positive, bounded, normal, least, greatest⟩
  rcases gap_bounds m e with ⟨gapLow, gapHigh⟩
  have unit : (0 : ℚ) < 2 ^ e := by positivity
  have target : Format.binary64.targetExponent (totalExponent n k) =
      Max.max ((n.log2 : Int) + k - 52) (-1074) := by
    change Max.max ((n.log2 : Int) + 1 + k - 53) (-1074) = _
    congr 1
    omega
  have top : value < 2 ^ (53 + e) := by
    have : (m : ℚ) + 1 ≤ 2 ^ 53 := by exact_mod_cast bounded
    rw [zpow_add₀ (by norm_num)]
    calc value ≤ (m + 1 / 2) * 2 ^ e := rounds.high
      _ < 2 ^ 53 * 2 ^ e := by
        apply mul_lt_mul_of_pos_right _ unit
        linarith
  have bottom : -1074 < e → (2 : ℚ) ^ (51 + e) ≤ value := by
    intro above
    have large : 2 ^ 52 ≤ m := by omega
    have : (2 ^ 52 : ℚ) ≤ m := by exact_mod_cast large
    rw [zpow_add₀ (by norm_num)]
    calc (2 : ℚ) ^ (51 : Int) * 2 ^ e ≤ (m - gap m e) * 2 ^ e := by
          apply mul_le_mul_of_nonneg_right _ unit.le
          have : (2 : ℚ) ^ (51 : Int) + 1 ≤ 2 ^ 52 := by norm_num
          linarith
      _ ≤ value := rounds.low
  have below : value < 2 ^ (52 + e) → -1074 < e → m = 2 ^ 52 := by
    intro less above
    have large : 2 ^ 52 ≤ m := by omega
    rw [zpow_add₀ (by norm_num)] at less
    have : (m - gap m e) * 2 ^ e < 2 ^ (52 : Int) * 2 ^ e := lt_of_le_of_lt rounds.low less
    have := lt_of_mul_lt_mul_right this unit.le
    rw [zpow_ofNat] at this
    have : (m : ℚ) < 2 ^ 52 + 1 := by linarith
    have : m < 2 ^ 52 + 1 := by exact_mod_cast this
    omega
  rw [target]
  by_cases zero : n = 0
  · subst zero
    have coarse : k ≤ -1074 := by omega
    have small : e = -1074 := by
      by_contra other
      have start := bottom (by omega)
      rw [Nat.cast_zero, zero_add, one_mul] at high
      have := lt_of_two_zpow start high
      omega
    left
    have : Nat.log2 0 = 0 := by decide
    omega
  · have start : (2 : ℚ) ^ ((n.log2 : Int) + k) ≤ value := by
      rw [zpow_add₀ (by norm_num), zpow_natCast]
      refine le_trans ?_ low
      apply mul_le_mul_of_nonneg_right _ (by positivity)
      exact_mod_cast Nat.log2_self_le zero
    have stop : value < 2 ^ ((n.log2 : Int) + 1 + k) := by
      apply lt_of_lt_of_le high
      rw [zpow_add₀ (by norm_num)]
      apply mul_le_mul_of_nonneg_right _ (by positivity)
      exact_mod_cast Nat.lt_log2_self
    have upper := lt_of_two_zpow start top
    by_cases small : e = -1074
    · left
      omega
    · have above : -1074 < e := by omega
      have lower := lt_of_two_zpow (bottom above) stop
      by_cases less : (n.log2 : Int) + k = 51 + e
      · right
        have end_ : value < 2 ^ (52 + e) := by
          have : (n.log2 : Int) + 1 + k = 52 + e := by omega
          rwa [this] at stop
        exact ⟨by omega, below end_ above, above, end_⟩
      · left
        omega

/-- The significand and exponent of a rounded value, which may be too large for a number. -/
structure Normalized (significand : Nat) (exponent : Int) : Prop where
  positive : 0 < significand
  bounded : significand < 2 ^ 53
  normal : 2 ^ 52 ≤ significand ∨ exponent = -1074
  least : -1074 ≤ exponent

theorem Canonical.normalized {m : Nat} {e : Int} (canonical : Canonical m e) : Normalized m e :=
  ⟨canonical.positive, canonical.bounded, canonical.normal, canonical.least⟩

theorem Normalized.canonical {m : Nat} {e : Int} (normalized : Normalized m e)
    (greatest : e ≤ 971) : Canonical m e :=
  ⟨normalized.positive, normalized.bounded, normalized.normal, normalized.least, greatest⟩

theorem shift_identity {m : Nat} {e : Int} (normalized : Normalized m e) :
    shiftToTargetExponent Format.binary64 m e .exact = (⟨m, false, false⟩, e) := by
  rcases normalized with ⟨positive, bounded, normal, least⟩
  have target : Format.binary64.targetExponent (totalExponent m e) = e := by
    change Max.max ((m.log2 : Int) + 1 + e - 53) (-1074) = e
    have small : m.log2 < 53 := (Nat.log2_lt (by omega)).mpr bounded
    rcases normal with large | bottom
    · have : 52 ≤ m.log2 := (Nat.le_log2 (by omega)).mpr large
      omega
    · omega
  rw [shiftToTargetExponent, target, shiftToExponent, Int.sub_self]
  simp [ExtendedMantissa.ofMantissaAndAccuracy]
  rfl

theorem shift_overflow {e : Int} (above : -1074 < e) :
    shiftToTargetExponent Format.binary64 (2 ^ 53) (e - 1) .exact =
      (⟨2 ^ 52, false, false⟩, e) := by
  have target : Format.binary64.targetExponent (totalExponent (2 ^ 53) (e - 1)) = e := by
    change Max.max (((2 ^ 53 : Nat).log2 : Int) + 1 + (e - 1) - 53) (-1074) = e
    rw [Nat.log2_two_pow]
    omega
  have one : (e - (e - 1)).toNat = 1 := by omega
  rw [shiftToTargetExponent, target, shiftToExponent, one]
  simp only [Nat.cast_one, sub_add_cancel]
  rfl

theorem near_of_rounds {value : ℚ} {m : Nat} {e : Int} (rounds : RoundsTo value m e) :
    Near (value / 2 ^ e) m := by
  rcases gap_bounds m e with ⟨_, gapHigh⟩
  have unit : (0 : ℚ) < 2 ^ e := by positivity
  refine ⟨?_, ?_, fun odd => ⟨?_, ?_⟩⟩
  · rw [le_div_iff₀ unit]
    refine le_trans ?_ rounds.low
    apply mul_le_mul_of_nonneg_right _ unit.le
    linarith
  · rw [div_le_iff₀ unit]
    exact rounds.high
  · rw [lt_div_iff₀ unit]
    refine lt_of_le_of_lt ?_ (rounds.odd odd).1
    apply mul_le_mul_of_nonneg_right _ unit.le
    linarith
  · rw [div_lt_iff₀ unit]
    exact (rounds.odd odd).2

theorem near_below_power {value : ℚ} {e : Int} (above : -1074 < e)
    (rounds : RoundsTo value (2 ^ 52) e) (less : value < 2 ^ (52 + e)) :
    Near (value / 2 ^ (e - 1)) (2 ^ 53) := by
  have unit : (0 : ℚ) < 2 ^ (e - 1) := by positivity
  have double : (2 : ℚ) ^ e = 2 * 2 ^ (e - 1) := by
    rw [zpow_sub_one₀ (by norm_num)]
    ring
  have fine : gap (2 ^ 52) e = 1 / 4 := if_pos ⟨rfl, above⟩
  have low := rounds.low
  rw [fine, double] at low
  rw [zpow_add₀ (by norm_num), double] at less
  push_cast at low
  rw [zpow_ofNat] at less
  refine ⟨?_, ?_, fun odd => absurd odd (by decide)⟩
  · rw [le_div_iff₀ unit]
    push_cast
    linarith
  · rw [div_le_iff₀ unit]
    push_cast
    linarith

/-- Rounding shifts twice, since the rounded significand may be one digit too long. -/
theorem roundWithAccuracy_of_shifts {n m : Nat} {k e t : Int} {accuracy : Accuracy}
    {shifted : ExtendedMantissa} (sign : Sign) (positive : 0 < m)
    (first : shiftToTargetExponent Format.binary64 n k accuracy = (shifted, t))
    (second : shiftToTargetExponent Format.binary64 shifted.roundedMantissa t .exact =
      (⟨m, false, false⟩, e)) :
    roundWithAccuracy Format.binary64 sign n k accuracy = .finite sign m e positive := by
  rw [roundWithAccuracy, first]
  dsimp only
  rw [second]
  exact dif_neg positive.ne'

/-- Rounding gives the number to which the value rounds. The significand `n` must not be coarser
than that of the result. -/
theorem roundWithAccuracy_eq {m n : Nat} {e k : Int} (canonical : Canonical m e)
    {accuracy : Accuracy} {value : ℚ} (fits : Fits accuracy (value / 2 ^ k - n))
    (fine : k ≤ -1074 ∨ 2 ^ 52 ≤ n) (rounds : RoundsTo value m e) (sign : Sign) :
    roundWithAccuracy Format.binary64 sign n k accuracy =
      .finite sign m e canonical.positive := by
  rcases fits_bounds fits with ⟨nonneg, less⟩
  have unit : (0 : ℚ) < 2 ^ k := by positivity
  have low : (n : ℚ) * 2 ^ k ≤ value := by
    rw [← le_div_iff₀ unit]
    linarith
  have high : value < (n + 1) * 2 ^ k := by
    rw [← div_lt_iff₀ unit]
    linarith
  have exponent := rounding_exponent canonical low high fine rounds
  generalize target : Format.binary64.targetExponent (totalExponent n k) = t at exponent
  have coarser : k ≤ t := by
    have : t = Max.max ((n.log2 : Int) + 1 + k - 53) (-1074) := target.symm
    rcases fine with bottom | large
    · omega
    · have : 52 ≤ n.log2 := (Nat.le_log2 (by omega)).mpr large
      omega
  obtain ⟨count, rfl⟩ : ∃ count : Nat, t = k + count := ⟨(t - k).toNat, by omega⟩
  have holds := holds_shiftRight (holds_start fits) count
  rw [div_div, ← zpow_natCast, ← zpow_add₀ (by norm_num)] at holds
  have first : shiftToTargetExponent Format.binary64 n k accuracy =
      (ExtendedMantissa.ofMantissaAndAccuracy n accuracy >>> count, k + count) := by
    have : (k + count - k).toNat = count := by omega
    rw [shiftToTargetExponent, target, shiftToExponent, this]
  apply roundWithAccuracy_of_shifts sign canonical.positive first
  -- a value just below a power of two has the exponent below and is rounded up to the power
  rcases exponent with same | ⟨finer, rfl, above, below⟩
  · rw [same] at holds ⊢
    rw [roundedMantissa_eq holds (near_of_rounds rounds)]
    exact shift_identity canonical.normalized
  · rw [finer] at holds ⊢
    rw [roundedMantissa_eq holds (near_below_power above rounds below)]
    exact shift_overflow above

end ParticleSim.Binary64
