import ParticleSim.Proofs.Number.Order

namespace ParticleSim.Binary64

open Float.Model Float.Model.UnpackedFloat

theorem mantissa_shiftRight (em : ExtendedMantissa) (count : Nat) :
    (em >>> count).mantissa = em.mantissa / 2 ^ count := by
  induction count with
  | zero =>
    rw [pow_zero, Nat.div_one]
    rfl
  | succ count ih =>
    change (em >>> count).mantissa / 2 = _
    rw [ih, Nat.div_div_eq_div_mul, pow_succ]

theorem mantissa_le_roundedMantissa (em : ExtendedMantissa) : em.mantissa ≤ em.roundedMantissa := by
  rcases em with ⟨m, roundBit, stickyBit⟩
  cases roundBit <;> cases stickyBit <;>
    simp [ExtendedMantissa.roundedMantissa, ExtendedMantissa.accuracy, Accuracy.roundToNearestEven]

/-- Shifting keeps the leading bit of a significand that is not below the least number, and leaves
no more bits than a significand has. -/
theorem shift_leading {n : Nat} {k t : Int} {accuracy : Accuracy} {shifted : ExtendedMantissa}
    (positive : 0 < n) (above : -1074 ≤ (n.log2 : Int) + k)
    (shift : shiftToTargetExponent Format.binary64 n k accuracy = (shifted, t)) :
    0 < shifted.mantissa ∧ shifted.mantissa < 2 ^ 53 ∧ -1074 ≤ t := by
  have target : Format.binary64.targetExponent (totalExponent n k) =
      Max.max ((n.log2 : Int) + 1 + k - 53) (-1074) := rfl
  rw [shiftToTargetExponent, target, shiftToExponent, Prod.mk.injEq] at shift
  rcases shift with ⟨rfl, rfl⟩
  generalize counted : (Max.max ((n.log2 : Int) + 1 + k - 53) (-1074) - k).toNat = count
  have start : (ExtendedMantissa.ofMantissaAndAccuracy n accuracy).mantissa = n := by
    cases accuracy with
    | exact => rfl
    | inexact side => cases side <;> rfl
  rw [mantissa_shiftRight, start]
  have few : count ≤ n.log2 := by omega
  have many : n.log2 < count + 53 := by omega
  refine ⟨?_, ?_, by omega⟩
  · apply Nat.div_pos _ (Nat.two_pow_pos count)
    exact (Nat.pow_le_pow_right (by decide) few).trans (Nat.log2_self_le positive.ne')
  · rw [Nat.div_lt_iff_lt_mul (Nat.two_pow_pos count), ← Nat.pow_add]
    exact (Nat.log2_lt positive.ne').mp (by omega)

/-- What is not below the least number is not rounded to zero. -/
theorem exists_roundWithAccuracy {n : Nat} {k : Int} (positive : 0 < n)
    (above : -1074 ≤ (n.log2 : Int) + k) (sign : Sign) (accuracy : Accuracy) :
    ∃ (m : Nat) (e : Int) (nonzero : 0 < m), m < 2 ^ 53 ∧ -1074 ≤ e ∧
      roundWithAccuracy Format.binary64 sign n k accuracy = .finite sign m e nonzero := by
  rw [roundWithAccuracy]
  rcases first : shiftToTargetExponent Format.binary64 n k accuracy with ⟨shifted, t⟩
  rcases shift_leading positive above first with ⟨leading, -, least⟩
  have rounded := leading.trans_le (mantissa_le_roundedMantissa shifted)
  dsimp only
  rcases second : shiftToTargetExponent Format.binary64 shifted.roundedMantissa t .exact with
    ⟨last, e⟩
  rcases shift_leading rounded (by omega) second with ⟨nonzero, bounded, least'⟩
  exact ⟨last.mantissa, e, nonzero, bounded, least', dif_neg nonzero.ne'⟩

theorem pos_of_bits {x : Float} (number : x.isNaN = false) (low : x.toBits.toNat < 2 ^ 63)
    (nonzero : x.toBits.toNat ≠ 0) : 0.0 < x := by
  have sign : isNegative x = false := by
    rw [isNegative, beq_eq_false_iff_ne]
    omega
  rw [lt_iff, unpack_origin]
  rcases unpack_cases x with ⟨top, fraction, -⟩ | ⟨-, -, same⟩ | ⟨bottom, fraction, -⟩ |
    ⟨positive, -, same⟩
  · rw [(isNaN_iff x).mpr ⟨top, fraction⟩] at number
    cases number
  · rw [same, sign]
    rfl
  · rw [Binary64.field] at bottom
    rw [Binary64.fraction] at fraction
    omega
  · rw [same, sign]
    rfl

theorem pos_pack {m : Nat} {e : Int} (nonzero : 0 < m) (bounded : m < 2 ^ 53) (least : -1074 ≤ e) :
    0.0 < Float.ofModel (.pack (.finite .positive m e nonzero)) := by
  suffices bits : (UnpackedFloat.pack Format.binary64 (.finite .positive m e nonzero)).toNat <
      2 ^ 63 ∧ (UnpackedFloat.pack Format.binary64 (.finite .positive m e nonzero)).toNat ≠ 0 from
    pos_of_bits (isNaN_pack rfl) bits.1 bits.2
  delta UnpackedFloat.pack
  dsimp only
  have biased : e + Format.binary64.exponentBias + Format.binary64.mantissaBitsWithoutImplicit =
      e + 1075 := by
    change e + 1023 + 52 = _
    omega
  rw [biased]
  split
  · decide
  · next finite =>
    have small : ¬2 ^ 11 ≤ (e + 1075).toNat + 1 := finite
    split
    · rw [toNat_packComponents, BitVec.toNat_ofNat, BitVec.toNat_ofNat]
      change 0 * 2 ^ 63 + (e + 1075).toNat % 2 ^ 11 * 2 ^ 52 + m % 2 ^ 52 < _ ∧
        0 * 2 ^ 63 + (e + 1075).toNat % 2 ^ 11 * 2 ^ 52 + m % 2 ^ 52 ≠ 0
      omega
    · next subnormal =>
      have few : m.log2 < 53 := (Nat.log2_lt nonzero.ne').mpr bounded
      have fewer : m.log2 < 52 := by
        change m.log2 + 1 ≠ 53 at subnormal
        omega
      have short : m < 2 ^ 52 := (Nat.log2_lt nonzero.ne').mp fewer
      rw [toNat_packComponents, BitVec.toNat_ofNat]
      change 0 * 2 ^ 63 + 0 * 2 ^ 52 + m % 2 ^ 52 < _ ∧ 0 * 2 ^ 63 + 0 * 2 ^ 52 + m % 2 ^ 52 ≠ 0
      omega

theorem unpack_of_pos {x : Float} (finite : x.isFinite = true) (positive : 0.0 < x) :
    ∃ (m : Nat) (e : Int) (nonzero : 0 < m), Canonical m e ∧
      x.toModel.unpack = .finite .positive m e nonzero := by
  change x.toModel.unpack.isFinite = true at finite
  rw [lt_iff, unpack_origin] at positive
  rcases unpack_cases x with ⟨-, -, same⟩ | ⟨-, -, same⟩ | ⟨-, -, same⟩ | ⟨nonzero, below, same⟩
  · rw [same] at finite
    cases finite
  · rw [same] at finite
    cases finite
  · rw [same] at positive
    cases positive
  · cases sign : isNegative x with
    | true =>
      rw [same, sign] at positive
      cases positive
    | false =>
      refine ⟨_, _, nonzero, exact_canonical below nonzero, ?_⟩
      rw [same, sign]
      rfl

theorem divCore_one {m n : Nat} {e k : Int} {accuracy : Accuracy} (canonical : Canonical m e)
    (core : divCore Format.binary64 (2 ^ 52) (-52) m e = (n, k, accuracy)) :
    0 < n ∧ -1074 ≤ (n.log2 : Int) + k := by
  rcases canonical with ⟨positive, bounded, normal, least, greatest⟩
  rw [divCore] at core
  simp only [Prod.mk.injEq] at core
  rcases core with ⟨quotient, exponent, -⟩
  have total : Format.binary64.targetExponent
      (totalExponent (2 ^ 52) (-52) - totalExponent m e) =
      Max.max ((52 : Int) + 1 + -52 - ((m.log2 : Int) + 1 + e) - 53) (-1074) := by
    have one : (2 ^ 52 : Nat).log2 = 52 := Nat.log2_two_pow
    rw [totalExponent, totalExponent, one]
    rfl
  rw [total] at exponent quotient
  rw [exponent, Nat.shiftLeft_eq, ← Nat.pow_add] at quotient
  generalize counted : (-52 - e - k).toNat = shift at quotient
  have room : 1 ≤ shift := by omega
  have large : 2 ^ (shift - 1) ≤ n := by
    rw [← quotient, Nat.le_div_iff_mul_le positive]
    calc 2 ^ (shift - 1) * m ≤ 2 ^ (shift - 1) * 2 ^ 53 := Nat.mul_le_mul_left _ bounded.le
      _ = 2 ^ (52 + shift) := by
        rw [← Nat.pow_add]
        congr 1
        omega
  have nonzero : 0 < n := (Nat.two_pow_pos _).trans_le large
  have leading : shift - 1 ≤ n.log2 := (Nat.le_log2 nonzero.ne').mpr large
  exact ⟨nonzero, by omega⟩

theorem reciprocal_pos {x : Float} (finite : x.isFinite = true) (positive : 0.0 < x) :
    0.0 < 1.0 / x := by
  rcases unpack_of_pos finite positive with ⟨m, e, nonzero, canonical, same⟩
  have one : (1.0 : Float).toModel.unpack = .finite .positive (2 ^ 52) (-52) (by decide) :=
    unpack_finite (x := 1.0) (by decide) (by decide)
  change 0.0 < Float.ofModel
    (.pack (UnpackedFloat.div Format.binary64 (1.0 : Float).toModel.unpack x.toModel.unpack))
  rw [one, same]
  rcases core : divCore Format.binary64 (2 ^ 52) (-52) m e with ⟨n, k, accuracy⟩
  rcases divCore_one canonical core with ⟨start, above⟩
  rcases exists_roundWithAccuracy start above .positive accuracy with
    ⟨m', e', nonzero', bounded, least, rounds⟩
  let quotient := divCore Format.binary64 (2 ^ 52) (-52) m e
  change 0.0 < Float.ofModel (.pack (roundWithAccuracy Format.binary64 .positive quotient.1
    quotient.2.1 quotient.2.2))
  have divided : quotient = (n, k, accuracy) := core
  rw [divided, rounds]
  exact pos_pack nonzero' bounded least

end ParticleSim.Binary64
