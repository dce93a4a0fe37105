import Mathlib.Tactic
import ParticleSim.Proofs.Number.Rounding

namespace ParticleSim.Binary64
open Float.Model Float.Model.UnpackedFloat

theorem fits_accuracyOfFraction {numerator denominator : Nat} (below : numerator < denominator) :
    Fits (accuracyOfFraction numerator denominator) (numerator / denominator) := by
  have positive : (0 : ℚ) < denominator := by exact_mod_cast Nat.zero_lt_of_lt below
  rw [accuracyOfFraction]
  split
  · next zero => simp [Fits, zero]
  · next nonzero =>
    have start : (0 : ℚ) < numerator := by exact_mod_cast Nat.pos_of_ne_zero nonzero
    have stop : (numerator : ℚ) < denominator := by exact_mod_cast below
    rcases lt_trichotomy (2 * numerator) denominator with less | equal | greater
    · have : (2 * numerator : ℚ) < denominator := by exact_mod_cast less
      rw [Nat.compare_eq_lt.mpr less]
      refine ⟨by positivity, ?_⟩
      rw [div_lt_div_iff₀ positive (by norm_num)]
      linarith
    · have : (2 * numerator : ℚ) = denominator := by exact_mod_cast equal
      rw [Nat.compare_eq_eq.mpr equal]
      show (numerator : ℚ) / denominator = 1 / 2
      rw [div_eq_div_iff positive.ne' (by norm_num)]
      linarith
    · have : (denominator : ℚ) < 2 * numerator := by exact_mod_cast greater
      rw [Nat.compare_eq_gt.mpr greater]
      refine ⟨?_, ?_⟩
      · rw [div_lt_div_iff₀ (by norm_num) positive]
        linarith
      · rw [div_lt_one positive]
        exact stop

/-- The quotient that the division starts from is fine enough to be rounded. -/
theorem divCore_fine {m₁ m₂ : Nat} {e₁ e₂ : Int} (h₁ : 0 < m₁) (h₂ : 0 < m₂) {n : Nat} {k : Int}
    {accuracy : Accuracy} (core : divCore Format.binary64 m₁ e₁ m₂ e₂ = (n, k, accuracy)) :
    Fits accuracy ((m₁ * 2 ^ e₁) / (m₂ * 2 ^ e₂) / 2 ^ k - n) ∧ (k ≤ -1074 ∨ 2 ^ 52 ≤ n) := by
  have p₂ : (0 : ℚ) < m₂ := by exact_mod_cast h₂
  rw [divCore] at core
  simp only [Prod.mk.injEq] at core
  rcases core with ⟨quotient, exponent, rest⟩
  generalize target : Format.binary64.targetExponent (totalExponent m₁ e₁ - totalExponent m₂ e₂) = t
    at exponent quotient rest
  rw [exponent] at quotient rest
  obtain ⟨shift, shifted⟩ : ∃ shift : Nat, e₁ - e₂ = k + shift :=
    ⟨(e₁ - e₂ - k).toNat, by omega⟩
  have count : (e₁ - e₂ - k).toNat = shift := by omega
  rw [count, Nat.shiftLeft_eq] at quotient rest
  have value : ((m₁ : ℚ) * 2 ^ e₁) / (m₂ * 2 ^ e₂) / 2 ^ k = (m₁ * 2 ^ shift : Nat) / m₂ := by
    have powers : (2 : ℚ) ^ e₁ = 2 ^ shift * 2 ^ k * 2 ^ e₂ := by
      rw [← zpow_natCast, ← zpow_add₀ (by norm_num), ← zpow_add₀ (by norm_num)]
      congr 1
      omega
    rw [powers]
    push_cast
    field_simp
  constructor
  · have split : ((m₁ * 2 ^ shift : Nat) : ℚ) / m₂ - n = (m₁ * 2 ^ shift % m₂ : Nat) / m₂ := by
      have : ((m₁ * 2 ^ shift : Nat) : ℚ) = m₂ * n + (m₁ * 2 ^ shift % m₂ : Nat) := by
        rw [← quotient]
        exact_mod_cast (Nat.div_add_mod _ _).symm
      rw [this]
      field_simp
      ring
    rw [value, split, ← rest]
    exact fits_accuracyOfFraction (Nat.mod_lt _ h₂)
  · by_cases bottom : k ≤ -1074
    · exact .inl bottom
    · right
      have room : m₂.log2 + 53 ≤ m₁.log2 + shift := by
        change Max.max (((m₁.log2 : Int) + 1 + e₁ - (m₂.log2 + 1 + e₂)) - 53) (-1074) = t at target
        omega
      rw [← quotient, Nat.le_div_iff_mul_le h₂]
      calc 2 ^ 52 * m₂ ≤ 2 ^ 52 * 2 ^ (m₂.log2 + 1) :=
            Nat.mul_le_mul_left _ Nat.lt_log2_self.le
        _ = 2 ^ (m₂.log2 + 53) := by
            rw [← Nat.pow_add]
            congr 1
            omega
        _ ≤ 2 ^ (m₁.log2 + shift) := Nat.pow_le_pow_right (by decide) room
        _ = 2 ^ m₁.log2 * 2 ^ shift := Nat.pow_add _ _ _
        _ ≤ m₁ * 2 ^ shift := Nat.mul_le_mul_right _ (Nat.log2_self_le h₁.ne')

theorem div_eq {m₁ m₂ m : Nat} {e₁ e₂ e : Int} (h₁ : 0 < m₁) (h₂ : 0 < m₂)
    (canonical : Canonical m e) (rounds : RoundsTo ((m₁ * 2 ^ e₁) / (m₂ * 2 ^ e₂)) m e) :
    UnpackedFloat.div Format.binary64 (.finite .positive m₁ e₁ h₁) (.finite .positive m₂ e₂ h₂) =
      .finite .positive m e canonical.positive := by
  obtain ⟨fits, fine⟩ := divCore_fine h₁ h₂ (n := (divCore Format.binary64 m₁ e₁ m₂ e₂).1)
    (k := (divCore Format.binary64 m₁ e₁ m₂ e₂).2.1) rfl
  exact roundWithAccuracy_eq canonical fits fine rounds .positive

theorem mul_eq {m₁ m₂ m : Nat} {e₁ e₂ e : Int} (h₁ : 0 < m₁) (h₂ : 0 < m₂)
    (canonical : Canonical m e) (fine : 2 ^ 52 ≤ m₁)
    (rounds : RoundsTo ((m₁ * 2 ^ e₁) * (m₂ * 2 ^ e₂)) m e) :
    UnpackedFloat.mul Format.binary64 (.finite .positive m₁ e₁ h₁) (.finite .positive m₂ e₂ h₂) =
      .finite .positive m e canonical.positive := by
  have exact_ : Fits .exact (((m₁ : ℚ) * 2 ^ e₁) * (m₂ * 2 ^ e₂) / 2 ^ (e₁ + e₂) -
      (m₁ * m₂ : Nat)) := by
    rw [zpow_add₀ (by norm_num)]
    push_cast
    simp only [Fits]
    field_simp
    ring
  have large : 2 ^ 52 ≤ m₁ * m₂ := le_trans fine (Nat.le_mul_of_pos_right _ h₂)
  exact roundWithAccuracy_eq canonical exact_ (.inr large) rounds .positive

theorem rounds_pos {value : ℚ} {m : Nat} {e : Int} (canonical : Canonical m e)
    (rounds : RoundsTo value m e) : 0 < value := by
  rcases gap_bounds m e with ⟨_, gapHigh⟩
  have one : (1 : ℚ) ≤ m := by exact_mod_cast canonical.positive
  refine lt_of_lt_of_le ?_ rounds.low
  apply mul_pos _ (by positivity)
  linarith

theorem coefficient_pos {c m : Nat} {k e : Int} (canonical : Canonical m e)
    (rounds : RoundsTo (c * 10 ^ k) m e) : 0 < c := by
  have positive := rounds_pos canonical rounds
  rcases Nat.eq_zero_or_pos c with rfl | more
  · simp at positive
  · exact more

theorem rounds_lt {value : ℚ} {m : Nat} {e : Int} (canonical : Canonical m e)
    (rounds : RoundsTo value m e) : value < 2 ^ 1024 := by
  have room : (m : ℚ) + 1 ≤ 2 ^ 53 := by exact_mod_cast canonical.bounded
  have unit : (0 : ℚ) < 2 ^ e := by positivity
  calc value ≤ (m + 1 / 2) * 2 ^ e := rounds.high
    _ < 2 ^ 53 * 2 ^ e := by
      apply mul_lt_mul_of_pos_right _ unit
      linarith
    _ ≤ 2 ^ 53 * 2 ^ (971 : Int) := by
      apply mul_le_mul_of_nonneg_left _ (by positivity)
      exact zpow_le_zpow_right₀ (by norm_num) canonical.greatest
    _ = 2 ^ 1024 := by rw [zpow_ofNat, ← pow_add]

theorem rounds_gt {value : ℚ} {m : Nat} {e : Int} (canonical : Canonical m e)
    (rounds : RoundsTo value m e) : 2 ^ (-1076 : Int) < value := by
  rcases gap_bounds m e with ⟨_, gapHigh⟩
  have one : (1 : ℚ) ≤ m := by exact_mod_cast canonical.positive
  have unit : (0 : ℚ) < 2 ^ e := by positivity
  calc (2 : ℚ) ^ (-1076 : Int) < 2 ^ (-1 : Int) * 2 ^ (-1074 : Int) := by
        rw [← zpow_add₀ (by norm_num)]
        exact zpow_lt_zpow_right₀ (by norm_num) (by norm_num)
    _ ≤ 2 ^ (-1 : Int) * 2 ^ e := by
      apply mul_le_mul_of_nonneg_left _ (by positivity)
      exact zpow_le_zpow_right₀ (by norm_num) canonical.least
    _ ≤ (m - gap m e) * 2 ^ e := by
      apply mul_le_mul_of_nonneg_right _ unit.le
      rw [zpow_neg_one]
      linarith
    _ ≤ value := rounds.low

theorem two_pow_le_ten_pow (n : Nat) : (2 : ℚ) ^ n ≤ 10 ^ n :=
  pow_le_pow_left₀ (by norm_num) (by norm_num) n

theorem model_ofScientific_eq {c m : Nat} {k e : Int} (canonical : Canonical m e)
    (rounds : RoundsTo (c * 10 ^ k) m e) :
    UnpackedFloat.ofScientific Format.binary64 c k = .finite .positive m e canonical.positive := by
  have positive := rounds_pos canonical rounds
  have nonzero : c ≠ 0 := (coefficient_pos canonical rounds).ne'
  have one : (1 : ℚ) ≤ c := by exact_mod_cast Nat.pos_of_ne_zero nonzero
  rw [UnpackedFloat.ofScientific, dif_neg nonzero]
  have notHuge : ¬ k > 2 ^ Format.binary64.exponentBits := by
    intro huge
    change 2048 < k at huge
    obtain ⟨n, rfl⟩ : ∃ n : Nat, k = n := ⟨k.toNat, by omega⟩
    have limit := rounds_lt canonical rounds
    have : (2 : ℚ) ^ 1024 ≤ c * 10 ^ (n : Int) := by
      calc (2 : ℚ) ^ 1024 ≤ 2 ^ n := pow_le_pow_right₀ (by norm_num) (by omega)
        _ ≤ 10 ^ n := two_pow_le_ten_pow n
        _ ≤ c * 10 ^ (n : Int) := by
          rw [zpow_natCast]
          exact le_mul_of_one_le_left (by positivity) one
    exact absurd limit (not_lt.mpr this)
  have notTiny : ¬ k < -((2 ^ Format.binary64.exponentBits : Int) + c.log2) := by
    intro tiny
    change k < -(2048 + (c.log2 : Int)) at tiny
    obtain ⟨n, rfl⟩ : ∃ n : Nat, k = -n := ⟨(-k).toNat, by omega⟩
    have limit := rounds_gt canonical rounds
    have : (c : ℚ) * 10 ^ (-(n : Int)) ≤ 2 ^ (-1076 : Int) := by
      have above : (c : ℚ) ≤ 2 ^ (c.log2 + 1) := by exact_mod_cast Nat.lt_log2_self.le
      rw [zpow_neg, zpow_natCast]
      calc (c : ℚ) * (10 ^ n)⁻¹ ≤ 2 ^ (c.log2 + 1) * (2 ^ n)⁻¹ := by
            gcongr
            norm_num
        _ = 2 ^ ((c.log2 : Int) + 1 - n) := by
          rw [zpow_sub₀ (by norm_num), zpow_natCast, div_eq_mul_inv]
          norm_cast
        _ ≤ 2 ^ (-1076 : Int) := zpow_le_zpow_right₀ (by norm_num) (by omega)
    linarith
  rw [if_neg notHuge, if_neg notTiny]
  by_cases nonneg : 0 ≤ k
  · obtain ⟨n, rfl⟩ : ∃ n : Nat, k = n := ⟨k.toNat, by omega⟩
    rw [if_pos nonneg]
    have fine : 2 ^ 52 ≤ c <<< Format.binary64.mantissaBits := by
      rw [Nat.shiftLeft_eq]
      change 2 ^ 52 ≤ c * 2 ^ 53
      omega
    apply mul_eq _ _ canonical fine
    convert rounds using 1
    rw [Nat.shiftLeft_eq]
    change ((c * 2 ^ 53 : Nat) : ℚ) * 2 ^ (-53 : Int) * ((10 ^ n : Nat) * 2 ^ (0 : Int)) = _
    push_cast
    rw [zpow_natCast]
    norm_num
    ring
  · obtain ⟨n, rfl⟩ : ∃ n : Nat, k = -n := ⟨(-k).toNat, by omega⟩
    rw [if_neg nonneg]
    apply div_eq _ _ canonical
    convert rounds using 1
    simp [div_eq_mul_inv]

theorem unpack_natural {n : Nat} (positive : 0 < n) (small : n < 2 ^ 53) :
    ∃ (m : Nat) (e : Int) (canonical : Canonical m e), 2 ^ 52 ≤ m ∧ (m : ℚ) * 2 ^ e = n ∧
      n.toUInt64.toFloat.toModel.unpack = .finite .positive m e canonical.positive := by
  have logBound : n.log2 < 53 := (Nat.log2_lt (by omega)).mpr small
  have low : 2 ^ 52 ≤ n * 2 ^ (52 - n.log2) := by
    calc 2 ^ 52 = 2 ^ n.log2 * 2 ^ (52 - n.log2) := by
          rw [← Nat.pow_add]
          congr 1
          omega
      _ ≤ n * 2 ^ (52 - n.log2) := Nat.mul_le_mul_right _ (Nat.log2_self_le (by omega))
  have high : n * 2 ^ (52 - n.log2) < 2 ^ 53 := by
    calc n * 2 ^ (52 - n.log2) < 2 ^ (n.log2 + 1) * 2 ^ (52 - n.log2) :=
          Nat.mul_lt_mul_of_pos_right Nat.lt_log2_self (by positivity)
      _ = 2 ^ 53 := by
          rw [← Nat.pow_add]
          congr 1
          omega
  have canonical : Canonical (n * 2 ^ (52 - n.log2)) ((n.log2 : Int) - 52) :=
    ⟨by omega, high, .inl low, by omega, by omega⟩
  have value : ((n * 2 ^ (52 - n.log2) : Nat) : ℚ) * 2 ^ ((n.log2 : Int) - 52) = n := by
    have : (n.log2 : Int) - 52 = -((52 - n.log2 : Nat) : Int) := by omega
    rw [this, zpow_neg, zpow_natCast]
    push_cast
    field_simp
  refine ⟨_, _, canonical, low, value, ?_⟩
  have wide : n.toUInt64.toNat = n := by
    change n % 2 ^ 64 = n
    omega
  have sign : compare (n : Int) 0 = .gt := by
    rw [compare_gt_iff_gt]
    exact_mod_cast positive
  have target : Format.binary64.targetExponent (totalExponent n 0) = (n.log2 : Int) - 52 := by
    change Max.max ((n.log2 : Int) + 1 + 0 - 53) (-1074) = _
    omega
  have rounded : UnpackedFloat.ofUInt64 Format.binary64 n.toUInt64 =
      .finite .positive (n * 2 ^ (52 - n.log2)) ((n.log2 : Int) - 52) canonical.positive := by
    rw [UnpackedFloat.ofUInt64, wide, UnpackedFloat.ofNat, UnpackedFloat.ofInt,
      UnpackedFloat.normalize.eq_1, sign]
    dsimp only
    rw [Int.toNat_natCast]
    have shift : (0 - ((n.log2 : Int) - 52)).toNat = 52 - n.log2 := by omega
    rw [UnpackedFloat.round, target, decreaseExponent, shift, Nat.shiftLeft_eq]
    have start : (0 : Int) - ((52 - n.log2 : Nat) : Int) = (n.log2 : Int) - 52 := by omega
    rw [start]
    exact roundWithAccuracy_of_shifts .positive canonical.positive
      (shift_identity canonical.normalized) (shift_identity canonical.normalized)
  change (Float.Model.pack (UnpackedFloat.ofUInt64 Format.binary64 n.toUInt64)).unpack = _
  rw [rounded]
  exact unpack_assemble canonical false

def isPowerOfTen (k : Nat) : UnpackedFloat → Bool
  | .finite .positive p q _ => p * 2 ^ q.toNat == 10 ^ k * 2 ^ (-q).toNat
  | _ => false

theorem unpack_power {k : Nat} (small : k < Float.exactlyRepresentablePowersOfTen.size) :
    ∃ (p : Nat) (q : Int) (positive : 0 < p), (p : ℚ) * 2 ^ q = 10 ^ k ∧
      Float.exactlyRepresentablePowersOfTen[k].toModel.unpack = .finite .positive p q positive := by
  have checked : ∀ k : Fin 23,
      isPowerOfTen k Float.exactlyRepresentablePowersOfTen[k].toModel.unpack = true := by
    decide
  have this := checked ⟨k, small⟩
  rw [Fin.getElem_fin] at this
  cases unpacked : Float.exactlyRepresentablePowersOfTen[k].toModel.unpack with
  | finite sign p q positive =>
    rw [unpacked] at this
    cases sign with
    | negative => cases this
    | positive =>
      refine ⟨p, q, positive, ?_, rfl⟩
      have equal : (p : ℚ) * 2 ^ q.toNat = 10 ^ k * 2 ^ (-q).toNat := by
        exact_mod_cast eq_of_beq this
      have power : (2 : ℚ) ^ q = 2 ^ q.toNat / 2 ^ (-q).toNat := by
        rw [← zpow_natCast, ← zpow_natCast, ← zpow_sub₀ (by norm_num)]
        congr 1
        omega
      rw [power, mul_div_assoc', equal]
      field_simp
  | _ =>
    rw [unpacked] at this
    cases this

/-- A decimal is read as the number to which it rounds. -/
theorem ofScientific_eq {c m : Nat} {k e : Int} (canonical : Canonical m e)
    (rounds : RoundsTo (c * 10 ^ k) m e) :
    Float.ofScientific c (k < 0) k.natAbs = assemble false m e canonical.positive := by
  have nonzero := coefficient_pos canonical rounds
  rw [Float.ofScientific]
  split
  · next small =>
    rcases unpack_natural nonzero small.1 with ⟨m₁, e₁, _, large, value₁, unpacked₁⟩
    have inside : k.natAbs < Float.exactlyRepresentablePowersOfTen.size := by
      change k.natAbs < 23
      omega
    rcases unpack_power inside with ⟨m₂, e₂, positive₂, value₂, unpacked₂⟩
    simp only
    split
    · next negative =>
      have inverse : k = -(k.natAbs : Int) := by
        have := of_decide_eq_true negative
        omega
      change Float.ofModel (.pack (UnpackedFloat.div _ c.toUInt64.toFloat.toModel.unpack
        Float.exactlyRepresentablePowersOfTen[k.natAbs].toModel.unpack)) = _
      rw [unpacked₁, unpacked₂, div_eq _ _ canonical]
      · rfl
      · rw [value₁, value₂]
        rw [inverse, zpow_neg, zpow_natCast] at rounds
        exact rounds
    · next positive =>
      have same : k = (k.natAbs : Int) := by
        have : ¬ k < 0 := fun negative => positive (decide_eq_true negative)
        omega
      change Float.ofModel (.pack (UnpackedFloat.mul _ c.toUInt64.toFloat.toModel.unpack
        Float.exactlyRepresentablePowersOfTen[k.natAbs].toModel.unpack)) = _
      rw [unpacked₁, unpacked₂, mul_eq _ _ canonical large]
      · rfl
      · rw [value₁, value₂]
        rw [same, zpow_natCast] at rounds
        exact rounds
  · next general =>
    have exponent : (if (decide (k < 0)) = true then Int.negOfNat k.natAbs
        else Int.ofNat k.natAbs) = k := by
      split
      · next negative =>
        have := of_decide_eq_true negative
        rw [Int.negOfNat_eq]
        change -(k.natAbs : Int) = k
        omega
      · next positive =>
        have : ¬ k < 0 := fun negative => positive (decide_eq_true negative)
        change (k.natAbs : Int) = k
        omega
    simp only [exponent]
    change Float.ofModel (.pack (UnpackedFloat.ofScientific _ c k)) = _
    rw [model_ofScientific_eq canonical rounds]
    rfl

theorem toFloat_eq {c m : Nat} {k e : Int} (canonical : Canonical m e)
    (rounds : RoundsTo (c * 10 ^ k) m e) (negative : Bool) :
    (Literal.mk negative c k).toFloat = assemble negative m e canonical.positive := by
  rw [Literal.toFloat]
  simp only [ofScientific_eq canonical rounds]
  cases negative
  · rfl
  · exact neg_assemble canonical false

end ParticleSim.Binary64
