import ParticleSim.Proofs.Number.Sum

namespace ParticleSim.Binary64

open Float.Model Float.Model.UnpackedFloat

section Rounding

variable {m m' count : Nat} {e e' q : Int}

theorem shiftRight_scaled (m count : Nat) :
    ExtendedMantissa.ofMantissaAndAccuracy (m * 2 ^ count) .exact >>> count =
      ⟨m, false, false⟩ := by
  induction count generalizing m with
  | zero =>
    rw [pow_zero, Nat.mul_one]
    rfl
  | succ count ih =>
    rw [pow_succ, Nat.mul_comm (2 ^ count), ← Nat.mul_assoc]
    change (ExtendedMantissa.ofMantissaAndAccuracy (m * 2 * 2 ^ count) .exact >>>
      count).shiftRightOne = _
    rw [ih, ExtendedMantissa.shiftRightOne, Nat.mul_div_cancel _ (by decide), Nat.mul_mod_left]
    rfl

theorem roundWithAccuracy_scaled (normalized : Normalized m e) (count : Nat) (sign : Sign) :
    roundWithAccuracy Format.binary64 sign (m * 2 ^ count) (e - count) .exact =
      .finite sign m e normalized.positive := by
  have target := targetExponent_eq (m * 2 ^ count) (e - count)
  have short : m.log2 < 53 := (Nat.log2_lt normalized.positive.ne').mpr normalized.bounded
  have long : 52 ≤ m.log2 ∨ e = -1074 :=
    normalized.normal.imp_left (Nat.le_log2 normalized.positive.ne').mpr
  have first : shiftToTargetExponent Format.binary64 (m * 2 ^ count) (e - count) .exact =
      (⟨m, false, false⟩, e) := by
    have place :
        Format.binary64.targetExponent (totalExponent (m * 2 ^ count) (e - count)) = e := by
      rw [target, log2_shift normalized.positive]
      have least := normalized.least
      omega
    have shifts : (e - (e - count)).toNat = count := by omega
    rw [shiftToTargetExponent, place, shiftToExponent, shifts, shiftRight_scaled]
    congr 1
    omega
  exact roundWithAccuracy_of_shifts sign normalized.positive first (shift_identity normalized)

variable {x p : Float} {s : Sign} {positive : 0 < m}

theorem unpack_mul_power (count : Nat) (left : x.toModel.unpack = .finite s m e positive)
    (right : p.toModel.unpack = .finite .positive (2 ^ 52) q (Nat.two_pow_pos 52))
    (normalized : Normalized m' e') (significand : m * 2 ^ 52 = m' * 2 ^ count)
    (exponent : e + q = e' - count) : (x * p).toModel.unpack =
      if e' ≤ 971 then .finite s m' e' normalized.positive else .infinity s := by
  have sign : s * .positive = s := by cases s <;> rfl
  have product : UnpackedFloat.mul Format.binary64 x.toModel.unpack p.toModel.unpack =
      .finite s m' e' normalized.positive := by
    rw [left, right]
    change roundWithAccuracy Format.binary64 (s * .positive) (m * 2 ^ 52) (e + q) .exact = _
    rw [sign, significand, exponent]
    exact roundWithAccuracy_scaled normalized count s
  rw [← unpack_pack normalized s, ← product]
  rfl

theorem exists_double (canonical : Canonical m e) : ∃ (m' : Nat) (e' : Int) (count : Nat),
    Normalized m' e' ∧ m * 2 ^ 52 = m' * 2 ^ count ∧ e + -51 = e' - count ∧
      unitsOf m' e' = 2 * unitsOf m e := by
  rcases canonical with ⟨positive, bounded, normal, least, greatest⟩
  by_cases large : 2 ^ 52 ≤ m
  · refine ⟨m, e + 1, 52, ⟨positive, bounded, .inl large, by omega⟩, rfl, by omega, ?_⟩
    rw [unitsOf_shift m least (by omega), add_sub_cancel_left, Int.toNat_one, pow_one,
      Nat.mul_comm m, unitsOf, Nat.mul_assoc]
    rfl
  · have bottom : e = -1074 := normal.resolve_left large
    refine ⟨2 * m, e, 51, ⟨by omega, by omega, .inr bottom, least⟩, by ring, by omega, ?_⟩
    rw [unitsOf, Nat.mul_assoc]
    rfl

theorem exists_half (canonical : Canonical m e) (even : 2 ∣ unitsOf m e) :
    ∃ (m' : Nat) (e' : Int) (count : Nat), Canonical m' e' ∧ m * 2 ^ 52 = m' * 2 ^ count ∧
      e + -53 = e' - count ∧ 2 * unitsOf m' e' = unitsOf m e := by
  rcases canonical with ⟨positive, bounded, normal, least, greatest⟩
  by_cases bottom : e = -1074
  · have whole : unitsOf m e = m := by
      rw [bottom, unitsOf]
      exact Nat.mul_one m
    rw [whole] at even
    rcases even with ⟨half, rfl⟩
    refine ⟨half, e, 53, ⟨by omega, by omega, .inr bottom, least, greatest⟩, by ring, by omega, ?_⟩
    rw [unitsOf, unitsOf, Nat.mul_assoc]
  · have large : 2 ^ 52 ≤ m := normal.resolve_right bottom
    refine ⟨m, e - 1, 52, ⟨positive, bounded, .inl large, by omega, by omega⟩, rfl, by omega, ?_⟩
    rw [unitsOf_shift m (by omega) (by omega : e - 1 ≤ e), Int.sub_sub_self, Int.toNat_one, pow_one,
      Nat.mul_comm m, unitsOf, unitsOf, Nat.mul_assoc]

end Rounding

section Doubling

variable {x : Float}

theorem unpack_two : (2.0 : Float).toModel.unpack =
    .finite .positive (2 ^ 52) (-51) (Nat.two_pow_pos 52) := rfl

theorem unpack_half : (0.5 : Float).toModel.unpack =
    .finite .positive (2 ^ 52) (-53) (Nat.two_pow_pos 52) := rfl

theorem pos_iff_units (finite : x.isFinite = true) : 0.0 < x ↔ 0 < units x := by
  rw [lt_iff, compare_units isFinite_origin finite, Option.some_inj, compare_lt_iff_lt,
    units_of_zero unpack_origin]

/-- Twice a positive number counts twice as many units, unless it is too large for a number. -/
theorem double_of_pos (finite : x.isFinite = true) (positive : 0 < units x) :
    (x * 2.0).isFinite = true ∧ units (x * 2.0) = 2 * units x ∨
      (x * 2.0).toModel.unpack = .infinity .positive := by
  rcases unpack_of_pos finite ((pos_iff_units finite).mpr positive) with
    ⟨m, e, nonzero, canonical, same⟩
  rcases exists_double canonical with ⟨m', e', count, normalized, significand, exponent, twice⟩
  have product := unpack_mul_power count same unpack_two normalized significand exponent
  by_cases greatest : e' ≤ 971
  · left
    rw [if_pos greatest] at product
    rw [isFinite_eq, product, (units_of_finite product).2, (units_of_finite same).2, twice]
    exact ⟨rfl, Nat.cast_mul 2 _⟩
  · right
    rwa [if_neg greatest] at product

theorem half_of_even (finite : x.isFinite = true) (even : 2 ∣ units x) :
    (x * 0.5).isFinite = true ∧ 2 * units (x * 0.5) = units x := by
  rcases finite_cases finite with ⟨s, same⟩ | ⟨s, m, e, positive, same⟩
  · have parts : UnpackedFloat.mul Format.binary64 x.toModel.unpack (0.5 : Float).toModel.unpack =
        .zero s := by
      rw [same, unpack_half]
      cases s <;> rfl
    have product : (x * 0.5).toModel.unpack = .zero s := by
      rw [← unpack_pack_zero s, ← parts]
      rfl
    rw [isFinite_eq, product, units_of_zero product, units_of_zero same]
    exact ⟨rfl, rfl⟩
  · rcases units_of_finite same with ⟨canonical, counted⟩
    have even' : 2 ∣ unitsOf m e := by
      rw [counted] at even
      cases s <;> simp only [Sign.apply] at even <;> omega
    rcases exists_half canonical even' with
      ⟨m', e', count, canonical', significand, exponent, half⟩
    have product :=
      unpack_mul_power count same unpack_half canonical'.normalized significand exponent
    rw [if_pos canonical'.greatest] at product
    rw [isFinite_eq, product, (units_of_finite product).2, counted, ← half]
    refine ⟨rfl, ?_⟩
    cases s <;> simp only [Sign.apply] <;> omega

theorem half_of_infinity {s : Sign} (same : x.toModel.unpack = .infinity s) :
    (x * 0.5).toModel.unpack = .infinity s := by
  have parts : UnpackedFloat.mul Format.binary64 x.toModel.unpack (0.5 : Float).toModel.unpack =
      .infinity s := by
    rw [same, unpack_half]
    cases s <;> rfl
  rw [← unpack_pack_infinity s, ← parts]
  rfl

end Doubling
end ParticleSim.Binary64
