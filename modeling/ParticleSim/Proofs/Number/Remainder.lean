import ParticleSim.Proofs.Number.Sum
/-!
Remainders. The remainder of two finite numbers is smaller than the divisor, whence one that is
moved to the side of zero where remainders are not negative is there indeed, however it is rounded.
-/
namespace ParticleSim.Binary64

open Float.Model Float.Model.UnpackedFloat

section Scaled

variable {n : Nat} {u shift : Int}

theorem canonical_scaled (positive : 0 < n) (bounded : n < 2 ^ 53) (least : -1074 ≤ u)
    (greatest : u ≤ 971) (place : shift = min (52 - (n.log2 : Int)) (u + 1074)) :
    Canonical (n * 2 ^ shift.toNat) (u - shift) := by
  have few : n.log2 ≤ 52 := Nat.le_of_lt_succ ((Nat.log2_lt positive.ne').mpr bounded)
  have nonzero : 0 < n * 2 ^ shift.toNat := Nat.mul_pos positive (Nat.two_pow_pos _)
  refine ⟨nonzero, ?_, ?_, by omega, by omega⟩
  · rw [← Nat.log2_lt nonzero.ne', log2_shift positive]
    omega
  · by_cases bottom : u - shift = -1074
    · exact .inr bottom
    · left
      rw [← Nat.le_log2 nonzero.ne', log2_shift positive]
      omega

theorem ofBits_toBits_assemble {m : Nat} {e : Int} (canonical : Canonical m e) (negative : Bool) :
    Float.ofBits (assemble negative m e canonical.positive).toBits =
      assemble negative m e canonical.positive := by
  change Float.ofModel (.pack (assemble negative m e canonical.positive).toModel.unpack) = _
  rw [unpack_assemble canonical]
  rfl

theorem exists_ofScaled (positive : 0 < n) (bounded : n < 2 ^ 53) (least : -1074 ≤ u)
    (greatest : u ≤ 971) (like : Float) : ∃ (m : Nat) (e : Int) (canonical : Canonical m e),
      ofScaled like n u = assemble (isNegative like) m e canonical.positive ∧
        unitsOf m e = unitsOf n u := by
  obtain ⟨shift, place⟩ : ∃ shift, shift = min (52 - (n.log2 : Int)) (u + 1074) := ⟨_, rfl⟩
  have canonical := canonical_scaled positive bounded least greatest place
  refine ⟨_, _, canonical, ?_, ?_⟩
  · have word : ((u - shift + 1074).toNat * 2 ^ 52 + n * 2 ^ shift.toNat).toUInt64 =
        (assemble false (n * 2 ^ shift.toNat) (u - shift) canonical.positive).toBits := by
      have bits := toNat_assemble canonical false
      have below := UInt64.toNat_lt
        (assemble false (n * 2 ^ shift.toNat) (u - shift) canonical.positive).toBits
      apply UInt64.toNat_inj.mp
      rw [bits, Nat.toUInt64_eq, UInt64.toNat_ofNat_of_lt']
      · simp
      · rw [bits] at below
        simpa using below
    rw [ofScaled, if_neg positive.ne', ← place]
    have scaled := ofBits_toBits_assemble canonical false
    rw [← word] at scaled
    have negated := neg_assemble canonical false
    rw [← scaled] at negated
    cases isNegative like
    · exact scaled
    · exact negated
  · have few : n.log2 ≤ 52 := Nat.le_of_lt_succ ((Nat.log2_lt positive.ne').mpr bounded)
    rw [unitsOf_shift n (e := u - shift) (by omega) (by omega), Int.sub_sub_self]

theorem natAbs_apply (s : Sign) (n : Nat) : (s.apply n).natAbs = n := by
  cases s <;> simp [Sign.apply]

theorem units_ofScaled (bounded : n < 2 ^ 53) (least : -1074 ≤ u) (greatest : u ≤ 971)
    (like : Float) : (ofScaled like n u).isFinite = true ∧
      (units (ofScaled like n u)).natAbs = unitsOf n u := by
  rcases Nat.eq_zero_or_pos n with rfl | positive
  · rw [ofScaled, if_pos rfl, zeroLike, unitsOf, Nat.zero_mul]
    cases isNegative like <;> decide
  · rcases exists_ofScaled positive bounded least greatest like with ⟨m, e, canonical, same, count⟩
    have parts := unpack_assemble canonical (isNegative like)
    rw [same, (units_of_finite parts).2, natAbs_apply, isFinite_eq, parts]
    exact ⟨rfl, count⟩

end Scaled

section Remainders

variable {x m : Float}

theorem exact_bounds (finite : x.isFinite = true) : (exact x).significand < 2 ^ 53 ∧
    -1074 ≤ (exact x).exponent ∧ (exact x).exponent ≤ 971 := by
  have below := field_of_isFinite finite
  have limit : field x < 2 ^ 11 := Nat.mod_lt _ (by decide)
  have small : fraction x < 2 ^ 52 := Nat.mod_lt _ (by decide)
  rw [exact_significand, exact_exponent]
  split <;> omega

theorem natAbs_units (x : Float) :
    (units x).natAbs = unitsOf (exact x).significand (exact x).exponent := by
  rw [units, natAbs_apply]

theorem unitsOf_scaled (x : Float) {u : Int} (least : -1074 ≤ u)
    (finer : u ≤ (exact x).exponent) : unitsOf ((exact x).scaled u) u = (units x).natAbs := by
  rw [natAbs_units, unitsOf_shift _ least finer]
  rfl

theorem units_ne_zero (finite : m.isFinite = true) (nonzero : (m == 0.0) = false) :
    0 < (units m).natAbs := by
  rcases finite_cases finite with ⟨s, same⟩ | ⟨s, a, b, positive, same⟩
  · have equal : (m == 0.0) = true := by
      rw [beq_iff, same, unpack_origin]
      rfl
    rw [equal] at nonzero
    cases nonzero
  · rw [(units_of_finite same).2, natAbs_apply]
    exact unitsOf_pos positive

theorem remainder_small (left : x.isFinite = true) (right : m.isFinite = true)
    (nonzero : (m == 0.0) = false) : (remainder x m).isFinite = true ∧
      (units (remainder x m)).natAbs < (units m).natAbs := by
  have leftKind := isFinite_iff.mp left
  have rightKind := isFinite_iff.mp right
  rw [remainder, leftKind.1, leftKind.2, rightKind.1, rightKind.2, nonzero]
  simp only [Bool.or_false, Bool.false_eq_true, if_false]
  rcases exact_bounds left with ⟨bounded, least, greatest⟩
  rcases exact_bounds right with ⟨bounded', least', greatest'⟩
  obtain ⟨u, place⟩ : ∃ u, u = min (exact x).exponent (exact m).exponent := ⟨_, rfl⟩
  rw [← place]
  have lower : -1074 ≤ u := by omega
  have upper : u ≤ 971 := by omega
  have size : unitsOf ((exact m).scaled u) u = (units m).natAbs :=
    unitsOf_scaled m lower (by omega)
  have divisor : 0 < (exact m).scaled u := by
    have nonzero := units_ne_zero right nonzero
    rw [← size] at nonzero
    exact Nat.pos_of_mul_pos_right nonzero
  have less := Nat.mod_lt ((exact x).scaled u) divisor
  have few : (exact x).scaled u % (exact m).scaled u < 2 ^ 53 := by
    -- one of the two exponents is the lower one, and there the significand stands as it is
    rcases min_choice (exact x).exponent (exact m).exponent with here | there
    · have whole : (exact x).scaled u = (exact x).significand := by
        rw [Exact.scaled, place, here, Int.sub_self]
        exact Nat.mul_one _
      rw [whole]
      exact (Nat.mod_le ..).trans_lt bounded
    · have whole : (exact m).scaled u = (exact m).significand := by
        rw [Exact.scaled, place, there, Int.sub_self]
        exact Nat.mul_one _
      rw [whole] at less ⊢
      exact less.trans bounded'
  rcases units_ofScaled few lower upper x with ⟨finite, count⟩
  refine ⟨finite, ?_⟩
  calc (units _).natAbs = unitsOf ((exact x).scaled u % (exact m).scaled u) u := count
    _ < unitsOf ((exact m).scaled u) u := Nat.mul_lt_mul_of_pos_right less (Nat.two_pow_pos _)
    _ = (units m).natAbs := size

theorem units_abs (finite : m.isFinite = true) :
    m.abs.isFinite = true ∧ units m.abs = (units m).natAbs := by
  rcases finite_cases finite with ⟨s, same⟩ | ⟨s, a, b, positive, same⟩
  · have packed := unpack_pack_zero .positive
    have abs : m.abs = Float.ofModel (.pack (.zero .positive)) := by
      change Float.ofModel (.pack m.toModel.unpack.abs) = _
      rw [same]
      rfl
    rw [abs, isFinite_eq, packed, units_of_zero packed, units_of_zero same]
    exact ⟨rfl, rfl⟩
  · rcases units_of_finite same with ⟨canonical, count⟩
    have packed := unpack_pack_canonical canonical .positive
    have abs : m.abs = Float.ofModel (.pack (.finite .positive a b canonical.positive)) := by
      change Float.ofModel (.pack m.toModel.unpack.abs) = _
      rw [same]
      rfl
    rw [abs, isFinite_eq, packed, (units_of_finite packed).2, count, natAbs_apply]
    exact ⟨rfl, rfl⟩

theorem unpack_abs_of_isInf (infinite : m.isInf = true) :
    m.abs.toModel.unpack = .infinity .positive := by
  rw [eq_infinity infinite]
  cases isNegative m <;> rfl

/-- The Euclidean remainder is not negative, unless there is none. -/
theorem remEuclid_nonneg (number : (remEuclid x m).isNaN = false) : 0.0 ≤ remEuclid x m := by
  have start : (0.0 : Float).isNaN = false := by decide
  rw [remEuclid] at number ⊢
  split
  · next negative =>
    by_cases none : (x.isNaN || m.isNaN || x.isInf || m == 0.0) = true
    · rw [remainder, if_pos none] at negative
      exact absurd negative (by decide)
    · have kinds := none
      simp only [Bool.or_eq_true, not_or, Bool.not_eq_true] at kinds
      rcases kinds with ⟨⟨⟨xNumber, mNumber⟩, xBounded⟩, nonzero⟩
      have left := isFinite_iff.mpr ⟨xNumber, xBounded⟩
      cases wide : m.isInf with
      | true =>
        rw [remainder, if_neg none, if_pos wide]
        exact le_add_infinity left isFinite_origin (unpack_abs_of_isInf wide)
      | false =>
        have right := isFinite_iff.mpr ⟨mNumber, wide⟩
        rcases remainder_small left right nonzero with ⟨finite, small⟩
        rcases units_abs right with ⟨finite', size⟩
        refine le_add finite finite' isFinite_origin ?_
        rw [units_of_zero unpack_origin, size]
        omega
  · next nonneg =>
    rw [if_neg nonneg] at number
    exact (not_lt_iff number start).mp nonneg

end Remainders

end ParticleSim.Binary64
