import ParticleSim.Proofs.Number.Equality
/-!
Finite numbers counted in units of the least positive one. Every finite number is a whole count of
such units, and the order of numbers is that of their counts.
-/
namespace ParticleSim.Binary64

open Float.Model Float.Model.UnpackedFloat

/-- A magnitude `significand · 2 ^ exponent` in units of `2 ^ (-1074)`. -/
def unitsOf (significand : Nat) (exponent : Int) : Nat :=
  significand * 2 ^ (exponent + 1074).toNat

def units (x : Float) : Int :=
  (signOf (isNegative x)).apply (unitsOf (exact x).significand (exact x).exponent)

theorem unitsOf_pos {m : Nat} {e : Int} (positive : 0 < m) : 0 < unitsOf m e :=
  Nat.mul_pos positive (Nat.two_pow_pos _)

theorem unitsOf_le_iff {m m' : Nat} {e : Int} : unitsOf m e ≤ unitsOf m' e ↔ m ≤ m' :=
  Nat.mul_le_mul_right_iff (Nat.two_pow_pos _)

theorem unitsOf_shift (m : Nat) {e e' : Int} (least : -1074 ≤ e) (finer : e ≤ e') :
    unitsOf m e' = unitsOf (m * 2 ^ (e' - e).toNat) e := by
  rw [unitsOf, unitsOf, Nat.mul_assoc, ← Nat.pow_add]
  congr 2
  omega

/-- Of two normalized magnitudes the one with the larger exponent is larger. -/
theorem unitsOf_lt {m m' : Nat} {e e' : Int} (first : Normalized m e) (second : Normalized m' e')
    (less : e < e') : unitsOf m e < unitsOf m' e' := by
  have large : 2 ^ 52 ≤ m' := second.normal.resolve_right (by have := first.least; omega)
  have step : (e + 1074).toNat + 1 ≤ (e' + 1074).toNat := by have := first.least; omega
  calc unitsOf m e < 2 ^ 53 * 2 ^ (e + 1074).toNat :=
        Nat.mul_lt_mul_of_pos_right first.bounded (Nat.two_pow_pos _)
    _ = 2 ^ 52 * 2 ^ ((e + 1074).toNat + 1) := by rw [← Nat.pow_add, ← Nat.pow_add]; congr 1; omega
    _ ≤ m' * 2 ^ (e' + 1074).toNat :=
        Nat.mul_le_mul large (Nat.pow_le_pow_right (by decide) step)

theorem compare_parts {m m' : Nat} {e e' : Int} (first : Normalized m e)
    (second : Normalized m' e') :
    (compare e e').then (compare m m') = compare (unitsOf m e) (unitsOf m' e') := by
  rcases lt_trichotomy e e' with less | rfl | more
  · rw [compare_lt_iff_lt.mpr less, compare_lt_iff_lt.mpr (unitsOf_lt first second less)]
    rfl
  · have unit := Nat.two_pow_pos (e + 1074).toNat
    rw [compare_eq_iff_eq.mpr rfl, unitsOf, unitsOf]
    change compare m m' = _
    rcases lt_trichotomy m m' with less | rfl | more
    · rw [compare_lt_iff_lt.mpr less,
        compare_lt_iff_lt.mpr (Nat.mul_lt_mul_of_pos_right less unit)]
    · rw [compare_eq_iff_eq.mpr rfl, compare_eq_iff_eq.mpr rfl]
    · rw [compare_gt_iff_gt.mpr more,
        compare_gt_iff_gt.mpr (Nat.mul_lt_mul_of_pos_right more unit)]
  · rw [compare_gt_iff_gt.mpr more, compare_gt_iff_gt.mpr (unitsOf_lt second first more)]
    rfl

/-- A sign turns the order of magnitudes round or keeps it. -/
theorem compare_apply (a b : Nat) :
    compare (Sign.negative.apply a) (Sign.negative.apply b) = (compare a b).swap ∧
      compare (Sign.positive.apply a) (Sign.positive.apply b) = compare a b := by
  simp only [Sign.apply]
  rcases lt_trichotomy a b with less | rfl | more
  · rw [compare_lt_iff_lt.mpr less]
    exact ⟨compare_gt_iff_gt.mpr (by omega), compare_lt_iff_lt.mpr (by omega)⟩
  · rw [compare_eq_iff_eq.mpr rfl, compare_eq_iff_eq.mpr rfl, compare_eq_iff_eq.mpr rfl]
    exact ⟨rfl, rfl⟩
  · rw [compare_gt_iff_gt.mpr more]
    exact ⟨compare_lt_iff_lt.mpr (by omega), compare_gt_iff_gt.mpr (by omega)⟩

theorem units_of_finite {x : Float} {s : Sign} {m : Nat} {e : Int} {positive : 0 < m}
    (same : x.toModel.unpack = .finite s m e positive) :
    Canonical m e ∧ units x = s.apply (unitsOf m e) := by
  rcases unpack_cases x with ⟨-, -, other⟩ | ⟨-, -, other⟩ | ⟨-, -, other⟩ | ⟨nonzero, below, other⟩
  · rw [same] at other
    cases other
  · rw [same] at other
    cases other
  · rw [same] at other
    cases other
  · rw [same] at other
    injection other with sign significand exponent
    rw [units, ← sign, significand, exponent]
    exact ⟨exact_canonical below nonzero, rfl⟩

theorem units_of_zero {x : Float} {s : Sign} (same : x.toModel.unpack = .zero s) : units x = 0 := by
  rcases unpack_cases x with ⟨-, -, other⟩ | ⟨-, -, other⟩ | ⟨bottom, zero, -⟩ |
    ⟨nonzero, -, other⟩
  · rw [same] at other
    cases other
  · rw [same] at other
    cases other
  · rw [units, exact_significand, if_pos bottom, zero, unitsOf, Nat.zero_mul]
    cases signOf (isNegative x) <;> rfl
  · rw [same] at other
    cases other

theorem isFinite_iff {x : Float} : x.isFinite = true ↔ x.isNaN = false ∧ x.isInf = false := by
  change x.toModel.unpack.isFinite = true ↔ x.toModel.unpack.isNaN = false ∧
    x.toModel.unpack.isInf = false
  cases x.toModel.unpack with
  | infinity s =>
    constructor
    · intro finite
      cases finite
    · intro given
      cases given.2
  | notANumber =>
    constructor
    · intro finite
      cases finite
    · intro given
      cases given.1
  | _ => exact ⟨fun _ => ⟨rfl, rfl⟩, fun _ => rfl⟩

theorem field_of_isFinite {x : Float} (finite : x.isFinite = true) : field x ≠ 2047 :=
  field_of_finite (Bool.eq_false_iff.mp (isFinite_iff.mp finite).1)
    (Bool.eq_false_iff.mp (isFinite_iff.mp finite).2)

theorem finite_cases {x : Float} (finite : x.isFinite = true) :
    (∃ s, x.toModel.unpack = .zero s) ∨
      ∃ s m e positive, x.toModel.unpack = .finite s m e positive := by
  rw [isFinite_eq] at finite
  cases same : x.toModel.unpack with
  | infinity s =>
    rw [same] at finite
    cases finite
  | notANumber =>
    rw [same] at finite
    cases finite
  | zero s => exact .inl ⟨s, rfl⟩
  | finite s m e positive => exact .inr ⟨s, m, e, positive, rfl⟩

theorem compare_units {x y : Float} (left : x.isFinite = true) (right : y.isFinite = true) :
    x.toModel.unpack.compare y.toModel.unpack = some (compare (units x) (units y)) := by
  rcases finite_cases left with ⟨s, same⟩ | ⟨s, m, e, positive, same⟩
  · rcases finite_cases right with ⟨t, same'⟩ | ⟨t, m', e', positive', same'⟩
    · rw [same, same', units_of_zero same, units_of_zero same']
      rfl
    · have above : (0 : Int) < unitsOf m' e' := by exact_mod_cast unitsOf_pos positive'
      rw [same, same', units_of_zero same, (units_of_finite same').2]
      cases t with
      | negative => exact congrArg some (compare_gt_iff_gt.mpr (Int.neg_neg_of_pos above)).symm
      | positive => exact congrArg some (compare_lt_iff_lt.mpr above).symm
  · have above : (0 : Int) < unitsOf m e := by exact_mod_cast unitsOf_pos positive
    rcases units_of_finite same with ⟨canonical, count⟩
    rcases finite_cases right with ⟨t, same'⟩ | ⟨t, m', e', positive', same'⟩
    · rw [same, same', units_of_zero same', count]
      cases s with
      | negative => exact congrArg some (compare_lt_iff_lt.mpr (Int.neg_neg_of_pos above)).symm
      | positive => exact congrArg some (compare_gt_iff_gt.mpr above).symm
    · have above' : (0 : Int) < unitsOf m' e' := by exact_mod_cast unitsOf_pos positive'
      rcases units_of_finite same' with ⟨canonical', count'⟩
      have parts := compare_parts canonical.normalized canonical'.normalized
      rw [same, same', count, count']
      cases s <;> cases t
      · rw [(compare_apply _ _).1, ← parts]
        rfl
      · exact congrArg some (compare_lt_iff_lt.mpr (by simp only [Sign.apply]; omega)).symm
      · exact congrArg some (compare_gt_iff_gt.mpr (by simp only [Sign.apply]; omega)).symm
      · rw [(compare_apply _ _).2, ← parts]
        rfl

theorem le_iff_units {x y : Float} (left : x.isFinite = true) (right : y.isFinite = true) :
    x ≤ y ↔ units x ≤ units y := by
  rw [le_iff, compare_units left right, Option.any_some, Std.isLE_compare]

/-- The place of a number in the order of all that are not NaN. An infinity stands where the first
magnitude would stand that is too large for a number. -/
def rank (x : Float) : Int :=
  match x.toModel.unpack with
  | .infinity s => s.apply (unitsOf (2 ^ 52) 972)
  | _ => units x

theorem rank_of_isFinite {x : Float} (finite : x.isFinite = true) : rank x = units x := by
  rcases finite_cases finite with ⟨s, same⟩ | ⟨s, m, e, positive, same⟩ <;> rw [rank, same]

theorem rank_of_infinity {x : Float} {s : Sign} (same : x.toModel.unpack = .infinity s) :
    rank x = s.apply (unitsOf (2 ^ 52) 972) := by
  rw [rank, same]

theorem natAbs_units_lt {x : Float} (finite : x.isFinite = true) :
    (units x).natAbs < unitsOf (2 ^ 52) 972 := by
  rcases finite_cases finite with ⟨s, same⟩ | ⟨s, m, e, positive, same⟩
  · rw [units_of_zero same]
    exact unitsOf_pos (by decide)
  · rcases units_of_finite same with ⟨canonical, count⟩
    have top : Normalized (2 ^ 52) 972 := ⟨by decide, by decide, .inl le_rfl, by decide⟩
    have less := unitsOf_lt canonical.normalized top (by have := canonical.greatest; omega)
    rw [count]
    cases s <;> simpa [Sign.apply] using less

theorem infinity_cases {x : Float} (number : x.isNaN = false) :
    x.isFinite = true ∨ ∃ s, x.toModel.unpack = .infinity s := by
  change x.toModel.unpack.isNaN = false at number
  rw [isFinite_eq]
  cases same : x.toModel.unpack with
  | infinity s => exact .inr ⟨s, rfl⟩
  | notANumber =>
    rw [same] at number
    cases number
  | _ => exact .inl rfl

theorem compare_infinity {x y : Float} {t : Sign} (finite : x.isFinite = true)
    (same : y.toModel.unpack = .infinity t) :
    x.toModel.unpack.compare y.toModel.unpack = some (compare (rank x) (rank y)) := by
  have small := natAbs_units_lt finite
  rw [rank_of_isFinite finite, rank_of_infinity same, same]
  cases t with
  | negative =>
    rw [compare_gt_iff_gt.mpr (by simp only [Sign.apply]; omega)]
    rcases finite_cases finite with ⟨s, zero⟩ | ⟨s, m, e, positive, parts⟩
    · rw [zero]
      rfl
    · rw [parts]
      cases s <;> rfl
  | positive =>
    rw [compare_lt_iff_lt.mpr (by simp only [Sign.apply]; omega)]
    rcases finite_cases finite with ⟨s, zero⟩ | ⟨s, m, e, positive, parts⟩
    · rw [zero]
      rfl
    · rw [parts]
      cases s <;> rfl

/-- Numbers compare as their places, infinite ones too. -/
theorem compare_rank {x y : Float} (left : x.isNaN = false) (right : y.isNaN = false) :
    x.toModel.unpack.compare y.toModel.unpack = some (compare (rank x) (rank y)) := by
  rcases infinity_cases left with finite | ⟨s, same⟩
  · rcases infinity_cases right with finite' | ⟨t, same'⟩
    · rw [compare_units finite finite', rank_of_isFinite finite, rank_of_isFinite finite']
    · exact compare_infinity finite same'
  · rcases infinity_cases right with finite' | ⟨t, same'⟩
    · rw [compare_swap y.toModel.unpack, compare_infinity finite' same,
        Std.OrientedOrd.eq_swap (a := rank x)]
      rfl
    · have top : 0 < unitsOf (2 ^ 52) 972 := unitsOf_pos (by decide)
      rw [same, same', rank_of_infinity same, rank_of_infinity same']
      cases s <;> cases t
      · rw [compare_eq_iff_eq.mpr rfl]
        rfl
      · rw [compare_lt_iff_lt.mpr (by simp only [Sign.apply]; omega)]
        rfl
      · rw [compare_gt_iff_gt.mpr (by simp only [Sign.apply]; omega)]
        rfl
      · rw [compare_eq_iff_eq.mpr rfl]
        rfl

theorem lt_trans {x y z : Float} (first : x < y) (second : y < z) : x < z := by
  have left := isNaN_of_le (le_of_lt first)
  have right := isNaN_of_le (le_of_lt second)
  rw [lt_iff, compare_rank left.1 left.2, Option.some_inj, compare_lt_iff_lt] at first
  rw [lt_iff, compare_rank right.1 right.2, Option.some_inj, compare_lt_iff_lt] at second
  rw [lt_iff, compare_rank left.1 right.2, Option.some_inj, compare_lt_iff_lt]
  exact first.trans second

end ParticleSim.Binary64
