import ParticleSim.Proofs.Number.Remainder

namespace ParticleSim.Binary64

open Float.Model Float.Model.UnpackedFloat

section Negation

variable {x y z : Float}

theorem apply_neg (s : Sign) (n : Int) : (-s).apply n = -s.apply n := by
  cases s
  · exact (Int.neg_neg n).symm
  · rfl

theorem unpack_neg (x : Float) : (-x).toModel.unpack = x.toModel.unpack.neg := by
  change (Float.ofModel (.pack x.toModel.unpack.neg)).toModel.unpack = _
  cases same : x.toModel.unpack with
  | notANumber => rfl
  | infinity s => exact unpack_pack_infinity (-s)
  | zero s => exact unpack_pack_zero (-s)
  | finite s m e positive => exact unpack_pack_canonical (units_of_finite same).1 (-s)

theorem isFinite_neg (finite : x.isFinite = true) : (-x).isFinite = true := by
  rw [isFinite_eq, unpack_neg]
  rcases finite_cases finite with ⟨s, same⟩ | ⟨s, m, e, positive, same⟩ <;> rw [same] <;> rfl

theorem units_neg (finite : x.isFinite = true) : units (-x) = -units x := by
  have negated := unpack_neg x
  rcases finite_cases finite with ⟨s, same⟩ | ⟨s, m, e, positive, same⟩ <;> rw [same] at negated
  · rw [units_of_zero same, units_of_zero negated]
    rfl
  · rw [(units_of_finite same).2, (units_of_finite negated).2, apply_neg]

theorem sub_eq (x y : Float) : x - y = x + -y := by
  change Float.ofModel (.pack (UnpackedFloat.sub Format.binary64 x.toModel.unpack
    y.toModel.unpack)) = Float.ofModel (.pack (UnpackedFloat.add Format.binary64 x.toModel.unpack
    (-y).toModel.unpack))
  rw [unpack_neg, sub_eq_add_neg]

theorem le_iff_rank (left : x.isNaN = false) (right : y.isNaN = false) :
    x ≤ y ↔ rank x ≤ rank y := by
  rw [le_iff, compare_rank left right, Option.any_some, Std.isLE_compare]

theorem le_trans (first : x ≤ y) (second : y ≤ z) : x ≤ z := by
  rcases isNaN_of_le first with ⟨left, middle⟩
  have right := (isNaN_of_le second).2
  rw [le_iff_rank left middle] at first
  rw [le_iff_rank middle right] at second
  exact (le_iff_rank left right).mpr (first.trans second)

theorem beq_iff_units (left : x.isFinite = true) (right : y.isFinite = true) :
    (x == y) = true ↔ units x = units y := by
  rw [beq_iff, compare_units left right, Option.some_inj, compare_eq_iff_eq]

theorem isFinite_of_rank (number : x.isNaN = false)
    (small : (rank x).natAbs < unitsOf (2 ^ 52) 972) : x.isFinite = true := by
  rcases infinity_cases number with finite | ⟨s, same⟩
  · exact finite
  · rw [rank_of_infinity same, natAbs_apply] at small
    omega

end Negation

section Rounding

variable {n m : Nat} {e u : Int}

theorem rank_pack (normalized : Normalized m e) (sign : Sign) :
    rank (Float.ofModel (.pack (.finite sign m e normalized.positive))) =
      sign.apply (if e ≤ 971 then unitsOf m e else unitsOf (2 ^ 52) 972) := by
  have packed := unpack_pack normalized sign
  by_cases greatest : e ≤ 971
  · rw [if_pos greatest] at packed
    have finite :
        (Float.ofModel (.pack (.finite sign m e normalized.positive))).isFinite = true := by
      rw [isFinite_eq, packed]
      rfl
    rw [if_pos greatest, rank_of_isFinite finite, (units_of_finite packed).2]
  · rw [if_neg greatest] at packed
    rw [if_neg greatest, rank_of_infinity packed]

theorem rank_pack_zero (s : Sign) : rank (Float.ofModel (.pack (.zero s))) = 0 := by
  rw [rank, unpack_pack_zero]
  exact units_of_zero (unpack_pack_zero s)

theorem round_neg (s : Sign) (n : Nat) (u : Int) :
    UnpackedFloat.round Format.binary64 (-s) n u =
      (UnpackedFloat.round Format.binary64 s n u).neg := by
  rw [UnpackedFloat.round, UnpackedFloat.round]
  dsimp only
  rw [roundWithAccuracy, roundWithAccuracy]
  dsimp only
  rw [apply_dite UnpackedFloat.neg]
  rfl

theorem rank_round_neg (positive : 0 < n) (least : -1074 ≤ u) (s : Sign) :
    rank (Float.ofModel (.pack (UnpackedFloat.round Format.binary64 (-s) n u))) =
      -rank (Float.ofModel (.pack (UnpackedFloat.round Format.binary64 s n u))) := by
  rcases exists_round positive least s with ⟨m, e, rounded, same⟩
  rw [round_neg, same, rank_pack rounded.normalized, ← apply_neg]
  exact rank_pack rounded.normalized (-s)

theorem rank_normalize_neg (n : Int) (least : -1074 ≤ u) :
    rank (Float.ofModel (.pack (UnpackedFloat.normalize Format.binary64 (-n) u .positive))) =
      -rank (Float.ofModel (.pack (UnpackedFloat.normalize Format.binary64 n u .positive))) := by
  rw [UnpackedFloat.normalize.eq_1, UnpackedFloat.normalize.eq_1]
  rcases lt_trichotomy n 0 with negative | rfl | positive
  · rw [compare_lt_iff_lt.mpr negative, compare_gt_iff_gt.mpr (by omega : -n > 0)]
    exact rank_round_neg (by omega) least .negative
  · rw [Int.neg_zero, compare_eq_iff_eq.mpr rfl]
    change rank (Float.ofModel (.pack (.zero .positive))) = -_
    rw [rank_pack_zero]
    exact Int.neg_zero.symm.trans (congrArg Neg.neg (rank_pack_zero .positive).symm)
  · rw [compare_gt_iff_gt.mpr positive, compare_lt_iff_lt.mpr (by omega : -n < 0), Int.neg_neg]
    exact rank_round_neg (by omega) least .positive

end Rounding

section Sums

variable {x y z : Float}

/-- The negated sum and the sum of the negated numbers are the same, up to the sign of a zero. -/
theorem rank_neg_add_neg (left : x.isFinite = true) (right : y.isFinite = true) :
    rank (-x + -y) = -rank (x + y) := by
  have negated : rank (-x + -y) = rank (Float.ofModel (.pack (UnpackedFloat.add Format.binary64
      x.toModel.unpack.neg y.toModel.unpack.neg))) := by
    rw [← unpack_neg, ← unpack_neg]
    rfl
  change _ = -rank (Float.ofModel
    (.pack (UnpackedFloat.add Format.binary64 x.toModel.unpack y.toModel.unpack)))
  rw [negated]
  rcases finite_cases left with ⟨s, same⟩ | ⟨s, m, e, positive, same⟩ <;>
    rcases finite_cases right with ⟨t, same'⟩ | ⟨t, m', e', positive', same'⟩ <;> rw [same, same']
  · cases s <;> cases t <;>
      exact (rank_pack_zero _).trans (congrArg Neg.neg (rank_pack_zero _).symm)
  · have canonical := (units_of_finite same').1.normalized
    exact (rank_pack canonical (-t)).trans
      ((apply_neg t _).trans (congrArg Neg.neg (rank_pack canonical t).symm))
  · have canonical := (units_of_finite same).1.normalized
    exact (rank_pack canonical (-s)).trans
      ((apply_neg s _).trans (congrArg Neg.neg (rank_pack canonical s).symm))
  · have least : -1074 ≤ min e e' :=
      le_min (units_of_finite same).1.least (units_of_finite same').1.least
    have sum : (-s).apply (m <<< (e - min e e').toNat : Nat) +
        (-t).apply (m' <<< (e' - min e e').toNat : Nat) =
          -(s.apply (m <<< (e - min e e').toNat : Nat) +
            t.apply (m' <<< (e' - min e e').toNat : Nat)) := by
      rw [apply_neg, apply_neg, Int.neg_add]
    change rank (Float.ofModel (.pack (UnpackedFloat.normalize _ ((-s).apply _ + (-t).apply _) _
      _))) = _
    rw [sum]
    exact rank_normalize_neg _ least

theorem add_le (left : x.isFinite = true) (right : y.isFinite = true) (finite : z.isFinite = true)
    (above : units x + units y ≤ units z) : x + y ≤ z := by
  have sum : (x + y).isNaN = false := isNaN_add (isFinite_iff.mp left).1 right
  have sum' : (-x + -y).isNaN = false :=
    isNaN_add (isFinite_iff.mp (isFinite_neg left)).1 (isFinite_neg right)
  have turned : -z ≤ -x + -y := by
    refine le_add (isFinite_neg left) (isFinite_neg right) (isFinite_neg finite) ?_
    rw [units_neg left, units_neg right, units_neg finite]
    omega
  have number := isFinite_iff.mp finite
  have number' := isFinite_iff.mp (isFinite_neg finite)
  rw [le_iff_rank number'.1 sum', rank_neg_add_neg left right,
    rank_of_isFinite (isFinite_neg finite), units_neg finite] at turned
  rw [le_iff_rank sum number.1, rank_of_isFinite finite]
  omega

/-- A sum that is a number itself is not rounded. -/
theorem add_exact (left : x.isFinite = true) (right : y.isFinite = true)
    (finite : z.isFinite = true) (same : units z = units x + units y) :
    (x + y).isFinite = true ∧ units (x + y) = units x + units y := by
  have sum : (x + y).isNaN = false := isNaN_add (isFinite_iff.mp left).1 right
  have number := (isFinite_iff.mp finite).1
  have below := le_add left right finite same.le
  have above := add_le left right finite same.ge
  rw [le_iff_rank number sum, rank_of_isFinite finite] at below
  rw [le_iff_rank sum number, rank_of_isFinite finite] at above
  have rank_eq : rank (x + y) = units z := by omega
  have finite' := isFinite_of_rank sum (rank_eq ▸ natAbs_units_lt finite)
  rw [rank_of_isFinite finite'] at rank_eq
  exact ⟨finite', rank_eq.trans same⟩

theorem sub_exact (left : x.isFinite = true) (right : y.isFinite = true)
    (finite : z.isFinite = true) (same : units z = units x - units y) :
    (x - y).isFinite = true ∧ units (x - y) = units x - units y := by
  rw [Int.sub_eq_add_neg, ← units_neg right] at same
  rw [sub_eq, Int.sub_eq_add_neg, ← units_neg right]
  exact add_exact left (isFinite_neg right) finite same

theorem infinity_add {s : Sign} (same : x.toModel.unpack = .infinity s)
    (number : (x + y).isNaN = false) : (x + y).toModel.unpack = .infinity s := by
  have either (b : UnpackedFloat) :
      UnpackedFloat.add Format.binary64 (.infinity s) b = .infinity s ∨
        UnpackedFloat.add Format.binary64 (.infinity s) b = .notANumber := by
    cases b with
    | notANumber => exact .inr rfl
    | infinity t => cases s <;> cases t <;> first | exact .inl rfl | exact .inr rfl
    | _ => exact .inl rfl
  have sum : x + y = Float.ofModel (.pack (UnpackedFloat.add Format.binary64 (.infinity s)
      y.toModel.unpack)) := by
    rw [← same]
    rfl
  rw [sum] at number ⊢
  rcases either y.toModel.unpack with infinite | missing
  · rw [infinite]
    exact unpack_pack_infinity s
  · rw [missing] at number
    exact absurd number (by decide)

/-- A number for every count of units that has few enough digits behind its zeros. -/
theorem exists_units {k : Int} {v : Nat} (few : k.natAbs < 2 ^ 53) (places : v ≤ 2045) :
    ∃ z : Float, z.isFinite = true ∧ units z = k * 2 ^ v := by
  rcases units_ofScaled (u := v - 1074) few (by omega) (by omega) 0.0 with ⟨finite, count⟩
  have size : (units (ofScaled 0.0 k.natAbs (v - 1074))).natAbs = (k * 2 ^ v).natAbs := by
    rw [count, unitsOf, Int.natAbs_mul, Int.natAbs_pow]
    congr 2
    omega
  rcases Int.natAbs_eq_natAbs_iff.mp size with same | opposite
  · exact ⟨_, finite, same⟩
  · exact ⟨_, isFinite_neg finite, by rw [units_neg finite, opposite, Int.neg_neg]⟩

end Sums

end ParticleSim.Binary64
