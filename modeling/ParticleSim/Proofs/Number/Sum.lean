import ParticleSim.Proofs.Number.Reciprocal
import ParticleSim.Proofs.Number.Units

namespace ParticleSim.Binary64

open Float.Model Float.Model.UnpackedFloat

theorem roundedMantissa_le {em : ExtendedMantissa} {value : ℚ} {i : Nat} (holds : Holds em value)
    (above : value ≤ i) : em.roundedMantissa ≤ i := by
  rcases em with ⟨m, roundBit, stickyBit⟩
  cases roundBit <;> cases stickyBit <;>
    simp only [Holds, ExtendedMantissa.accuracy, Fits] at holds <;>
    simp only [ExtendedMantissa.roundedMantissa, ExtendedMantissa.accuracy,
      Accuracy.roundToNearestEven]
  · have : (m : ℚ) ≤ i := by linarith
    exact_mod_cast this
  · have : (m : ℚ) ≤ i := by linarith
    exact_mod_cast this
  · have : (m : ℚ) < i := by linarith
    have : m < i := by exact_mod_cast this
    omega
  · have : (m : ℚ) < i := by linarith
    exact_mod_cast this

theorem targetExponent_eq (n : Nat) (u : Int) :
    Format.binary64.targetExponent (totalExponent n u) =
      Max.max ((n.log2 : Int) + u - 52) (-1074) := by
  change Max.max ((n.log2 : Int) + 1 + u - 53) (-1074) = _
  congr 1
  omega

/-- Rounded, a value of so many units stays on the same side of every number. -/
structure Rounded (value significand : Nat) (exponent : Int) : Prop where
  normalized : Normalized significand exponent
  above : ∀ {m e}, Canonical m e → unitsOf m e ≤ value → unitsOf m e ≤ unitsOf significand exponent
  below : ∀ {m e}, Canonical m e → value ≤ unitsOf m e → unitsOf significand exponent ≤ unitsOf m e

section Rounding

variable {n m : Nat} {u t e : Int}

theorem floor_le (least : -1074 ≤ u) (fine : u ≤ t) :
    unitsOf (n / 2 ^ (t - u).toNat) t ≤ unitsOf n u := by
  rw [unitsOf_shift _ least fine, unitsOf_le_iff]
  exact Nat.div_mul_le_self n _

/-- What lies between the naturals around a value, at the exponent for the value, stays on the same
side of every number: a number with this exponent or a larger one is such a natural, and one with a
smaller exponent is below all of them. -/
theorem rounded_of_between (least : -1074 ≤ u) (fine : u ≤ t)
    (cut : Normalized (n / 2 ^ (t - u).toNat) t) (floor : n / 2 ^ (t - u).toNat ≤ m)
    (ceil : ∀ i, n ≤ i * 2 ^ (t - u).toNat → m ≤ i) (a : Nat) (b : Int)
    (canonical : Canonical a b) :
    (unitsOf a b ≤ unitsOf n u → unitsOf a b ≤ unitsOf m t) ∧
      (unitsOf n u ≤ unitsOf a b → unitsOf m t ≤ unitsOf a b) := by
  rcases lt_or_ge b t with smaller | larger
  · have below := unitsOf_lt canonical.normalized cut smaller
    have here : unitsOf (n / 2 ^ (t - u).toNat) t ≤ unitsOf m t := unitsOf_le_iff.mpr floor
    refine ⟨fun _ => below.le.trans here, fun reached => ?_⟩
    exact absurd ((floor_le least fine).trans reached) (Nat.not_le.mpr below)
  · rw [unitsOf_shift a cut.least larger, unitsOf_le_iff, unitsOf_le_iff,
      unitsOf_shift _ least fine, unitsOf_le_iff, unitsOf_le_iff]
    refine ⟨fun reached => ?_, ceil _⟩
    exact ((Nat.le_div_iff_mul_le (Nat.two_pow_pos _)).mpr reached).trans floor

theorem exists_rounded (positive : 0 < n) (least : -1074 ≤ u)
    (fine : u ≤ Format.binary64.targetExponent (totalExponent n u)) (sign : Sign) :
    ∃ (m : Nat) (e : Int) (rounded : Rounded (unitsOf n u) m e),
      roundWithAccuracy Format.binary64 sign n u .exact =
        .finite sign m e rounded.normalized.positive := by
  have target := targetExponent_eq n u
  generalize place : Format.binary64.targetExponent (totalExponent n u) = t at fine target
  have first : shiftToTargetExponent Format.binary64 n u .exact =
      (ExtendedMantissa.ofMantissaAndAccuracy n .exact >>> (t - u).toNat, t) := by
    rw [shiftToTargetExponent, place, shiftToExponent]
    congr 1
    omega
  have cut : Normalized (n / 2 ^ (t - u).toNat) t := by
    have leading := shift_leading positive (by omega) first
    rw [mantissa_shiftRight] at leading
    refine ⟨leading.1, leading.2.1, ?_, leading.2.2⟩
    by_cases bottom : t = -1074
    · exact .inr bottom
    · left
      rw [Nat.le_div_iff_mul_le (Nat.two_pow_pos _), ← Nat.pow_add,
        ← Nat.le_log2 positive.ne']
      omega
  have holds : Holds (ExtendedMantissa.ofMantissaAndAccuracy n .exact) n :=
    holds_start (by simp [Fits])
  have shifted := holds_shiftRight holds (t - u).toNat
  generalize result : (ExtendedMantissa.ofMantissaAndAccuracy n .exact >>> (t - u).toNat) = em
    at first shifted
  have floor : n / 2 ^ (t - u).toNat ≤ em.roundedMantissa := by
    rw [← result]
    have kept := mantissa_le_roundedMantissa
      (ExtendedMantissa.ofMantissaAndAccuracy n .exact >>> (t - u).toNat)
    rwa [mantissa_shiftRight] at kept
  have ceil : ∀ i, n ≤ i * 2 ^ (t - u).toNat → em.roundedMantissa ≤ i := by
    intro i reached
    refine roundedMantissa_le shifted ?_
    rw [div_le_iff₀ (by positivity)]
    exact_mod_cast reached
  have between := rounded_of_between least fine cut floor ceil
  have top : em.roundedMantissa ≤ 2 ^ 53 :=
    ceil _ ((Nat.div_lt_iff_lt_mul (Nat.two_pow_pos _)).mp cut.bounded).le
  rcases top.lt_or_eq with short | full
  · have normalized : Normalized em.roundedMantissa t :=
      ⟨cut.positive.trans_le floor, short, cut.normal.imp_left floor.trans', cut.least⟩
    exact ⟨_, t, ⟨normalized, (between _ _ · |>.1), (between _ _ · |>.2)⟩,
      roundWithAccuracy_of_shifts sign _ first (shift_identity normalized)⟩
  · -- the significand is one digit too long, and is shifted once more
    have carried : unitsOf em.roundedMantissa t = unitsOf (2 ^ 52) (t + 1) := by
      rw [full, unitsOf_shift (2 ^ 52) cut.least (by omega : t ≤ t + 1)]
      congr 1
      rw [add_sub_cancel_left]
      rfl
    have second := shift_overflow (e := t + 1) (by have := cut.least; omega)
    rw [add_sub_cancel_right, ← full] at second
    rw [carried] at between
    refine ⟨2 ^ 52, t + 1, ⟨⟨by decide, by decide, .inl le_rfl, by have := cut.least; omega⟩,
      (between _ _ · |>.1), (between _ _ · |>.2)⟩, roundWithAccuracy_of_shifts sign _ first second⟩

theorem log2_shift (positive : 0 < n) (count : Nat) :
    (n * 2 ^ count).log2 = n.log2 + count := by
  rw [Nat.log2_eq_iff (Nat.mul_pos positive (Nat.two_pow_pos _)).ne', Nat.pow_add,
    Nat.add_right_comm, Nat.pow_add]
  have unit := Nat.two_pow_pos count
  exact ⟨Nat.mul_le_mul_right _ (Nat.log2_self_le positive.ne'),
    Nat.mul_lt_mul_of_pos_right Nat.lt_log2_self unit⟩

theorem exists_round (positive : 0 < n) (least : -1074 ≤ u) (sign : Sign) :
    ∃ (m : Nat) (e : Int) (rounded : Rounded (unitsOf n u) m e),
      UnpackedFloat.round Format.binary64 sign n u =
        .finite sign m e rounded.normalized.positive := by
  have target := targetExponent_eq n u
  generalize place : Format.binary64.targetExponent (totalExponent n u) = t at target
  generalize counted : (u - t).toNat = count
  have more : 0 < n * 2 ^ count := Nat.mul_pos positive (Nat.two_pow_pos _)
  have same : unitsOf n u = unitsOf (n * 2 ^ count) (u - count) := by
    rw [unitsOf_shift n (by omega : -1074 ≤ u - count) (by omega), Int.sub_sub_self,
      Int.toNat_natCast]
  have fine := targetExponent_eq (n * 2 ^ count) (u - count)
  rw [log2_shift positive] at fine
  have rounds := exists_rounded (u := u - count) more (by omega) (by omega) sign
  rw [UnpackedFloat.round, place, decreaseExponent, counted, Nat.shiftLeft_eq, same]
  exact rounds

end Rounding

section Packing

variable {m : Nat} {e : Int} {x y z : Float}

/-- A rounded value is a number, or too large for one. -/
theorem unpack_pack (normalized : Normalized m e) (sign : Sign) :
    (Float.ofModel (.pack (.finite sign m e normalized.positive))).toModel.unpack =
      if e ≤ 971 then .finite sign m e normalized.positive else .infinity sign := by
  obtain ⟨negative, rfl⟩ : ∃ negative, sign = signOf negative := by
    cases sign
    · exact ⟨true, rfl⟩
    · exact ⟨false, rfl⟩
  by_cases greatest : e ≤ 971
  · rw [if_pos greatest]
    exact unpack_assemble (normalized.canonical greatest) negative
  · have packed : UnpackedFloat.pack Format.binary64
        (.finite (signOf negative) m e normalized.positive) =
          packedInfinity Format.binary64 (signOf negative) := by
      delta UnpackedFloat.pack
      refine if_pos ?_
      change 2 ^ 11 ≤ (e + 1023 + 52).toNat + 1
      omega
    rw [if_neg greatest]
    change UnpackedFloat.unpack Format.binary64
      (UnpackedFloat.pack Format.binary64 (.finite (signOf negative) m e normalized.positive)) = _
    rw [packed]
    cases negative <;> rfl

theorem unpack_pack_zero (sign : Sign) :
    (Float.ofModel (.pack (.zero sign))).toModel.unpack = .zero sign := by
  cases sign <;> rfl

theorem unpack_pack_infinity (sign : Sign) :
    (Float.ofModel (.pack (.infinity sign))).toModel.unpack = .infinity sign := by
  cases sign <;> rfl

theorem unpack_pack_canonical (canonical : Canonical m e) (sign : Sign) :
    (Float.ofModel (.pack (.finite sign m e canonical.positive))).toModel.unpack =
      .finite sign m e canonical.positive := by
  rw [unpack_pack canonical.normalized, if_pos canonical.greatest]

theorem le_infinity (finite : z.isFinite = true) (top : x.toModel.unpack = .infinity .positive) :
    z ≤ x := by
  rw [le_iff, top]
  rcases finite_cases finite with ⟨s, same⟩ | ⟨s, m, e, positive, same⟩
  · rw [same]
    rfl
  · rw [same]
    cases s <;> rfl

theorem le_of_zero {s : Sign} (finite : z.isFinite = true) (zero : x.toModel.unpack = .zero s)
    (below : units z ≤ 0) : z ≤ x := by
  have number : x.isFinite = true := by
    rw [isFinite_eq, zero]
    rfl
  rwa [le_iff_units finite number, units_of_zero zero]

theorem le_of_finite {s : Sign} {positive : 0 < m} (finite : z.isFinite = true)
    (same : x.toModel.unpack = .finite s m e positive) (below : units z ≤ s.apply (unitsOf m e)) :
    z ≤ x := by
  have number : x.isFinite = true := by
    rw [isFinite_eq, same]
    rfl
  rwa [le_iff_units finite number, (units_of_finite same).2]

theorem le_pack {n : Nat} (finite : z.isFinite = true) (rounded : Rounded n m e) (nonzero : 0 < n)
    {sign : Sign} (below : units z ≤ sign.apply n) :
    z ≤ Float.ofModel (.pack (.finite sign m e rounded.normalized.positive)) := by
  have packed := unpack_pack rounded.normalized sign
  rcases finite_cases finite with ⟨s, same⟩ | ⟨s, a, b, positive, same⟩
  · rw [units_of_zero same] at below
    cases sign with
    | negative => simp only [Sign.apply] at below; omega
    | positive =>
      by_cases greatest : e ≤ 971
      · rw [if_pos greatest] at packed
        refine le_of_finite finite packed ?_
        rw [units_of_zero same]
        exact Int.natCast_nonneg _
      · rw [if_neg greatest] at packed
        exact le_infinity finite packed
  · rcases units_of_finite same with ⟨canonical, count⟩
    have above := rounded.above canonical
    have within := rounded.below canonical
    by_cases greatest : e ≤ 971
    · rw [if_pos greatest] at packed
      refine le_of_finite finite packed ?_
      rw [count] at below ⊢
      cases s <;> cases sign <;> simp only [Sign.apply] at below ⊢ <;> omega
    · rw [if_neg greatest] at packed
      cases sign with
      | positive => exact le_infinity finite packed
      | negative =>
        -- what is rounded to minus infinity is below all numbers
        have beyond : unitsOf a b < unitsOf m e :=
          unitsOf_lt canonical.normalized rounded.normalized (by have := canonical.greatest; omega)
        rw [count] at below
        cases s <;> simp only [Sign.apply] at below <;> omega

theorem le_round {n : Nat} {u : Int} (finite : z.isFinite = true) (nonzero : 0 < n)
    (least : -1074 ≤ u) {sign : Sign} (below : units z ≤ sign.apply (unitsOf n u)) :
    z ≤ Float.ofModel (.pack (UnpackedFloat.round Format.binary64 sign n u)) := by
  rcases exists_round nonzero least sign with ⟨m, e, rounded, same⟩
  rw [same]
  exact le_pack finite rounded (unitsOf_pos nonzero) below

theorem le_normalize {n : Int} {u : Int} (finite : z.isFinite = true) (least : -1074 ≤ u)
    (below : units z ≤ n * 2 ^ (u + 1074).toNat) :
    z ≤ Float.ofModel (.pack (UnpackedFloat.normalize Format.binary64 n u .positive)) := by
  rw [UnpackedFloat.normalize.eq_1]
  rcases lt_trichotomy n 0 with negative | rfl | positive
  · rw [compare_lt_iff_lt.mpr negative]
    refine le_round finite (by omega) least (below.trans_eq ?_)
    rw [Sign.apply, unitsOf, Nat.cast_mul, Int.toNat_of_nonneg (by omega), Nat.cast_pow]
    ring
  · rw [zero_mul] at below
    rw [compare_eq_iff_eq.mpr rfl]
    exact le_of_zero finite (unpack_pack_zero .positive) below
  · rw [compare_gt_iff_gt.mpr positive]
    refine le_round finite (by omega) least (below.trans_eq ?_)
    rw [Sign.apply, unitsOf, Nat.cast_mul, Int.toNat_of_nonneg (by omega), Nat.cast_pow]
    rfl

end Packing

section Sums

variable {x y z : Float}

theorem apply_shift (s : Sign) (m : Nat) {u e : Int} (least : -1074 ≤ u) (finer : u ≤ e) :
    s.apply (unitsOf m e) = s.apply (m <<< (e - u).toNat : Nat) * 2 ^ (u + 1074).toNat := by
  rw [unitsOf_shift m least finer, unitsOf, Nat.shiftLeft_eq]
  cases s
  · simp only [Sign.apply, Nat.cast_mul, Nat.cast_pow, Nat.cast_ofNat, Int.neg_mul]
  · simp only [Sign.apply, Nat.cast_mul, Nat.cast_pow, Nat.cast_ofNat]

/-- A number that is not above the exact sum of two is not above their sum. -/
theorem le_add (left : x.isFinite = true) (right : y.isFinite = true) (finite : z.isFinite = true)
    (below : units z ≤ units x + units y) : z ≤ x + y := by
  change z ≤ Float.ofModel
    (.pack (UnpackedFloat.add Format.binary64 x.toModel.unpack y.toModel.unpack))
  rcases finite_cases left with ⟨s, same⟩ | ⟨s, m, e, positive, same⟩
  · rcases finite_cases right with ⟨t, same'⟩ | ⟨t, m', e', positive', same'⟩
    · obtain ⟨r, zero⟩ : ∃ r, UnpackedFloat.add Format.binary64 (.zero s) (.zero t) = .zero r := by
        cases s <;> cases t <;> exact ⟨_, rfl⟩
      rw [units_of_zero same, units_of_zero same'] at below
      rw [same, same', zero]
      exact le_of_zero finite (unpack_pack_zero r) below
    · rcases units_of_finite same' with ⟨canonical, count⟩
      rw [units_of_zero same, zero_add, count] at below
      rw [same, same']
      exact le_of_finite finite (unpack_pack_canonical canonical t) below
  · rcases units_of_finite same with ⟨canonical, count⟩
    rcases finite_cases right with ⟨t, same'⟩ | ⟨t, m', e', positive', same'⟩
    · rw [units_of_zero same', add_zero, count] at below
      rw [same, same']
      exact le_of_finite finite (unpack_pack_canonical canonical s) below
    · rcases units_of_finite same' with ⟨canonical', count'⟩
      have least : -1074 ≤ min e e' := le_min canonical.least canonical'.least
      rw [same, same']
      refine le_normalize finite least (below.trans_eq ?_)
      rw [count, count', apply_shift s m least (min_le_left ..),
        apply_shift t m' least (min_le_right ..), ← Int.add_mul]

theorem isNaN_normalize (n e : Int) :
    (UnpackedFloat.normalize Format.binary64 n e .positive).isNaN = false := by
  rw [UnpackedFloat.normalize.eq_1]
  cases compare n 0 with
  | lt => exact isNaN_roundWithAccuracy ..
  | eq => rfl
  | gt => exact isNaN_roundWithAccuracy ..

theorem isNaN_add_of_finite {a b : UnpackedFloat} (number : a.isNaN = false)
    (finite : b.isFinite = true) : (UnpackedFloat.add Format.binary64 a b).isNaN = false := by
  cases a with
  | notANumber => cases number
  | infinity s =>
    cases b with
    | infinity t => cases finite
    | notANumber => cases finite
    | _ => rfl
  | zero s =>
    cases b with
    | infinity t => cases finite
    | notANumber => cases finite
    | zero t => cases s <;> cases t <;> rfl
    | finite t m e positive => rfl
  | finite s m e positive =>
    cases b with
    | infinity t => cases finite
    | notANumber => cases finite
    | zero t => rfl
    | finite t m e positive => exact isNaN_normalize _ _

theorem sub_eq_add_neg (a b : UnpackedFloat) :
    UnpackedFloat.sub Format.binary64 a b = UnpackedFloat.add Format.binary64 a b.neg := by
  cases a with
  | finite s m e positive =>
    cases b with
    | finite t n d positive' =>
      have sign : (-t).apply (n <<< (d - min e d).toNat : Nat) =
          -t.apply (n <<< (d - min e d).toNat : Nat) := by
        cases t
        · exact (Int.neg_neg _).symm
        · rfl
      change UnpackedFloat.normalize _ (s.apply _ - t.apply _) _ _ =
        UnpackedFloat.normalize _ (s.apply _ + (-t).apply _) _ _
      rw [Int.sub_eq_add_neg]
      exact congrArg (fun n => UnpackedFloat.normalize _ (_ + n) _ _) sign.symm
    | _ => rfl
  | _ => cases b <;> rfl

theorem isNaN_add (number : x.isNaN = false) (finite : y.isFinite = true) :
    (x + y).isNaN = false :=
  isNaN_pack (isNaN_add_of_finite number finite)

theorem isNaN_sub (number : x.isNaN = false) (finite : y.isFinite = true) :
    (x - y).isNaN = false := by
  apply isNaN_pack (u := UnpackedFloat.sub Format.binary64 x.toModel.unpack y.toModel.unpack)
  rw [sub_eq_add_neg]
  refine isNaN_add_of_finite number ?_
  rw [isFinite_eq] at finite
  cases same : y.toModel.unpack <;> rw [same] at finite <;> first | rfl | cases finite

theorem isNaN_add_nan (missing : y.isNaN = true) : (x + y).isNaN = true := by
  have none : (nan : Float).toModel.unpack = .notANumber := rfl
  have sum : UnpackedFloat.add Format.binary64 x.toModel.unpack nan.toModel.unpack =
      .notANumber := by
    rw [none]
    cases x.toModel.unpack <;> rfl
  rw [eq_nan missing]
  change (Float.ofModel
    (.pack (UnpackedFloat.add Format.binary64 x.toModel.unpack nan.toModel.unpack))).isNaN = true
  rw [sum]
  rfl

theorem isNaN_nan_add (missing : x.isNaN = true) : (x + y).isNaN = true := by
  have sum : UnpackedFloat.add Format.binary64 .notANumber y.toModel.unpack = .notANumber := by
    cases y.toModel.unpack <;> rfl
  rw [eq_nan missing]
  change (Float.ofModel (.pack (UnpackedFloat.add Format.binary64 .notANumber
    y.toModel.unpack))).isNaN = true
  rw [sum]
  rfl

/-- What is not negative and not finite is infinite. -/
theorem unpack_of_nonneg (nonneg : 0.0 ≤ y) (large : y.isFinite = false) :
    y.toModel.unpack = .infinity .positive := by
  rw [le_iff, unpack_origin] at nonneg
  rw [isFinite_eq] at large
  cases same : y.toModel.unpack with
  | infinity s =>
    rw [same] at nonneg
    cases s
    · cases nonneg
    · rfl
  | notANumber =>
    rw [same] at nonneg
    cases nonneg
  | zero s =>
    rw [same] at large
    cases large
  | finite s m e positive =>
    rw [same] at large
    cases large

theorem le_add_infinity (finite : x.isFinite = true) (number : z.isFinite = true)
    (top : y.toModel.unpack = .infinity .positive) : z ≤ x + y := by
  have sum : UnpackedFloat.add Format.binary64 x.toModel.unpack y.toModel.unpack =
      .infinity .positive := by
    rw [top]
    rcases finite_cases finite with ⟨s, same⟩ | ⟨s, m, e, positive, same⟩ <;> rw [same] <;> rfl
  change z ≤ Float.ofModel
    (.pack (UnpackedFloat.add Format.binary64 x.toModel.unpack y.toModel.unpack))
  rw [sum]
  exact le_infinity number (unpack_pack_infinity .positive)

theorem le_add_of_nonneg (finite : x.isFinite = true) (nonneg : 0.0 ≤ y) : x ≤ x + y := by
  cases number : y.isFinite with
  | true =>
    rw [le_iff_units isFinite_origin number, units_of_zero unpack_origin] at nonneg
    exact le_add finite number finite (by omega)
  | false => exact le_add_infinity finite finite (unpack_of_nonneg nonneg number)

theorem add_beq_of_zero {t : Sign} (number : x.isNaN = false)
    (zero : y.toModel.unpack = .zero t) : (x + y == x) = true := by
  have sum : (x + y).toModel.unpack = (Float.ofModel (.pack (UnpackedFloat.add Format.binary64
      x.toModel.unpack (.zero t)))).toModel.unpack := by
    rw [← zero]
    rfl
  rw [beq_iff, sum]
  cases same : x.toModel.unpack with
  | notANumber =>
    have missing : x.toModel.unpack.isNaN = false := number
    rw [same] at missing
    cases missing
  | infinity s =>
    have packed := unpack_pack_infinity s
    exact compare_eq_iff.mpr (.inl ⟨packed, congrArg UnpackedFloat.isNaN packed⟩)
  | zero s =>
    have zeros : ∃ r, UnpackedFloat.add Format.binary64 (.zero s) (.zero t) = .zero r := by
      cases s <;> cases t <;> exact ⟨_, rfl⟩
    rcases zeros with ⟨r, zeros⟩
    rw [zeros, unpack_pack_zero]
    rfl
  | finite s m e positive =>
    have packed := unpack_pack_canonical (units_of_finite same).1 s
    exact compare_eq_iff.mpr (.inl ⟨packed, congrArg UnpackedFloat.isNaN packed⟩)

theorem add_zero_beq (number : x.isNaN = false) : (x + 0.0 == x) = true :=
  add_beq_of_zero number unpack_origin

end Sums

end ParticleSim.Binary64
