import ParticleSim.Proofs.Number.Literal

namespace ParticleSim.Binary64

open Float.Model Float.Model.UnpackedFloat

theorem compare_swap (a b : UnpackedFloat) : b.compare a = (a.compare b).map Ordering.swap := by
  have sign : ∀ s t : Sign, compare t s = (compare s t).swap := by
    intro s t
    cases s <;> cases t <;> rfl
  have parts : ∀ (e₁ e₂ : Int) (m₁ m₂ : Nat), (compare e₂ e₁).then (compare m₂ m₁) =
      ((compare e₁ e₂).then (compare m₁ m₂)).swap := by
    intro e₁ e₂ m₁ m₂
    rw [Ordering.swap_then, Std.OrientedOrd.eq_swap (a := e₂), Std.OrientedOrd.eq_swap (a := m₂)]
  cases a with
  | notANumber => cases b <;> rfl
  | infinity s =>
    cases b with
    | infinity t => exact congrArg some (sign s t)
    | _ => cases s <;> rfl
  | zero s =>
    cases b with
    | infinity t => cases t <;> rfl
    | finite t => cases t <;> rfl
    | _ => rfl
  | finite s m e positive =>
    cases b with
    | notANumber => rfl
    | infinity t => cases s <;> cases t <;> rfl
    | zero t => cases s <;> rfl
    | finite t m' e' positive' =>
      cases s <;> cases t
      · exact congrArg (fun order => some (Ordering.swap order)) (parts e e' m m')
      · rfl
      · rfl
      · exact congrArg some (parts e e' m m')

theorem compare_isSome {a b : UnpackedFloat} (left : a.isNaN = false) (right : b.isNaN = false) :
    (a.compare b).isSome = true := by
  cases a with
  | notANumber => cases left
  | infinity s =>
    cases b with
    | notANumber => cases right
    | _ => cases s <;> rfl
  | zero s =>
    cases b with
    | notANumber => cases right
    | infinity t => cases t <;> rfl
    | finite t => cases t <;> rfl
    | zero t => rfl
  | finite s m e positive =>
    cases b with
    | notANumber => cases right
    | infinity t => cases s <;> cases t <;> rfl
    | zero t => cases s <;> rfl
    | finite t => cases s <;> cases t <;> rfl

theorem lt_iff (x y : Float) : x < y ↔ x.toModel.unpack.compare y.toModel.unpack = some .lt := by
  change decide ((x.toModel.unpack.compare y.toModel.unpack == some .lt) = true) = true ↔ _
  rw [decide_eq_true_iff, beq_iff_eq]

theorem le_iff (x y : Float) :
    x ≤ y ↔ (x.toModel.unpack.compare y.toModel.unpack).any (·.isLE) = true := by
  change decide ((x.toModel.unpack.compare y.toModel.unpack).any (·.isLE) = true) = true ↔ _
  rw [decide_eq_true_iff]

theorem not_lt_iff {x y : Float} (left : x.isNaN = false) (right : y.isNaN = false) :
    ¬x < y ↔ y ≤ x := by
  have ordered := compare_isSome (a := x.toModel.unpack) (b := y.toModel.unpack) left right
  rcases Option.isSome_iff_exists.mp ordered with ⟨order, same⟩
  rw [lt_iff, le_iff, compare_swap x.toModel.unpack, same]
  cases order <;> decide

theorem not_le_iff {x y : Float} (left : x.isNaN = false) (right : y.isNaN = false) :
    ¬x ≤ y ↔ y < x := by
  rw [← not_lt_iff right left, not_not]

/-- Numbers in one order are not in the other, NaN or not. -/
theorem not_lt_of_le {x y : Float} (le : y ≤ x) : ¬x < y := by
  rw [le_iff, compare_swap] at le
  rw [lt_iff]
  intro less
  rw [less] at le
  cases le

theorem le_of_lt {x y : Float} (less : x < y) : x ≤ y := by
  rw [lt_iff] at less
  rw [le_iff, less]
  rfl

theorem lt_irrefl (x : Float) : ¬x < x :=
  fun less => not_lt_of_le (le_of_lt less) less

theorem lt_asymm {x y : Float} (less : x < y) : ¬y < x :=
  not_lt_of_le (le_of_lt less)

theorem isNaN_of_le {x y : Float} (le : x ≤ y) : x.isNaN = false ∧ y.isNaN = false := by
  rw [le_iff] at le
  constructor
  · cases same : x.toModel.unpack with
    | notANumber =>
      rw [same] at le
      cases le
    | _ => exact congrArg UnpackedFloat.isNaN same
  · cases same : y.toModel.unpack with
    | notANumber =>
      rw [same] at le
      cases other : x.toModel.unpack <;> rw [other] at le <;> cases le
    | _ => exact congrArg UnpackedFloat.isNaN same

theorem isNaN_dite {condition : Prop} [Decidable condition] {a : condition → UnpackedFloat}
    {b : ¬condition → UnpackedFloat} (left : ∀ holds, (a holds).isNaN = false)
    (right : ∀ fails, (b fails).isNaN = false) : (dite condition a b).isNaN = false := by
  by_cases holds : condition
  · rw [dif_pos holds, left]
  · rw [dif_neg holds, right]

theorem isNaN_pack {u : UnpackedFloat} (number : u.isNaN = false) :
    (Float.ofModel (.pack u)).isNaN = false := by
  change (UnpackedFloat.unpack Format.binary64 (UnpackedFloat.pack Format.binary64 u)).isNaN = false
  have infinite : unpackExponent (UnpackedFloat.pack Format.binary64 u) = (-1#_) →
      unpackMantissa (UnpackedFloat.pack Format.binary64 u) = 0#_ := by
    fun_cases UnpackedFloat.pack with
    | case1 => cases number
    | case2 s => intro _; exact unpackMantissa_packComponents
    | case3 s => intro _; exact unpackMantissa_packComponents
    | case4 s m e positive biased large => intro _; exact unpackMantissa_packComponents
    | case5 s m e positive size biased small normal =>
      intro top
      rw [unpackExponent_packComponents] at top
      have field := congrArg BitVec.toNat top
      rw [BitVec.toNat_ofNat] at field
      change _ % 2 ^ 11 = 2047 at field
      change ¬2 ^ 11 ≤ _ + 1 at small
      omega
    | case6 s m e positive size biased small subnormal =>
      intro top
      rw [unpackExponent_packComponents] at top
      exact absurd top (by decide)
  delta UnpackedFloat.unpack
  dsimp only
  by_cases top : unpackExponent (UnpackedFloat.pack Format.binary64 u) = (-1#_)
  · rw [if_pos top, if_pos (infinite top)]
    rfl
  · rw [if_neg top]
    by_cases bottom : unpackExponent (UnpackedFloat.pack Format.binary64 u) = 0#_
    · rw [if_pos bottom]
      exact isNaN_dite (fun _ => rfl) (fun _ => rfl)
    · rw [if_neg bottom]
      rfl

theorem isNaN_roundWithAccuracy (sign : Sign) (m : Nat) (e : Int) (accuracy : Accuracy) :
    (roundWithAccuracy Format.binary64 sign m e accuracy).isNaN = false :=
  isNaN_dite (fun _ => rfl) (fun _ => rfl)

theorem isNaN_mul_finite {s t : Sign} {m n : Nat} {d e : Int} (positive : 0 < m)
    (positive' : 0 < n) : (UnpackedFloat.mul Format.binary64 (.finite s m d positive)
      (.finite t n e positive')).isNaN = false :=
  isNaN_roundWithAccuracy _ _ _ _

theorem isNaN_neg {x : Float} (number : x.isNaN = false) : (-x).isNaN = false := by
  have parts : x.toModel.unpack.isNaN = false := number
  apply isNaN_pack (u := x.toModel.unpack.neg)
  cases unpacked : x.toModel.unpack with
  | notANumber =>
    rw [unpacked] at parts
    cases parts
  | _ => rfl

theorem isNaN_ofNat (n : Nat) : (Float.ofNat n).isNaN = false := by
  change (Float.ofScientific n false 0).isNaN = false
  rw [Float.ofScientific]
  split
  · next small =>
    obtain ⟨p, q, positive, -, one⟩ :=
      unpack_power (k := 0) (show 0 < Float.exactlyRepresentablePowersOfTen.size by decide)
    refine isNaN_pack (u := UnpackedFloat.mul _ n.toUInt64.toFloat.toModel.unpack
      Float.exactlyRepresentablePowersOfTen[0].toModel.unpack) ?_
    rw [one]
    rcases Nat.eq_zero_or_pos n with rfl | nonzero
    · have zero : (0 : Nat).toUInt64.toFloat.toModel.unpack = .zero .positive :=
        unpack_zero (x := (0 : Nat).toUInt64.toFloat) (by decide) (by decide)
      rw [zero]
      rfl
    · rcases unpack_natural nonzero small.1 with ⟨m, e, canonical, -, -, same⟩
      rw [same, isNaN_mul_finite]
  · apply isNaN_pack (u := UnpackedFloat.ofScientific Format.binary64 n 0)
    rw [UnpackedFloat.ofScientific]
    by_cases zero : n = 0
    · rw [dif_pos zero]
      rfl
    · have range : (0 : Int) < 2 ^ Format.binary64.exponentBits := by positivity
      rw [dif_neg zero, if_neg (by omega), if_neg (by omega), if_pos (le_refl 0),
        isNaN_mul_finite]

theorem isNaN_ofInt64 (n : Int64) : (ofInt64 n).isNaN = false := by
  rw [ofInt64]
  cases n.toInt with
  | ofNat n => exact isNaN_ofNat n
  | negSucc n => exact isNaN_neg (isNaN_ofNat (n + 1))

end ParticleSim.Binary64
