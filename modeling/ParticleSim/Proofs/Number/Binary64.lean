import Mathlib.Tactic
import ParticleSim.Number.Literal

namespace ParticleSim.Binary64
open Float.Model Float.Model.UnpackedFloat

/-- Numbers with the same bits are the same: there is only one NaN. -/
theorem ext_bits {x y : Float} (same : x.toBits.toNat = y.toBits.toNat) : x = y := by
  rcases x with ⟨⟨bits, valid⟩⟩
  rcases y with ⟨⟨bits', valid'⟩⟩
  have : bits = bits' := UInt64.toNat_inj.mp same
  subst this
  rfl

abbrev word (x : Float) : BitVec Format.binary64.numBits := x.toBits.toBitVec

def field (x : Float) : Nat := x.toBits.toNat / 2 ^ 52 % 2 ^ 11

def fraction (x : Float) : Nat := x.toBits.toNat % 2 ^ 52

def signOf (negative : Bool) : Sign := if negative then .negative else .positive

theorem toNat_exponent (b : BitVec Format.binary64.numBits) :
    (unpackExponent b).toNat = b.toNat / 2 ^ 52 % 2 ^ 11 := by
  simp [unpackExponent, Nat.shiftRight_eq_div_pow]

theorem toNat_mantissa (b : BitVec Format.binary64.numBits) :
    (unpackMantissa b).toNat = b.toNat % 2 ^ 52 := by
  simp [unpackMantissa]

theorem toNat_sign (b : BitVec Format.binary64.numBits) :
    (unpackSign b).toNat = b.toNat / 2 ^ 63 := by
  have below : b.toNat < 2 ^ 64 := b.isLt
  delta unpackSign
  simp only [BitVec.toNat_cast, BitVec.extractLsb_toNat, Nat.shiftRight_eq_div_pow]
  norm_num
  omega

theorem toNat_packComponents (sign : Sign) (exponent : BitVec 11) (mantissa : BitVec 52) :
    (packComponents Format.binary64 sign exponent mantissa).toNat =
      sign.toBitVec.toNat * 2 ^ 63 + exponent.toNat * 2 ^ 52 + mantissa.toNat := by
  change (sign.toBitVec ++ exponent ++ mantissa).toNat = _
  rw [BitVec.toNat_append, BitVec.toNat_append, ← Nat.shiftLeft_add_eq_or_of_lt mantissa.isLt,
    ← Nat.shiftLeft_add_eq_or_of_lt exponent.isLt, Nat.shiftLeft_eq, Nat.shiftLeft_eq]
  ring

theorem sign_word (x : Float) : Sign.ofBitVec (unpackSign (word x)) = signOf (isNegative x) := by
  have bits : (unpackSign (word x)).toNat = x.toBits.toNat / 2 ^ 63 := toNat_sign _
  have below := x.toBits.toNat_lt
  have cases : x.toBits.toNat / 2 ^ 63 = 0 ∨ x.toBits.toNat / 2 ^ 63 = 1 := by omega
  rcases cases with positive | negative
  · have : unpackSign (word x) = 0#1 := BitVec.eq_of_toNat_eq (by rw [bits, positive]; rfl)
    rw [this, isNegative, positive]
    rfl
  · have : unpackSign (word x) = 1#1 := BitVec.eq_of_toNat_eq (by rw [bits, negative]; rfl)
    rw [this, isNegative, negative]
    rfl

theorem exponent_word (x : Float) : (unpackExponent (word x)).toNat = field x := toNat_exponent _

theorem mantissa_word (x : Float) : (unpackMantissa (word x)).toNat = fraction x :=
  toNat_mantissa _

theorem unpack_word (x : Float) :
    x.toModel.unpack = UnpackedFloat.unpack Format.binary64 (word x) := rfl

theorem exact_significand (x : Float) :
    (exact x).significand = if field x = 0 then fraction x else fraction x + 2 ^ 52 := by
  unfold exact field fraction
  simp only
  split <;> rfl

theorem exact_exponent (x : Float) :
    (exact x).exponent = if field x = 0 then -1074 else (field x : Int) - 1075 := by
  unfold exact field
  simp only
  split <;> rfl

theorem exact_negative (x : Float) : (exact x).negative = isNegative x := by
  unfold exact
  simp only
  split <;> rfl

theorem unpack_infinity {x : Float} (top : field x = 2047) (zero : fraction x = 0) :
    x.toModel.unpack = .infinity (signOf (isNegative x)) := by
  have exponent : unpackExponent (word x) = (-1#_) :=
    BitVec.eq_of_toNat_eq (by rw [exponent_word, top]; rfl)
  have mantissa : unpackMantissa (word x) = 0#_ :=
    BitVec.eq_of_toNat_eq (by rw [mantissa_word, zero]; rfl)
  rw [unpack_word]
  delta UnpackedFloat.unpack
  simp [exponent, mantissa, sign_word]

theorem unpack_nan {x : Float} (top : field x = 2047) (nonzero : fraction x ≠ 0) :
    x.toModel.unpack = .notANumber := by
  have exponent : unpackExponent (word x) = (-1#_) :=
    BitVec.eq_of_toNat_eq (by rw [exponent_word, top]; rfl)
  have mantissa : unpackMantissa (word x) ≠ 0#_ := by
    intro zero
    exact nonzero (by rw [← mantissa_word, zero]; rfl)
  rw [unpack_word]
  delta UnpackedFloat.unpack
  simp [exponent, mantissa]

theorem unpack_zero {x : Float} (bottom : field x = 0) (zero : fraction x = 0) :
    x.toModel.unpack = .zero (signOf (isNegative x)) := by
  have exponent : unpackExponent (word x) = 0#_ :=
    BitVec.eq_of_toNat_eq (by rw [exponent_word, bottom]; rfl)
  have mantissa : unpackMantissa (word x) = 0#_ :=
    BitVec.eq_of_toNat_eq (by rw [mantissa_word, zero]; rfl)
  rw [unpack_word]
  delta UnpackedFloat.unpack
  simp [exponent, mantissa, sign_word]

theorem unpack_origin : (0.0 : Float).toModel.unpack = .zero .positive :=
  unpack_zero (by decide) (by decide)

theorem finite_congr {sign sign' : Sign} {m m' : Nat} {e e' : Int} {h : 0 < m} {h' : 0 < m'}
    (signs : sign = sign') (significands : m = m') (exponents : e = e') :
    UnpackedFloat.finite sign m e h = .finite sign' m' e' h' := by
  subst signs significands exponents
  rfl

theorem unpack_finite {x : Float} (below : field x ≠ 2047)
    (positive : 0 < (exact x).significand) : x.toModel.unpack =
      .finite (signOf (isNegative x)) (exact x).significand (exact x).exponent positive := by
  have exponent : unpackExponent (word x) ≠ (-1#_) := by
    intro top
    exact below (by rw [← exponent_word, top]; rfl)
  have power := exact_exponent x
  have value := exact_significand x
  by_cases bottom : field x = 0
  · have zero : unpackExponent (word x) = 0#_ :=
      BitVec.eq_of_toNat_eq (by rw [exponent_word, bottom]; rfl)
    rw [if_pos bottom] at power value
    have mantissa : unpackMantissa (word x) ≠ 0#_ := by
      intro empty
      rw [value, ← mantissa_word, empty] at positive
      exact absurd positive (by decide)
    rw [unpack_word]
    delta UnpackedFloat.unpack
    dsimp only
    rw [if_neg exponent, if_pos zero, dif_neg mantissa]
    refine finite_congr (sign_word x) ?_ ?_
    · rw [mantissa_word, value]
    · rw [exponent_word, bottom, power]
      rfl
  · have nonzero : unpackExponent (word x) ≠ 0#_ := by
      intro zero
      exact bottom (by rw [← exponent_word, zero]; rfl)
    rw [if_neg bottom] at power value
    rw [unpack_word]
    delta UnpackedFloat.unpack
    dsimp only
    rw [if_neg exponent, if_neg nonzero]
    refine finite_congr (sign_word x) ?_ ?_
    · rw [BitVec.toNat_append, ← Nat.shiftLeft_add_eq_or_of_lt (unpackMantissa (word x)).isLt,
        mantissa_word, value]
      rw [Nat.shiftLeft_eq, Nat.add_comm]
      rfl
    · rw [exponent_word, power]
      rfl

structure Canonical (significand : Nat) (exponent : Int) : Prop where
  positive : 0 < significand
  bounded : significand < 2 ^ 53
  normal : 2 ^ 52 ≤ significand ∨ exponent = -1074
  least : -1074 ≤ exponent
  greatest : exponent ≤ 971

theorem exact_canonical {x : Float} (below : field x ≠ 2047)
    (positive : 0 < (exact x).significand) :
    Canonical (exact x).significand (exact x).exponent := by
  have value := exact_significand x
  have power := exact_exponent x
  have small : fraction x < 2 ^ 52 := Nat.mod_lt _ (by decide)
  have limit : field x < 2 ^ 11 := Nat.mod_lt _ (by decide)
  by_cases bottom : field x = 0
  · rw [if_pos bottom] at value power
    exact ⟨positive, by omega, by omega, by omega, by omega⟩
  · rw [if_neg bottom] at value power
    exact ⟨positive, by omega, by omega, by omega, by omega⟩

theorem toNat_pack_finite {m : Nat} {e : Int} (canonical : Canonical m e) (sign : Sign)
    (h : 0 < m) : (UnpackedFloat.pack Format.binary64 (.finite sign m e h)).toNat =
      sign.toBitVec.toNat * 2 ^ 63 + ((e + 1074).toNat * 2 ^ 52 + m) := by
  rcases canonical with ⟨_, bounded, normal, least, greatest⟩
  have finite : ¬ 2 ^ Format.binary64.exponentBits ≤ (e + Format.binary64.exponentBias +
      Format.binary64.mantissaBitsWithoutImplicit).toNat + 1 := by
    change ¬ 2 ^ 11 ≤ (e + 1023 + 52).toNat + 1
    omega
  delta UnpackedFloat.pack
  simp only [if_neg finite]
  by_cases large : 2 ^ 52 ≤ m
  · have leading : m.log2 + 1 = Format.binary64.mantissaBits := by
      rw [(Nat.log2_eq_iff (by omega)).mpr ⟨large, bounded⟩]
      rfl
    rw [if_pos leading, toNat_packComponents, BitVec.toNat_ofNat, BitVec.toNat_ofNat]
    change _ + (e + 1023 + 52).toNat % 2 ^ 11 * 2 ^ 52 + m % 2 ^ 52 = _
    omega
  · have leading : m.log2 + 1 ≠ Format.binary64.mantissaBits := by
      have : m.log2 < 52 := (Nat.log2_lt (by omega)).mpr (by omega)
      change m.log2 + 1 ≠ 53
      omega
    rw [if_neg leading, toNat_packComponents, BitVec.toNat_ofNat]
    change _ + 0 * 2 ^ 52 + m % 2 ^ 52 = _
    omega

theorem toBits_parts (x : Float) : x.toBits.toNat =
    (signOf (isNegative x)).toBitVec.toNat * 2 ^ 63 + (field x * 2 ^ 52 + fraction x) := by
  have below := x.toBits.toNat_lt
  unfold isNegative field fraction signOf
  by_cases negative : x.toBits.toNat / 2 ^ 63 = 1
  · simp only [negative, beq_self_eq_true, ↓reduceIte, Sign.toBitVec]
    change _ = 1 * 2 ^ 63 + _
    omega
  · simp only [beq_iff_eq, negative, ↓reduceIte, Sign.toBitVec]
    change _ = 0 * 2 ^ 63 + _
    omega

def assemble (negative : Bool) (significand : Nat) (exponent : Int) (positive : 0 < significand) :
    Float :=
  .ofModel (.pack (.finite (signOf negative) significand exponent positive))

theorem toNat_assemble {m : Nat} {e : Int} (canonical : Canonical m e) (negative : Bool) :
    (assemble negative m e canonical.positive).toBits.toNat =
      (if negative then 2 ^ 63 else 0) + ((e + 1074).toNat * 2 ^ 52 + m) := by
  have packed := toNat_pack_finite canonical (signOf negative) canonical.positive
  apply packed.trans
  cases negative <;> rfl

/-- A finite number other than zero is assembled from its exact value. -/
theorem assemble_exact {x : Float} (below : field x ≠ 2047) (positive : 0 < (exact x).significand) :
    assemble (isNegative x) (exact x).significand (exact x).exponent positive = x := by
  apply ext_bits
  rw [toNat_assemble (exact_canonical below positive), toBits_parts x]
  have value := exact_significand x
  have power := exact_exponent x
  by_cases bottom : field x = 0
  · rw [if_pos bottom] at value power
    rw [value, power, bottom]
    cases isNegative x <;> rfl
  · rw [if_neg bottom] at value power
    rw [value, power]
    cases isNegative x <;> simp [signOf, Sign.toBitVec] <;> omega

theorem field_assemble {m : Nat} {e : Int} (canonical : Canonical m e) (negative : Bool) :
    field (assemble negative m e canonical.positive) =
      if m < 2 ^ 52 then 0 else (e + 1075).toNat := by
  rcases canonical with ⟨positive, bounded, normal, least, greatest⟩
  rw [field, toNat_assemble ⟨positive, bounded, normal, least, greatest⟩]
  cases negative <;> simp only [↓reduceIte, Bool.false_eq_true] <;> split <;> omega

theorem fraction_assemble {m : Nat} {e : Int} (canonical : Canonical m e) (negative : Bool) :
    fraction (assemble negative m e canonical.positive) = m % 2 ^ 52 := by
  rw [fraction, toNat_assemble canonical]
  cases negative <;> simp only [↓reduceIte, Bool.false_eq_true] <;> omega

theorem isNegative_assemble {m : Nat} {e : Int} (canonical : Canonical m e) (negative : Bool) :
    isNegative (assemble negative m e canonical.positive) = negative := by
  rcases canonical with ⟨positive, bounded, normal, least, greatest⟩
  rw [isNegative, toNat_assemble ⟨positive, bounded, normal, least, greatest⟩]
  cases negative <;> simp only [↓reduceIte, Bool.false_eq_true, beq_iff_eq, beq_eq_false_iff_ne] <;>
    omega

theorem exact_assemble {m : Nat} {e : Int} (canonical : Canonical m e) (negative : Bool) :
    exact (assemble negative m e canonical.positive) = ⟨negative, m, e⟩ := by
  have sign := exact_negative (assemble negative m e canonical.positive)
  have value := exact_significand (assemble negative m e canonical.positive)
  have power := exact_exponent (assemble negative m e canonical.positive)
  rw [isNegative_assemble canonical] at sign
  rw [field_assemble canonical] at value power
  rw [fraction_assemble canonical] at value
  rcases canonical with ⟨positive, bounded, normal, least, greatest⟩
  generalize exact _ = v at *
  rcases v with ⟨s, m', e'⟩
  simp only at sign value power
  subst sign
  congr
  · by_cases small : m < 2 ^ 52
    · rw [if_pos small, if_pos rfl] at value
      omega
    · rw [if_neg small, if_neg (by omega)] at value
      omega
  · by_cases small : m < 2 ^ 52
    · rw [if_pos small, if_pos rfl] at power
      omega
    · rw [if_neg small, if_neg (by omega)] at power
      omega

theorem unpack_assemble {m : Nat} {e : Int} (canonical : Canonical m e) (negative : Bool) :
    (assemble negative m e canonical.positive).toModel.unpack =
      .finite (signOf negative) m e canonical.positive := by
  have parts := exact_assemble canonical negative
  have below : field (assemble negative m e canonical.positive) ≠ 2047 := by
    rw [field_assemble canonical]
    rcases canonical with ⟨positive, bounded, normal, least, greatest⟩
    split <;> omega
  have positive : 0 < (exact (assemble negative m e canonical.positive)).significand := by
    rw [parts]
    exact canonical.positive
  rw [unpack_finite below positive]
  apply finite_congr
  · rw [isNegative_assemble canonical]
  · rw [parts]
  · rw [parts]

theorem neg_assemble {m : Nat} {e : Int} (canonical : Canonical m e) (negative : Bool) :
    -assemble negative m e canonical.positive = assemble (!negative) m e canonical.positive := by
  change Float.ofModel (.pack (assemble negative m e canonical.positive).toModel.unpack.neg) = _
  rw [unpack_assemble canonical]
  cases negative <;> rfl

/-- A number is a NaN, an infinity, a zero or a finite number other than zero. -/
theorem unpack_cases (x : Float) :
    (field x = 2047 ∧ fraction x ≠ 0 ∧ x.toModel.unpack = .notANumber) ∨
    (field x = 2047 ∧ fraction x = 0 ∧ x.toModel.unpack = .infinity (signOf (isNegative x))) ∨
    (field x = 0 ∧ fraction x = 0 ∧ x.toModel.unpack = .zero (signOf (isNegative x))) ∨
    (∃ positive : 0 < (exact x).significand, field x ≠ 2047 ∧ x.toModel.unpack =
      .finite (signOf (isNegative x)) (exact x).significand (exact x).exponent positive) := by
  by_cases top : field x = 2047
  · by_cases zero : fraction x = 0
    · exact .inr (.inl ⟨top, zero, unpack_infinity top zero⟩)
    · exact .inl ⟨top, zero, unpack_nan top zero⟩
  · by_cases positive : 0 < (exact x).significand
    · exact .inr (.inr (.inr ⟨positive, top, unpack_finite top positive⟩))
    · have parts : field x = 0 ∧ fraction x = 0 := by
        rw [exact_significand] at positive
        split at positive
        · next bottom => exact ⟨bottom, by omega⟩
        · omega
      exact .inr (.inr (.inl ⟨parts.1, parts.2, unpack_zero parts.1 parts.2⟩))

theorem isNaN_iff (x : Float) : x.isNaN = true ↔ field x = 2047 ∧ fraction x ≠ 0 := by
  change x.toModel.unpack.isNaN = true ↔ _
  rcases unpack_cases x with ⟨top, nonzero, same⟩ | ⟨top, zero, same⟩ | ⟨bottom, zero, same⟩ |
    ⟨_, below, same⟩
  · rw [same]
    exact iff_of_true rfl ⟨top, nonzero⟩
  · rw [same]
    exact iff_of_false Bool.false_ne_true fun both => both.2 zero
  · rw [same]
    exact iff_of_false Bool.false_ne_true fun both => both.2 zero
  · rw [same]
    exact iff_of_false Bool.false_ne_true fun both => below both.1

theorem isInf_iff (x : Float) : x.isInf = true ↔ field x = 2047 ∧ fraction x = 0 := by
  change x.toModel.unpack.isInf = true ↔ _
  rcases unpack_cases x with ⟨top, nonzero, same⟩ | ⟨top, zero, same⟩ | ⟨bottom, zero, same⟩ |
    ⟨_, below, same⟩
  · rw [same]
    exact iff_of_false Bool.false_ne_true fun both => nonzero both.2
  · rw [same]
    exact iff_of_true rfl ⟨top, zero⟩
  · rw [same]
    exact iff_of_false Bool.false_ne_true fun both => by omega
  · rw [same]
    exact iff_of_false Bool.false_ne_true fun both => below both.1

theorem field_of_finite {x : Float} (notNaN : ¬x.isNaN = true) (notInfinite : ¬x.isInf = true) :
    field x ≠ 2047 := by
  intro top
  by_cases zero : fraction x = 0
  · exact notInfinite ((isInf_iff x).mpr ⟨top, zero⟩)
  · exact notNaN ((isNaN_iff x).mpr ⟨top, zero⟩)

theorem eq_nan {x : Float} (missing : x.isNaN = true) : x = nan := by
  rcases (isNaN_iff x).mp missing with ⟨top, nonzero⟩
  have exponent : unpackExponent (word x) = (-1#_) :=
    BitVec.eq_of_toNat_eq (by rw [exponent_word, top]; rfl)
  have mantissa : unpackMantissa (word x) ≠ 0#_ := by
    intro zero
    exact nonzero (by rw [← mantissa_word, zero]; rfl)
  have only := x.toModel.valid.eq_packedNaN exponent mantissa
  apply ext_bits
  change x.toModel.toBits.toBitVec.toNat = _
  rw [only]
  decide

theorem eq_infinity {x : Float} (infinite : x.isInf = true) :
    x = if isNegative x then -infinity else infinity := by
  rcases (isInf_iff x).mp infinite with ⟨top, zero⟩
  apply ext_bits
  rw [toBits_parts x, top, zero]
  cases isNegative x
  · decide
  · decide

end ParticleSim.Binary64
