import ParticleSim.Proofs.Json.Scalars
/-!
Floats that come back from their JSON texts as they were. A reader that rounds to the nearest float
brings them all back. The one in use scales the digits of a number by a power of ten, which makes
the nearest float where both are floats themselves.
-/
namespace ParticleSim

namespace Binary64

theorem rounds_exact (m : Nat) (e : Int) : RoundsTo (m * 2 ^ e) m e := by
  have unit : (0 : ℚ) < 2 ^ e := by positivity
  have bounds := gap_bounds m e
  have below : (m - gap m e) * 2 ^ e < m * 2 ^ e := by
    apply mul_lt_mul_of_pos_right _ unit
    linarith
  have above : (m : ℚ) * 2 ^ e < (m + 1 / 2) * 2 ^ e := by
    apply mul_lt_mul_of_pos_right _ unit
    linarith
  exact ⟨below.le, above.le, fun _ => ⟨below, above⟩⟩

theorem unpack_ofNat {n : Nat} (small : n < 2 ^ 53) :
    (Float.ofNat n).toModel.unpack = n.toUInt64.toFloat.toModel.unpack := by
  rcases Nat.eq_zero_or_pos n with rfl | positive
  · have zero : Float.ofNat 0 = (0 : Nat).toUInt64.toFloat := by decide +kernel
    rw [zero]
  · rcases unpack_natural positive small with ⟨m, e, canonical, -, value, unpacked⟩
    have rounds : RoundsTo ((n : ℚ) * 10 ^ (0 : Int)) m e := by
      rw [zpow_zero, mul_one, ← value]
      exact rounds_exact m e
    have whole : Float.ofNat n = assemble false m e canonical.positive :=
      ofScientific_eq canonical rounds
    rw [whole, unpacked, unpack_assemble canonical false]
    rfl

theorem isInf_neg {x : Float} (infinite : x.isInf = true) : (-x).isInf = true := by
  have both : (-infinity).isInf = true ∧ (-(-infinity)).isInf = true := by decide +kernel
  rw [eq_infinity infinite]
  split
  · exact both.2
  · exact both.1

end Binary64

namespace Json

theorem powerOfTen_eq {k : Nat} (small : k < Float.exactlyRepresentablePowersOfTen.size) :
    powerOfTen k = Float.exactlyRepresentablePowersOfTen[k] := by
  have checked : ∀ k : Fin 23, powerOfTen k = Float.exactlyRepresentablePowersOfTen[k] := by
    decide +kernel
  exact checked ⟨k, small⟩

/-- Scaling rounds to the nearest number if the digits fit a significand and the power of ten is a
number itself. -/
theorem scale?_eq {significand : Nat} {exponent : Int} (short : significand < 2 ^ 53)
    (near : exponent.natAbs ≤ 22)
    (bounded : (Float.ofScientific significand (exponent < 0) exponent.natAbs).isInf = false) :
    scale? significand exponent =
      some (Float.ofScientific significand (exponent < 0) exponent.natAbs) := by
  have inside : exponent.natAbs < Float.exactlyRepresentablePowersOfTen.size := by
    change exponent.natAbs < 23
    omega
  have power := powerOfTen_eq inside
  have digits := Binary64.unpack_ofNat short
  rw [scale?]
  by_cases negative : exponent < 0
  · have quotient : Float.ofScientific significand (exponent < 0) exponent.natAbs =
        Float.ofNat significand / powerOfTen exponent.natAbs := by
      rw [Float.ofScientific, dif_pos ⟨short, near⟩]
      dsimp only
      rw [if_pos (decide_eq_true negative), power]
      change Float.ofModel (.pack (Float.Model.UnpackedFloat.div _ _ _)) =
        Float.ofModel (.pack (Float.Model.UnpackedFloat.div _ _ _))
      rw [digits]
    rw [if_pos negative, quotient, scaleDown, if_pos (by omega)]
  · have product : Float.ofScientific significand (exponent < 0) exponent.natAbs =
        Float.ofNat significand * powerOfTen exponent.natAbs := by
      rw [Float.ofScientific, dif_pos ⟨short, near⟩]
      dsimp only
      rw [if_neg (by simpa using negative), power]
      change Float.ofModel (.pack (Float.Model.UnpackedFloat.mul _ _ _)) =
        Float.ofModel (.pack (Float.Model.UnpackedFloat.mul _ _ _))
      rw [digits]
    have same : exponent.toNat = exponent.natAbs := by omega
    rw [product] at bounded ⊢
    rw [if_neg negative, if_pos (by omega), same]
    dsimp only
    rw [bounded, if_neg Bool.false_ne_true]

def NumberParts.literal (parts : NumberParts) : Literal :=
  ⟨parts.negative, ofDigits (parts.whole ++ parts.fraction.getD []),
    parts.exponent.getD 0 - (parts.fraction.getD []).length⟩

section Literals

variable {text tail middle : List Char} {parts : NumberParts}

theorem exponent?_of_readExponent? {power : Option Int}
    (found : readExponent? middle = some (power, [])) :
    Literal.exponent? middle = some (power.getD 0) := by
  cases middle with
  | nil =>
    cases found
    rfl
  | cons c rest =>
    rw [readExponent?] at found
    rw [Literal.exponent?]
    generalize splitSign rest = signed at found ⊢
    rcases signed with ⟨negative, digits⟩
    dsimp only at found ⊢
    split at found
    · next mark =>
      split at found
      · cases found
      · next filled =>
        rw [Option.some_inj, Prod.mk.injEq, List.dropWhile_eq_nil_iff] at found
        have front : digits.takeWhile isDigit = digits := List.takeWhile_eq_self_iff.mpr found.2
        rw [front] at found filled
        have valid := isDigits_of_all (by simpa using filled) found.2
        rw [if_pos (by simpa [valid] using mark), ← found.1]
        rfl
    · cases found

theorem unsigned?_of_readUnsigned? {negative : Bool}
    (found : readUnsigned? negative text = some (parts, [])) :
    Literal.unsigned? negative text = some parts.literal := by
  rcases Literal.exists_digits text with ⟨whole, tail, rfl, digits, stop⟩
  rw [readUnsigned?, takeWhile_digits digits stop, dropWhile_digits digits stop] at found
  simp only [Option.bind_eq_bind, Option.bind_eq_some_iff, Option.pure_def,
    Option.some_inj] at found
  rcases found with ⟨_, filled, ⟨part, middle⟩, fractionRead, ⟨power, rest⟩, exponentRead, same⟩
  cases same
  have exponent := exponent?_of_readExponent? exponentRead
  have nonempty : whole ≠ [] := by
    rintro rfl
    cases filled
  rcases readFraction?_cases fractionRead with ⟨rfl, rfl, noPoint⟩ |
    ⟨fraction, rfl, rfl, -, fractionDigits, stop'⟩
  · rw [Literal.unsigned?_whole digits stop negative noPoint, if_neg nonempty, exponent,
      NumberParts.literal, Option.getD_none, List.append_nil]
    rfl
  · rw [Literal.unsigned?_pointed digits stop' negative fractionDigits,
      if_neg fun empty => nonempty empty.1, exponent]
    rfl

theorem ofText?_of_readNumber? (found : readNumber? text = some (parts, [])) :
    Literal.ofText? text = some parts.literal := by
  rcases head_of_readNumber? found with ⟨c, others, rfl, digit | rfl⟩
  · rw [readNumber?_digit digit] at found
    rw [Literal.ofText?, splitSign_head digit]
    exact unsigned?_of_readUnsigned? found
  · rw [readNumber?_minus] at found
    rw [Literal.ofText?, splitSign_minus]
    exact unsigned?_of_readUnsigned? found

end Literals

theorem exists_literal {x : Float} (finite : x.isFinite = true) :
    ∃ parts : NumberParts, readNumber? (numberFormat.finiteText x) = some (parts, []) ∧
      parts.Pointed ∧ Literal.ofText? (numberFormat.finiteText x) = some parts.literal ∧
      parts.literal.toFloat = x := by
  have keepsPoint : numberFormat.pointZero = true := rfl
  rcases exists_readNumber?_finiteText finite with ⟨parts, pointed, reads⟩
  rcases Format.ofText_finiteText keepsPoint (Binary64.field_of_isFinite finite) with
    ⟨literal, written, value⟩
  have read := reads [] closes_nil
  rw [List.append_nil] at read
  have parsed := ofText?_of_readNumber? read
  rw [written, Option.some_inj] at parsed
  rw [parsed] at written value
  exact ⟨parts, read, pointed, written, value⟩

def Floats.nearest : Floats where
  write := numberFormat.finiteText
  read? parts := if parts.literal.toFloat.isInf then none else some parts.literal.toFloat

theorem Floats.nearest_inverts {x : Float} (finite : x.isFinite = true) :
    Floats.nearest.Inverts x := by
  rcases exists_literal finite with ⟨parts, read, pointed, -, value⟩
  refine Floats.number?_eq_some.mpr ⟨parts, read, ?_⟩
  have bounded := (Binary64.isFinite_iff.mp finite).2
  have nearest : Floats.nearest.read? parts = some x := by
    change (if parts.literal.toFloat.isInf then none else some parts.literal.toFloat) = some x
    rw [value, bounded, if_neg Bool.false_ne_true]
  rw [pointed.toNumber?_eq, nearest, Option.map_some]

theorem scale?_literal {parts : NumberParts} (fits : parts.literal.coefficient < UInt64.size) :
    Floats.scale? parts = (scale? parts.literal.coefficient parts.literal.exponent).map
      (withSign parts.negative) := by
  have all : (parts.fraction.getD []).foldl (fun total c => 10 * total + digitValue c)
      (ofDigits parts.whole) = parts.literal.coefficient := by
    rw [NumberParts.literal, ofDigits, ofDigits, List.foldl_append]
  have whole : ofDigits parts.whole < UInt64.size := by
    refine Nat.lt_of_le_of_lt ?_ fits
    rw [← all]
    exact le_foldl_digits _ _
  rw [Floats.scale?, absorb_eq whole]
  rw [← all] at fits
  dsimp only
  rw [← ofDigits, absorb_eq fits, all, NumberParts.literal]
  dsimp only
  congr 2
  omega

/-- The digits of the float's text fit a significand, and the last of them is at most 22 places away
from the point. -/
def isShort (x : Float) : Bool :=
  x.isFinite && (Literal.ofText? (numberFormat.finiteText x)).any fun literal =>
    literal.coefficient < 2 ^ 53 && literal.exponent.natAbs ≤ 22

/-- A float with a short text comes back as it was, the sign of a zero included. -/
theorem Floats.standard_inverts {x : Float} (short : isShort x = true) :
    Floats.standard.Inverts x := by
  rw [isShort, Bool.and_eq_true] at short
  rcases short with ⟨finite, short⟩
  rcases exists_literal finite with ⟨parts, read, pointed, written, value⟩
  rw [written, Option.any_some, Bool.and_eq_true, decide_eq_true_eq, decide_eq_true_eq] at short
  have signed : withSign parts.negative (Float.ofScientific parts.literal.coefficient
      (parts.literal.exponent < 0) parts.literal.exponent.natAbs) = x := value
  have bounded : (Float.ofScientific parts.literal.coefficient
      (parts.literal.exponent < 0) parts.literal.exponent.natAbs).isInf = false := by
    by_contra infinite
    rw [Bool.not_eq_false] at infinite
    have large : x.isInf = true := by
      rw [← signed, withSign]
      split
      · exact Binary64.isInf_neg infinite
      · exact infinite
    rw [(Binary64.isFinite_iff.mp finite).2] at large
    cases large
  have size : UInt64.size = 2 ^ 64 := rfl
  have scaled : Floats.standard.read? parts = some x := by
    change Floats.scale? parts = some x
    rw [scale?_literal (by omega), scale?_eq short.1 short.2 bounded, Option.map_some, signed]
  refine Floats.number?_eq_some.mpr ⟨parts, read, ?_⟩
  rw [pointed.toNumber?_eq, scaled, Option.map_some]

theorem layout_whole {d : Decimal} (nonempty : d.digits ≠ []) {zeros : Nat}
    (behind : d.point - d.digits.length = zeros) (low : d.point ≤ 16) :
    numberFormat.layout d = (d.digits ++ List.replicate zeros '0') ++ '.' :: ['0'] := by
  have filled : 0 < d.digits.length := List.length_pos_iff.mpr nonempty
  have positional : numberFormat.isPositional d.point = true := by
    change (decide (-4 ≤ d.point) && decide (d.point ≤ 16)) = true
    rw [Bool.and_eq_true, decide_eq_true_eq, decide_eq_true_eq]
    omega
  have keepsPoint : numberFormat.pointZero = true := rfl
  rw [Format.layout, if_pos positional, keepsPoint, Format.positionalText, if_neg (by omega),
    if_neg (by omega), if_pos rfl, behind, Int.toNat_natCast]

theorem unsigned?_layout_whole {c k : Nat} (positive : 0 < c) (small : c * 10 ^ k < 10 ^ 15)
    (negative : Bool) :
    Literal.unsigned? negative (numberFormat.layout (Decimal.ofCoefficient c k)) =
      some ⟨negative, 10 * (c * 10 ^ k), -1⟩ := by
  rcases Decimal.ofCoefficient_spec positive k with ⟨nonempty, all, value⟩
  have point : (Decimal.ofCoefficient c k).point = ((Decimal.digitsOf c).length + k : Nat) := by
    push_cast
    rfl
  have digits : (Decimal.ofCoefficient c k).digits.length ≤ (Decimal.digitsOf c).length :=
    (List.rdropWhile_prefix _ _).length_le
  have few := Decimal.length_add_le positive small
  generalize Decimal.ofCoefficient c k = d at nonempty all value point digits ⊢
  obtain ⟨zeros, behind⟩ : ∃ zeros : Nat, d.point - d.digits.length = zeros :=
    ⟨(d.point - d.digits.length).toNat, by omega⟩
  have coefficient : ofDigits (d.digits ++ List.replicate zeros '0' ++ ['0']) =
      10 * (c * 10 ^ k) := by
    rw [behind, zpow_natCast, zpow_natCast] at value
    have last := ofDigits_append_zeros (d.digits ++ List.replicate zeros '0') 1
    rw [List.replicate_one, ofDigits_append_zeros] at last
    have whole : ofDigits d.digits * 10 ^ zeros = c * 10 ^ k := by exact_mod_cast value
    rw [last, whole, pow_one, Nat.mul_comm]
  rw [layout_whole nonempty behind (by omega), Literal.unsigned_point negative
    (List.append_ne_nil_of_left_ne_nil nonempty _), coefficient]
  · rfl
  · intro c member
    rcases List.mem_append.mp member with digit | zero
    · exact all c digit
    · rw [List.eq_of_mem_replicate zero]
      rfl
  · exact List.forall_mem_singleton.mpr rfl

/-- Whole numbers below `10 ^ 14` have short texts, zeros of either sign included. -/
theorem isShort_of_whole {x : Float} (finite : x.isFinite = true) {n : Nat}
    (whole : ((Binary64.exact x).significand : ℚ) * 2 ^ (Binary64.exact x).exponent = n)
    (small : n < 10 ^ 14) : isShort x = true := by
  have below := Binary64.field_of_isFinite finite
  suffices text : ∃ literal : Literal, Literal.unsigned? (Binary64.isNegative x)
      (numberFormat.layout (Decimal.shortest numberFormat.tie (Binary64.exact x))) = some literal ∧
      literal.coefficient < 2 ^ 53 ∧ literal.exponent.natAbs ≤ 22 by
    rcases text with ⟨literal, layout, short, near⟩
    have written := Format.ofText_finiteText_of_layout below layout
    rw [isShort, finite, written, Bool.true_and, Option.any_some, Bool.and_eq_true,
      decide_eq_true_eq, decide_eq_true_eq]
    exact ⟨short, near⟩
  by_cases positive : 0 < (Binary64.exact x).significand
  · have canonical := Binary64.exact_canonical below positive
    have few : (Decimal.digitsOf n).length ≤ 14 :=
      (Nat.length_toDigits_le_iff (by decide) (by decide)).mpr small
    rcases Decimal.shortest_whole canonical whole (few.trans (by decide))
      (Binary64.exact x).negative numberFormat.tie with ⟨c, k, same, rounds⟩
    have near : ((c * 10 ^ k : Nat) : ℚ) ≤ 3 / 2 * n := by
      have one : (1 : ℚ) ≤ (Binary64.exact x).significand := by exact_mod_cast positive
      have unit : (0 : ℚ) < 2 ^ (Binary64.exact x).exponent := by positivity
      calc ((c * 10 ^ k : Nat) : ℚ) = c * 10 ^ (k : Int) := by push_cast; rw [zpow_natCast]
        _ ≤ ((Binary64.exact x).significand + 1 / 2) * 2 ^ (Binary64.exact x).exponent :=
          rounds.high
        _ ≤ 3 / 2 * ((Binary64.exact x).significand * 2 ^ (Binary64.exact x).exponent) := by
          nlinarith
        _ = 3 / 2 * n := by rw [whole]
    have bound : 2 * (c * 10 ^ k) ≤ 3 * n := by
      have doubled : (2 : ℚ) * (c * 10 ^ k : Nat) ≤ 3 * n := by linarith
      exact_mod_cast doubled
    refine ⟨⟨Binary64.isNegative x, 10 * (c * 10 ^ k), -1⟩, ?_, ?_, by simp⟩
    · rw [same]
      exact unsigned?_layout_whole (Binary64.coefficient_pos canonical rounds) (by omega) _
    · change 10 * (c * 10 ^ k) < 2 ^ 53
      omega
  · have zero : Decimal.shortest numberFormat.tie (Binary64.exact x) = ⟨['0'], 1⟩ := by
      rw [Decimal.shortest, if_pos (by omega)]
    refine ⟨⟨Binary64.isNegative x, 0, -1⟩, ?_, by simp, by simp⟩
    rw [zero]
    rfl

end Json
end ParticleSim
