import ParticleSim.Proofs.Number.Sum

namespace ParticleSim.Binary64

open Float.Model Float.Model.UnpackedFloat

section Products

variable {x y m : Float}

theorem isNaN_mul (left : x.isFinite = true) (right : y.isFinite = true) :
    (x * y).isNaN = false := by
  apply isNaN_pack (u := UnpackedFloat.mul Format.binary64 x.toModel.unpack y.toModel.unpack)
  rcases finite_cases left with ⟨s, same⟩ | ⟨s, m, e, positive, same⟩ <;>
    rcases finite_cases right with ⟨t, same'⟩ | ⟨t, n, d, positive', same'⟩ <;>
      rw [same, same']
  · rfl
  · rfl
  · rfl
  · exact isNaN_mul_finite positive positive'

theorem unpack_zero_mul (finite : y.isFinite = true) :
    ∃ s, (0.0 * y).toModel.unpack = .zero s := by
  have product : ∃ s, UnpackedFloat.mul Format.binary64 (.zero .positive) y.toModel.unpack =
      .zero s := by
    rcases finite_cases finite with ⟨s, same⟩ | ⟨s, m, e, positive, same⟩ <;> rw [same] <;>
      exact ⟨_, rfl⟩
  rcases product with ⟨s, product⟩
  refine ⟨s, ?_⟩
  change (Float.ofModel (.pack (UnpackedFloat.mul Format.binary64 (0.0 : Float).toModel.unpack
    y.toModel.unpack))).toModel.unpack = .zero s
  rw [unpack_origin, product, unpack_pack_zero]

theorem isNaN_zero_mul (infinite : y.isInf = true) : (0.0 * y).isNaN = true := by
  rw [eq_infinity infinite]
  cases isNegative y <;> decide

theorem zero_div (finite : m.isFinite = true) (positive : 0.0 < m) : 0.0 / m = 0.0 := by
  rcases unpack_of_pos finite positive with ⟨n, e, nonzero, -, same⟩
  have quotient : UnpackedFloat.div Format.binary64 (0.0 : Float).toModel.unpack
      m.toModel.unpack = .zero .positive := by
    rw [unpack_origin, same]
    rfl
  change Float.ofModel (.pack (UnpackedFloat.div Format.binary64 (0.0 : Float).toModel.unpack
    m.toModel.unpack)) = 0.0
  rw [quotient]
  decide

/-- Zero acceleration over a time `h` keeps a velocity if the time is finite, and loses it if it is
not. -/
theorem coast_beq_iff {v w h : Float} (number : h.isNaN = false) :
    (v + 0.0 * h == w) = true ↔ (v == w) = true ∧ h.isFinite = true := by
  constructor
  · intro same
    have sum : (v + 0.0 * h).isNaN = false := isNaN_of_beq same
    have speed : v.isNaN = false := by
      by_contra missing
      rw [isNaN_nan_add (Bool.not_eq_false _ ▸ missing)] at sum
      cases sum
    have finite : h.isFinite = true := by
      by_contra large
      rw [isFinite_iff, and_iff_right number, Bool.not_eq_false] at large
      rw [isNaN_add_nan (isNaN_zero_mul large)] at sum
      cases sum
    rcases unpack_zero_mul finite with ⟨s, zero⟩
    exact ⟨beq_trans (beq_symm (add_beq_of_zero speed zero)) same, finite⟩
  · intro given
    rcases given with ⟨same, finite⟩
    rcases unpack_zero_mul finite with ⟨s, zero⟩
    exact beq_trans (add_beq_of_zero (isNaN_of_beq same) zero) same

end Products
end ParticleSim.Binary64
