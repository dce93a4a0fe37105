import ParticleSim.Proofs.Number.Order

namespace ParticleSim.Binary64

open Float.Model Float.Model.UnpackedFloat

theorem compare_eq_iff {a b : UnpackedFloat} :
    a.compare b = some .eq ↔ (a = b ∧ a.isNaN = false) ∨ ∃ s t, a = .zero s ∧ b = .zero t := by
  constructor
  · intro same
    cases a with
    | notANumber => cases same
    | infinity s =>
      cases b with
      | infinity t => cases s <;> cases t <;> first | exact .inl ⟨rfl, rfl⟩ | cases same
      | _ => cases s <;> cases same
    | zero s =>
      cases b with
      | notANumber => cases same
      | infinity t => cases t <;> cases same
      | zero t => exact .inr ⟨s, t, rfl, rfl⟩
      | finite t => cases t <;> cases same
    | finite s m e positive =>
      cases b with
      | notANumber => cases same
      | infinity t => cases s <;> cases t <;> cases same
      | zero t => cases s <;> cases same
      | finite t m' e' positive' =>
        have parts : (compare e e').then (compare m m') = .eq → e = e' ∧ m = m' := by
          intro equal
          rw [Ordering.then_eq_eq, compare_eq_iff_eq, compare_eq_iff_eq] at equal
          exact equal
        cases s <;> cases t
        · have swapped := congrArg Ordering.swap (Option.some.inj same)
          rw [Ordering.swap_swap] at swapped
          rcases parts swapped with ⟨rfl, rfl⟩
          exact .inl ⟨rfl, rfl⟩
        · cases same
        · cases same
        · rcases parts (Option.some.inj same) with ⟨rfl, rfl⟩
          exact .inl ⟨rfl, rfl⟩
  · intro given
    rcases given with ⟨rfl, number⟩ | ⟨s, t, rfl, rfl⟩
    · cases a with
      | notANumber => cases number
      | infinity s => cases s <;> rfl
      | zero s => rfl
      | finite s m e positive =>
        have parts : (compare e e).then (compare m m) = .eq := by simp
        cases s
        · exact congrArg (fun order => some (Ordering.swap order)) parts
        · exact congrArg some parts
    · rfl

/-- The sign of a zero does not show in a comparison. -/
theorem compare_zero (s t : Sign) (a : UnpackedFloat) :
    UnpackedFloat.compare (.zero s) a = UnpackedFloat.compare (.zero t) a := by
  cases a with
  | infinity r => cases r <;> rfl
  | finite r => cases r <;> rfl
  | _ => rfl

theorem compare_congr_left {a b : UnpackedFloat} (same : a.compare b = some .eq)
    (c : UnpackedFloat) : a.compare c = b.compare c := by
  rcases compare_eq_iff.mp same with ⟨rfl, -⟩ | ⟨s, t, rfl, rfl⟩
  · rfl
  · exact compare_zero s t c

theorem compare_congr {a a' b b' : UnpackedFloat} (left : a.compare a' = some .eq)
    (right : b.compare b' = some .eq) : a.compare b = a'.compare b' := by
  rw [compare_congr_left left, compare_swap b, compare_congr_left right, ← compare_swap]

def hasWhole : UnpackedFloat → Bool
  | .zero _ => true
  | .finite _ m e _ => (⟨false, m, e⟩ : Exact).isWhole
  | _ => false

theorem isFinite_eq (x : Float) : x.isFinite = x.toModel.unpack.isFinite := rfl

theorem isFinite_origin : (0.0 : Float).isFinite = true := rfl

theorem isWhole_eq (x : Float) : isWhole x = hasWhole x.toModel.unpack := by
  rcases unpack_cases x with ⟨-, -, same⟩ | ⟨-, -, same⟩ | ⟨bottom, zero, same⟩ |
    ⟨positive, below, same⟩
  · rw [isWhole, isFinite_eq, same]
    rfl
  · rw [isWhole, isFinite_eq, same]
    rfl
  · have nothing : (exact x).significand = 0 := by rw [exact_significand, if_pos bottom, zero]
    rw [isWhole, isFinite_eq, same, Exact.isWhole, nothing, Nat.zero_mod]
    exact Bool.or_true _
  · rw [isWhole, isFinite_eq, same]
    rfl

variable {x x' y y' z : Float}

theorem beq_iff : (x == y) = true ↔ x.toModel.unpack.compare y.toModel.unpack = some .eq := by
  change (x.toModel.unpack.compare y.toModel.unpack == some .eq) = true ↔ _
  rw [beq_iff_eq]

theorem beq_self (number : x.isNaN = false) : (x == x) = true :=
  beq_iff.mpr (compare_eq_iff.mpr (.inl ⟨rfl, number⟩))

theorem beq_symm (same : (x == y) = true) : (y == x) = true := by
  rw [beq_iff] at *
  rw [compare_swap x.toModel.unpack, same]
  rfl

theorem beq_trans (first : (x == y) = true) (second : (y == z) = true) : (x == z) = true := by
  rw [beq_iff] at *
  rw [compare_congr_left first, second]

theorem isNaN_of_beq (same : (x == y) = true) : x.isNaN = false := by
  change x.toModel.unpack.isNaN = false
  rcases compare_eq_iff.mp (beq_iff.mp same) with ⟨-, number⟩ | ⟨s, t, zero, -⟩
  · exact number
  · rw [zero]
    rfl

section Congruence

variable (left : (x == x') = true) (right : (y == y') = true)
include left

theorem isFinite_congr : x.isFinite = x'.isFinite := by
  rw [isFinite_eq, isFinite_eq]
  rcases compare_eq_iff.mp (beq_iff.mp left) with ⟨same, -⟩ | ⟨s, t, zero, zero'⟩
  · rw [same]
  · rw [zero, zero']
    rfl

theorem isWhole_congr : isWhole x = isWhole x' := by
  rw [isWhole_eq, isWhole_eq]
  rcases compare_eq_iff.mp (beq_iff.mp left) with ⟨same, -⟩ | ⟨s, t, zero, zero'⟩
  · rw [same]
  · rw [zero, zero']
    rfl

include right

theorem lt_congr : x < y ↔ x' < y' := by
  rw [lt_iff, lt_iff, compare_congr (beq_iff.mp left) (beq_iff.mp right)]

theorem le_congr : x ≤ y ↔ x' ≤ y' := by
  rw [le_iff, le_iff, compare_congr (beq_iff.mp left) (beq_iff.mp right)]

end Congruence

end ParticleSim.Binary64
