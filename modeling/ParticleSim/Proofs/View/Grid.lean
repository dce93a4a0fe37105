import ParticleSim.Proofs.Number.Scaling
import ParticleSim.View.Overlay

namespace ParticleSim

open Float.Model Float.Model.UnpackedFloat Binary64

def Segment.Upright (area : Rect) (line : Segment) : Prop :=
  ∃ x, line = ⟨⟨x, area.min.y⟩, ⟨x, area.max.y⟩⟩

def Segment.Level (area : Rect) (line : Segment) : Prop :=
  ∃ y, line = ⟨⟨area.min.x, y⟩, ⟨area.max.x, y⟩⟩

namespace Ruling

theorem div_infinity (x : Float) {y : Float} (top : y.toModel.unpack = .infinity .positive) :
    ∃ quotient, x / y = Float.ofModel (.pack quotient) ∧
      (quotient = .zero .positive ∨ quotient = .zero .negative ∨ quotient = .notANumber) := by
  refine ⟨UnpackedFloat.div Format.binary64 x.toModel.unpack y.toModel.unpack, rfl, ?_⟩
  rw [top]
  cases x.toModel.unpack with
  | notANumber => exact .inr (.inr rfl)
  | infinity s => exact .inr (.inr rfl)
  | zero s =>
    cases s
    · exact .inr (.inl rfl)
    · exact .inl rfl
  | finite s m e positive =>
    cases s
    · exact .inr (.inl rfl)
    · exact .inl rfl

theorem count_le_one {ruling : Ruling} (top : ruling.spacing.toModel.unpack = .infinity .positive) :
    ruling.count ≤ 1 := by
  rcases div_infinity ruling.low top with ⟨low, divided, lows⟩
  rcases div_infinity ruling.high top with ⟨high, divided', highs⟩
  rw [count, first, divided, divided']
  rcases lows with rfl | rfl | rfl <;> rcases highs with rfl | rfl | rfl <;> decide +kernel

theorem length_ticks (ruling : Ruling) : ruling.ticks.length = ruling.count := by
  rw [ticks, List.length_map, List.length_range]

end Ruling

namespace Grid

variable {area : Rect} {spacing final : Float} {doublings : Nat}

inductive Widens (area : Rect) : Float → Float → Prop
  | enough {spacing : Float} : fits area spacing = true → Widens area spacing spacing
  | double {spacing final : Float} : fits area spacing = false →
      Widens area (spacing * 2.0) final → Widens area spacing final

theorem Widens.fits (widens : Widens area spacing final) : fits area final = true := by
  induction widens with
  | enough few => exact few
  | double _ _ few => exact few

theorem fits_infinity (area : Rect) (top : spacing.toModel.unpack = .infinity .positive) :
    fits area spacing = true := by
  have few {ruling : Ruling} (same : ruling.spacing = spacing) : ruling.count ≤ maxLines :=
    (Ruling.count_le_one (same ▸ top)).trans (by decide)
  rw [fits, Bool.and_eq_true, decide_eq_true_iff, decide_eq_true_iff]
  exact ⟨few rfl, few rfl⟩

def Reaches (doublings : Nat) (spacing : Float) : Prop :=
  spacing.toModel.unpack = .infinity .positive ∨
    spacing.isFinite = true ∧ unitsOf (2 ^ 52) 972 ≤ units spacing * 2 ^ doublings

theorem reaches_maxDoublings (finite : spacing.isFinite = true) (positive : 0.0 < spacing) :
    Reaches maxDoublings spacing := by
  have unit := (pos_iff_units finite).mp positive
  refine .inr ⟨finite, ?_⟩
  calc (unitsOf (2 ^ 52) 972 : Int) = 1 * 2 ^ maxDoublings := by
        rw [unitsOf, one_mul, maxDoublings, ← Nat.pow_add, Nat.cast_pow]
        rfl
    _ ≤ units spacing * 2 ^ maxDoublings := Int.mul_le_mul_of_nonneg_right unit (by positivity)

theorem Reaches.zero (reaches : Reaches 0 spacing) :
    spacing.toModel.unpack = .infinity .positive := by
  rcases reaches with top | ⟨finite, large⟩
  · exact top
  · have small := natAbs_units_lt finite
    rw [pow_zero] at large
    omega

theorem Reaches.double (reaches : Reaches (doublings + 1) spacing)
    (wide : fits area spacing = false) : Reaches doublings (spacing * 2.0) := by
  rcases reaches with top | ⟨finite, large⟩
  · rw [fits_infinity area top] at wide
    cases wide
  · have top : (0 : Int) < unitsOf (2 ^ 52) 972 := by exact_mod_cast unitsOf_pos (by decide)
    have positive : 0 < units spacing := pos_of_mul_pos_left (top.trans_le large) (by positivity)
    rcases double_of_pos finite positive with ⟨finite', twice⟩ | top
    · refine .inr ⟨finite', large.trans_eq ?_⟩
      rw [twice]
      ring
    · exact .inl top

/-- The search ends within so many doublings. -/
theorem exists_widens (area : Rect) (reaches : Reaches doublings spacing) :
    ∃ final, widen? area doublings spacing = some final ∧ Widens area spacing final := by
  induction doublings generalizing spacing with
  | zero =>
    have few := fits_infinity area reaches.zero
    exact ⟨spacing, by rw [widen?, if_pos few], .enough few⟩
  | succ doublings ih =>
    cases few : fits area spacing with
    | true => exact ⟨spacing, by rw [widen?, if_pos few], .enough few⟩
    | false =>
      rcases ih (reaches.double few) with ⟨final, found, widens⟩
      refine ⟨final, ?_, .double few widens⟩
      rw [widen?, if_neg (by rw [few]; exact Bool.false_ne_true)]
      exact found

/-- The lines that a search for a spacing leaves: those for the spacing at which it ends, unless
that is infinite. Without a finite and positive spacing there is no search. -/
def Searched (area : Rect) (spacing : Float) (lines : List Segment) : Prop :=
  if spacing.isFinite = true ∧ 0.0 < spacing then
    ∃ final, Widens area spacing final ∧
      lines = if final.isFinite = true then segments area final else []
  else lines = []

def FewLines (area : Rect) (lines : List Segment) : Prop :=
  ∃ upright level, lines = upright ++ level ∧ upright.length ≤ 200 ∧ level.length ≤ 200 ∧
    (∀ line ∈ upright, line.Upright area) ∧ ∀ line ∈ level, line.Level area

theorem fewLines_nil : FewLines area [] :=
  ⟨[], [], rfl, Nat.zero_le _, Nat.zero_le _, List.forall_mem_nil _, List.forall_mem_nil _⟩

theorem fewLines_segments (few : fits area spacing = true) :
    FewLines area (segments area spacing) := by
  rw [fits, Bool.and_eq_true, decide_eq_true_iff, decide_eq_true_iff] at few
  refine ⟨_, _, rfl, ?_, ?_, fun line member => ?_, fun line member => ?_⟩
  · rw [List.length_map, Ruling.length_ticks]
    exact few.1
  · rw [List.length_map, Ruling.length_ticks]
    exact few.2
  · rcases List.mem_map.mp member with ⟨x, -, rfl⟩
    exact ⟨x, rfl⟩
  · rcases List.mem_map.mp member with ⟨y, -, rfl⟩
    exact ⟨y, rfl⟩

variable {lines : List Segment}

theorem Searched.fewLines (searched : Searched area spacing lines) : FewLines area lines := by
  rw [Searched] at searched
  split at searched
  · rcases searched with ⟨final, widens, rfl⟩
    split
    · exact fewLines_segments widens.fits
    · exact fewLines_nil
  · rw [searched]
    exact fewLines_nil

end Grid

namespace View

theorem searched_grid (world : World) (view : View) :
    Grid.Searched (view.gridArea world) view.gridSpacing (view.grid world) := by
  rw [Grid.Searched]
  split
  · next proper =>
    have checked : (view.gridSpacing.isFinite && decide (0.0 < view.gridSpacing)) = true := by
      rwa [Bool.and_eq_true, decide_eq_true_iff]
    rcases Grid.exists_widens (view.gridArea world)
      (Grid.reaches_maxDoublings proper.1 proper.2) with ⟨final, found, widens⟩
    refine ⟨final, widens, ?_⟩
    rw [grid, if_pos checked, found]
  · next improper =>
    have checked : ¬(view.gridSpacing.isFinite && decide (0.0 < view.gridSpacing)) = true := by
      rwa [Bool.and_eq_true, decide_eq_true_iff]
    rw [grid, if_neg checked]

/-- The search for a spacing ends, and the grid has at most two hundred lines upright and two
hundred level. -/
theorem grid_bounded (world : World) (view : View) :
    Grid.Searched (view.gridArea world) view.gridSpacing (view.grid world) ∧
      Grid.FewLines (view.gridArea world) (view.grid world) :=
  ⟨searched_grid world view, (searched_grid world view).fewLines⟩

end View
end ParticleSim
