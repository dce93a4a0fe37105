import ParticleSim.Proofs.Number.Difference
import ParticleSim.Proofs.Number.Digits
import ParticleSim.Proofs.Number.Scaling
import ParticleSim.Proofs.World.Agreement
import ParticleSim.Proofs.World.Walls
import ParticleSim.View.Text
/-!
The view that frames a rectangle. Its corners are computed from a center and an extent, and whether
they come out where those of the rectangle are is a matter of rounding: they do if the walls lie on
a grid that is not too fine, but other walls may end up just outside, and those whose sum overflows
always do.
-/
namespace ParticleSim

open Float.Model Float.Model.UnpackedFloat Binary64

/-- On one axis, what is computed from the middle of two walls and their distance includes both. -/
def Framed (low high : Float) : Prop :=
  (low + high) * 0.5 - (high - low) * 0.5 ≤ low ∧ high ≤ (low + high) * 0.5 + (high - low) * 0.5

/-- The walls are whole multiples of a step that is a power of two, at least two units wide, and lie
fewer than `2 ^ 52` steps away from zero. -/
def Gridded (low high : Float) : Prop :=
  ∃ (i j : Int) (u : Nat), u ≤ 2044 ∧ i.natAbs < 2 ^ 52 ∧ j.natAbs < 2 ^ 52 ∧
    units low = i * 2 ^ (u + 1) ∧ units high = j * 2 ^ (u + 1)

section Walls

variable {low high : Float}

/-- Walls on a grid are framed exactly, since nothing is rounded. -/
theorem framed_of_gridded (left : low.isFinite = true) (right : high.isFinite = true)
    (gridded : Gridded low high) : Framed low high ∧
      ((low + high) * 0.5 - (high - low) * 0.5 == low) = true ∧
      ((low + high) * 0.5 + (high - low) * 0.5 == high) = true := by
  rcases gridded with ⟨i, j, u, places, few, few', atLow, atHigh⟩
  have middle : (low + high).isFinite = true ∧ units (low + high) = units low + units high := by
    rcases exists_units (k := i + j) (v := u + 1) (by omega) (by omega) with ⟨z, finite, count⟩
    exact add_exact left right finite (by rw [count, atLow, atHigh]; ring)
  have width : (high - low).isFinite = true ∧ units (high - low) = units high - units low := by
    rcases exists_units (k := j - i) (v := u + 1) (by omega) (by omega) with ⟨z, finite, count⟩
    exact sub_exact right left finite (by rw [count, atLow, atHigh]; ring)
  have center := half_of_even middle.1
    ⟨(i + j) * 2 ^ u, by rw [middle.2, atLow, atHigh]; ring⟩
  have half := half_of_even width.1 ⟨(j - i) * 2 ^ u, by rw [width.2, atLow, atHigh]; ring⟩
  rw [middle.2] at center
  rw [width.2] at half
  have lower := sub_exact center.1 half.1 left (by omega)
  have upper := add_exact center.1 half.1 right (by omega)
  exact ⟨⟨(le_iff_units lower.1 left).mpr (by omega), (le_iff_units right upper.1).mpr (by omega)⟩,
    (beq_iff_units lower.1 left).mpr (by omega), (beq_iff_units upper.1 right).mpr (by omega)⟩

/-- The middle of walls whose sum overflows is infinite, and so is what is shown around it. -/
theorem not_framed_of_overflow (left : low.isFinite = true) (right : high.isFinite = true)
    (large : (low + high).isFinite = false) : ¬Framed low high := by
  have sum : (low + high).isNaN = false := isNaN_add (isFinite_iff.mp left).1 right
  rcases infinity_cases sum with finite | ⟨s, same⟩
  · rw [large] at finite
    cases finite
  · intro framed
    have center := half_of_infinity same
    have lower := (isNaN_of_le framed.1).1
    have upper := (isNaN_of_le framed.2).2
    have below := natAbs_units_lt left
    have above := natAbs_units_lt right
    have framed' := framed
    rw [Framed, sub_eq] at framed'
    rw [sub_eq] at lower
    rw [le_iff_rank lower (isFinite_iff.mp left).1, le_iff_rank (isFinite_iff.mp right).1 upper,
      rank_of_isFinite left, rank_of_isFinite right, rank_of_infinity (infinity_add center lower),
      rank_of_infinity (infinity_add center upper)] at framed'
    cases s <;> simp only [Sign.apply] at framed' <;> omega

end Walls

section Rectangle

variable {rect : Rect}

theorem Rect.contains_iff (rect : Rect) (point : Vec) : rect.contains point = true ↔
    ∀ axis, rect.min.along axis ≤ point.along axis ∧ point.along axis ≤ rect.max.along axis := by
  rw [contains, Bool.and_eq_true, Bool.and_eq_true, Bool.and_eq_true, decide_eq_true_iff,
    decide_eq_true_iff, decide_eq_true_iff, decide_eq_true_iff]
  constructor
  · rintro ⟨⟨⟨left, right⟩, lower⟩, upper⟩ axis
    cases axis
    · exact ⟨left, right⟩
    · exact ⟨lower, upper⟩
  · exact fun inside => ⟨⟨⟨(inside .x).1, (inside .x).2⟩, (inside .y).1⟩, (inside .y).2⟩

theorem View.visible_framing (rect : Rect) (axis : Axis) :
    (framing rect).visible.min.along axis =
        (rect.min.along axis + rect.max.along axis) * 0.5 -
          (rect.max.along axis - rect.min.along axis) * 0.5 ∧
      (framing rect).visible.max.along axis =
        (rect.min.along axis + rect.max.along axis) * 0.5 +
          (rect.max.along axis - rect.min.along axis) * 0.5 := by
  cases axis <;> exact ⟨rfl, rfl⟩

theorem Bounds.Sound.along {bounds : Bounds} (sound : bounds.Sound) (axis : Axis) :
    (bounds.rect.min.along axis).isFinite = true ∧ (bounds.rect.max.along axis).isFinite = true ∧
      bounds.rect.min.along axis < bounds.rect.max.along axis := by
  cases axis
  · exact ⟨sound.min.1, sound.max.1, sound.width⟩
  · exact ⟨sound.min.2, sound.max.2, sound.height⟩

theorem framed_iff_shown {bounds : Bounds} (sound : bounds.Sound) :
    (∀ point, bounds.rect.contains point = true →
        (View.framing bounds.rect).visible.contains point = true) ↔
      ∀ axis, Framed (bounds.rect.min.along axis) (bounds.rect.max.along axis) := by
  constructor
  · intro shown axis
    have within (axis : Axis) : bounds.rect.min.along axis ≤ bounds.rect.min.along axis ∧
        bounds.rect.max.along axis ≤ bounds.rect.max.along axis := by
      rcases sound.along axis with ⟨left, right, -⟩
      rw [le_iff_units left left, le_iff_units right right]
      exact ⟨le_rfl, le_rfl⟩
    have ordered (axis : Axis) := le_of_lt (sound.along axis).2.2
    have corner := shown bounds.rect.min
      ((Rect.contains_iff _ _).mpr fun axis => ⟨(within axis).1, ordered axis⟩)
    have corner' := shown bounds.rect.max
      ((Rect.contains_iff _ _).mpr fun axis => ⟨ordered axis, (within axis).2⟩)
    rcases View.visible_framing bounds.rect axis with ⟨least, greatest⟩
    have lower := ((Rect.contains_iff _ _).mp corner axis).1
    have upper := ((Rect.contains_iff _ _).mp corner' axis).2
    rw [least] at lower
    rw [greatest] at upper
    exact ⟨lower, upper⟩
  · intro framed point inside
    rw [Rect.contains_iff] at inside ⊢
    intro axis
    rw [(View.visible_framing bounds.rect axis).1, (View.visible_framing bounds.rect axis).2]
    exact ⟨le_trans (framed axis).1 (inside axis).1, le_trans (inside axis).2 (framed axis).2⟩

end Rectangle

/-! The lines of a text that mark bodies. -/

def OffView (line : String) : Prop :=
  ∃ front, line = front ++ " (off view)\n"

theorem ne_w_of_digit {c : Char} (digit : isDigit c = true) : c ≠ 'w' := by
  rintro rfl
  cases digit

theorem w_notMem_fixed (places : Nat) (x : Float) : 'w' ∉ (fixed places x).toList := by
  rw [fixed, String.toList_ofList]
  split
  · dsimp only
    generalize padded : List.replicate (places + 1 - (Decimal.digitsOf _).length) '0' ++
      Decimal.digitsOf _ = digits
    have clean : 'w' ∉ digits := by
      rw [← padded, List.mem_append]
      rintro (zero | digit)
      · exact absurd (List.eq_of_mem_replicate zero) (by decide)
      · exact ne_w_of_digit (Decimal.isDigit_digitsOf _ _ digit) rfl
    have body : 'w' ∉ digits.take (digits.length - places) ++
        if places = 0 then [] else '.' :: digits.drop (digits.length - places) := by
      rw [List.mem_append]
      rintro (front | back)
      · exact clean (List.mem_of_mem_take front)
      · split at back
        · cases back
        · rcases List.mem_cons.mp back with point | digit
          · exact absurd point (by decide)
          · exact clean (List.mem_of_mem_drop digit)
    split
    · rw [List.mem_cons, not_or]
      exact ⟨by decide, body⟩
    · exact body
  · rw [specialText]
    split
    · decide
    · split <;> decide

namespace View

theorem offView_bodyText_iff (view : View) (id : String) (body : BodyState) :
    OffView (view.bodyText id body) ↔ view.visible.contains body.position = false := by
  rw [bodyText]
  split
  · next shown =>
    rw [shown]
    refine iff_of_false ?_ (by decide)
    rintro ⟨front, same⟩
    -- in front of the last bracket stands the end of a number, and not that of the mark
    obtain ⟨before, shape⟩ : ∃ before, "  [" ++ id ++ "] pos=" ++ body.position.fixed 3 ++
        " vel=" ++ body.velocity.fixed 3 ++ " acc=" ++ body.acceleration.fixed 3 ++ "\n" =
          before ++ (", " ++ (fixed 3 body.acceleration.y ++ (")" ++ "\n"))) := by
      refine ⟨"  [" ++ id ++ "] pos=" ++ body.position.fixed 3 ++ " vel=" ++
        body.velocity.fixed 3 ++ " acc=" ++ ("(" ++ fixed 3 body.acceleration.x), ?_⟩
      simp only [Vec.fixed, String.append_assoc]
    have chars := congrArg String.toList (shape.symm.trans same)
    have ends :
        before.toList ++ [','] ++ ' ' :: (fixed 3 body.acceleration.y).toList ++ [')', '\n'] =
          front.toList ++ [' ', '(', 'o', 'f', 'f', ' ', 'v', 'i', 'e'] ++ ['w'] ++
            [')', '\n'] := by
      simpa using chars
    have last := congrArg List.getLast? (List.append_cancel_right ends)
    rw [List.getLast?_concat, List.getLast?_append_cons] at last
    rcases List.mem_cons.mp (List.mem_of_getLast? last) with space | number
    · exact absurd space (by decide)
    · exact w_notMem_fixed 3 _ number
  · next hidden =>
    refine iff_of_true ⟨_, rfl⟩ ?_
    exact Bool.not_eq_true _ ▸ hidden

def lines (view : View) (state : State) : List String :=
  state.bodies.map fun (id, body) => view.bodyText id body

def ShowsAll (view : View) (world : World) (state : State) (withEnergy : Bool) : Prop :=
  ∃ heading, view.text world state withEnergy = heading ++ String.join (view.lines state) ∧
    ∀ line ∈ view.lines state, ¬OffView line

theorem showsAll_iff (view : View) (world : World) (state : State) (withEnergy : Bool) :
    view.ShowsAll world state withEnergy ↔
      ∀ entry ∈ state.bodies, view.visible.contains entry.2.position = true := by
  have marks (entry : String × BodyState) : ¬OffView (view.bodyText entry.1 entry.2) ↔
      view.visible.contains entry.2.position = true := by
    rw [offView_bodyText_iff, Bool.not_eq_false]
  constructor
  · rintro ⟨heading, -, clean⟩ entry member
    exact (marks entry).mp (clean _ (List.mem_map_of_mem member))
  · intro shown
    refine ⟨_, rfl, fun line member => ?_⟩
    rcases List.mem_map.mp member with ⟨entry, listed, rfl⟩
    exact (marks entry).mpr (shown entry listed)

end View

def State.Within (rect : Rect) (state : State) : Prop :=
  ∀ entry ∈ state.bodies, rect.contains entry.2.position = true

/-- The view that frames the bounds of a world shows all that is within them if and only if the
walls are framed on both axes. Walls on a grid are, and then the view covers just the bounds; walls
whose sum overflows are not. -/
theorem World.framing_shows_iff {tree : Node} {world : World} {bounds : Bounds}
    (built : World.ofNode tree = .ok world) (bounded : world.bounds = some bounds) :
    ((∀ state withEnergy, state.Within bounds.rect →
        (View.framing bounds.rect).ShowsAll world state withEnergy) ↔
      ∀ axis, Framed (bounds.rect.min.along axis) (bounds.rect.max.along axis)) ∧
    ((∀ point, bounds.rect.contains point = true →
        (View.framing bounds.rect).visible.contains point = true) ↔
      ∀ axis, Framed (bounds.rect.min.along axis) (bounds.rect.max.along axis)) ∧
    ∀ axis, (Gridded (bounds.rect.min.along axis) (bounds.rect.max.along axis) →
        Framed (bounds.rect.min.along axis) (bounds.rect.max.along axis) ∧
          ((View.framing bounds.rect).visible.min.along axis == bounds.rect.min.along axis) = true ∧
          ((View.framing bounds.rect).visible.max.along axis == bounds.rect.max.along axis) =
            true) ∧
      ((bounds.rect.min.along axis + bounds.rect.max.along axis).isFinite = false →
        ¬Framed (bounds.rect.min.along axis) (bounds.rect.max.along axis)) := by
  have sound : bounds.Sound := (sound_of_ofNode built).2.bounds bounds bounded
  refine ⟨?_, framed_iff_shown sound, fun axis => ?_⟩
  · rw [← framed_iff_shown sound]
    constructor
    · intro shows point inside
      have alone := shows ⟨0.0, 0, [("a", ⟨point, Vec.zero, Vec.zero⟩)]⟩ false
        (List.forall_mem_singleton.mpr inside)
      exact (View.showsAll_iff ..).mp alone ("a", ⟨point, Vec.zero, Vec.zero⟩)
        (List.mem_singleton_self _)
    · intro shown state withEnergy within
      exact (View.showsAll_iff ..).mpr fun entry member => shown _ (within entry member)
  · rcases sound.along axis with ⟨left, right, -⟩
    rw [(View.visible_framing bounds.rect axis).1, (View.visible_framing bounds.rect axis).2]
    exact ⟨framed_of_gridded left right, not_framed_of_overflow left right⟩

def Node.cornered (low high : Float) : Node :=
  let point (x y : Float) : Node := .mapping [("x", .ofFloat x), ("y", .ofFloat y)]
  .mapping
    [("bounds", .mapping
        [("min", point low 0.0), ("max", point high 1.0), ("policy", .ofString "clamp")]),
      ("bodies", .sequence
        [.mapping [("id", .ofString "a"), ("mass", .ofFloat 1.0), ("position", point high 1.0)]])]

namespace World

def cornered (low high : Float) : World :=
  { name := none
    timeScale := 1.0
    bounds := some ⟨⟨⟨low, 0.0⟩, ⟨high, 1.0⟩⟩, .clamp⟩
    bodies := [⟨"a", .particle, 1.0, ⟨high, 1.0⟩, Vec.zero⟩]
    forces := [] }

theorem framing_shows_iff_gridded :
    ofNode (.cornered (-3.0) 50.5) = .ok (cornered (-3.0) 50.5) ∧
      ∀ state withEnergy, state.Within ⟨⟨-3.0, 0.0⟩, ⟨50.5, 1.0⟩⟩ →
        (View.framing ⟨⟨-3.0, 0.0⟩, ⟨50.5, 1.0⟩⟩).ShowsAll (cornered (-3.0) 50.5) state
          withEnergy := by
  have built : ofNode (.cornered (-3.0) 50.5) = .ok (cornered (-3.0) 50.5) := by rfl
  refine ⟨built, (framing_shows_iff built rfl).1.mpr fun axis => ?_⟩
  rw [Framed]
  cases axis <;> decide

/-- The right wall of this world comes out a little further left, and the body that starts at the
wall is marked. -/
theorem off_view_cornered :
    ofNode (.cornered (-3.0) 0.4) = .ok (cornered (-3.0) 0.4) ∧
      ((cornered (-3.0) 0.4).initialState {}).Within ⟨⟨-3.0, 0.0⟩, ⟨0.4, 1.0⟩⟩ ∧
      ¬(View.framing ⟨⟨-3.0, 0.0⟩, ⟨0.4, 1.0⟩⟩).ShowsAll (cornered (-3.0) 0.4)
        ((cornered (-3.0) 0.4).initialState {}) false := by
  refine ⟨by rfl, ?_, ?_⟩
  · rw [State.Within]
    decide
  · rw [View.showsAll_iff]
    decide

end World
end ParticleSim
