import ParticleSim.Proofs.Number.Remainder
import ParticleSim.Proofs.World.Stepping
/-!
Walls around a world. Whatever the state before, a step leaves no particle beyond clamping walls,
and every particle inside wrapping ones; the walls of one axis have no effect on the other, and the
acceleration belongs to the place and velocity that the walls leave.
-/
namespace ParticleSim

inductive Axis where
  | x
  | y
  deriving DecidableEq, Repr

def Vec.along (v : Vec) : Axis → Float
  | .x => v.x
  | .y => v.y

structure Held (low high x v x' v' : Float) : Prop where
  inside : ¬x' < low ∧ ¬high < x'
  below : x < low → x' = low ∧ ¬v' < 0.0 ∧ (0.0 < v → v' = v)
  above : high < x → x' = high ∧ ¬0.0 < v' ∧ (v < 0.0 → v' = v)
  between : ¬x < low → ¬high < x → x' = x ∧ v' = v

structure Wrapped (low high x x' : Float) : Prop where
  inside : low ≤ x' ∧ x' < high
  kept : low ≤ x → x < high → x' = x
  again : wrapAxis x' low high = x'

section Axes

variable {low high : Float}

open Binary64

theorem held_clampAxis (wide : low < high) (x v : Float) :
    Held low high x v (clampAxis x v low high).1 (clampAxis x v low high).2 := by
  rw [clampAxis]
  split
  · next below =>
    refine ⟨⟨lt_irrefl low, lt_asymm wide⟩, fun _ => ⟨rfl, ?_, fun inward => if_pos inward⟩, ?_, ?_⟩
    · dsimp only
      split
      · next inward => exact lt_asymm inward
      · exact lt_irrefl 0.0
    · exact fun above => absurd (lt_trans (lt_trans below wide) above) (lt_irrefl x)
    · exact fun inside => absurd below inside
  · next notBelow =>
    split
    · next above =>
      refine ⟨⟨lt_asymm wide, lt_irrefl high⟩, fun below => absurd below notBelow,
        fun _ => ⟨rfl, ?_, fun inward => if_pos inward⟩, fun _ inside => absurd above inside⟩
      dsimp only
      split
      · next inward => exact lt_asymm inward
      · exact lt_irrefl 0.0
    · next notAbove =>
      exact ⟨⟨notBelow, notAbove⟩, fun below => absurd below notBelow,
        fun above => absurd above notAbove, fun _ _ => ⟨rfl, rfl⟩⟩

theorem wrapAxis_of_inside {x : Float} (inside : low ≤ x ∧ x < high) : wrapAxis x low high = x := by
  rw [wrapAxis, if_pos]
  rw [Bool.and_eq_true, decide_eq_true_eq, decide_eq_true_eq]
  exact inside

/-- Wherever the coordinate was, the sum of the lower wall and a remainder is not below that wall
if it is a number, and it is only taken if it is below the upper one. -/
theorem wrapAxis_inside (finite : low.isFinite = true) (wide : low < high) (x : Float) :
    low ≤ wrapAxis x low high ∧ wrapAxis x low high < high := by
  rw [wrapAxis]
  split
  · next inside =>
    rw [Bool.and_eq_true, decide_eq_true_eq, decide_eq_true_eq] at inside
    exact inside
  · dsimp only
    split
    · next below =>
      have number : (remEuclid (x - low) (high - low)).isNaN = false := by
        by_contra missing
        rw [Bool.not_eq_false] at missing
        have sum := isNaN_add_nan (x := low) missing
        rw [(isNaN_of_le (le_of_lt below)).1] at sum
        cases sum
      exact ⟨le_add_of_nonneg finite (remEuclid_nonneg number), below⟩
    · exact ⟨(not_lt_iff (isFinite_iff.mp finite).1 (isFinite_iff.mp finite).1).mp (lt_irrefl low),
        wide⟩

theorem wrapped_wrapAxis (finite : low.isFinite = true) (wide : low < high) (x : Float) :
    Wrapped low high x (wrapAxis x low high) where
  inside := wrapAxis_inside finite wide x
  kept above below := wrapAxis_of_inside ⟨above, below⟩
  again := wrapAxis_of_inside (wrapAxis_inside finite wide x)

end Axes

theorem Bounds.apply_clamp {bounds : Bounds} (policy : bounds.policy = .clamp)
    (position velocity : Vec) (axis : Axis) :
    ((bounds.apply position velocity).1.along axis, (bounds.apply position velocity).2.along axis) =
      clampAxis (position.along axis) (velocity.along axis) (bounds.rect.min.along axis)
        (bounds.rect.max.along axis) := by
  rw [Bounds.apply, policy]
  cases axis <;> rfl

theorem Bounds.apply_wrap {bounds : Bounds} (policy : bounds.policy = .wrap)
    (position velocity : Vec) : (bounds.apply position velocity).2 = velocity ∧
      ∀ axis, (bounds.apply position velocity).1.along axis =
        wrapAxis (position.along axis) (bounds.rect.min.along axis)
          (bounds.rect.max.along axis) := by
  rw [Bounds.apply, policy]
  exact ⟨rfl, fun axis => by cases axis <;> rfl⟩

namespace World

variable {world : World} {tuning : Tuning} {bounds : Bounds} {state next : State} {dt h : Float}
  {id : String} {body : Body} {now after : BodyState}

/-- The body whose state is held under an id: the last with that id, and so the only one if no two
bodies have the same. -/
def bearer? (world : World) (id : String) : Option Body :=
  world.bodies.reverse.find? (·.id == id)

theorem bearer?_spec (bears : world.bearer? id = some body) :
    body ∈ world.bodies ∧ body.id = id := by
  rw [bearer?] at bears
  have same := List.find?_some bears
  rw [beq_iff_eq] at same
  exact ⟨List.mem_reverse.mp (List.mem_of_find?_eq_some bears), same⟩

theorem bearer?_of_distinct (distinct : world.ids.Nodup) (member : body ∈ world.bodies) :
    world.bearer? body.id = some body := by
  cases bears : world.bearer? body.id with
  | none =>
    have absent := List.find?_eq_none.mp bears body (List.mem_reverse.mpr member)
    exact absurd (beq_self_eq_true body.id) absent
  | some other =>
    rcases bearer?_spec bears with ⟨member', same⟩
    exact congrArg some (List.inj_on_of_nodup_map distinct member' member same)

def drift (world : World) (tuning : Tuning) (h : Float) (body : Body) (now : BodyState) :
    Vec × Vec :=
  let a := world.acceleration body now.position now.velocity tuning.minDistance
  let velocity := now.velocity + a * h
  (now.position + velocity * h, velocity)

theorem advanceBody_eq (particle : body.kind = .particle) (walled : world.bounds = some bounds)
    (h : Float) (now : BodyState) : world.advanceBody tuning h body now =
      let (position, velocity) := world.drift tuning h body now
      world.settle tuning body (bounds.apply position velocity).1
        (bounds.apply position velocity).2 := by
  rw [advanceBody, move, particle, walled]
  rfl

theorem get?_map_bodies (bodies : List Body) (stateOf : Body → BodyState) (id : String) :
    Fields.get? id (bodies.map fun body => (body.id, stateOf body)) =
      (bodies.find? (·.id == id)).map stateOf := by
  induction bodies with
  | nil => rfl
  | cons body rest ih =>
    rw [List.map_cons, Fields.get?, List.find?_cons]
    split
    · next same => rw [beq_iff_eq.mpr same]; rfl
    · next differ => rw [beq_eq_false_iff_ne.mpr differ, ih]

theorem step_bearer (taken : world.step tuning state dt = .ok next)
    (bears : world.bearer? id = some body) : next.bodies.get? id =
      some (world.advanceBody tuning (dt * world.timeScale) body (state.body id)) := by
  rcases step_eq_ok.mp taken with ⟨-, -, rfl⟩
  dsimp only
  rw [gather, Fields.get?_sorted, ← List.map_reverse, get?_map_bodies]
  change (world.bearer? id).map _ = _
  rw [bears, Option.map_some, (bearer?_spec bears).2]

theorem body_of_matching (matching : ∀ id, id ∈ state.bodies.keys ↔ id ∈ world.ids)
    (bears : world.bearer? id = some body) : state.bodies.get? id = some (state.body id) := by
  rcases bearer?_spec bears with ⟨member, rfl⟩
  have present := (matching body.id).mpr (List.mem_map_of_mem member)
  cases found : state.bodies.get? body.id with
  | none => exact absurd present (Fields.get?_eq_none_iff.mp found)
  | some now => rw [State.body, found]; rfl

structure Clamps (world : World) (tuning : Tuning) (bounds : Bounds) (h : Float) (body : Body)
    (now after : BodyState) : Prop where
  held : ∀ axis, Held (bounds.rect.min.along axis) (bounds.rect.max.along axis)
    ((world.drift tuning h body now).1.along axis) ((world.drift tuning h body now).2.along axis)
    (after.position.along axis) (after.velocity.along axis)
  settled : after.acceleration =
    world.acceleration body after.position after.velocity tuning.minDistance
  /-- Another move that is the same on an axis ends the same on it. -/
  alone : ∀ h' now' axis,
    (world.drift tuning h' body now').1.along axis = (world.drift tuning h body now).1.along axis →
    (world.drift tuning h' body now').2.along axis = (world.drift tuning h body now).2.along axis →
    (world.advanceBody tuning h' body now').position.along axis = after.position.along axis ∧
    (world.advanceBody tuning h' body now').velocity.along axis = after.velocity.along axis

theorem clamps_advanceBody (particle : body.kind = .particle)
    (walled : world.bounds = some bounds) (policy : bounds.policy = .clamp)
    (wide : ∀ axis, bounds.rect.min.along axis < bounds.rect.max.along axis) :
    world.Clamps tuning bounds h body now (world.advanceBody tuning h body now) := by
  have clamped : ∀ h now axis,
      ((world.advanceBody tuning h body now).position.along axis,
        (world.advanceBody tuning h body now).velocity.along axis) =
      clampAxis ((world.drift tuning h body now).1.along axis)
        ((world.drift tuning h body now).2.along axis) (bounds.rect.min.along axis)
        (bounds.rect.max.along axis) := by
    intro h now axis
    rw [advanceBody_eq particle walled]
    exact Bounds.apply_clamp policy _ _ axis
  refine ⟨fun axis => ?_, ?_, fun h' now' axis place speed => ?_⟩
  · have held := held_clampAxis (wide axis) ((world.drift tuning h body now).1.along axis)
      ((world.drift tuning h body now).2.along axis)
    rwa [← clamped] at held
  · rw [advanceBody_eq particle walled]
    rfl
  · have same := clamped h' now' axis
    rw [place, speed, ← clamped h now axis, Prod.mk.injEq] at same
    exact same

structure Wraps (world : World) (tuning : Tuning) (bounds : Bounds) (h : Float) (body : Body)
    (now after : BodyState) : Prop where
  wrapped : ∀ axis, Wrapped (bounds.rect.min.along axis) (bounds.rect.max.along axis)
    ((world.drift tuning h body now).1.along axis) (after.position.along axis)
  velocity : after.velocity = (world.drift tuning h body now).2

theorem wraps_advanceBody (particle : body.kind = .particle)
    (walled : world.bounds = some bounds) (policy : bounds.policy = .wrap)
    (finite : ∀ axis, (bounds.rect.min.along axis).isFinite = true)
    (wide : ∀ axis, bounds.rect.min.along axis < bounds.rect.max.along axis) :
    world.Wraps tuning bounds h body now (world.advanceBody tuning h body now) := by
  rw [advanceBody_eq particle walled]
  rcases Bounds.apply_wrap policy (world.drift tuning h body now).1
    (world.drift tuning h body now).2 with ⟨velocity, position⟩
  refine ⟨fun axis => ?_, velocity⟩
  have wrapped := wrapped_wrapAxis (finite axis) (wide axis)
    ((world.drift tuning h body now).1.along axis)
  rwa [← position] at wrapped

/-- Clamping walls hold: whatever the values of a state, a step from it leaves no particle beyond a
wall, none with a velocity outwards at the wall it was taken back to, and all else as it was. -/
theorem step_clamps (world : World) (tuning : Tuning) (bounds : Bounds)
    (walled : world.bounds = some bounds) (policy : bounds.policy = .clamp)
    (wide : ∀ axis, bounds.rect.min.along axis < bounds.rect.max.along axis) (state : State)
    (matching : ∀ id, id ∈ state.bodies.keys ↔ id ∈ world.ids) (dt : Float)
    (accepted : dt.isFinite = true ∧ 0.0 < dt) :
    ∃ next, world.step tuning state dt = .ok next ∧
      ∀ id body, world.bearer? id = some body → body.kind = .particle →
        ∃ now after, state.bodies.get? id = some now ∧ next.bodies.get? id = some after ∧
          world.Clamps tuning bounds (dt * world.timeScale) body now after := by
  obtain ⟨next, taken⟩ : ∃ next, world.step tuning state dt = .ok next :=
    exists_step matching accepted
  refine ⟨next, taken, fun id body bears particle => ?_⟩
  exact ⟨_, _, body_of_matching matching bears, step_bearer taken bears,
    clamps_advanceBody particle walled policy wide⟩

/-- Wrapping walls keep every particle inside: whatever the values of a state, a step from it leaves
each coordinate at the lower wall or between it and the upper one. -/
theorem step_wraps (world : World) (tuning : Tuning) (bounds : Bounds)
    (walled : world.bounds = some bounds) (policy : bounds.policy = .wrap)
    (finite : ∀ axis, (bounds.rect.min.along axis).isFinite = true)
    (wide : ∀ axis, bounds.rect.min.along axis < bounds.rect.max.along axis) (state : State)
    (matching : ∀ id, id ∈ state.bodies.keys ↔ id ∈ world.ids) (dt : Float)
    (accepted : dt.isFinite = true ∧ 0.0 < dt) :
    ∃ next, world.step tuning state dt = .ok next ∧
      ∀ id body, world.bearer? id = some body → body.kind = .particle →
        ∃ now after, state.bodies.get? id = some now ∧ next.bodies.get? id = some after ∧
          world.Wraps tuning bounds (dt * world.timeScale) body now after := by
  obtain ⟨next, taken⟩ : ∃ next, world.step tuning state dt = .ok next :=
    exists_step matching accepted
  refine ⟨next, taken, fun id body bears particle => ?_⟩
  exact ⟨_, _, body_of_matching matching bears, step_bearer taken bears,
    wraps_advanceBody particle walled policy finite wide⟩

end World

def State.astray : State :=
  { time := Binary64.nan
    tick := 7
    bodies :=
      [("bob", ⟨⟨Binary64.infinity, Binary64.nan⟩, ⟨3, -2⟩, Vec.zero⟩),
        ("pin", ⟨⟨3, 0⟩, Vec.zero, Vec.zero⟩)] }

def Bounds.vast : Bounds :=
  ⟨⟨⟨-(Float.ofBits 0x7FEFFFFFFFFFFFFF), -1⟩, ⟨Float.ofBits 0x7FEFFFFFFFFFFFFF, 1⟩⟩, .wrap⟩

def World.ring : World :=
  { World.pinned with bounds := some .vast }

theorem State.astray_matching (id : String) :
    id ∈ State.astray.bodies.keys ↔ id ∈ World.pinned.ids :=
  List.Perm.mem_iff (.swap ..)

theorem World.pinned_distinct : World.pinned.ids.Nodup := by decide

theorem World.step_clamps_pinned :
    (∀ axis, (⟨-1, -1⟩ : Vec).along axis < (⟨1, 1⟩ : Vec).along axis) ∧
      (∀ id, id ∈ State.astray.bodies.keys ↔ id ∈ pinned.ids) ∧
      ((0.5 : Float).isFinite = true ∧ 0.0 < (0.5 : Float)) ∧
      ∃ next, pinned.step {} State.astray 0.5 = .ok next ∧
        ∀ body ∈ pinned.bodies, body.kind = .particle →
          ∃ now after, State.astray.bodies.get? body.id = some now ∧
            next.bodies.get? body.id = some after ∧
            pinned.Clamps {} ⟨⟨⟨-1, -1⟩, ⟨1, 1⟩⟩, .clamp⟩ (0.5 * 1) body now after := by
  have wide : ∀ axis, (⟨-1, -1⟩ : Vec).along axis < (⟨1, 1⟩ : Vec).along axis := by
    intro axis
    cases axis <;> decide +kernel
  have accepted : (0.5 : Float).isFinite = true ∧ 0.0 < (0.5 : Float) := by decide +kernel
  refine ⟨wide, State.astray_matching, accepted, ?_⟩
  rcases step_clamps pinned {} _ rfl rfl wide State.astray State.astray_matching 0.5 accepted with
    ⟨next, taken, clamps⟩
  exact ⟨next, taken, fun body member => clamps _ _ (bearer?_of_distinct pinned_distinct member)⟩

theorem World.step_wraps_ring :
    (∀ axis, (Bounds.vast.rect.min.along axis).isFinite = true) ∧
      (∀ axis, Bounds.vast.rect.min.along axis < Bounds.vast.rect.max.along axis) ∧
      (∀ id, id ∈ State.astray.bodies.keys ↔ id ∈ ring.ids) ∧
      ((0.5 : Float).isFinite = true ∧ 0.0 < (0.5 : Float)) ∧
      ∃ next, ring.step {} State.astray 0.5 = .ok next ∧
        ∀ body ∈ ring.bodies, body.kind = .particle →
          ∃ now after, State.astray.bodies.get? body.id = some now ∧
            next.bodies.get? body.id = some after ∧
            ring.Wraps {} Bounds.vast (0.5 * 1) body now after := by
  have finite : ∀ axis, (Bounds.vast.rect.min.along axis).isFinite = true := by
    intro axis
    cases axis <;> decide +kernel
  have wide : ∀ axis,
      Bounds.vast.rect.min.along axis < Bounds.vast.rect.max.along axis := by
    intro axis
    cases axis <;> decide +kernel
  have accepted : (0.5 : Float).isFinite = true ∧ 0.0 < (0.5 : Float) := by decide +kernel
  refine ⟨finite, wide, State.astray_matching, accepted, ?_⟩
  rcases step_wraps ring {} .vast rfl rfl finite wide State.astray State.astray_matching 0.5
    accepted with ⟨next, taken, wraps⟩
  exact ⟨next, taken, fun body member => wraps _ _ (bearer?_of_distinct pinned_distinct member)⟩

end ParticleSim
