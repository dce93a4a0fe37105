import ParticleSim.Proofs.Number.Product
import ParticleSim.Proofs.World.EqualTrees
import ParticleSim.Proofs.World.Stepping
/-!
Motion without forces. A particle on which no force acts, in a world without walls, is never
accelerated. It keeps its velocity for as long as the times of the steps, scaled by the world, are
finite, and no longer: a step takes every finite time, also one that the scale makes infinite, and
then zero acceleration times the scaled time is not a number.
-/
namespace ParticleSim

theorem Force.evaluate_of_idle {force : Force} {body : Body}
    (idle : force.appliesTo body.id = false) (position velocity : Vec) (minDistance : Float) :
    force.evaluate body position velocity minDistance = Vec.zero := by
  simp [Force.evaluate, idle]

namespace World

open Binary64

variable {world : World} {tuning : Tuning} {body : Body} {now : BodyState} {dt h : Float}

def Free (world : World) (body : Body) : Prop :=
  ∀ force ∈ world.forces, force.appliesTo body.id = false

theorem Free.netForce (free : world.Free body) (position velocity : Vec) (minDistance : Float) :
    world.netForce body position velocity minDistance = Vec.zero := by
  have sum : ∀ forces : List Force, (∀ force ∈ forces, force.appliesTo body.id = false) →
      forces.foldl (fun total force => total + force.evaluate body position velocity minDistance)
        Vec.zero = Vec.zero := by
    intro forces
    induction forces with
    | nil => exact fun _ => rfl
    | cons force rest ih =>
      intro idle
      rw [List.forall_mem_cons] at idle
      have zero : Vec.zero + Vec.zero = Vec.zero := by decide +kernel
      rw [List.foldl_cons, Force.evaluate_of_idle idle.1, zero]
      exact ih idle.2
  exact sum world.forces free

theorem Free.acceleration (free : world.Free body) (sound : body.Sound)
    (position velocity : Vec) (minDistance : Float) :
    world.acceleration body position velocity minDistance = Vec.zero := by
  have component : 0.0 / body.mass = 0.0 := zero_div sound.mass.1 sound.mass.2
  have quotient : Vec.zero / body.mass = Vec.zero := congrArg₂ Vec.mk component component
  rw [World.acceleration]
  cases body.kind with
  | fixed => rfl
  | particle =>
    dsimp only
    rw [free.netForce, quotient, ite_self]

theorem Free.advanceBody (free : world.Free body) (sound : body.Sound)
    (particle : body.kind = .particle) (unbounded : world.bounds = none) :
    world.advanceBody tuning h body now =
      ⟨now.position + (now.velocity + Vec.zero * h) * h, now.velocity + Vec.zero * h,
        Vec.zero⟩ := by
  rw [World.advanceBody, move, particle, unbounded]
  dsimp only
  rw [settle, free.acceleration sound, free.acceleration sound]

theorem coast_alike_iff {v w : Vec} (number : h.isNaN = false) :
    (v + Vec.zero * h).Alike w ↔ v.Alike w ∧ h.isFinite = true := by
  constructor
  · intro same
    have x := (coast_beq_iff number).mp same.x
    have y := (coast_beq_iff number).mp same.y
    exact ⟨⟨x.1, y.1⟩, x.2⟩
  · intro given
    exact ⟨(coast_beq_iff number).mpr ⟨given.1.x, given.2⟩,
      (coast_beq_iff number).mpr ⟨given.1.y, given.2⟩⟩

theorem coast_lost (infinite : h.isInf = true) (v : Vec) : v + Vec.zero * h = ⟨nan, nan⟩ := by
  have lost : ∀ x : Float, x + 0.0 * h = nan := fun x =>
    eq_nan (isNaN_add_nan (isNaN_zero_mul infinite))
  exact congrArg₂ Vec.mk (lost v.x) (lost v.y)

structure Coasts (world : World) (body : Body) (steps : List Float) (now : BodyState) : Prop where
  acceleration : now.acceleration = Vec.zero
  velocity : now.velocity.Alike body.velocity ↔
    ∀ dt ∈ steps, (dt * world.timeScale).isFinite = true

theorem Free.coasts_startOf (free : world.Free body) (sound : body.Sound)
    (particle : body.kind = .particle) : world.Coasts body [] (world.startOf tuning body) := by
  have velocity : (world.startOf tuning body).velocity = body.velocity := by
    rw [startOf, particle]
    rfl
  refine ⟨free.acceleration sound .., ?_⟩
  rw [velocity]
  have same : body.velocity.Alike body.velocity :=
    ⟨beq_self (isFinite_iff.mp sound.velocity.1).1, beq_self (isFinite_iff.mp sound.velocity.2).1⟩
  simp [same]

theorem Coasts.step {steps : List Float} (coasts : world.Coasts body steps now)
    (free : world.Free body) (sound : body.Sound) (particle : body.kind = .particle)
    (unbounded : world.bounds = none) (number : (dt * world.timeScale).isNaN = false) :
    world.Coasts body (steps ++ [dt])
      (world.advanceBody tuning (dt * world.timeScale) body now) := by
  rw [free.advanceBody sound particle unbounded]
  refine ⟨rfl, ?_⟩
  rw [coast_alike_iff number, coasts.velocity, List.forall_mem_append, List.forall_mem_singleton]

theorem Run.coasts (sound : world.Sound) (unbounded : world.bounds = none)
    (member : body ∈ world.bodies) (particle : body.kind = .particle) (free : world.Free body)
    {steps : List Float} {earlier : List State} {last : State}
    (run : world.Run tuning steps earlier last) :
    ∀ (i : Nat) (state : State), (earlier ++ [last])[i]? = some state →
      ∃ now, state.bodies.get? body.id = some now ∧ world.Coasts body (steps.take i) now := by
  have distinct : world.ids.Nodup := sound.distinct
  have fine : body.Sound := sound.bodies body member
  refine run.along (fun steps state => ∃ now, state.bodies.get? body.id = some now ∧
    world.Coasts body steps now) ?_ ?_
  · exact ⟨world.startOf tuning body, get?_gather distinct (world.startOf tuning) member,
      free.coasts_startOf fine particle⟩
  · intro steps state dt next before taken
    rcases before with ⟨now, held, coasts⟩
    have same : state.body body.id = now := by rw [State.body, held]; rfl
    have accepted := (step_eq_ok.mp taken).1
    refine ⟨_, step_body distinct taken member, ?_⟩
    rw [same]
    exact coasts.step free fine particle unbounded (isNaN_mul accepted.1 sound.timeScale.1)

/-- Without forces and walls a particle is never accelerated, in any state of any run, and its
velocity is the initial one exactly if all steps so far went over a finite time. -/
theorem coasts_of_ofNode (node : Node) (world : World) (built : ofNode node = .ok world)
    (unbounded : world.bounds = none) (body : Body) (member : body ∈ world.bodies)
    (particle : body.kind = .particle)
    (free : ∀ force ∈ world.forces, force.appliesTo body.id = false) (tuning : Tuning)
    (steps : List Float) (earlier : List State) (last : State)
    (run : world.Run tuning steps earlier last) (i : Nat) (state : State)
    (reached : (earlier ++ [last])[i]? = some state) :
    ∃ now, state.bodies.get? body.id = some now ∧ now.acceleration = Vec.zero ∧
      (now.velocity.Alike body.velocity ↔
        ∀ dt ∈ steps.take i, (dt * world.timeScale).isFinite = true) := by
  have sound : world.Sound := (sound_of_ofNode built).2
  rcases run.coasts sound unbounded member particle free i state reached with ⟨now, held, coasts⟩
  exact ⟨now, held, coasts.acceleration, coasts.velocity⟩

end World

/-- One particle and no forces, and time that passes twice as fast as the steps say. -/
def Node.hasty : Node :=
  let point (x y : Int64) : Node := .mapping [("x", .ofInt64 x), ("y", .ofInt64 y)]
  .mapping
    [("timeScale", .ofInt64 2),
      ("bodies", .sequence
        [.mapping [("id", .ofString "a"), ("mass", .ofInt64 1), ("position", point 0 0),
          ("velocity", point 1 2)]])]

namespace World

def hasty : World :=
  { name := none
    timeScale := 2
    bounds := none
    bodies := [⟨"a", .particle, 1, Vec.zero, ⟨1, 2⟩⟩]
    forces := [] }

theorem ofNode_hasty : ofNode Node.hasty = .ok hasty := by rfl

theorem free_hasty (body : Body) : hasty.Free body := List.forall_mem_nil _

theorem distinct_hasty : hasty.ids.Nodup := by decide

theorem coasts_of_ofNode_hasty :
    ofNode Node.hasty = .ok hasty ∧ hasty.bounds = none ∧
      (∀ body ∈ hasty.bodies, body.kind = .particle ∧ hasty.Free body) ∧
      ∃ earlier last, hasty.Run {} [0.5, 1e308] earlier last ∧
        ∀ (i : Nat) (state : State), (earlier ++ [last])[i]? = some state →
          ∀ body ∈ hasty.bodies, ∃ now, state.bodies.get? body.id = some now ∧
            now.acceleration = Vec.zero ∧ (now.velocity.Alike body.velocity ↔
              ∀ dt ∈ ([0.5, 1e308] : List Float).take i, (dt * 2).isFinite = true) := by
  have particles : ∀ body ∈ hasty.bodies, body.kind = .particle := by decide
  have accepted : ∀ dt ∈ ([0.5, 1e308] : List Float), dt.isFinite = true ∧ 0.0 < dt := by
    decide +kernel
  obtain ⟨earlier, last, run⟩ : ∃ earlier last, hasty.Run {} [0.5, 1e308] earlier last :=
    exists_run distinct_hasty _ accepted
  refine ⟨ofNode_hasty, rfl, fun body member => ⟨particles body member, free_hasty body⟩,
    earlier, last, run, fun i state reached body member => ?_⟩
  exact coasts_of_ofNode _ _ ofNode_hasty rfl body member (particles body member)
    (free_hasty body) {} _ earlier last run i state reached

/-- An accepted step over an infinite time leaves a particle that no force acts on without a
velocity. -/
theorem velocity_lost_hasty :
    ofNode Node.hasty = .ok hasty ∧ hasty.bounds = none ∧ hasty.forces = [] ∧
      ∃ body ∈ hasty.bodies, body.kind = .particle ∧
        ∃ next, hasty.Run {} [1e308] [hasty.initialState {}] next ∧
          ∃ now, next.bodies.get? body.id = some now ∧
            now.velocity = ⟨Binary64.nan, Binary64.nan⟩ ∧ ¬now.velocity.Alike body.velocity := by
  have accepted : Magnitude (0.0 < ·) (1e308 : Float) := by
    rw [Magnitude]
    decide +kernel
  obtain ⟨next, taken⟩ : ∃ next, hasty.step {} (hasty.initialState {}) 1e308 = .ok next :=
    exists_step (fun id => (consistent_initialState distinct_hasty).ids.mem_iff) accepted
  have member : ⟨"a", .particle, 1, Vec.zero, ⟨1, 2⟩⟩ ∈ hasty.bodies :=
    List.mem_singleton_self _
  refine ⟨ofNode_hasty, rfl, rfl, _, member, rfl, next, .step .start taken, _,
    step_body distinct_hasty taken member, ?_⟩
  have sound := (sound_of_ofNode ofNode_hasty).2.bodies _ member
  have infinite : ((1e308 : Float) * hasty.timeScale).isInf = true := by decide +kernel
  rw [(free_hasty _).advanceBody sound rfl rfl, coast_lost infinite]
  refine ⟨rfl, fun same => ?_⟩
  have number : Binary64.nan.isNaN = false := Binary64.isNaN_of_beq same.x
  exact absurd number (by decide +kernel)

end World
end ParticleSim
