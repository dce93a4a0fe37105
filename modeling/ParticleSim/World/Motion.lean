import ParticleSim.World.State
/-!
Stepping a world. A step takes the velocity from the acceleration, the position from the new
velocity, brings the position back into the bounds, and then finds the acceleration at the new
place.
-/
namespace ParticleSim

structure Tuning where
  /-- Longer timesteps are taken all the same. -/
  stabilityCeiling : Float := 0.0333
  /-- The least distance that is divided by. -/
  minDistance : Float := 1e-9
  deriving DecidableEq, Repr

inductive StepError where
  | invalidTimestep (dt : Float)
  | unknownBody (id : String)
  deriving DecidableEq, Repr

def StepError.message : StepError → String
  | .invalidTimestep dt => "timestep must be positive and finite, got " ++ messageNumber dt
  | .unknownBody id => "state does not match world: body \x60" ++ id ++ "\x60"

def Force.evaluate (force : Force) (body : Body) (position velocity : Vec) (minDistance : Float) :
    Vec :=
  if force.appliesTo body.id then
    match force with
    | .gravity g _ => g * body.mass
    | .drag coefficient _ => velocity * (-coefficient)
    | .spring anchor _ stiffness restLength =>
      let offset := position - anchor
      let distance := Binary64.max offset.length minDistance
      (offset / distance) * (-stiffness * (distance - restLength))
  else Vec.zero

namespace World

def netForce (world : World) (body : Body) (position velocity : Vec) (minDistance : Float) : Vec :=
  world.forces.foldl
    (fun total force => total + force.evaluate body position velocity minDistance) Vec.zero

/-- The acceleration of a body: zero for a fixed one, and zero in place of what is not finite. -/
def acceleration (world : World) (body : Body) (position velocity : Vec) (minDistance : Float) :
    Vec :=
  match body.kind with
  | .fixed => Vec.zero
  | .particle =>
    let a := world.netForce body position velocity minDistance / body.mass
    if a.isFinite then a else Vec.zero

def settle (world : World) (tuning : Tuning) (body : Body) (position velocity : Vec) : BodyState :=
  ⟨position, velocity, world.acceleration body position velocity tuning.minDistance⟩

def startOf (world : World) (tuning : Tuning) (body : Body) : BodyState :=
  let velocity := match body.kind with
    | .particle => body.velocity
    | .fixed => Vec.zero
  world.settle tuning body body.position velocity

def initialState (world : World) (tuning : Tuning) : State :=
  ⟨0.0, 0, Fields.sorted (world.bodies.map fun body => (body.id, world.startOf tuning body))⟩

end World

/-- Hold a coordinate at the wall that it passed, and keep no velocity outwards. -/
def clampAxis (x v low high : Float) : Float × Float :=
  if x < low then (low, if 0.0 < v then v else 0.0)
  else if high < x then (high, if v < 0.0 then v else 0.0)
  else (x, v)

/-- Move a coordinate by whole widths into the bounds. Rounding may reach the upper wall, which
counts as the lower one. -/
def wrapAxis (x low high : Float) : Float :=
  if low ≤ x && x < high then x
  else
    let wrapped := low + Binary64.remEuclid (x - low) (high - low)
    if wrapped < high then wrapped else low

def Bounds.apply (bounds : Bounds) (position velocity : Vec) : Vec × Vec :=
  let low := bounds.rect.min
  let high := bounds.rect.max
  match bounds.policy with
  | .clamp =>
    let (x, vx) := clampAxis position.x velocity.x low.x high.x
    let (y, vy) := clampAxis position.y velocity.y low.y high.y
    (⟨x, y⟩, ⟨vx, vy⟩)
  | .wrap => (⟨wrapAxis position.x low.x high.x, wrapAxis position.y low.y high.y⟩, velocity)

namespace World

def move (world : World) (tuning : Tuning) (h : Float) (body : Body) (now : BodyState) :
    Vec × Vec :=
  match body.kind with
  | .fixed => (now.position, Vec.zero)
  | .particle =>
    let a := world.acceleration body now.position now.velocity tuning.minDistance
    let velocity := now.velocity + a * h
    let position := now.position + velocity * h
    match world.bounds with
    | some bounds => bounds.apply position velocity
    | none => (position, velocity)

def advanceBody (world : World) (tuning : Tuning) (h : Float) (body : Body) (now : BodyState) :
    BodyState :=
  let (position, velocity) := world.move tuning h body now
  world.settle tuning body position velocity

/-- The state after one step of `dt`, scaled by the world's time. The state must hold exactly the
world's bodies; a body that the world lacks is reported before one that the state lacks. -/
def step (world : World) (tuning : Tuning) (state : State) (dt : Float) :
    Except StepError State := do
  if !(dt.isFinite && 0.0 < dt) then throw (.invalidTimestep dt)
  match state.bodies.find? fun entry => (world.body? entry.1).isNone with
  | some (stray, _) => throw (.unknownBody stray)
  | none =>
    let h := dt * world.timeScale
    let bodies ← world.bodies.mapM fun body =>
      match state.bodies.get? body.id with
      | some now => pure (body.id, world.advanceBody tuning h body now)
      | none => throw (.unknownBody body.id)
    return ⟨state.time + h, state.tick + 1, Fields.sorted bodies⟩

end World
end ParticleSim
