import ParticleSim.World.State

namespace ParticleSim

namespace World

def particles (world : World) (state : State) : List (Body × BodyState) :=
  world.bodies.filterMap fun body =>
    match body.kind with
    | .fixed => none
    | .particle => (state.bodies.get? body.id).map (body, ·)

/-- The sum over no bodies is a negative zero, which adds nothing to any number. -/
def kineticEnergy (world : World) (state : State) : Float :=
  (world.particles state).foldl
    (fun total (body, now) => total + 0.5 * body.mass * now.velocity.dot now.velocity) (-0.0)

def storedBy (force : Force) (body : Body) (now : BodyState) : Float :=
  match force with
  | .gravity g _ => -body.mass * g.dot now.position
  | .drag .. => 0.0
  | .spring anchor _ stiffness restLength =>
    let stretch := (now.position - anchor).length - restLength
    0.5 * stiffness * stretch * stretch

def potentialEnergy (world : World) (state : State) : Float :=
  (world.particles state).foldl
    (fun total (body, now) =>
      (world.forces.filter (·.appliesTo body.id)).foldl
        (fun total force => total + storedBy force body now) total) 0.0

def totalEnergy (world : World) (state : State) : Float :=
  world.kineticEnergy state + world.potentialEnergy state

end World
end ParticleSim
