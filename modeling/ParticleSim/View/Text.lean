import ParticleSim.View.Basic
import ParticleSim.World.Energy

namespace ParticleSim

def Vec.fixed (places : Nat) (v : Vec) : String :=
  "(" ++ ParticleSim.fixed places v.x ++ ", " ++ ParticleSim.fixed places v.y ++ ")"

namespace View

def energyText (world : World) (state : State) : String :=
  "Energy: kinetic=" ++ fixed 4 (world.kineticEnergy state) ++
    " potential=" ++ fixed 4 (world.potentialEnergy state) ++
    " total=" ++ fixed 4 (world.totalEnergy state) ++ "\n"

def bodyText (view : View) (id : String) (body : BodyState) : String :=
  "  [" ++ id ++ "] pos=" ++ body.position.fixed 3 ++ " vel=" ++ body.velocity.fixed 3 ++
    " acc=" ++ body.acceleration.fixed 3 ++
    (if view.visible.contains body.position then "\n" else " (off view)\n")

def text (view : View) (world : World) (state : State) (withEnergy : Bool) : String :=
  "=== Simulation State (tick=" ++ toString state.tick.toNat ++
    ", time=" ++ fixed 3 state.time ++ ") ===\n" ++
    (match world.name with
      | some name => "Scenario: " ++ name ++ "\n"
      | none => "") ++
    "Bodies: " ++ toString state.bodies.length ++ "\n" ++
    "View: center=" ++ view.center.fixed 1 ++ " extent=" ++ view.extent.fixed 1 ++ "\n" ++
    (if withEnergy then energyText world state else "") ++
    String.join (state.bodies.map fun (id, body) => view.bodyText id body)

end View
end ParticleSim
