import ParticleSim.World.Vector

namespace ParticleSim

inductive BodyKind where
  /-- Moves under the forces. -/
  | particle
  /-- Stays where it is; forces on it have no effect. -/
  | fixed
  deriving DecidableEq, Repr

structure Body where
  id : String
  kind : BodyKind
  mass : Float
  position : Vec
  velocity : Vec
  deriving DecidableEq, Repr

inductive Policy where
  /-- It stops at the wall and keeps no velocity outwards. -/
  | clamp
  /-- It comes back in on the opposite side. -/
  | wrap
  deriving DecidableEq, Repr

structure Bounds where
  rect : Rect
  policy : Policy
  deriving DecidableEq, Repr

inductive Targets where
  | all
  | only (ids : List String)
  deriving DecidableEq, Repr

inductive Force where
  /-- A uniform field, in proportion to the mass. -/
  | gravity (g : Vec) (targets : Targets)
  /-- Against the velocity and in proportion to it. -/
  | drag (coefficient : Float) (targets : Targets)
  /-- A spring between an anchor and one body. -/
  | spring (anchor : Vec) (body : String) (stiffness restLength : Float)
  deriving DecidableEq, Repr

structure World where
  name : Option String
  timeScale : Float
  bounds : Option Bounds
  bodies : List Body
  forces : List Force
  deriving DecidableEq, Repr

def Targets.includes (id : String) : Targets → Bool
  | .all => true
  | .only ids => ids.contains id

def Force.kind : Force → String
  | .gravity .. => "gravity"
  | .drag .. => "drag"
  | .spring .. => "spring"

def Force.appliesTo (id : String) : Force → Bool
  | .gravity _ targets => targets.includes id
  | .drag _ targets => targets.includes id
  | .spring _ body _ _ => body == id

namespace World

def body? (world : World) (id : String) : Option Body :=
  world.bodies.find? (·.id == id)

end World
end ParticleSim
