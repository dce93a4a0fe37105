import ParticleSim.World.Basic

namespace ParticleSim

structure View where
  center : Vec := Vec.zero
  /-- The whole width and height. -/
  extent : Vec := ⟨20.0, 20.0⟩
  /-- The length of an arrow for one unit of what it shows. -/
  vectorScale : Float := 0.1
  gridSpacing : Float := 1.0
  deriving DecidableEq, Repr

namespace View

def framing (rect : Rect) : View :=
  { center := rect.center, extent := rect.size }

def visible (view : View) : Rect :=
  let half := view.extent * (0.5 : Float)
  ⟨view.center - half, view.center + half⟩

def ofWorld (world : World) : View :=
  match world.bounds with
  | some bounds => framing bounds.rect
  | none => {}

end View
end ParticleSim
