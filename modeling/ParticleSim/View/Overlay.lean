import ParticleSim.View.Basic
import ParticleSim.World.State

namespace ParticleSim

inductive ArrowKind where
  | velocity
  | acceleration
  deriving DecidableEq, Repr

structure Arrow where
  body : String
  kind : ArrowKind
  start : Vec
  stop : Vec
  deriving DecidableEq, Repr

structure Segment where
  start : Vec
  stop : Vec
  deriving DecidableEq, Repr

namespace View

def arrow? (view : View) (id : String) (kind : ArrowKind) (place v : Vec) : Option Arrow :=
  if v.isZero then none else some ⟨id, kind, place, place + v * view.vectorScale⟩

def arrows (view : View) (state : State) : List Arrow :=
  state.bodies.flatMap fun (id, body) =>
    (view.arrow? id .velocity body.position body.velocity).toList ++
      (view.arrow? id .acceleration body.position body.acceleration).toList

end View

structure Ruling where
  low : Float
  high : Float
  spacing : Float

namespace Ruling

def first (ruling : Ruling) : Float :=
  Binary64.ceil (ruling.low / ruling.spacing)

/-- How many lines there are; none where the count is out of range. -/
def count (ruling : Ruling) : Nat :=
  let lines := Binary64.floor (ruling.high / ruling.spacing) - ruling.first + 1.0
  if lines.isFinite then (Binary64.exact lines).floor.toNat else 0

def ticks (ruling : Ruling) : List Float :=
  (List.range ruling.count).map fun i => (ruling.first + Float.ofNat i) * ruling.spacing

end Ruling

namespace Grid

def maxLines : Nat := 200

/-- From the least to beyond the greatest number there are so many doublings. -/
def maxDoublings : Nat := 2098

def across (area : Rect) (spacing : Float) : Ruling := ⟨area.min.x, area.max.x, spacing⟩
def along (area : Rect) (spacing : Float) : Ruling := ⟨area.min.y, area.max.y, spacing⟩

def fits (area : Rect) (spacing : Float) : Bool :=
  (across area spacing).count ≤ maxLines && (along area spacing).count ≤ maxLines

def widen? (area : Rect) : Nat → Float → Option Float
  | doublings, spacing =>
    if fits area spacing then some spacing
    else
      match doublings with
      | 0 => none
      | doublings + 1 => widen? area doublings (spacing * 2.0)

def segments (area : Rect) (spacing : Float) : List Segment :=
  ((across area spacing).ticks.map fun x => ⟨⟨x, area.min.y⟩, ⟨x, area.max.y⟩⟩) ++
    ((along area spacing).ticks.map fun y => ⟨⟨area.min.x, y⟩, ⟨area.max.x, y⟩⟩)

end Grid

namespace View

def gridArea (view : View) (world : World) : Rect :=
  match world.bounds with
  | some bounds => bounds.rect
  | none => view.visible

/-- The grid of a view; there is none unless the spacing is positive and finite. -/
def grid (view : View) (world : World) : List Segment :=
  let area := view.gridArea world
  if view.gridSpacing.isFinite && 0.0 < view.gridSpacing then
    match Grid.widen? area Grid.maxDoublings view.gridSpacing with
    | some spacing => if spacing.isFinite then Grid.segments area spacing else []
    | none => []
  else []

end View
end ParticleSim
