import ParticleSim.Number.Binary64

namespace ParticleSim

structure Vec where
  x : Float
  y : Float
  deriving DecidableEq, Repr

namespace Vec

def zero : Vec := ⟨0.0, 0.0⟩

def add (a b : Vec) : Vec := ⟨a.x + b.x, a.y + b.y⟩
def sub (a b : Vec) : Vec := ⟨a.x - b.x, a.y - b.y⟩
def scale (v : Vec) (k : Float) : Vec := ⟨v.x * k, v.y * k⟩
def shrink (v : Vec) (k : Float) : Vec := ⟨v.x / k, v.y / k⟩

instance : Add Vec := ⟨add⟩
instance : Sub Vec := ⟨sub⟩
instance : HMul Vec Float Vec := ⟨scale⟩
instance : HDiv Vec Float Vec := ⟨shrink⟩

def dot (a b : Vec) : Float := a.x * b.x + a.y * b.y

def length (v : Vec) : Float := (v.dot v).sqrt

def isFinite (v : Vec) : Bool := v.x.isFinite && v.y.isFinite

/-- Both components are zero, of either sign. -/
def isZero (v : Vec) : Bool := v.x == 0.0 && v.y == 0.0

end Vec

structure Rect where
  min : Vec
  max : Vec
  deriving DecidableEq, Repr

namespace Rect

def size (rect : Rect) : Vec := rect.max - rect.min

def center (rect : Rect) : Vec := (rect.min + rect.max) * (0.5 : Float)

def contains (rect : Rect) (point : Vec) : Bool :=
  rect.min.x ≤ point.x && point.x ≤ rect.max.x && rect.min.y ≤ point.y && point.y ≤ rect.max.y

end Rect
end ParticleSim
