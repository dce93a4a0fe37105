namespace ParticleSim

/-- Runs of code points in ascending order: a start, the first point behind the run, and so on. -/
abbrev CharRuns := List Nat

def CharRuns.contains : CharRuns → Nat → Bool
  | start :: stop :: rest, point =>
    if point < start then false else if point < stop then true else contains rest point
  | _, _ => false

/-- Every `stride`-th code point from `first` to `last` has its base form `distance` points
before. -/
structure CaseShift where
  first : Nat
  last : Nat
  stride : Nat
  distance : Nat
  deriving DecidableEq, Repr

def CaseShift.covers (shift : CaseShift) (point : Nat) : Bool :=
  shift.first ≤ point && point ≤ shift.last && (point - shift.first) % shift.stride == 0

def CaseShift.base (shifts : List CaseShift) (point : Nat) : Nat :=
  match shifts.find? (·.covers point) with
  | some shift => point - shift.distance
  | none => point

def CaseShift.variants (shifts : List CaseShift) (point : Nat) : List Nat :=
  let base := CaseShift.base shifts point
  base :: shifts.filterMap fun shift =>
    if shift.covers (base + shift.distance) then some (base + shift.distance) else none

end ParticleSim
