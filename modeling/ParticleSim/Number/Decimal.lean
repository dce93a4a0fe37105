import ParticleSim.Number.Binary64
/-!
Decimal digits of exact numbers: the fewest digits that identify a binary64 number, and a number
rounded to a fixed count of decimal places. All steps are exact over the naturals.
-/
namespace ParticleSim

-- Powers are those of the core library, whatever else is imported.
attribute [local instance (high)] instPowNat

/-- The number `0.d₁d₂… · 10 ^ point`. -/
structure Decimal where
  digits : List Char
  point : Int
  deriving DecidableEq, Repr

inductive Tie where
  | up
  | even
  deriving DecidableEq, Repr

def Tie.takesUpper (tie : Tie) (lower : Nat) : Bool :=
  match tie with
  | .up => true
  | .even => lower % 2 == 1

def roundDiv (numerator denominator : Nat) (tie : Tie) : Nat :=
  let lower := numerator / denominator
  let rest := numerator % denominator
  if 2 * rest < denominator then lower
  else if denominator < 2 * rest then lower + 1
  else if tie.takesUpper lower then lower + 1 else lower

namespace Decimal

def digitsOf (n : Nat) : List Char :=
  Nat.toDigits 10 n

def ofCoefficient (coefficient : Nat) (exponent : Int) : Decimal :=
  let digits := digitsOf coefficient
  ⟨(digits.reverse.dropWhile (· == '0')).reverse, digits.length + exponent⟩

structure Interval where
  low : Nat
  value : Nat
  high : Nat
  denominator : Nat
  /-- The ends belong to the interval. -/
  closed : Bool

/-- The neighbours of a number lie one unit away, except that the lower neighbour of a power of two
lies half a unit away; the ends round to the number when its significand is even. -/
def Interval.ofExact (v : Exact) : Interval :=
  let scale := 2 ^ (v.exponent - 2).toNat
  let below := if v.significand = 2 ^ (52 : Nat) ∧ -1074 < v.exponent then 1 else 2
  { low := (4 * v.significand - below) * scale
    value := 4 * v.significand * scale
    high := (4 * v.significand + 2) * scale
    denominator := 2 ^ (2 - v.exponent).toNat
    closed := v.significand % 2 == 0 }

/-- The power of ten just above a positive value: `10 ^ (p - 1) ≤ value < 10 ^ p`. -/
def Interval.magnitude (i : Interval) : Int :=
  if i.denominator ≤ i.value then (digitsOf (i.value / i.denominator)).length
  else 1 - ((digitsOf ((i.denominator - 1) / i.value)).length : Int)

def Interval.nearest? (i : Interval) (tie : Tie) (exponent : Int) : Option Nat :=
  let stretch := 10 ^ (-exponent).toNat
  let unit := i.denominator * 10 ^ exponent.toNat
  let lower := i.value * stretch / unit
  let rest := i.value * stretch % unit
  let holds (a b : Nat) : Bool := if i.closed then a ≤ b else a < b
  let lowerIn := holds (i.low * stretch) (lower * unit)
  let upperIn := holds ((lower + 1) * unit) (i.high * stretch)
  if lowerIn && upperIn then
    if 2 * rest < unit then some lower
    else if unit < 2 * rest then some (lower + 1)
    else some (if tie.takesUpper lower then lower + 1 else lower)
  else if lowerIn then some lower
  else if upperIn then some (lower + 1)
  else none

/-- The fewest digits that read back as the number, and of those the nearest to it. Seventeen digits
always suffice. -/
def shortest (tie : Tie) (v : Exact) : Decimal :=
  if v.significand = 0 then ⟨['0'], 1⟩
  else
    let interval := Interval.ofExact v
    let magnitude := interval.magnitude
    let found := (List.range 17).findSome? fun count =>
      let exponent := magnitude - (count + 1 : Nat)
      (interval.nearest? tie exponent).map (ofCoefficient · exponent)
    found.getD ⟨['0'], 1⟩

def rounded (places : Nat) (v : Exact) : Nat :=
  roundDiv (v.significand * 2 ^ v.exponent.toNat * 10 ^ places) (2 ^ (-v.exponent).toNat) .even

end Decimal
end ParticleSim
