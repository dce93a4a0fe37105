/-!
Binary64 numbers taken apart exactly. `Float` carries the rounded arithmetic; what the language of
scenarios asks beyond it (whole parts, remainders, digits) is computed here on the exact value
`± significand · 2 ^ exponent`.
-/
namespace ParticleSim

-- Powers are those of the core library, whatever else is imported.
attribute [local instance (high)] instPowNat

structure Exact where
  negative : Bool
  significand : Nat
  exponent : Int
  deriving DecidableEq, Repr

namespace Exact

def signed (v : Exact) : Int :=
  if v.negative then -(v.significand : Int) else v.significand

def floor (v : Exact) : Int :=
  if 0 ≤ v.exponent then v.signed * 2 ^ v.exponent.toNat
  else v.signed / 2 ^ (-v.exponent).toNat

def ceil (v : Exact) : Int :=
  -({ v with negative := !v.negative } : Exact).floor

def isWhole (v : Exact) : Bool :=
  0 ≤ v.exponent || v.significand % 2 ^ (-v.exponent).toNat == 0

def scaled (v : Exact) (unit : Int) : Nat :=
  v.significand * 2 ^ (v.exponent - unit).toNat

end Exact

namespace Binary64

def infinity : Float := Float.ofBits 0x7FF0000000000000
def nan : Float := Float.ofBits 0x7FF8000000000000

def isNegative (x : Float) : Bool :=
  x.toBits.toNat / 2 ^ (63 : Nat) == 1

/-- The exact value of a finite number; subnormal numbers have no hidden leading bit. -/
def exact (x : Float) : Exact :=
  let bits : Nat := x.toBits.toNat
  let field : Nat := bits / 2 ^ (52 : Nat) % 2 ^ (11 : Nat)
  let fraction : Nat := bits % 2 ^ (52 : Nat)
  if field = 0 then ⟨isNegative x, fraction, -1074⟩
  else ⟨isNegative x, fraction + 2 ^ (52 : Nat), (field : Int) - 1075⟩

def zeroLike (x : Float) : Float :=
  if isNegative x then -0.0 else 0.0

/-- The number `magnitude · 2 ^ unit` with the sign of `like`, for a magnitude below `2 ^ 53` and a
unit that is at least the least exponent. -/
def ofScaled (like : Float) (magnitude : Nat) (unit : Int) : Float :=
  if magnitude = 0 then zeroLike like
  else
    let shift := min (52 - (magnitude.log2 : Int)) (unit + 1074)
    let significand := magnitude * 2 ^ shift.toNat
    let field := (unit - shift + 1074).toNat
    let bits := field * 2 ^ (52 : Nat) + significand
    let x := Float.ofBits bits.toUInt64
    if isNegative like then -x else x

def ofWhole (like : Float) (n : Int) : Float :=
  if n = 0 then zeroLike like else Float.ofInt n

def floor (x : Float) : Float :=
  if x.isFinite then ofWhole x (exact x).floor else x

def ceil (x : Float) : Float :=
  if x.isFinite then ofWhole x (exact x).ceil else x

def isWhole (x : Float) : Bool :=
  x.isFinite && (exact x).isWhole

/-- The remainder of `x` by `m`, with the sign of `x`; it is exact. -/
def remainder (x m : Float) : Float :=
  if x.isNaN || m.isNaN || x.isInf || m == 0.0 then nan
  else if m.isInf then x
  else
    let unit := min (exact x).exponent (exact m).exponent
    ofScaled x ((exact x).scaled unit % (exact m).scaled unit) unit

/-- The remainder of `x` by `m` moved to the side of zero where it is not negative. -/
def remEuclid (x m : Float) : Float :=
  let r := remainder x m
  if r < 0.0 then r + m.abs else r

def max (x y : Float) : Float :=
  if x.isNaN then y else if x < y then y else x

end Binary64
end ParticleSim
