import ParticleSim.Number.Decimal

namespace ParticleSim

structure Format where
  /-- The least and greatest position of the point that is written without an exponent. -/
  positional : Option (Int × Int)
  /-- Whole numbers end in `.0`. -/
  pointZero : Bool
  /-- A positive exponent carries a sign. -/
  plusSign : Bool
  tie : Tie
  deriving Repr

namespace Format

def isPositional (format : Format) (point : Int) : Bool :=
  match format.positional with
  | none => true
  | some (least, greatest) => least ≤ point && point ≤ greatest

def positionalText (pointZero : Bool) (d : Decimal) : List Char :=
  let count : Int := d.digits.length
  if d.point ≤ 0 then '0' :: '.' :: List.replicate (-d.point).toNat '0' ++ d.digits
  else if d.point < count then
    d.digits.take d.point.toNat ++ '.' :: d.digits.drop d.point.toNat
  else
    d.digits ++ List.replicate (d.point - count).toNat '0' ++ (if pointZero then ['.', '0'] else [])

def exponentText (plusSign : Bool) (d : Decimal) : List Char :=
  let fraction := if d.digits.length ≤ 1 then [] else '.' :: d.digits.drop 1
  let exponent := d.point - 1
  let sign := if exponent < 0 then ['-'] else if plusSign then ['+'] else []
  d.digits.take 1 ++ fraction ++ 'e' :: sign ++ Decimal.digitsOf exponent.natAbs

def finiteText (format : Format) (x : Float) : List Char :=
  let v := Binary64.exact x
  let d := Decimal.shortest format.tie v
  let body :=
    if format.isPositional d.point then positionalText format.pointZero d
    else exponentText format.plusSign d
  if v.negative then '-' :: body else body

end Format

def specialText (x : Float) : List Char :=
  if x.isNaN then ['N', 'a', 'N']
  else if Binary64.isNegative x then ['-', 'i', 'n', 'f'] else ['i', 'n', 'f']

/-- Numbers in messages never use an exponent and write whole numbers without a point. -/
def messageFormat : Format :=
  { positional := none, pointZero := false, plusSign := false, tie := .up }

def messageNumber (x : Float) : String :=
  String.ofList (if x.isFinite then messageFormat.finiteText x else specialText x)

/-- A number with `places` decimal places, half a unit going to the even neighbour. -/
def fixed (places : Nat) (x : Float) : String :=
  String.ofList <|
    if x.isFinite then
      let v := Binary64.exact x
      let digits := Decimal.digitsOf (Decimal.rounded places v)
      let padded := List.replicate (places + 1 - digits.length) '0' ++ digits
      let whole := padded.length - places
      let body := padded.take whole ++ (if places = 0 then [] else '.' :: padded.drop whole)
      if v.negative then '-' :: body else body
    else specialText x

end ParticleSim
