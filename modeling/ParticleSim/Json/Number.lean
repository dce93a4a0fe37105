import ParticleSim.Tree.Node
/-!
Numbers of JSON texts. An integer that fits 64 bits stays an integer. How any other number is
written and read is left open by `Floats`; the reader in use keeps the leading digits that fit 64
bits and scales them by a power of ten, so its last bit may differ from the nearest number's.
-/
namespace ParticleSim.Json

inductive Number where
  | natural (n : UInt64)
  | negative (n : Int64)
  | float (x : Float)

namespace Number

/-- A float is no integer, not even a whole one. -/
def int64? : Number → Option Int64
  | .natural n =>
    if (n.toNat : Int) ≤ Int64.maxValue.toInt then some (Int64.ofInt n.toNat) else none
  | .negative n => some n
  | .float _ => none

def float? : Number → Option Float
  | .natural n => some (Float.ofNat n.toNat)
  | .negative n => some (Float.ofInt n.toInt)
  | .float x => some x

end Number

/-- Append digits to a significand while it fits 64 bits; the count tells how many were appended. -/
def absorb (significand : Nat) : List Char → Nat × Nat
  | [] => (significand, 0)
  | c :: rest =>
    let next := 10 * significand + digitValue c
    if next < UInt64.size then
      let (total, count) := absorb next rest
      (total, count + 1)
    else (significand, 0)

def powerOfTen (n : Nat) : Float :=
  Float.ofScientific 1 false n

def scaleDown (x : Float) (n : Nat) : Float :=
  if n ≤ 308 then x / powerOfTen n
  else if x == 0.0 then x
  else scaleDown (x / powerOfTen 308) (n - 308)
termination_by n

def scale? (significand : Nat) (exponent : Int) : Option Float :=
  let x := Float.ofNat significand
  if exponent < 0 then some (scaleDown x exponent.natAbs)
  else if exponent ≤ 308 then
    let scaled := x * powerOfTen exponent.toNat
    if scaled.isInf then none else some scaled
  else if significand = 0 then some x else none

structure NumberParts where
  negative : Bool
  whole : List Char
  fraction : Option (List Char)
  exponent : Option Int

def readFraction? : List Char → Option (Option (List Char) × List Char)
  | '.' :: rest =>
    let digits := rest.takeWhile isDigit
    if digits.isEmpty then none else some (some digits, rest.dropWhile isDigit)
  | rest => some (none, rest)

def readExponent? : List Char → Option (Option Int × List Char)
  | c :: rest =>
    if c = 'e' || c = 'E' then
      let (negative, rest) := splitSign rest
      let digits := rest.takeWhile isDigit
      if digits.isEmpty then none
      else
        let n : Int := ofDigits digits
        some (some (if negative then -n else n), rest.dropWhile isDigit)
    else some (none, c :: rest)
  | [] => some (none, [])

/-- The parts of the number at the start of a text, and what follows it. A leading zero stands
alone. -/
def readNumber? (text : List Char) : Option (NumberParts × List Char) := do
  let (negative, text) := match text with
    | '-' :: rest => (true, rest)
    | rest => (false, rest)
  let whole := text.takeWhile isDigit
  guard (!whole.isEmpty && (whole.length == 1 || whole.head? != some '0'))
  let (fraction, rest) ← readFraction? (text.dropWhile isDigit)
  let (exponent, rest) ← readExponent? rest
  return (⟨negative, whole, fraction, exponent⟩, rest)

def withSign (negative : Bool) (x : Float) : Float :=
  if negative then -x else x

/-- The conversions between floats and texts: what a finite float is written as, and which float the
parts of a number are read as, if it is in range. -/
structure Floats where
  write : Float → List Char
  read? : NumberParts → Option Float

/-- A negative zero is a float, and so is a negative integer out of range. -/
def NumberParts.toNumber? (floats : Floats) (parts : NumberParts) : Option Number :=
  let (significand, count) := absorb 0 parts.whole
  if parts.fraction.isNone && parts.exponent.isNone && count = parts.whole.length then
    if parts.negative then
      let n : Int := -significand
      if Int64.minValue.toInt ≤ n ∧ n < 0 then some (.negative (Int64.ofInt n))
      else some (.float (-Float.ofNat significand))
    else some (.natural significand.toUInt64)
  else (floats.read? parts).map .float

def numberFormat : Format :=
  { positional := some (-4, 16), pointZero := true, plusSign := true, tie := .even }

namespace Floats

def scale? (parts : NumberParts) : Option Float :=
  let (significand, count) := absorb 0 parts.whole
  let (significand, appended) := absorb significand (parts.fraction.getD [])
  let exponent := parts.whole.length - count - appended + parts.exponent.getD 0
  (Json.scale? significand exponent).map (withSign parts.negative)

def standard : Floats :=
  { write := numberFormat.finiteText, read? := scale? }

/-- Infinities and NaN have no JSON text of their own and become null. -/
def text (floats : Floats) (x : Float) : List Char :=
  if x.isFinite then floats.write x else "null".toList

end Floats
end ParticleSim.Json
