import ParticleSim.Number.Format

namespace ParticleSim

def isDigit (c : Char) : Bool :=
  '0' ≤ c && c ≤ '9'

def digitValue (c : Char) : Nat :=
  c.toNat - '0'.toNat

def ofDigits (digits : List Char) : Nat :=
  digits.foldl (fun total c => 10 * total + digitValue c) 0

def hexValue? (c : Char) : Option Nat :=
  if isDigit c then some (digitValue c)
  else if 'a' ≤ c ∧ c ≤ 'f' then some (c.toNat - 'a'.toNat + 10)
  else if 'A' ≤ c ∧ c ≤ 'F' then some (c.toNat - 'A'.toNat + 10)
  else none

def hexNumber? (digits : List Char) : Option Nat :=
  digits.foldlM (fun total c => (hexValue? c).map (16 * total + ·)) 0

def char? (point : Nat) : Option Char :=
  if h : point.isValidChar then some (Char.ofNatAux point h) else none

def isDigits (text : List Char) : Bool :=
  !text.isEmpty && text.all isDigit

def splitSign : List Char → Bool × List Char
  | '-' :: rest => (true, rest)
  | '+' :: rest => (false, rest)
  | rest => (false, rest)

/-- The decimal `± coefficient · 10 ^ exponent`. -/
structure Literal where
  negative : Bool
  coefficient : Nat
  exponent : Int
  deriving DecidableEq, Repr

namespace Literal

/-- The nearest binary64 number, an infinity where the value is out of range. -/
def toFloat (literal : Literal) : Float :=
  let magnitude :=
    Float.ofScientific literal.coefficient (literal.exponent < 0) literal.exponent.natAbs
  if literal.negative then -magnitude else magnitude

def exponent? : List Char → Option Int
  | [] => some 0
  | c :: rest =>
    let (negative, digits) := splitSign rest
    if (c == 'e' || c == 'E') && isDigits digits then
      some (if negative then -(ofDigits digits : Int) else ofDigits digits)
    else none

/-- Digits, a point and more digits, of which one side may be missing, and an exponent. -/
def unsigned? (negative : Bool) (text : List Char) : Option Literal :=
  let whole := text.takeWhile isDigit
  let (fraction, rest) :=
    match text.dropWhile isDigit with
    | '.' :: rest => (rest.takeWhile isDigit, rest.dropWhile isDigit)
    | rest => ([], rest)
  if whole.isEmpty && fraction.isEmpty then none
  else
    (exponent? rest).map fun exponent =>
      ⟨negative, ofDigits (whole ++ fraction), exponent - fraction.length⟩

def ofText? (text : List Char) : Option Literal :=
  let (negative, rest) := splitSign text
  unsigned? negative rest

end Literal

def specialNumber? (text : List Char) : Option Float :=
  let (negative, word) := splitSign text
  let lower := word.map Char.toLower
  let magnitude : Option Float :=
    if lower == ['i', 'n', 'f'] || lower == "infinity".toList then some Binary64.infinity
    else if lower == ['n', 'a', 'n'] then some Binary64.nan
    else none
  magnitude.map fun x => if negative then -x else x

def number? (text : List Char) : Option Float :=
  match Literal.ofText? text with
  | some literal => some literal.toFloat
  | none => specialNumber? text

def int64? (text : List Char) : Option Int64 :=
  let (negative, digits) := splitSign text
  if isDigits digits then
    let n : Int := if negative then -(ofDigits digits : Int) else ofDigits digits
    if Int64.minValue.toInt ≤ n ∧ n ≤ Int64.maxValue.toInt then some (Int64.ofInt n) else none
  else none

/-- The natural number that digits write, if it is at most `limit`; a plus may stand in front. -/
def nat? (limit : Nat) (text : List Char) : Option Nat :=
  let digits := match text with
    | '+' :: rest => rest
    | rest => rest
  if isDigits digits && ofDigits digits ≤ limit then some (ofDigits digits) else none

def intText (n : Int) : List Char :=
  if n < 0 then '-' :: Decimal.digitsOf n.natAbs else Decimal.digitsOf n.natAbs

def Binary64.ofInt64 (n : Int64) : Float :=
  Float.ofInt n.toInt

end ParticleSim
