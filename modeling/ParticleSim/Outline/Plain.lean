import ParticleSim.Tree.Node

namespace ParticleSim.Outline.Plain

def nullWords : List String := ["", "~", "null", "Null", "NULL"]
def trueWords : List String := ["true", "True", "TRUE"]
def falseWords : List String := ["false", "False", "FALSE"]
def infinityWords : List String := [".inf", ".Inf", ".INF", "+.inf", "+.Inf", "+.INF"]
def negativeInfinityWords : List String := ["-.inf", "-.Inf", "-.INF"]
def nanWords : List String := [".nan", ".NaN", ".NAN"]

def startsFloat (c : Char) : Bool :=
  isDigit c || c == '.'

def inFloat (c : Char) : Bool :=
  isDigit c || ['.', 'e', 'E', '+', '-'].contains c

/-- Keeps the words for infinities and NaN away from the reader of floats. -/
def looksLikeFloat (text : List Char) : Bool :=
  text.head?.any startsFloat && text.any isDigit && text.all inFloat

def floatOrString (text : List Char) : Scalar :=
  match number? text with
  | some x => .float x
  | none => .string (String.ofList text)

/-- An integer that does not fit 64 bits is a float. -/
def number (text : List Char) : Scalar :=
  let unsigned := (splitSign text).2
  if isDigits unsigned then
    match int64? text with
    | some n => .integer n
    | none => floatOrString text
  else if looksLikeFloat unsigned then floatOrString text
  else .string (String.ofList text)

def resolve (text : List Char) : Scalar :=
  let word := String.ofList text
  if word ∈ nullWords then .null
  else if word ∈ trueWords then .bool true
  else if word ∈ falseWords then .bool false
  else if word ∈ infinityWords then .float Binary64.infinity
  else if word ∈ negativeInfinityWords then .float (-Binary64.infinity)
  else if word ∈ nanWords then .float Binary64.nan
  else number text

end ParticleSim.Outline.Plain
