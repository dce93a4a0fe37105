import ParticleSim.Outline.Line
import ParticleSim.Outline.Plain

namespace ParticleSim.Outline

/-- Numbers in outlines keep a point or an exponent, so that they read back as floats. -/
def floatFormat : Format :=
  { positional := some (-3, 16), pointZero := true, plusSign := false, tie := .up }

def floatText (x : Float) : List Char :=
  if x.isNaN then ".nan".toList
  else if x.isInf then (if 0.0 < x then ".inf".toList else "-.inf".toList)
  else floatFormat.finiteText x

def indicators : List Char :=
  ['-', '?', ':', ',', '[', ']', '{', '}', '#', '&', '*', '!', '|', '>', '\'', '"', '%', '@',
    '\x60', '~', '.', '\uFEFF']

def needsQuotes (c : Char) : Bool :=
  CharClass.isControl c || c ∈ [',', '[', ']', '{', '}', '"', '\'', '\\']

def hasPair (a b : Char) : List Char → Bool
  | c :: d :: rest => (c == a && d == b) || hasPair a b (d :: rest)
  | _ => false

/-- The text would be misread without quotes wherever it stands. -/
def isHazardous (text : List Char) : Bool :=
  match text with
  | [] => true
  | first :: _ =>
    first == ' ' || text.getLast? == some ' ' || first ∈ indicators || text.getLast? == some ':' ||
      hasPair ':' ' ' text || hasPair ' ' '#' text || text.any needsQuotes

def isPlainString (text : List Char) : Bool :=
  !isHazardous text && Plain.resolve text == .string (String.ofList text)

def keyText (key : String) : List Char :=
  if isHazardous key.toList then Quoted.encode key.toList else key.toList

def scalarText : Scalar → List Char
  | .null => "null".toList
  | .bool true => "true".toList
  | .bool false => "false".toList
  | .integer n => intText n.toInt
  | .float x => floatText x
  | .string s => if isPlainString s.toList then s.toList else Quoted.encode s.toList

def isBlock : Node → Bool
  | .scalar _ => false
  | .sequence items => !items.isEmpty
  | .mapping fields => !fields.isEmpty

def inlineText : Node → List Char
  | .scalar value => scalarText value
  | .sequence _ => ['[', ']']
  | .mapping _ => ['{', '}']

abbrev OutputLine := Nat × List Char

def withDash (indent : Nat) : List OutputLine → List OutputLine
  | [] => []
  | (_, text) :: rest => (indent, '-' :: ' ' :: text) :: rest

mutual

def blockLines (indent : Nat) : Node → List OutputLine
  | .scalar _ => []
  | .sequence items => itemLines indent items
  | .mapping fields => fieldLines indent fields

def itemLines (indent : Nat) : List Node → List OutputLine
  | [] => []
  | item :: rest =>
    (if isBlock item then withDash indent (blockLines (indent + 2) item)
      else [(indent, '-' :: ' ' :: inlineText item)]) ++ itemLines indent rest

def fieldLines (indent : Nat) : List (String × Node) → List OutputLine
  | [] => []
  | (key, value) :: rest =>
    (if isBlock value then (indent, keyText key ++ [':']) :: blockLines (indent + 2) value
      else [(indent, keyText key ++ ':' :: ' ' :: inlineText value)]) ++ fieldLines indent rest

end

def documentLines (node : Node) : List OutputLine :=
  if isBlock node then blockLines 0 node else [(0, inlineText node)]

def OutputLine.characters (line : OutputLine) : List Char :=
  List.replicate line.1 ' ' ++ line.2 ++ ['\n']

def emit (node : Node) : String :=
  String.ofList ((documentLines node).flatMap OutputLine.characters)

end ParticleSim.Outline
