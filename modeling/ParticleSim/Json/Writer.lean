import ParticleSim.Json.Number
import ParticleSim.Text.Escaped

namespace ParticleSim

namespace Json

def floatText : Float → List Char :=
  Floats.standard.text

def encodeChar (c : Char) : List Char :=
  if c = '"' then ['\\', '"']
  else if c = '\\' then ['\\', '\\']
  else if c = '\x08' then ['\\', 'b']
  else if c = '\x0C' then ['\\', 'f']
  else if c = '\n' then ['\\', 'n']
  else if c = '\r' then ['\\', 'r']
  else if c = '\t' then ['\\', 't']
  else if c.toNat < 0x20 then Escaped.fourDigits c
  else [c]

def stringText (s : String) : List Char :=
  '"' :: s.toList.flatMap encodeChar ++ ['"']

def joined : List (List Char) → List Char
  | [] => []
  | [text] => text
  | text :: rest => text ++ ',' :: joined rest

def arrayText (elements : List (List Char)) : List Char :=
  '[' :: joined elements ++ [']']

def objectText (members : List (String × List Char)) : List Char :=
  '{' :: joined (members.map fun (key, value) => stringText key ++ ':' :: value) ++ ['}']

def lineBreak (level : Nat) : List Char :=
  '\n' :: List.replicate (2 * level) ' '

def spread (opening closing : Char) (level : Nat) (elements : List (List Char)) : List Char :=
  if elements.isEmpty then [opening, closing]
  else
    opening :: joined (elements.map (lineBreak (level + 1) ++ ·)) ++ lineBreak level ++ [closing]

/-- What a format makes of each kind of node; that of a collection is made of its parts'. -/
structure Serializer (α : Type) where
  null : α
  bool : Bool → α
  integer : Int64 → α
  float : Float → α
  string : String → α
  sequence : List α → α
  mapping : List (String × α) → α

end Json

section Serialize

variable {α : Type} (format : Json.Serializer α)

def Scalar.serialize : Scalar → α
  | .null => format.null
  | .bool value => format.bool value
  | .integer value => format.integer value
  | .float value => format.float value
  | .string value => format.string value

mutual

def Node.serialize : Node → α
  | .scalar value => value.serialize format
  | .sequence items => format.sequence (serializeItems items)
  | .mapping fields => format.mapping (serializeFields fields)

def Node.serializeItems : List Node → List α
  | [] => []
  | item :: rest => serialize item :: serializeItems rest

def Node.serializeFields : List (String × Node) → List (String × α)
  | [] => []
  | (key, value) :: rest => (key, serialize value) :: serializeFields rest

end

end Serialize

namespace Json

section Formats

variable (floats : Floats)

def boolText (value : Bool) : List Char :=
  if value then "true".toList else "false".toList

def compactFormat : Serializer (List Char) where
  null := "null".toList
  bool := boolText
  integer n := intText n.toInt
  float := floats.text
  string := stringText
  sequence := arrayText
  mapping := objectText

def prettyFormat : Serializer (Nat → List Char) where
  null _ := "null".toList
  bool value _ := boolText value
  integer n _ := intText n.toInt
  float x _ := floats.text x
  string s _ := stringText s
  sequence items level := spread '[' ']' level (items.map (· (level + 1)))
  mapping fields level :=
    spread '{' '}' level
      (fields.map fun (key, value) => stringText key ++ ':' :: ' ' :: value (level + 1))

def Floats.compact (node : Node) : String :=
  String.ofList (node.serialize (compactFormat floats))

def Floats.pretty (node : Node) : String :=
  String.ofList (node.serialize (prettyFormat floats) 0)

end Formats

def compact (node : Node) : String :=
  Floats.standard.compact node

def pretty (node : Node) : String :=
  Floats.standard.pretty node

end Json
end ParticleSim
