import ParticleSim.Json.Number
/-!
Reading a JSON text as a value, and the value as a tree. The members of an object are kept in
ascending order of their keys, and of two members with one key the later wins. The nesting that is
left bounds the recursion into values; the characters that are left bound the count of elements.
-/
namespace ParticleSim

namespace Json

inductive Value where
  | null
  | bool (value : Bool)
  | number (value : Number)
  | string (value : String)
  | array (items : List Value)
  | object (members : List (String × Value))
  deriving Inhabited

def maxDepth : Nat := 127

def isBlank (c : Char) : Bool :=
  c == ' ' || c == '\n' || c == '\t' || c == '\r'

def skipBlanks (text : List Char) : List Char :=
  text.dropWhile isBlank

def escape? : Char → Option Char
  | '"' => some '"'
  | '\\' => some '\\'
  | '/' => some '/'
  | 'b' => some '\x08'
  | 'f' => some '\x0C'
  | 'n' => some '\n'
  | 'r' => some '\r'
  | 't' => some '\t'
  | _ => none

def pair? (high low : Nat) : Option Char :=
  if 0xDC00 ≤ low ∧ low < 0xE000 then
    char? ((high - 0xD800) * 0x400 + (low - 0xDC00) + 0x10000)
  else none

def push (c : Char) : List Char × List Char → List Char × List Char
  | (value, rest) => (c :: value, rest)

/-- The text up to the closing quote, decoded, and what follows the quote. Two escapes may name the
halves of one character. -/
def readString? : List Char → Option (List Char × List Char)
  | [] => none
  | c :: rest =>
    if c = '"' then some ([], rest)
    else if c = '\\' then
      match rest with
      | 'u' :: a :: b :: c :: d :: rest =>
        match hexNumber? [a, b, c, d] with
        | none => none
        | some unit =>
          if 0xD800 ≤ unit ∧ unit < 0xDC00 then
            match rest with
            | '\\' :: 'u' :: a :: b :: c :: d :: rest =>
              match (hexNumber? [a, b, c, d]).bind (pair? unit) with
              | some decoded => (readString? rest).map (push decoded)
              | none => none
            | _ => none
          else
            match char? unit with
            | some decoded => (readString? rest).map (push decoded)
            | none => none
      | letter :: rest =>
        match escape? letter with
        | some decoded => (readString? rest).map (push decoded)
        | none => none
      | [] => none
    else if c.toNat < 0x20 then none
    else (readString? rest).map (push c)

def readElements? (readValue? : List Char → Option (Value × List Char)) :
    Nat → List Char → Option (List Value × List Char)
  | 0, _ => none
  | bound + 1, text => do
    let (element, rest) ← readValue? text
    match skipBlanks rest with
    | ',' :: rest =>
      let (elements, rest) ← readElements? readValue? bound rest
      return (element :: elements, rest)
    | ']' :: rest => return ([element], rest)
    | _ => none

def readMembers? (readValue? : List Char → Option (Value × List Char)) :
    Nat → Fields Value → List Char → Option (Fields Value × List Char)
  | 0, _, _ => none
  | bound + 1, fields, text =>
    match skipBlanks text with
    | '"' :: rest => do
      let (key, rest) ← readString? rest
      match skipBlanks rest with
      | ':' :: rest =>
        let (value, rest) ← readValue? rest
        let fields := Fields.insertSorted (String.ofList key) value fields
        match skipBlanks rest with
        | ',' :: rest => readMembers? readValue? bound fields rest
        | '}' :: rest => return (fields, rest)
        | _ => none
      | _ => none
    | _ => none

def readValue? (floats : Floats) : Nat → List Char → Option (Value × List Char)
  | budget, text =>
    match skipBlanks text with
    | '[' :: rest =>
      match budget with
      | 0 => none
      | budget + 1 =>
        match skipBlanks rest with
        | ']' :: rest => some (.array [], rest)
        | rest =>
          (readElements? (readValue? floats budget) rest.length rest).map
            fun (elements, rest) => (.array elements, rest)
    | '{' :: rest =>
      match budget with
      | 0 => none
      | budget + 1 =>
        match skipBlanks rest with
        | '}' :: rest => some (.object [], rest)
        | rest =>
          (readMembers? (readValue? floats budget) rest.length [] rest).map
            fun (members, rest) => (.object members, rest)
    | '"' :: rest =>
      (readString? rest).map fun (value, rest) => (.string (String.ofList value), rest)
    | 'n' :: 'u' :: 'l' :: 'l' :: rest => some (.null, rest)
    | 't' :: 'r' :: 'u' :: 'e' :: rest => some (.bool true, rest)
    | 'f' :: 'a' :: 'l' :: 's' :: 'e' :: rest => some (.bool false, rest)
    | rest => do
      let (parts, rest) ← readNumber? rest
      let value ← parts.toNumber? floats
      return (.number value, rest)

def Value.ofText? (floats : Floats) (text : String) : Option Value := do
  let (value, rest) ← readValue? floats maxDepth text.toList
  guard (skipBlanks rest).isEmpty
  return value

end Json

/-- A number that is no integer of 64 bits with a sign becomes a float. -/
def Scalar.ofNumber (number : Json.Number) : Scalar :=
  match number.int64? with
  | some n => .integer n
  | none => .float (number.float?.getD Binary64.nan)

namespace Json

mutual

def Value.toNode : Value → Node
  | .null => .null
  | .bool value => .ofBool value
  | .number value => .scalar (.ofNumber value)
  | .string value => .ofString value
  | .array items => .sequence (toNodes items)
  | .object members => .mapping (Fields.ofList (toEntries members))

def Value.toNodes : List Value → List Node
  | [] => []
  | item :: rest => toNode item :: toNodes rest

def Value.toEntries : List (String × Value) → List (String × Node)
  | [] => []
  | (key, value) :: rest => (key, toNode value) :: toEntries rest

end

def Floats.parse? (floats : Floats) (text : String) : Option Node :=
  (Value.ofText? floats text).map Value.toNode

def parse? (text : String) : Option Node :=
  Floats.standard.parse? text

end Json
end ParticleSim
