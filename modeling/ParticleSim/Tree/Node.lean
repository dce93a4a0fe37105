import ParticleSim.Number.Literal
import ParticleSim.Tree.Fields

namespace ParticleSim

inductive Scalar where
  | null
  | bool (value : Bool)
  | integer (value : Int64)
  | float (value : Float)
  | string (value : String)
  deriving DecidableEq, Inhabited

inductive Node where
  | scalar (value : Scalar)
  | sequence (items : List Node)
  | mapping (fields : List (String × Node))
  deriving Inhabited

/-- Numbers compare as numbers, so NaN differs from itself; an integer never equals a float. -/
def Scalar.equal : Scalar → Scalar → Bool
  | .null, .null => true
  | .bool a, .bool b => a == b
  | .integer a, .integer b => a == b
  | .float a, .float b => a == b
  | .string a, .string b => a == b
  | _, _ => false

def Scalar.typeName : Scalar → String
  | .null => "null"
  | .bool _ => "boolean"
  | .integer _ => "integer"
  | .float _ => "number"
  | .string _ => "string"

namespace Node

def null : Node := .scalar .null
def ofBool (value : Bool) : Node := .scalar (.bool value)
def ofInt64 (value : Int64) : Node := .scalar (.integer value)
def ofFloat (value : Float) : Node := .scalar (.float value)
def ofString (value : String) : Node := .scalar (.string value)

def typeName : Node → String
  | .scalar value => value.typeName
  | .sequence _ => "array"
  | .mapping _ => "object"

def isNull : Node → Bool
  | .scalar .null => true
  | _ => false

def bool? : Node → Option Bool
  | .scalar (.bool value) => some value
  | _ => none

def integer? : Node → Option Int64
  | .scalar (.integer value) => some value
  | _ => none

def number? : Node → Option Float
  | .scalar (.integer value) => some (Binary64.ofInt64 value)
  | .scalar (.float value) => some value
  | _ => none

def string? : Node → Option String
  | .scalar (.string value) => some value
  | _ => none

def items? : Node → Option (List Node)
  | .sequence items => some items
  | _ => none

def fields? : Node → Option (Fields Node)
  | .mapping fields => some fields
  | _ => none

def child? (key : String) (node : Node) : Option Node :=
  node.fields?.bind (Fields.get? key)

mutual

/-- Equality of trees; the order of a mapping's entries carries no meaning. -/
def equal : Node → Node → Bool
  | .scalar a, .scalar b => a.equal b
  | .sequence a, .sequence b => equalItems a b
  | .mapping a, .mapping b => a.length == b.length && within a b
  | _, _ => false

def equalItems : List Node → List Node → Bool
  | [], [] => true
  | a :: as, b :: bs => equal a b && equalItems as bs
  | _, _ => false

def within : List (String × Node) → Fields Node → Bool
  | [], _ => true
  | (key, value) :: rest, other =>
    (match other.get? key with
      | some found => equal value found
      | none => false) && within rest other

end

end Node
end ParticleSim
