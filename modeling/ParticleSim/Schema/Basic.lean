import ParticleSim.Pattern.Reader
import ParticleSim.Tree.Path

namespace ParticleSim

inductive TypeName where
  | null
  | boolean
  | integer
  | number
  | string
  | array
  | object
  deriving DecidableEq, Repr

namespace TypeName

def all : List TypeName := [.null, .boolean, .integer, .number, .string, .array, .object]

def text : TypeName → String
  | .null => "null"
  | .boolean => "boolean"
  | .integer => "integer"
  | .number => "number"
  | .string => "string"
  | .array => "array"
  | .object => "object"

def ofText? (name : String) : Option TypeName :=
  all.find? (·.text == name)

/-- A node is of the type; a float without a fractional part is an integer as well. -/
def accepts : TypeName → Node → Bool
  | .null, .scalar .null => true
  | .boolean, .scalar (.bool _) => true
  | .integer, .scalar (.integer _) => true
  | .integer, .scalar (.float x) => Binary64.isWhole x
  | .number, .scalar (.integer _) => true
  | .number, .scalar (.float _) => true
  | .string, .scalar (.string _) => true
  | .array, .sequence _ => true
  | .object, .mapping _ => true
  | _, _ => false

end TypeName

structure Facets where
  types : Option (List TypeName) := none
  constant : Option Node := none
  enumeration : Option (List Node) := none
  minimum : Option Float := none
  maximum : Option Float := none
  exclusiveMinimum : Option Float := none
  exclusiveMaximum : Option Float := none
  minLength : Option Nat := none
  maxLength : Option Nat := none
  pattern : Option Pattern := none
  minItems : Option Nat := none
  maxItems : Option Nat := none
  required : List String := []

inductive Additional (α : Type) where
  | allowed
  | denied
  | checked (schema : α)

structure Conditional (α : Type) where
  condition : α
  consequent : Option α
  alternative : Option α

structure Schema where
  /-- Nothing satisfies the schema. -/
  never : Bool := false
  /-- The name of a definition that must be satisfied too. -/
  reference : Option String := none
  facets : Facets := {}
  items : Option Schema := none
  properties : List (String × Schema) := []
  additional : Additional Schema := .allowed
  allOf : List Schema := []
  anyOf : List Schema := []
  conditional : Option (Conditional Schema) := none

structure SchemaDocument where
  root : Schema
  definitions : Fields Schema

end ParticleSim
