import ParticleSim.Json.Reader
import ParticleSim.Schema.Basic
/-!
Reading a schema from a tree. Keywords take effect in the order of their entries, so the first
faulty one is reported; other keys are annotations. References are collected on the way and must
lead to definitions in the end.
-/
namespace ParticleSim

inductive SchemaFault where
  | notDefinitions
  | notSchema
  | notString
  | notStrings
  | notArray
  | notSchemas
  | notNumber
  | notCount
  | badPattern
  | unsupportedReference (target : String)
  | unknownType (name : String)
  | unresolvedReference (name : String)
  deriving DecidableEq, Repr

def SchemaFault.message : SchemaFault → String
  | .notDefinitions => "expected an object of schemas"
  | .notSchema => "a schema must be an object or a boolean"
  | .notString => "expected a string"
  | .notStrings => "expected an array of strings"
  | .notArray => "expected an array"
  | .notSchemas => "expected an array of schemas"
  | .notNumber => "expected a number"
  | .notCount => "expected a non-negative integer"
  | .badPattern => "bad pattern"
  | .unsupportedReference target => "unsupported reference \x60" ++ target ++ "\x60"
  | .unknownType name => "unknown type \x60" ++ name ++ "\x60"
  | .unresolvedReference name => "unresolved reference to definition \x60" ++ name ++ "\x60"

inductive SchemaError where
  | invalid (path : Path) (fault : SchemaFault)
  | notJson
  deriving DecidableEq, Repr

structure Reference where
  name : String
  path : Path
  deriving DecidableEq, Repr

/-- Reading that collects references. -/
abbrev Compile := StateT (List Reference) (Except SchemaError)

namespace Compile

def fail {α : Type} (path : Path) (fault : SchemaFault) : Compile α :=
  throw (.invalid path fault)

def orFail {α : Type} (value : Option α) (path : Path) (fault : SchemaFault) : Compile α :=
  match value with
  | some value => pure value
  | none => fail path fault

def number (node : Node) (path : Path) : Compile Float :=
  orFail node.number? path .notNumber

def count? (node : Node) : Option Nat :=
  node.integer?.bind fun n => n.toInt.toNat?

def count (node : Node) (path : Path) : Compile Nat :=
  orFail (count? node) path .notCount

def strings (node : Node) (path : Path) : Compile (List String) := do
  let items ← orFail node.items? path .notStrings
  items.zipIdx.mapM fun (item, i) => orFail item.string? (path.index i) .notString

def definitionName? (target : String) : Option String :=
  let after? (start : String) : Option String :=
    if start.toList.isPrefixOf target.toList then
      some (String.ofList (target.toList.drop start.length))
    else none
  (after? "#/definitions/").or (after? "#/$defs/")

def reference (node : Node) (path : Path) : Compile String := do
  let target ← orFail node.string? path .notString
  let name ← orFail (definitionName? target) path (.unsupportedReference target)
  modify (· ++ [⟨name, path⟩])
  return name

def types (node : Node) (path : Path) : Compile (List TypeName) := do
  let names ←
    match node.string? with
    | some name => pure [name]
    | none => strings node path
  names.mapM fun name => orFail (TypeName.ofText? name) path (.unknownType name)

def pattern (node : Node) (path : Path) : Compile Pattern := do
  let source ← orFail node.string? path .notString
  orFail (Pattern.ofSource? source) path .badPattern

def facet (facets : Facets) (keyword : String) (value : Node) (path : Path) : Compile Facets :=
  match keyword with
  | "type" => return { facets with types := some (← types value path) }
  | "const" => return { facets with constant := some value }
  | "enum" => return { facets with enumeration := some (← orFail value.items? path .notArray) }
  | "minimum" => return { facets with minimum := some (← number value path) }
  | "maximum" => return { facets with maximum := some (← number value path) }
  | "exclusiveMinimum" => return { facets with exclusiveMinimum := some (← number value path) }
  | "exclusiveMaximum" => return { facets with exclusiveMaximum := some (← number value path) }
  | "minLength" => return { facets with minLength := some (← count value path) }
  | "maxLength" => return { facets with maxLength := some (← count value path) }
  | "pattern" => return { facets with pattern := some (← pattern value path) }
  | "minItems" => return { facets with minItems := some (← count value path) }
  | "maxItems" => return { facets with maxItems := some (← count value path) }
  | "required" => return { facets with required := ← strings value path }
  | _ => return facets

end Compile

namespace Schema

open Compile

mutual

def ofNode : Node → Path → Compile Schema
  | .scalar (.bool allowed), _ => return { never := !allowed }
  | .mapping fields, path => withKeywords (fun name => named? name fields path) fields path {}
  | .scalar _, path => fail path .notSchema
  | .sequence _, path => fail path .notSchema

def named? (name : String) : List (String × Node) → Path → Compile (Option Schema)
  | [], _ => return none
  | (key, value) :: rest, path =>
    if key = name then return some (← ofNode value (path.key key)) else named? name rest path

/-- A schema with the keywords of further entries taken into account. A condition brings along the
branches that `branch?` finds beside it. -/
def withKeywords (branch? : String → Compile (Option Schema)) :
    List (String × Node) → Path → Schema → Compile Schema
  | [], _, schema => return schema
  | (keyword, value) :: rest, path, schema => do
    let place := path.key keyword
    let schema ←
      match keyword with
      | "$ref" => pure { schema with reference := some (← Compile.reference value place) }
      | "items" => pure { schema with items := some (← ofNode value place) }
      | "properties" => pure { schema with properties := ← propertiesOf value place }
      | "additionalProperties" =>
        match value.bool? with
        | some true => pure { schema with additional := .allowed }
        | some false => pure { schema with additional := .denied }
        | none => pure { schema with additional := .checked (← ofNode value place) }
      | "allOf" => pure { schema with allOf := ← branchesOf value place }
      | "anyOf" => pure { schema with anyOf := ← branchesOf value place }
      | "if" =>
        let condition ← ofNode value place
        let consequent ← branch? "then"
        let alternative ← branch? "else"
        pure { schema with conditional := some ⟨condition, consequent, alternative⟩ }
      | _ => pure { schema with facets := ← facet schema.facets keyword value place }
    withKeywords branch? rest path schema

def propertiesOf : Node → Path → Compile (List (String × Schema))
  | .mapping fields, path => namedSchemas fields path
  | .scalar _, path => fail path .notDefinitions
  | .sequence _, path => fail path .notDefinitions

def namedSchemas : List (String × Node) → Path → Compile (List (String × Schema))
  | [], _ => return []
  | (name, value) :: rest, path => do
    let schema ← ofNode value (path.key name)
    return (name, schema) :: (← namedSchemas rest path)

def branchesOf : Node → Path → Compile (List Schema)
  | .sequence items, path => listedSchemas items 0 path
  | .scalar _, path => fail path .notSchemas
  | .mapping _, path => fail path .notSchemas

def listedSchemas : List Node → Nat → Path → Compile (List Schema)
  | [], _, _ => return []
  | item :: rest, i, path => do
    let schema ← ofNode item (path.index i)
    return schema :: (← listedSchemas rest (i + 1) path)

end

end Schema

namespace SchemaDocument

def readDefinitions (node : Node) (definitions : Fields Schema) (key : String) :
    Compile (Fields Schema) :=
  match node.child? key with
  | none => return definitions
  | some value => do
    let schemas ← Schema.propertiesOf value (Path.root.key key)
    return schemas.foldl (fun fields (name, schema) => fields.insert name schema) definitions

def read (node : Node) : Compile SchemaDocument := do
  let definitions ← ["definitions", "$defs"].foldlM (readDefinitions node) []
  let root ← Schema.ofNode node Path.root
  return ⟨root, definitions⟩

def dangling? (definitions : Fields Schema) (references : List Reference) : Option Reference :=
  references.find? fun reference => !definitions.contains reference.name

def ofNode (node : Node) : Except SchemaError SchemaDocument := do
  let (document, references) ← (read node).run []
  match dangling? document.definitions references with
  | some reference =>
    throw (.invalid reference.path (.unresolvedReference reference.name))
  | none => return document

def ofJson (text : String) : Except SchemaError SchemaDocument :=
  match Json.parse? text with
  | some node => ofNode node
  | none => .error .notJson

end SchemaDocument

def SchemaError.message : SchemaError → String
  | .invalid path fault => "invalid schema at " ++ path.text ++ ": " ++ fault.message
  | .notJson => "schema JSON error"

end ParticleSim
