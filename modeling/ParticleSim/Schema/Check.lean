import ParticleSim.Schema.Violation
/-!
Checking a tree against a schema. All violations are collected, in the order of the conditions; an
empty list is the only sign of success. References are followed through a resolver, which counts how
many of them are nested.
-/
namespace ParticleSim

abbrev Complaints := List Complaint

def complain (condition : Bool) (complaint : Complaint) : Complaints :=
  if condition then [complaint] else []

namespace Facets

def wrongTypes? (facets : Facets) (node : Node) : Option (List TypeName) :=
  match facets.types with
  | none => none
  | some types => if types.any (·.accepts node) then none else some types

def valueComplaints (facets : Facets) (node : Node) : Complaints :=
  (match facets.constant with
    | none => []
    | some constant => complain (!node.equal constant) (.notConstant constant)) ++
  (match facets.enumeration with
    | none => []
    | some allowed => complain (!allowed.any (·.equal node)) (.notListed node allowed))

def numberComplaints (facets : Facets) (x : Float) : Complaints :=
  (match facets.minimum with
    | none => []
    | some bound => complain (x < bound) (.belowMinimum x bound)) ++
  (match facets.maximum with
    | none => []
    | some bound => complain (bound < x) (.aboveMaximum x bound)) ++
  (match facets.exclusiveMinimum with
    | none => []
    | some bound => complain (x ≤ bound) (.notAbove x bound)) ++
  (match facets.exclusiveMaximum with
    | none => []
    | some bound => complain (bound ≤ x) (.notBelow x bound))

def stringComplaints (facets : Facets) (text : String) : Complaints :=
  let length := text.toList.length
  (match facets.minLength with
    | none => []
    | some least => complain (length < least) (.tooShort least)) ++
  (match facets.maxLength with
    | none => []
    | some most => complain (most < length) (.tooLong most)) ++
  (match facets.pattern with
    | none => []
    | some pattern => complain (!pattern.isMatch text) (.noMatch text pattern.source))

def itemCountComplaints (facets : Facets) (count : Nat) : Complaints :=
  (match facets.minItems with
    | none => []
    | some least => complain (count < least) (.tooFewItems least)) ++
  (match facets.maxItems with
    | none => []
    | some most => complain (most < count) (.tooManyItems most))

def complaints (facets : Facets) (node : Node) : Complaints :=
  facets.valueComplaints node ++
  (match node.number? with
    | none => []
    | some x => facets.numberComplaints x) ++
  (match node.string? with
    | none => []
    | some text => facets.stringComplaints text) ++
  (match node.items? with
    | none => []
    | some items => facets.itemCountComplaints items.length)

def missing (facets : Facets) (fields : Fields Node) (path : Path) : List Violation :=
  (facets.required.filter fun key => !fields.contains key).map fun key => ⟨path.key key, .missing⟩

end Facets

abbrev Check := Node → Path → List Violation

inductive Resolution where
  | unknown
  | tooDeep
  | found (check : Check)

abbrev Resolver := String → Resolution

def checkItems (check : Check) (path : Path) (items : List Node) : List Violation :=
  items.zipIdx.flatMap fun (item, i) => check item (path.index i)

def checkFields (check : String → Check) (path : Path) (fields : Fields Node) : List Violation :=
  fields.flatMap fun (key, value) => check key value (path.key key)

namespace Schema

mutual

/-- The violations of a node, where `resolve` follows references. A reference that nests too deeply
and a wrong type end the check. -/
def violations (resolve : Resolver) : Schema → Check
  | ⟨never, reference, facets, items, properties, additional, allOf, anyOf, conditional⟩,
      node, path =>
    if never then [⟨path, .nothingAllowed⟩]
    else
      let rest : List Violation :=
        match facets.wrongTypes? node with
        | some types => [⟨path, .wrongType types node.typeName⟩]
        | none =>
          (facets.complaints node).map (⟨path, ·⟩) ++
          (match node with
            | .scalar _ => []
            | .sequence nodes => checkItems (optionViolations resolve items) path nodes
            | .mapping fields =>
              facets.missing fields path ++
              checkFields (entryViolations resolve (additionalViolations resolve additional)
                properties) path fields) ++
          allViolations resolve allOf node path ++
          (if anyOf.isEmpty || anyPasses resolve anyOf node path then []
            else [⟨path, .noAlternative⟩]) ++
          conditionalViolations resolve conditional node path
      match reference with
      | none => rest
      | some name =>
        match resolve name with
        | .tooDeep => [⟨path, .referenceTooDeep name⟩]
        | .unknown => ⟨path, .unresolvedReference name⟩ :: rest
        | .found check => check node path ++ rest

def optionViolations (resolve : Resolver) : Option Schema → Check
  | none, _, _ => []
  | some schema, node, path => violations resolve schema node path

def entryViolations (resolve : Resolver) (additional : String → Check) :
    List (String × Schema) → String → Check
  | [], key, value, path => additional key value path
  | (name, schema) :: rest, key, value, path =>
    if name = key then violations resolve schema value path
    else entryViolations resolve additional rest key value path

def additionalViolations (resolve : Resolver) : Additional Schema → String → Check
  | .allowed, _, _, _ => []
  | .denied, key, _, path => [⟨path, .unknownProperty key⟩]
  | .checked schema, _, value, path => violations resolve schema value path

def allViolations (resolve : Resolver) : List Schema → Check
  | [], _, _ => []
  | schema :: rest, node, path =>
    violations resolve schema node path ++ allViolations resolve rest node path

def anyPasses (resolve : Resolver) : List Schema → Node → Path → Bool
  | [], _, _ => false
  | schema :: rest, node, path =>
    (violations resolve schema node path).isEmpty || anyPasses resolve rest node path

def conditionalViolations (resolve : Resolver) : Option (Conditional Schema) → Check
  | none, _, _ => []
  | some ⟨condition, consequent, alternative⟩, node, path =>
    if (violations resolve condition node path).isEmpty then
      optionViolations resolve consequent node path
    else optionViolations resolve alternative node path

end

end Schema

namespace SchemaDocument

def maxReferences : Nat := 64

def resolver (definitions : Fields Schema) : Nat → Resolver
  | 0, name => if definitions.contains name then .tooDeep else .unknown
  | budget + 1, name =>
    match definitions.get? name with
    | some schema => .found (schema.violations (resolver definitions budget))
    | none => .unknown

def validate (document : SchemaDocument) (node : Node) : List Violation :=
  document.root.violations (resolver document.definitions maxReferences) node Path.root

end SchemaDocument
end ParticleSim
