import Mathlib.Logic.Relation
import ParticleSim.Schema.Check
/-!
What a schema means, keyword by keyword and without a report: which trees satisfy it. References are
given their meaning from outside, as the trees that satisfy the definition of a name.
-/
namespace ParticleSim

/-- The conditions on one node alone. Bounds on numbers, lengths and counts say nothing about nodes
of other kinds. -/
structure Facets.Holds (facets : Facets) (node : Node) : Prop where
  type : ∀ types ∈ facets.types, ∃ type ∈ types, type.accepts node = true
  constant : ∀ constant ∈ facets.constant, node.equal constant = true
  listed : ∀ allowed ∈ facets.enumeration, ∃ value ∈ allowed, value.equal node = true
  atLeast : ∀ bound ∈ facets.minimum, ∀ x ∈ node.number?, bound ≤ x
  atMost : ∀ bound ∈ facets.maximum, ∀ x ∈ node.number?, x ≤ bound
  above : ∀ bound ∈ facets.exclusiveMinimum, ∀ x ∈ node.number?, bound < x
  below : ∀ bound ∈ facets.exclusiveMaximum, ∀ x ∈ node.number?, x < bound
  long : ∀ least ∈ facets.minLength, ∀ text ∈ node.string?, least ≤ text.length
  short : ∀ most ∈ facets.maxLength, ∀ text ∈ node.string?, text.length ≤ most
  matching : ∀ pattern ∈ facets.pattern, ∀ text ∈ node.string?, pattern.isMatch text = true
  many : ∀ least ∈ facets.minItems, ∀ items ∈ node.items?, least ≤ items.length
  few : ∀ most ∈ facets.maxItems, ∀ items ∈ node.items?, items.length ≤ most
  complete : ∀ fields ∈ node.fields?, ∀ key ∈ facets.required, key ∈ Fields.keys fields

abbrev Meaning := String → Node → Prop

namespace Schema

mutual

/-- The node satisfies the schema, where `meaning` says what references ask for. -/
def Satisfies (meaning : Meaning) : Schema → Node → Prop
  | ⟨never, reference, facets, items, properties, additional, allOf, anyOf, conditional⟩, node =>
    never = false ∧ (∀ name ∈ reference, meaning name node) ∧ facets.Holds node ∧
      (∀ nodes ∈ node.items?, ∀ item ∈ nodes, OptionSatisfies meaning items item) ∧
      (∀ fields ∈ node.fields?, ∀ entry ∈ fields,
        EntrySatisfies meaning (AdditionalSatisfies meaning additional) properties entry) ∧
      AllSatisfy meaning allOf node ∧ (anyOf = [] ∨ SomeSatisfies meaning anyOf node) ∧
      ConditionalSatisfies meaning conditional node

def OptionSatisfies (meaning : Meaning) : Option Schema → Node → Prop
  | none, _ => True
  | some schema, node => Satisfies meaning schema node

/-- An entry is the concern of the property with its key, or else of `additional`. -/
def EntrySatisfies (meaning : Meaning) (additional : Node → Prop) :
    List (String × Schema) → String × Node → Prop
  | [], entry => additional entry.2
  | (name, schema) :: rest, entry =>
    (name = entry.1 → Satisfies meaning schema entry.2) ∧
      (name ≠ entry.1 → EntrySatisfies meaning additional rest entry)

def AdditionalSatisfies (meaning : Meaning) : Additional Schema → Node → Prop
  | .allowed, _ => True
  | .denied, _ => False
  | .checked schema, node => Satisfies meaning schema node

def AllSatisfy (meaning : Meaning) : List Schema → Node → Prop
  | [], _ => True
  | schema :: rest, node => Satisfies meaning schema node ∧ AllSatisfy meaning rest node

def SomeSatisfies (meaning : Meaning) : List Schema → Node → Prop
  | [], _ => False
  | schema :: rest, node => Satisfies meaning schema node ∨ SomeSatisfies meaning rest node

def ConditionalSatisfies (meaning : Meaning) : Option (Conditional Schema) → Node → Prop
  | none, _ => True
  | some ⟨condition, consequent, alternative⟩, node =>
    (Satisfies meaning condition node → OptionSatisfies meaning consequent node) ∧
      (¬Satisfies meaning condition node → OptionSatisfies meaning alternative node)

end

mutual

def parts : Schema → List Schema
  | ⟨never, reference, facets, items, properties, additional, allOf, anyOf, conditional⟩ =>
    ⟨never, reference, facets, items, properties, additional, allOf, anyOf, conditional⟩ ::
      (optionParts items ++ entryParts properties ++ additionalParts additional ++
        listParts allOf ++ listParts anyOf ++ conditionalParts conditional)

def optionParts : Option Schema → List Schema
  | none => []
  | some schema => parts schema

def entryParts : List (String × Schema) → List Schema
  | [] => []
  | (_, schema) :: rest => parts schema ++ entryParts rest

def additionalParts : Additional Schema → List Schema
  | .allowed => []
  | .denied => []
  | .checked schema => parts schema

def listParts : List Schema → List Schema
  | [] => []
  | schema :: rest => parts schema ++ listParts rest

def conditionalParts : Option (Conditional Schema) → List Schema
  | none => []
  | some ⟨condition, consequent, alternative⟩ =>
    parts condition ++ optionParts consequent ++ optionParts alternative

end

end Schema

/-- What references mean fits the definitions: a name means the trees that satisfy its definition,
and a name without one means nothing. -/
def Interprets (definitions : Fields Schema) (meaning : Meaning) : Prop :=
  ∀ name node, meaning name node ↔
    ∃ schema, definitions.get? name = some schema ∧ schema.Satisfies meaning node

def Refers (definitions : Fields Schema) (name other : String) : Prop :=
  ∃ schema, definitions.get? name = some schema ∧
    ∃ part ∈ schema.parts, part.reference = some other

def Acyclic (definitions : Fields Schema) : Prop :=
  ∀ name, ¬Relation.TransGen (Refers definitions) name name

def Facets.bounds (facets : Facets) : List Float :=
  facets.minimum.toList ++ facets.maximum.toList ++ facets.exclusiveMinimum.toList ++
    facets.exclusiveMaximum.toList

def Schema.NoNaN (schema : Schema) : Prop :=
  ∀ part ∈ schema.parts, ∀ bound ∈ part.facets.bounds, bound.isNaN = false

structure SchemaDocument.NoNaN (document : SchemaDocument) : Prop where
  root : document.root.NoNaN
  definitions : ∀ name schema, document.definitions.get? name = some schema → schema.NoNaN

end ParticleSim
