import ParticleSim.Schema.Check

namespace ParticleSim.ScenarioSchema

def ofType (type : TypeName) (facets : Facets := {}) : Schema :=
  { facets := { facets with types := some [type] } }

def refersTo (name : String) : Schema :=
  { reference := some name }

def closedObject (required : List String) (properties : List (String × Schema)) : Schema :=
  { facets := { types := some [.object], required := required }
    properties := properties
    additional := .denied }

def arrayOf (items : Schema) (minItems : Option Nat := none) : Schema :=
  { facets := { types := some [.array], minItems := minItems }, items := some items }

/-- A letter or underscore, then letters, digits, underscores and dashes. -/
def bodyIdPattern : Pattern :=
  let letters (set : CharSet) : CharSet :=
    .union (.union set (.range 'A' 'Z')) (.range 'a' 'z')
  let first : CharSet := .union (letters .empty) (.single '_')
  let later : CharSet :=
    .union (.union (.union (letters .empty) (.range '0' '9')) (.single '_')) (.single '-')
  { source := "^[A-Za-z_][A-Za-z0-9_-]*$"
    expression :=
      .sequence (.place .textStart) <| .sequence (.one first) <|
        .sequence (.repeated (.one later) 0 none) (.place .textStop) }

def vector : Schema :=
  closedObject ["x", "y"] [("x", ofType .number), ("y", ofType .number)]

def bodyId : Schema :=
  ofType .string { pattern := some bodyIdPattern }

def targets : Schema :=
  arrayOf (refersTo "bodyId") (some 1)

def bounds : Schema :=
  closedObject ["min", "max", "policy"]
    [("min", refersTo "vector"), ("max", refersTo "vector"),
      ("policy", { facets := { enumeration := some [.ofString "clamp", .ofString "wrap"] } })]

def body : Schema :=
  closedObject ["id", "mass", "position"]
    [("id", refersTo "bodyId"), ("kind", ofType .string), ("mass", ofType .number),
      ("position", refersTo "vector"), ("velocity", refersTo "vector")]

def whenKind (kind : String) (required : List String) (properties : List (String × Schema)) :
    Schema :=
  { conditional := some
      { condition :=
          { facets := { required := ["kind"] }
            properties := [("kind", { facets := { constant := some (.ofString kind) } })] }
        consequent := some { facets := { required := required }, properties := properties }
        alternative := none } }

def force : Schema :=
  { facets := { types := some [.object], required := ["kind"] }
    properties := [("kind", ofType .string)]
    allOf :=
      [whenKind "gravity" ["g"] [("g", refersTo "vector"), ("targets", refersTo "targets")],
        whenKind "drag" ["coefficient"]
          [("coefficient", ofType .number), ("targets", refersTo "targets")],
        whenKind "spring" ["anchor", "bodyId", "stiffness"]
          [("anchor", refersTo "vector"), ("bodyId", refersTo "bodyId"),
            ("stiffness", ofType .number), ("restLength", ofType .number)]] }

def root : Schema :=
  closedObject ["bodies"]
    [("name", ofType .string { minLength := some 1 }), ("description", ofType .string),
      ("timeScale", ofType .number), ("bounds", refersTo "bounds"),
      ("bodies", arrayOf (refersTo "body") (some 1)), ("forces", arrayOf (refersTo "force"))]

def document : SchemaDocument :=
  { root := root
    definitions :=
      [("vector", vector), ("bodyId", bodyId), ("targets", targets), ("bounds", bounds),
        ("body", body), ("force", force)] }

end ParticleSim.ScenarioSchema
