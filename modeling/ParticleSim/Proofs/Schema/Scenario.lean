import ParticleSim.Proofs.Schema.Keywords
import ParticleSim.Proofs.Schema.Validity
import ParticleSim.Schema.Compile

namespace ParticleSim

namespace Node

structure IsVector (node : Node) : Prop where
  x : node.Has "x" IsNumber
  y : node.Has "y" IsNumber

def IsPolicy (node : Node) : Prop := node.string? = some "clamp" ∨ node.string? = some "wrap"

structure IsBounds (node : Node) : Prop where
  min : node.Has "min" IsVector
  max : node.Has "max" IsVector
  policy : node.Has "policy" IsPolicy

structure IsBody (node : Node) : Prop where
  id : node.Has "id" IsString
  kind : node.At "kind" IsString
  mass : node.Has "mass" IsNumber
  position : node.Has "position" IsVector
  velocity : node.At "velocity" IsVector

structure IsTargets (node : Node) : Prop where
  sequence : node.IsSequence
  ids : node.EachItem IsString

structure IsGravity (node : Node) : Prop where
  g : node.Has "g" IsVector
  targets : node.At "targets" IsTargets

structure IsDrag (node : Node) : Prop where
  coefficient : node.Has "coefficient" IsNumber
  targets : node.At "targets" IsTargets

structure IsSpring (node : Node) : Prop where
  anchor : node.Has "anchor" IsVector
  bodyId : node.Has "bodyId" IsString
  stiffness : node.Has "stiffness" IsNumber
  restLength : node.At "restLength" IsNumber

/-- The kind names what else the force has. Nothing is asked of a kind that is not known. -/
structure IsForce (node : Node) : Prop where
  kind : node.Has "kind" IsString
  gravity : node.Has "kind" (·.string? = some "gravity") → node.IsGravity
  drag : node.Has "kind" (·.string? = some "drag") → node.IsDrag
  spring : node.Has "kind" (·.string? = some "spring") → node.IsSpring

structure IsScenario (node : Node) : Prop where
  mapping : node.IsMapping
  name : node.At "name" IsString
  timeScale : node.At "timeScale" IsNumber
  bounds : node.At "bounds" IsBounds
  bodies : node.Has "bodies" fun bodies => bodies.IsSequence ∧ bodies.EachItem IsBody
  forces : node.At "forces" fun forces => forces.IsSequence ∧ forces.EachItem IsForce

end Node

namespace ScenarioSchema

variable {meaning : Meaning} (interprets : Interprets document.definitions meaning) {node : Node}

theorem isNumber_of_satisfies (satisfies : (ofType .number).Satisfies meaning node) :
    node.IsNumber :=
  TypeName.accepts_number (satisfies.type rfl)

theorem isString_of_satisfies {facets : Facets}
    (satisfies : (ofType .string facets).Satisfies meaning node) : node.IsString :=
  TypeName.accepts_string (satisfies.type rfl)

theorem isSequence_of_satisfies {items : Schema} {minItems : Option Nat}
    (satisfies : (arrayOf items minItems).Satisfies meaning node) : node.IsSequence :=
  TypeName.accepts_array (satisfies.type rfl)

theorem consequent_of_kind {kind : String} {required : List String}
    {properties : List (String × Schema)} (unique : node.UniqueKeys)
    (same : node.Has "kind" (·.string? = some kind))
    (satisfies : (whenKind kind required properties).Satisfies meaning node) :
    Schema.Satisfies meaning { facets := { required := required }, properties := properties }
      node := by
  obtain ⟨child, found, same⟩ := same
  have constant :
      Schema.Satisfies meaning { facets := { constant := some (.ofString kind) } } child := by
    apply Schema.satisfies_of_holds
    · constructor
      case constant =>
        intro value asked
        cases asked
        exact Node.equal_ofString same
      all_goals simp
    · intro fields _ entry _
      rw [Schema.EntrySatisfies]
      trivial
  refine satisfies.consequent rfl (Schema.satisfies_of_holds ?_ ?_)
  · constructor
    case complete =>
      intro fields mapping key listed
      rw [List.mem_singleton.mp listed]
      rw [Node.child?_eq mapping] at found
      exact List.mem_map_of_mem (Fields.mem_of_get? found)
    all_goals simp
  · intro fields mapping entry member
    rw [Schema.EntrySatisfies, Schema.EntrySatisfies]
    refine ⟨?_, fun _ => trivial⟩
    intro isKind
    have single := Fields.get?_of_mem (unique.keys mapping) member
    rw [← Node.child?_eq mapping, ← isKind, found] at single
    cases single
    exact constant

section
include interprets

theorem satisfies_of_means {name : String} {schema : Schema} (means : meaning name node)
    (defined : document.definitions.get? name = some schema) : schema.Satisfies meaning node := by
  obtain ⟨_, found, satisfies⟩ := (interprets name node).mp means
  rw [defined] at found
  cases found
  exact satisfies

theorem isVector_of_satisfies (satisfies : (refersTo "vector").Satisfies meaning node) :
    node.IsVector := by
  have vector : vector.Satisfies meaning node :=
    satisfies_of_means interprets (satisfies.reference rfl) rfl
  have mapping := TypeName.accepts_object (vector.type rfl)
  exact
    { x := (vector.requiredProperty mapping (by decide) rfl).imp fun _ => isNumber_of_satisfies
      y := (vector.requiredProperty mapping (by decide) rfl).imp fun _ => isNumber_of_satisfies }

theorem isBounds_of_satisfies (satisfies : (refersTo "bounds").Satisfies meaning node) :
    node.IsBounds := by
  have bounds := satisfies_of_means interprets (satisfies.reference rfl) rfl
  have mapping := TypeName.accepts_object (bounds.type rfl)
  have vector : ∀ child, (refersTo "vector").Satisfies meaning child → child.IsVector :=
    fun _ => isVector_of_satisfies interprets
  refine
    { min := (bounds.requiredProperty mapping (by decide) rfl).imp vector
      max := (bounds.requiredProperty mapping (by decide) rfl).imp vector
      policy := (bounds.requiredProperty mapping (by decide) rfl).imp ?_ }
  intro child satisfies
  obtain ⟨value, member, same⟩ := satisfies.facets.listed _ rfl
  simp only [List.mem_cons, List.not_mem_nil, or_false] at member
  rcases member with rfl | rfl
  · exact .inl (Node.string?_of_equal same)
  · exact .inr (Node.string?_of_equal same)

theorem isString_of_bodyId (satisfies : (refersTo "bodyId").Satisfies meaning node) :
    node.IsString :=
  isString_of_satisfies (satisfies_of_means interprets (satisfies.reference rfl) rfl)

theorem isBody_of_satisfies (satisfies : (refersTo "body").Satisfies meaning node) :
    node.IsBody := by
  have body := satisfies_of_means interprets (satisfies.reference rfl) rfl
  have mapping := TypeName.accepts_object (body.type rfl)
  have vector : ∀ child, (refersTo "vector").Satisfies meaning child → child.IsVector :=
    fun _ => isVector_of_satisfies interprets
  exact
    { id := (body.requiredProperty mapping (by decide) rfl).imp fun _ =>
        isString_of_bodyId interprets
      kind := (body.property rfl).imp fun _ => isString_of_satisfies
      mass := (body.requiredProperty mapping (by decide) rfl).imp fun _ => isNumber_of_satisfies
      position := (body.requiredProperty mapping (by decide) rfl).imp vector
      velocity := (body.property rfl).imp vector }

theorem isTargets_of_satisfies (satisfies : (refersTo "targets").Satisfies meaning node) :
    node.IsTargets := by
  have targets := satisfies_of_means interprets (satisfies.reference rfl) rfl
  exact
    { sequence := isSequence_of_satisfies targets
      ids := (targets.eachItem rfl).imp fun _ => isString_of_bodyId interprets }

theorem isForce_of_satisfies (unique : node.UniqueKeys)
    (satisfies : (refersTo "force").Satisfies meaning node) : node.IsForce := by
  have force : force.Satisfies meaning node :=
    satisfies_of_means interprets (satisfies.reference rfl) rfl
  have mapping := TypeName.accepts_object (force.type rfl)
  have vector : ∀ child, (refersTo "vector").Satisfies meaning child → child.IsVector :=
    fun _ => isVector_of_satisfies interprets
  have targets : ∀ child, (refersTo "targets").Satisfies meaning child → child.IsTargets :=
    fun _ => isTargets_of_satisfies interprets
  refine
    { kind := (force.requiredProperty mapping (by decide) rfl).imp fun _ => isString_of_satisfies
      gravity := fun same => ?_
      drag := fun same => ?_
      spring := fun same => ?_ }
  -- the condition of each branch looks at all entries, so the kind must be one of unique keys
  · have gravity := consequent_of_kind unique same (force.allOf (.head _))
    exact
      { g := (gravity.requiredProperty mapping (by decide) rfl).imp vector
        targets := (gravity.property rfl).imp targets }
  · have drag := consequent_of_kind unique same (force.allOf (.tail _ (.head _)))
    exact
      { coefficient := (drag.requiredProperty mapping (by decide) rfl).imp fun _ =>
          isNumber_of_satisfies
        targets := (drag.property rfl).imp targets }
  · have spring := consequent_of_kind unique same (force.allOf (.tail _ (.tail _ (.head _))))
    exact
      { anchor := (spring.requiredProperty mapping (by decide) rfl).imp vector
        bodyId := (spring.requiredProperty mapping (by decide) rfl).imp fun _ =>
          isString_of_bodyId interprets
        stiffness := (spring.requiredProperty mapping (by decide) rfl).imp fun _ =>
          isNumber_of_satisfies
        restLength := (spring.property rfl).imp fun _ => isNumber_of_satisfies }

theorem isScenario_of_satisfies (unique : node.UniqueKeys)
    (satisfies : document.root.Satisfies meaning node) : node.IsScenario := by
  have mapping := TypeName.accepts_object (satisfies.type rfl)
  refine
    { mapping := mapping
      name := (satisfies.property rfl).imp fun _ => isString_of_satisfies
      timeScale := (satisfies.property rfl).imp fun _ => isNumber_of_satisfies
      bounds := (satisfies.property rfl).imp fun _ => isBounds_of_satisfies interprets
      bodies := (satisfies.requiredProperty mapping (by decide) rfl).imp fun bodies satisfies => ?_
      forces := ?_ }
  · exact ⟨isSequence_of_satisfies satisfies,
      (satisfies.eachItem rfl).imp fun _ => isBody_of_satisfies interprets⟩
  · intro forces found
    have satisfies := satisfies.property rfl forces found
    refine ⟨isSequence_of_satisfies satisfies, ?_⟩
    intro items sequence item member
    have uniqueItem := (unique.at forces found).eachItem items sequence item member
    exact isForce_of_satisfies interprets uniqueItem
      (satisfies.eachItem rfl items sequence item member)

end

/-- A document in which validation finds nothing has the shape of a scenario. -/
theorem isScenario_of_validate (unique : node.UniqueKeys) (valid : document.validate node = []) :
    node.IsScenario := by
  have few : document.definitions.length ≤ SchemaDocument.maxReferences := by decide
  have within := within_of_acyclic acyclic_definitions few
  have interprets := interprets_meaningWithin within
  have everything : ClosedUnderParts fun _ => True := ⟨fun _ _ _ => trivial, fun _ _ _ => trivial⟩
  refine isScenario_of_satisfies interprets unique
    ((validate_of_within everything interprets ?_ ?_ within trivial).mp valid)
  · intro name schema found part member other _ bound listed
    rw [bounds_definitions _ (Fields.mem_of_get? found) part member] at listed
    cases listed
  · intro part member other _ bound listed
    rw [bounds_root part member] at listed
    cases listed

end ScenarioSchema

/-! ## The source of the schema -/

theorem TypeName.ofText?_text (type : TypeName) : ofText? type.text = some type := by
  cases type <;> decide

namespace Compile

theorem types_text (type : TypeName) (path : Path) :
    types (.ofString type.text) path = pure [type] := by
  simp [types, Node.ofString, Node.string?, orFail, TypeName.ofText?_text]

theorem definitionName?_pointer (name : String) :
    definitionName? ("#/definitions/" ++ name) = some name := by
  have start : "#/definitions/".toList.isPrefixOf ("#/definitions/" ++ name).toList = true := by
    rw [String.toList_append, List.isPrefixOf_iff_prefix]
    exact List.prefix_append _ _
  have rest : ("#/definitions/" ++ name).toList.drop "#/definitions/".length = name.toList := by
    rw [String.toList_append, ← String.length_toList, List.drop_left]
  simp only [definitionName?]
  rw [if_pos start, rest, String.ofList_toList, Option.some_or]

theorem reference_pointer (name : String) (path : Path) :
    reference (.ofString ("#/definitions/" ++ name)) path =
      (do modify (· ++ [⟨name, path⟩]); return name) := by
  simp [reference, Node.ofString, Node.string?, orFail, definitionName?_pointer]

end Compile

namespace ScenarioSchema

def texts (names : List String) : Node := .sequence (names.map .ofString)

def typed (type : TypeName) (more : Fields Node := []) : Node :=
  .mapping (("type", .ofString type.text) :: more)

def pointer (name : String) : Node :=
  .mapping [("$ref", .ofString ("#/definitions/" ++ name))]

def choice (values : List String) : Node := .mapping [("enum", texts values)]

def closed (required : List String) (properties : Fields Node) : Node :=
  typed .object
    [("required", texts required), ("additionalProperties", .scalar (.bool false)),
      ("properties", .mapping properties)]

def filled (items : Node) : Node :=
  typed .array [("minItems", .ofInt64 1), ("items", items)]

def branch (kind : String) (required : List String) (properties : Fields Node) : Node :=
  .mapping
    [("if", .mapping
        [("required", texts ["kind"]),
          ("properties", .mapping [("kind", .mapping [("const", .ofString kind)])])]),
      ("then", .mapping [("required", texts required), ("properties", .mapping properties)])]

def definitions : Fields Node :=
  [("vector", closed ["x", "y"] [("x", typed .number), ("y", typed .number)]),
    ("bodyId", typed .string [("pattern", .ofString "^[A-Za-z_][A-Za-z0-9_-]*$")]),
    ("targets", filled (pointer "bodyId")),
    ("bounds", closed ["min", "max", "policy"]
      [("min", pointer "vector"), ("max", pointer "vector"),
        ("policy", choice ["clamp", "wrap"])]),
    ("body", closed ["id", "mass", "position"]
      [("id", pointer "bodyId"), ("kind", typed .string), ("mass", typed .number),
        ("position", pointer "vector"), ("velocity", pointer "vector")]),
    ("force", .mapping
      [("type", .ofString TypeName.object.text), ("required", texts ["kind"]),
        ("properties", .mapping [("kind", typed .string)]),
        ("allOf", .sequence
          [branch "gravity" ["g"] [("g", pointer "vector"), ("targets", pointer "targets")],
            branch "drag" ["coefficient"]
              [("coefficient", typed .number), ("targets", pointer "targets")],
            branch "spring" ["anchor", "bodyId", "stiffness"]
              [("anchor", pointer "vector"), ("bodyId", pointer "bodyId"),
                ("stiffness", typed .number), ("restLength", typed .number)]])])]

def source : Node :=
  .mapping
    [("$schema", .ofString "http://json-schema.org/draft-07/schema#"),
      ("title", .ofString "physim scenario"),
      ("description", .ofString "Bodies, forces and optional bounds for one simulation scenario."),
      ("type", .ofString TypeName.object.text), ("required", texts ["bodies"]),
      ("additionalProperties", .scalar (.bool false)),
      ("properties", .mapping
        [("name", typed .string [("minLength", .ofInt64 1)]), ("description", typed .string),
          ("timeScale", typed .number), ("bounds", pointer "bounds"),
          ("bodies", filled (pointer "body")),
          ("forces", typed .array [("items", pointer "force")])]),
      ("definitions", .mapping definitions)]

theorem strings_texts (names : List String) (path : Path) :
    Compile.strings (texts names) path = pure names := by
  rw [Compile.strings, texts, Node.items?, Compile.orFail, pure_bind]
  generalize 0 = start
  induction names generalizing start with
  | nil => rfl
  | cons name rest ih =>
    rw [List.map_cons, List.zipIdx_cons, List.mapM_cons, ih]
    rfl

theorem count_one (path : Path) : Compile.count (.ofInt64 1) path = pure 1 := rfl

theorem pattern_bodyId (path : Path) :
    Compile.pattern (.ofString "^[A-Za-z_][A-Za-z0-9_-]*$") path = pure bodyIdPattern := by
  have read : Pattern.ofSource? "^[A-Za-z_][A-Za-z0-9_-]*$" = some bodyIdPattern := by cbv
  simp [Compile.pattern, Node.ofString, Node.string?, Compile.orFail, read]

section Source

attribute [local simp] Schema.ofNode Schema.withKeywords Schema.named? Schema.propertiesOf
  Schema.namedSchemas Schema.branchesOf Schema.listedSchemas Compile.facet Compile.orFail
  Compile.reference_pointer Compile.types_text strings_texts count_one pattern_bodyId

theorem ofNode_typed (type : TypeName) (path : Path) :
    Schema.ofNode (typed type) path = pure (ofType type) := by
  simp [typed, ofType]

theorem ofNode_nonempty (path : Path) :
    Schema.ofNode (typed .string [("minLength", .ofInt64 1)]) path =
      pure (ofType .string { minLength := some 1 }) := by
  simp [typed, ofType]

theorem ofNode_bodyId (path : Path) :
    Schema.ofNode (typed .string [("pattern", .ofString "^[A-Za-z_][A-Za-z0-9_-]*$")]) path =
      pure bodyId := by
  simp [typed, bodyId, ofType]

theorem ofNode_choice (values : List String) (path : Path) :
    Schema.ofNode (choice values) path =
      pure { facets := { enumeration := some (values.map .ofString) } } := by
  simp [choice, texts, Node.items?]

theorem ofNode_pointer (name : String) (path : Path) :
    Schema.ofNode (pointer name) path =
      (do modify (· ++ [⟨name, path.key "$ref"⟩]); return refersTo name) := by
  simp [pointer, refersTo]

theorem ofNode_closed (required : List String) (properties : Fields Node) (path : Path) :
    Schema.ofNode (closed required properties) path =
      closedObject required <$> Schema.namedSchemas properties (path.key "properties") := by
  simp [closed, typed, Node.bool?]
  rfl

theorem ofNode_array (items : Node) (path : Path) :
    Schema.ofNode (typed .array [("items", items)]) path =
      arrayOf <$> Schema.ofNode items (path.key "items") := by
  simp [typed]
  rfl

theorem ofNode_filled (items : Node) (path : Path) :
    Schema.ofNode (filled items) path =
      (arrayOf · (some 1)) <$> Schema.ofNode items (path.key "items") := by
  simp [filled, typed]
  rfl

theorem ofNode_branch (kind : String) (required : List String) (properties : Fields Node)
    (path : Path) :
    Schema.ofNode (branch kind required properties) path =
      whenKind kind required <$>
        Schema.namedSchemas properties ((path.key "then").key "properties") := by
  simp [branch]
  rfl

theorem ofNode_source : SchemaDocument.ofNode source = .ok document := by
  have found : source.child? "definitions" = some (.mapping definitions) := by
    simp [source, Node.child?]
    rfl
  have missing : source.child? "$defs" = none := by decide
  have first : SchemaDocument.readDefinitions source [] "definitions" =
      Fields.ofList <$> Schema.namedSchemas definitions (Path.root.key "definitions") := by
    simp only [SchemaDocument.readDefinitions, found]
    simp
    rfl
  have second : ∀ fields, SchemaDocument.readDefinitions source fields "$defs" = pure fields := by
    intro fields
    simp only [SchemaDocument.readDefinitions, missing]
  simp only [SchemaDocument.ofNode, SchemaDocument.read, List.foldlM, first, second]
  -- the lemmas on the parts leave the list of all references, each of which has a definition
  simp [ofNode_typed, ofNode_nonempty, ofNode_bodyId, ofNode_choice, ofNode_pointer, ofNode_closed,
    ofNode_array, ofNode_filled, ofNode_branch, source, definitions, Node.bool?, Fields.ofList,
    Fields.insert, SchemaDocument.dangling?, Fields.contains, Fields.get?]
  rfl

end Source

end ScenarioSchema

end ParticleSim
