import ParticleSim.Proofs.Schema.Twins
/-!
Reading a schema as the work of patches: each keyword of a mapping gives a patch, and the schema is
what the patches make of an empty one. Patches of different keywords change different parts, so
their order does not matter.
-/
namespace ParticleSim

/-- What one keyword says about the node alone. -/
inductive FacetPatch where
  | types (types : List TypeName)
  | constant (value : Node)
  | enumeration (allowed : List Node)
  | minimum (bound : Float)
  | maximum (bound : Float)
  | exclusiveMinimum (bound : Float)
  | exclusiveMaximum (bound : Float)
  | minLength (least : Nat)
  | maxLength (most : Nat)
  | pattern (pattern : Pattern)
  | minItems (least : Nat)
  | maxItems (most : Nat)
  | required (keys : List String)
  | blank

inductive Patch where
  | reference (name : String)
  | items (schema : Schema)
  | properties (schemas : Fields Schema)
  | additional (additional : Additional Schema)
  | allOf (schemas : List Schema)
  | anyOf (schemas : List Schema)
  | conditional (conditional : Conditional Schema)
  | facet (patch : FacetPatch)

def FacetPatch.keyword? : FacetPatch → Option String
  | .types _ => some "type"
  | .constant _ => some "const"
  | .enumeration _ => some "enum"
  | .minimum _ => some "minimum"
  | .maximum _ => some "maximum"
  | .exclusiveMinimum _ => some "exclusiveMinimum"
  | .exclusiveMaximum _ => some "exclusiveMaximum"
  | .minLength _ => some "minLength"
  | .maxLength _ => some "maxLength"
  | .pattern _ => some "pattern"
  | .minItems _ => some "minItems"
  | .maxItems _ => some "maxItems"
  | .required _ => some "required"
  | .blank => none

def Patch.keyword? : Patch → Option String
  | .reference _ => some "$ref"
  | .items _ => some "items"
  | .properties _ => some "properties"
  | .additional _ => some "additionalProperties"
  | .allOf _ => some "allOf"
  | .anyOf _ => some "anyOf"
  | .conditional _ => some "if"
  | .facet patch => patch.keyword?

def Patch.Of (keyword : String) (patch : Patch) : Prop :=
  patch = .facet .blank ∨ patch.keyword? = some keyword

def Facets.patch (facets : Facets) : FacetPatch → Facets
  | .types types => { facets with types := some types }
  | .constant value => { facets with constant := some value }
  | .enumeration allowed => { facets with enumeration := some allowed }
  | .minimum bound => { facets with minimum := some bound }
  | .maximum bound => { facets with maximum := some bound }
  | .exclusiveMinimum bound => { facets with exclusiveMinimum := some bound }
  | .exclusiveMaximum bound => { facets with exclusiveMaximum := some bound }
  | .minLength least => { facets with minLength := some least }
  | .maxLength most => { facets with maxLength := some most }
  | .pattern pattern => { facets with pattern := some pattern }
  | .minItems least => { facets with minItems := some least }
  | .maxItems most => { facets with maxItems := some most }
  | .required keys => { facets with required := keys }
  | .blank => facets

def Schema.patch (schema : Schema) : Patch → Schema
  | .reference name => { schema with reference := some name }
  | .items items => { schema with items := some items }
  | .properties schemas => { schema with properties := schemas }
  | .additional additional => { schema with additional := additional }
  | .allOf schemas => { schema with allOf := schemas }
  | .anyOf schemas => { schema with anyOf := schemas }
  | .conditional conditional => { schema with conditional := some conditional }
  | .facet patch => { schema with facets := schema.facets.patch patch }

theorem Facets.patch_comm (facets : Facets) {first second : FacetPatch}
    (apart : first.keyword? = second.keyword? → first = second) :
    (facets.patch first).patch second = (facets.patch second).patch first := by
  by_cases same : first.keyword? = second.keyword?
  · rw [apart same]
  · cases first <;> cases second <;> first | rfl | exact absurd rfl same

theorem Schema.never_foldl_patch (patches : Fields Patch) (schema : Schema) :
    (patches.foldl (fun schema entry => schema.patch entry.2) schema).never = schema.never := by
  induction patches generalizing schema with
  | nil => rfl
  | cons entry rest ih =>
    rw [List.foldl_cons, ih]
    cases entry.2 <;> rfl

theorem Schema.patch_patch (schema : Schema) (patch : Patch) :
    (schema.patch patch).patch patch = schema.patch patch := by
  cases patch with
  | facet patch => cases patch <;> rfl
  | _ => rfl

/-- Patches of different keywords commute. -/
theorem Schema.patch_comm (schema : Schema) {first second : Patch}
    (apart : first.keyword? = second.keyword? → first = second) :
    (schema.patch first).patch second = (schema.patch second).patch first := by
  by_cases same : first.keyword? = second.keyword?
  · rw [apart same]
  · cases first with
    | facet first =>
      cases second with
      | facet second =>
        have inner := schema.facets.patch_comm fun equal => absurd equal same
        exact congrArg (fun facets => { schema with facets := facets }) inner
      | _ => rfl
    | _ => cases second <;> first | rfl | exact absurd rfl same

theorem Patch.eq_of_keyword {patches : Fields Patch} (distinct : patches.keys.Nodup)
    (kinds : ∀ entry ∈ patches, entry.2.Of entry.1) {first second : String × Patch}
    (member : first ∈ patches) (member' : second ∈ patches)
    (same : first.2.keyword? = second.2.keyword?) : first.2 = second.2 := by
  rcases kinds first member with blank | keyword
  · rcases kinds second member' with blank' | keyword'
    · rw [blank, blank']
    · rw [blank, keyword'] at same
      cases same
  · rcases kinds second member' with blank' | keyword'
    · rw [blank', keyword] at same
      cases same
    · rw [keyword, keyword'] at same
      have here : patches.get? first.1 = some first.2 := Fields.get?_of_mem distinct member
      have there : patches.get? second.1 = some second.2 := Fields.get?_of_mem distinct member'
      rw [Option.some.inj same, there] at here
      exact (Option.some.inj here).symm

/-- What patches make shows the work of each of them: made once more, it changes nothing. -/
theorem Schema.patch_of_mem {patches : Fields Patch} (distinct : patches.keys.Nodup)
    (kinds : ∀ entry ∈ patches, entry.2.Of entry.1) {entry : String × Patch}
    (member : entry ∈ patches) (schema : Schema) :
    (patches.foldl (fun schema entry => schema.patch entry.2) schema).patch entry.2 =
      patches.foldl (fun schema entry => schema.patch entry.2) schema := by
  rcases List.append_of_mem member with ⟨before, behind, split⟩
  have perm : patches.Perm ((before ++ behind) ++ [entry]) := by
    rw [split]
    exact List.perm_middle.trans (List.perm_append_singleton ..).symm
  rw [perm.foldl_eq' fun first member second member' schema =>
    schema.patch_comm (Patch.eq_of_keyword distinct kinds member member'), List.foldl_concat,
    Schema.patch_patch]

namespace Compile

def facetPatch (keyword : String) (value : Node) (path : Path) : Compile FacetPatch :=
  match keyword with
  | "type" => .types <$> types value path
  | "const" => return .constant value
  | "enum" => .enumeration <$> orFail value.items? path .notArray
  | "minimum" => .minimum <$> number value path
  | "maximum" => .maximum <$> number value path
  | "exclusiveMinimum" => .exclusiveMinimum <$> number value path
  | "exclusiveMaximum" => .exclusiveMaximum <$> number value path
  | "minLength" => .minLength <$> count value path
  | "maxLength" => .maxLength <$> count value path
  | "pattern" => .pattern <$> pattern value path
  | "minItems" => .minItems <$> count value path
  | "maxItems" => .maxItems <$> count value path
  | "required" => .required <$> strings value path
  | _ => return .blank

theorem facet_eq (facets : Facets) (keyword : String) (value : Node) (path : Path) :
    facet facets keyword value path = facets.patch <$> facetPatch keyword value path := by
  rw [facet.eq_def, facetPatch.eq_def]
  split <;> simp [Facets.patch]

def patch (branch? : String → Compile (Option Schema)) (keyword : String) (value : Node)
    (path : Path) : Compile Patch :=
  match keyword with
  | "$ref" => .reference <$> reference value path
  | "items" => .items <$> Schema.ofNode value path
  | "properties" => .properties <$> Schema.propertiesOf value path
  | "additionalProperties" =>
    match value.bool? with
    | some true => return .additional .allowed
    | some false => return .additional .denied
    | none => (.additional <| .checked ·) <$> Schema.ofNode value path
  | "allOf" => .allOf <$> Schema.branchesOf value path
  | "anyOf" => .anyOf <$> Schema.branchesOf value path
  | "if" => do
    let condition ← Schema.ofNode value path
    let consequent ← branch? "then"
    let alternative ← branch? "else"
    return .conditional ⟨condition, consequent, alternative⟩
  | _ => .facet <$> facetPatch keyword value path

end Compile

namespace Schema

open Compile

theorem withKeywords_cons (branch? : String → Compile (Option Schema)) (keyword : String)
    (value : Node) (rest : Fields Node) (path : Path) (schema : Schema) :
    withKeywords branch? ((keyword, value) :: rest) path schema = (do
      let found ← Compile.patch branch? keyword value (path.key keyword)
      withKeywords branch? rest path (schema.patch found)) := by
  rw [withKeywords.eq_def, Compile.patch.eq_def]
  dsimp only
  split
  case h_4 =>
    rcases value.bool? with none | allowed
    · simp only [map_eq_pure_bind, bind_assoc, pure_bind]
      rfl
    · cases allowed <;> rfl
  all_goals
    simp only [map_eq_pure_bind, bind_assoc, pure_bind, facet_eq]
    rfl

theorem withKeywords_eq (branch? : String → Compile (Option Schema)) (fields : Fields Node)
    (path : Path) (schema : Schema) :
    withKeywords branch? fields path schema =
      (List.foldl (fun schema entry => schema.patch entry.2) schema) <$>
        readEntries (fun keyword value => Compile.patch branch? keyword value (path.key keyword))
          fields := by
  induction fields generalizing schema with
  | nil => rw [withKeywords, readEntries, map_pure, List.foldl_nil]
  | cons entry rest ih =>
    rw [withKeywords_cons, readEntries]
    simp only [map_eq_pure_bind, bind_assoc, pure_bind, ih, List.foldl_cons]

theorem namedSchemas_eq (fields : Fields Node) (path : Path) :
    namedSchemas fields path =
      readEntries (fun name value => ofNode value (path.key name)) fields := by
  induction fields with
  | nil => rw [namedSchemas, readEntries]
  | cons entry rest ih => rw [namedSchemas, readEntries, ih]

theorem named?_eq (name : String) (fields : Fields Node) (path : Path) :
    named? name fields path =
      (match Fields.get? name fields with
        | some value => some <$> ofNode value (path.key name)
        | none => pure none) := by
  induction fields with
  | nil => rw [named?, Fields.get?]
  | cons entry rest ih =>
    rcases entry with ⟨key, value⟩
    rw [named?, Fields.get?]
    split
    · next same =>
      subst same
      exact (map_eq_pure_bind some _).symm
    · exact ih

end Schema
end ParticleSim
