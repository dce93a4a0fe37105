import ParticleSim.Proofs.Schema.Soundness
import ParticleSim.Proofs.Tree.Equality
/-!
Where violations come from. However a check gets to a node, along references, alternatives,
branches, items or entries, what it finds is a complaint about the node itself, a required key that
the node lacks, or what it finds at a child; so the path of a violation leads to where it is from.
-/
namespace ParticleSim

/-- What there is to find at a node with a path: complaints about the node, required keys that it
lacks, and what there is to find at its children. -/
inductive Findable : Node → Path → Violation → Prop where
  | here (node : Node) (path : Path) {complaint : Complaint} (present : complaint ≠ .missing) :
    Findable node path ⟨path, complaint⟩
  | missing {fields : Fields Node} (path : Path) {key : String} (absent : key ∉ fields.keys) :
    Findable (.mapping fields) path ⟨path.key key, .missing⟩
  | item {nodes : List Node} {path : Path} {i : Nat} {item : Node} {v : Violation}
    (listed : nodes[i]? = some item) (inside : Findable item (path.index i) v) :
    Findable (.sequence nodes) path v
  | entry {fields : Fields Node} {path : Path} {entry : String × Node} {v : Violation}
    (member : entry ∈ fields) (inside : Findable entry.2 (path.key entry.1) v) :
    Findable (.mapping fields) path v

def Check.Sober (check : Check) : Prop :=
  ∀ node path, ∀ v ∈ check node path, Findable node path v

/-- Where a violation is: at a node of the tree, or, if something is missing, at a key that a
mapping of the tree lacks. -/
inductive Node.Locates (tree : Node) : Violation → Prop where
  | present {path : Path} {complaint : Complaint} {node : Node} (stands : tree.at? path = some node)
    (present : complaint ≠ .missing) : Locates tree ⟨path, complaint⟩
  | missing {path : Path} {key : String} {fields : Fields Node}
    (mapping : tree.at? path = some (.mapping fields)) (absent : key ∉ fields.keys) :
    Locates tree ⟨path.key key, .missing⟩

theorem Node.Locates.under {tree child : Node} {step : Step}
    (descends : ∀ rest, tree.at? (step :: rest) = child.at? rest) {path : Path}
    {complaint : Complaint} (located : child.Locates ⟨path, complaint⟩) :
    tree.Locates ⟨step :: path, complaint⟩ := by
  cases located with
  | present stands present => exact .present ((descends _).trans stands) present
  | @missing path key fields mapping absent =>
    have stands : tree.at? (step :: path) = some (.mapping fields) :=
      (descends path).trans mapping
    exact .missing stands absent

namespace Findable

variable {node : Node} {path : Path} {v : Violation}

theorem isPrefix (findable : Findable node path v) : path <+: v.path := by
  induction findable with
  | here node path present => exact List.prefix_refl path
  | missing path absent => exact List.prefix_append path _
  | item listed inside ih => exact (List.prefix_append _ _).trans ih
  | entry member inside ih => exact (List.prefix_append _ _).trans ih

theorem located (findable : Findable node path v) (unique : node.UniqueKeys) :
    ∃ rest, v.path = path ++ rest ∧ node.Locates ⟨rest, v.complaint⟩ := by
  induction findable with
  | here node path present =>
    have stands : node.at? [] = some node := rfl
    exact ⟨[], (List.append_nil path).symm, .present stands present⟩
  | @missing fields path key absent =>
    have stands : (Node.mapping fields).at? [] = some (.mapping fields) := rfl
    exact ⟨[.key key], rfl, .missing stands absent⟩
  | @item nodes path i item v listed inside ih =>
    rcases ih (unique.item (List.mem_of_getElem? listed)) with ⟨rest, same, located⟩
    refine ⟨.index i :: rest, ?_, located.under fun rest => ?_⟩
    · rw [same, Path.index, List.append_assoc, List.singleton_append]
    · rw [Node.at?, Node.items?, Option.bind_some, listed, Option.bind_some]
  | @entry fields path entry v member inside ih =>
    have listed : fields.get? entry.1 = some entry.2 :=
      Fields.get?_of_mem (unique.keys rfl) member
    rcases ih (unique.value member) with ⟨rest, same, located⟩
    refine ⟨.key entry.1 :: rest, ?_, located.under fun rest => ?_⟩
    · rw [same, Path.key, List.append_assoc, List.singleton_append]
    · rw [Node.at?, Node.child?, Node.fields?, Option.bind_some, listed, Option.bind_some]

end Findable

def Complaint.OfFacets : Complaint → Prop
  | .nothingAllowed | .referenceTooDeep _ | .unresolvedReference _ | .wrongType .. | .missing
  | .unknownProperty _ | .noAlternative => False
  | _ => True

theorem mem_complain {condition : Bool} {complaint other : Complaint} :
    other ∈ complain condition complaint ↔ condition = true ∧ other = complaint := by
  rw [complain]
  cases condition <;> simp

theorem Facets.ofFacets_of_mem_complaints (facets : Facets) (node : Node) :
    ∀ complaint ∈ facets.complaints node, complaint.OfFacets := by
  have value : ∀ complaint ∈ facets.valueComplaints node, complaint.OfFacets := by
    simp only [valueComplaints, List.forall_mem_append]
    constructor <;> split <;> simp [mem_complain, Complaint.OfFacets]
  have number : ∀ x, ∀ complaint ∈ facets.numberComplaints x, complaint.OfFacets := by
    intro x
    simp only [numberComplaints, List.forall_mem_append]
    refine ⟨⟨⟨?_, ?_⟩, ?_⟩, ?_⟩ <;> split <;> simp [mem_complain, Complaint.OfFacets]
  have string : ∀ text, ∀ complaint ∈ facets.stringComplaints text, complaint.OfFacets := by
    intro text
    simp only [stringComplaints, List.forall_mem_append]
    refine ⟨⟨?_, ?_⟩, ?_⟩ <;> split <;> simp [mem_complain, Complaint.OfFacets]
  have items : ∀ count, ∀ complaint ∈ facets.itemCountComplaints count, complaint.OfFacets := by
    intro count
    simp only [itemCountComplaints, List.forall_mem_append]
    constructor <;> split <;> simp [mem_complain, Complaint.OfFacets]
  simp only [complaints, List.forall_mem_append]
  refine ⟨⟨⟨value, ?_⟩, ?_⟩, ?_⟩
  · cases node.number? with
    | none => exact List.forall_mem_nil _
    | some x => exact number x
  · cases node.string? with
    | none => exact List.forall_mem_nil _
    | some text => exact string text
  · cases node.items? with
    | none => exact List.forall_mem_nil _
    | some nodes => exact items nodes.length

theorem mem_checkItems {check : Check} {path : Path} {nodes : List Node} {v : Violation} :
    v ∈ checkItems check path nodes ↔
      ∃ i item, nodes[i]? = some item ∧ v ∈ check item (path.index i) := by
  rw [checkItems, List.mem_flatMap]
  constructor
  · rintro ⟨⟨item, i⟩, indexed, found⟩
    exact ⟨i, item, List.mk_mem_zipIdx_iff_getElem?.mp indexed, found⟩
  · rintro ⟨i, item, listed, found⟩
    exact ⟨(item, i), List.mk_mem_zipIdx_iff_getElem?.mpr listed, found⟩

theorem mem_checkFields {check : String → Check} {path : Path} {fields : Fields Node}
    {v : Violation} : v ∈ checkFields check path fields ↔
      ∃ entry ∈ fields, v ∈ check entry.1 entry.2 (path.key entry.1) :=
  List.mem_flatMap

namespace Schema

variable {resolve : Resolver} {schema : Schema} {node : Node} {path : Path} {v : Violation}

theorem exists_of_mem_optionViolations {option : Option Schema}
    (found : v ∈ optionViolations resolve option node path) :
    ∃ inner ∈ option, v ∈ inner.violations resolve node path := by
  cases option with
  | none =>
    rw [optionViolations] at found
    cases found
  | some inner =>
    rw [optionViolations] at found
    exact ⟨inner, rfl, found⟩

theorem mem_allViolations {schemas : List Schema} :
    v ∈ allViolations resolve schemas node path ↔
      ∃ inner ∈ schemas, v ∈ inner.violations resolve node path := by
  induction schemas with
  | nil => simp [allViolations]
  | cons first rest ih => simp [allViolations, ih]

theorem exists_of_mem_conditionalViolations {conditional : Option (Conditional Schema)}
    (found : v ∈ conditionalViolations resolve conditional node path) :
    ∃ choice ∈ conditional, ∃ inner ∈ choice.all, v ∈ inner.violations resolve node path := by
  rcases conditional with _ | ⟨condition, consequent, alternative⟩
  · rw [conditionalViolations] at found
    cases found
  · rw [conditionalViolations] at found
    refine ⟨_, rfl, ?_⟩
    simp only [Conditional.all, List.mem_cons, List.mem_append, Option.mem_toList]
    split at found
    · rcases exists_of_mem_optionViolations found with ⟨inner, chosen, found⟩
      exact ⟨inner, .inr (.inl chosen), found⟩
    · rcases exists_of_mem_optionViolations found with ⟨inner, chosen, found⟩
      exact ⟨inner, .inr (.inr chosen), found⟩

theorem mem_entryViolations {key : String} :
    v ∈ entryViolations resolve (additionalViolations resolve schema.additional) schema.properties
        key node path ↔
      (∃ inner ∈ schema.forEntry key, v ∈ inner.violations resolve node path) ∨
        schema.Denies key ∧ v = ⟨path, .unknownProperty key⟩ := by
  rw [entryViolations_eq, forEntry, Denies]
  cases Fields.get? key schema.properties with
  | some property => simp
  | none =>
    cases schema.additional <;>
      simp [additionalViolations, Additional.checked?, Additional.denies]

def childViolations (resolve : Resolver) (schema : Schema) : Check
  | .scalar _, _ => []
  | .sequence nodes, path => checkItems (optionViolations resolve schema.items) path nodes
  | .mapping fields, path =>
    schema.facets.missing fields path ++
      checkFields (entryViolations resolve (additionalViolations resolve schema.additional)
        schema.properties) path fields

theorem ownViolations_eq (resolve : Resolver) (schema : Schema) (node : Node) (path : Path) :
    schema.ownViolations resolve node path =
      match schema.facets.wrongTypes? node with
      | some types => [⟨path, .wrongType types node.typeName⟩]
      | none =>
        (schema.facets.complaints node).map (⟨path, ·⟩) ++
        schema.childViolations resolve node path ++
        allViolations resolve schema.allOf node path ++
        (if schema.anyOf.isEmpty || anyPasses resolve schema.anyOf node path then []
          else [⟨path, .noAlternative⟩]) ++
        conditionalViolations resolve schema.conditional node path := by
  rw [ownViolations.eq_def]
  cases node <;> rfl

theorem sober_childViolations
    (underneath : ∀ inner ∈ schema.underneath, Check.Sober (inner.violations resolve)) :
    Check.Sober (schema.childViolations resolve) := by
  intro node path v found
  cases node with
  | scalar value => cases found
  | sequence nodes =>
    rcases mem_checkItems.mp found with ⟨i, item, listed, found⟩
    rcases exists_of_mem_optionViolations found with ⟨inner, asked, found⟩
    exact .item listed (underneath inner (mem_underneath_of_items asked) _ _ v found)
  | mapping fields =>
    rcases List.mem_append.mp found with found | found
    · rcases List.mem_map.mp found with ⟨key, lacking, rfl⟩
      have absent := (List.mem_filter.mp lacking).2
      rw [Bool.not_eq_true', Fields.contains_eq_false_iff] at absent
      exact .missing path absent
    · rcases mem_checkFields.mp found with ⟨entry, member, found⟩
      refine .entry member ?_
      rcases mem_entryViolations.mp found with ⟨inner, asked, found⟩ | ⟨-, rfl⟩
      · exact underneath inner (mem_underneath_of_forEntry asked) _ _ v found
      · exact .here _ _ (by simp)

/-- The violations of a schema are from the node and its children if those of the schemas directly
inside it are. -/
theorem sober_ownViolations
    (alongside : ∀ inner ∈ schema.alongside, Check.Sober (inner.violations resolve))
    (underneath : ∀ inner ∈ schema.underneath, Check.Sober (inner.violations resolve)) :
    Check.Sober (schema.ownViolations resolve) := by
  intro node path v found
  rw [ownViolations_eq] at found
  split at found
  · rw [List.mem_singleton.mp found]
    exact .here node path (by simp)
  · simp only [List.mem_append] at found
    rcases found with (((found | found) | found) | found) | found
    · rcases List.mem_map.mp found with ⟨complaint, member, rfl⟩
      have present : complaint ≠ .missing := by
        rintro rfl
        exact schema.facets.ofFacets_of_mem_complaints node _ member
      exact .here node path present
    · exact sober_childViolations underneath node path v found
    · rcases mem_allViolations.mp found with ⟨inner, member, found⟩
      exact alongside inner (mem_alongside_of_allOf member) _ _ v found
    · split at found
      · cases found
      · rw [List.mem_singleton.mp found]
        exact .here node path (by simp)
    · rcases exists_of_mem_conditionalViolations found with ⟨choice, asked, inner, chosen, found⟩
      exact alongside inner (mem_alongside_of_choice asked chosen) _ _ v found

theorem sober_violations
    (resolved : ∀ name check, resolve name = .found check → check.Sober) (schema : Schema) :
    Check.Sober (schema.violations resolve) := by
  induction schema using Schema.induction with
  | step schema alongside underneath =>
    intro node path v found
    have own : v ∈ schema.ownViolations resolve node path → Findable node path v :=
      sober_ownViolations alongside underneath node path v
    rw [violations_eq] at found
    split at found
    · rw [List.mem_singleton.mp found]
      exact .here node path (by simp)
    · cases reference : schema.reference with
      | none =>
        rw [reference] at found
        exact own found
      | some name =>
        rw [reference] at found
        dsimp only at found
        cases resolution : resolve name with
        | tooDeep =>
          rw [resolution] at found
          rw [List.mem_singleton.mp found]
          exact .here node path (by simp)
        | unknown =>
          rw [resolution] at found
          rcases List.mem_cons.mp found with rfl | found
          · exact .here node path (by simp)
          · exact own found
        | found check =>
          rw [resolution] at found
          rcases List.mem_append.mp found with found | found
          · exact resolved name check resolution node path v found
          · exact own found

end Schema

namespace SchemaDocument

/-- What a check of a definition has if the checks of its references have it, all checks that are
found by following references have. -/
theorem resolver_induction {definitions : Fields Schema} {motive : Check → Prop}
    (step : ∀ budget,
      (∀ name check, resolver definitions budget name = .found check → motive check) →
        ∀ name schema, definitions.get? name = some schema →
          motive (schema.violations (resolver definitions budget)))
    (budget : Nat) :
    ∀ name check, resolver definitions budget name = .found check → motive check := by
  induction budget with
  | zero =>
    intro name check resolution
    rw [resolver] at resolution
    split at resolution <;> cases resolution
  | succ budget ih =>
    intro name check resolution
    rw [resolver] at resolution
    split at resolution
    · next schema defined =>
      cases resolution
      exact step _ ih name schema defined
    · cases resolution

theorem sober_resolver (definitions : Fields Schema) (budget : Nat) :
    ∀ name check, resolver definitions budget name = .found check → check.Sober :=
  resolver_induction (fun _ resolved _ schema _ => Schema.sober_violations resolved schema) budget

/-- Validation finds only what there is to find in the tree. -/
theorem findable_of_mem_validate {document : SchemaDocument} {node : Node} {v : Violation}
    (found : v ∈ document.validate node) : Findable node Path.root v :=
  Schema.sober_violations (sober_resolver _ _) _ _ _ v found

/-- Paths of violations resolve: in a tree with distinct keys the path of a violation leads to a
node, or to a mapping followed by a required key that the mapping lacks. -/
theorem located_of_mem_validate (document : SchemaDocument) (node : Node)
    (unique : node.UniqueKeys) (v : Violation) (found : v ∈ document.validate node) :
    (v.complaint ≠ .missing ∧ ∃ place, node.at? v.path = some place) ∨
      v.complaint = .missing ∧ ∃ (path : Path) (key : String) (fields : Fields Node),
        v.path = path.key key ∧ node.at? path = some (.mapping fields) ∧ key ∉ fields.keys := by
  rcases (findable_of_mem_validate found).located unique with ⟨rest, same, located⟩
  rcases v with ⟨path, complaint⟩
  dsimp only [Path.root, List.nil_append] at same located ⊢
  subst same
  cases located with
  | present stands present => exact .inl ⟨present, _, stands⟩
  | missing mapping absent => exact .inr ⟨rfl, _, _, _, rfl, mapping, absent⟩

def ofBodies : SchemaDocument :=
  ⟨{ properties := [("bodies", { items := some { reference := some "body" } })] },
    [("body", { facets := { required := ["mass"] }, properties := [("name", { never := true })] })]⟩

def oneNamed : Node :=
  .mapping [("bodies", .sequence
    [.mapping [("mass", .ofInt64 1)], .mapping [("name", .ofString "b")]])]

theorem located_of_mem_validate_oneNamed :
    oneNamed.UniqueKeys ∧
      ofBodies.validate oneNamed =
        [⟨[.key "bodies", .index 1, .key "mass"], .missing⟩,
          ⟨[.key "bodies", .index 1, .key "name"], .nothingAllowed⟩] ∧
      ∀ v ∈ ofBodies.validate oneNamed,
        (v.complaint ≠ .missing ∧ ∃ place, oneNamed.at? v.path = some place) ∨
          v.complaint = .missing ∧ ∃ (path : Path) (key : String) (fields : Fields Node),
            v.path = path.key key ∧ oneNamed.at? path = some (.mapping fields) ∧
              key ∉ fields.keys := by
  have unique : oneNamed.UniqueKeys := by
    simp [oneNamed, Node.UniqueKeys, Node.All, Node.AllItems, Node.AllFields, Node.DistinctKeys,
      Fields.keys, Node.ofInt64, Node.ofString]
  exact ⟨unique, rfl, fun v found => located_of_mem_validate ofBodies oneNamed unique v found⟩

end SchemaDocument
end ParticleSim
