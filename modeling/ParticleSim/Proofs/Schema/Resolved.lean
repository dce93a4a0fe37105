import ParticleSim.Proofs.Outline.Outcome
import ParticleSim.Proofs.Schema.Nesting
import ParticleSim.Proofs.Schema.Pointers
/-!
References of a schema that was read lead to definitions. Whatever a keyword makes part of a schema,
the references in it were collected on the way, also those of definitions that a later one replaces;
and reading is refused if one of them has no definition. So a check never meets such a reference.
-/
namespace ParticleSim

open Outline (Meets)

namespace Schema

def names (schema : Schema) : List String :=
  schema.parts.filterMap (·.reference)

theorem mem_names {schema : Schema} {name : String} :
    name ∈ schema.names ↔ ∃ part ∈ schema.parts, part.reference = some name :=
  List.mem_filterMap

theorem mem_names_iff {schema : Schema} {name : String} :
    name ∈ schema.names ↔
      schema.reference = some name ∨ ∃ inner ∈ schema.inside, name ∈ inner.names := by
  constructor
  · intro named
    rcases mem_names.mp named with ⟨part, within, refers⟩
    rcases mem_parts_iff.mp within with rfl | ⟨inner, member, within⟩
    · exact .inl refers
    · exact .inr ⟨inner, member, mem_names.mpr ⟨part, within, refers⟩⟩
  · rintro (refers | ⟨inner, member, named⟩)
    · exact mem_names.mpr ⟨schema, mem_parts_self schema, refers⟩
    · rcases mem_names.mp named with ⟨part, within, refers⟩
      exact mem_names.mpr ⟨part, mem_parts_iff.mpr (.inr ⟨inner, member, within⟩), refers⟩

end Schema

namespace Patch

def inside : Patch → List Schema
  | .items schema => [schema]
  | .properties schemas => schemas.map (·.2)
  | .additional extra => extra.checked?.toList
  | .allOf schemas => schemas
  | .anyOf schemas => schemas
  | .conditional choice => choice.all
  | .reference _ => []
  | .facet _ => []

def reference? : Patch → Option String
  | .reference name => some name
  | _ => none

def names (patch : Patch) : List String :=
  patch.reference?.toList ++ patch.inside.flatMap Schema.names

end Patch

namespace Schema

theorem inside_patch (schema : Schema) (patch : Patch) :
    (schema.patch patch).inside ⊆ schema.inside ++ patch.inside := by
  intro inner
  cases patch <;>
    simp only [Schema.patch, inside, alongside, underneath, Patch.inside, List.mem_append,
      Option.map_some, Option.getD_some, Option.toList_some] <;>
    tauto

theorem reference_patch (schema : Schema) (patch : Patch) :
    (schema.patch patch).reference = patch.reference?.or schema.reference := by
  cases patch <;> rfl

theorem names_patch (schema : Schema) (patch : Patch) :
    (schema.patch patch).names ⊆ schema.names ++ patch.names := by
  intro name member
  rw [List.mem_append, mem_names_iff, Patch.names, List.mem_append, Option.mem_toList,
    List.mem_flatMap]
  rcases mem_names_iff.mp member with refers | ⟨inner, within, named⟩
  · rw [reference_patch, Option.or_eq_some_iff] at refers
    tauto
  · rcases List.mem_append.mp (inside_patch schema patch within) with before | new
    · exact .inl (.inr ⟨inner, before, named⟩)
    · exact .inr (.inr ⟨inner, new, named⟩)

theorem names_foldl_patch (patches : Fields Patch) (schema : Schema) :
    (patches.foldl (fun schema entry => schema.patch entry.2) schema).names ⊆
      schema.names ++ patches.flatMap (·.2.names) := by
  induction patches generalizing schema with
  | nil => exact List.subset_append_left ..
  | cons entry rest ih =>
    intro name member
    rw [List.flatMap_cons, ← List.append_assoc]
    rcases List.mem_append.mp (ih (schema.patch entry.2) member) with before | later
    · exact List.mem_append_left _ (names_patch schema entry.2 before)
    · exact List.mem_append_right _ later

end Schema

namespace Compile

variable {α β γ : Type} {names : α → List String} {names' : γ → List String}
  {known : List String}

/-- Reading loses no name: if the known names were collected before, they and those of the value
are collected after. -/
def Collects (known : List String) (names : α → List String) (reading : Compile α) : Prop :=
  ∀ before : List Reference, known ⊆ before.map Reference.name →
    Meets (fun result => known ++ names result.1 ⊆ result.2.map Reference.name) (fun _ => True)
      (reading.run before)

namespace Collects

variable {reading : Compile α}

theorem pure {value : α} (subset : names value ⊆ known) :
    Collects known names (pure value) :=
  fun _ collected => List.append_subset.mpr ⟨collected, List.Subset.trans subset collected⟩

theorem fail {path : Path} {fault : SchemaFault} :
    Collects known names (fail path fault : Compile α) :=
  fun _ _ => trivial

theorem bind (collects : Collects known names reading) {next : α → Compile γ}
    (later : ∀ value, Collects (known ++ names value) names' (next value)) :
    Collects known names' (reading >>= next) := by
  intro before collected
  rw [StateT.run_bind]
  refine (collects before collected).bind fun result both => ?_
  refine (later result.1 result.2 both).values fun _ all => ?_
  rw [List.append_subset, List.append_subset] at all
  exact List.append_subset.mpr ⟨all.1.1, all.2⟩

theorem map (collects : Collects known names reading) {f : α → γ}
    (subset : ∀ value, names' (f value) ⊆ names value) :
    Collects known names' (f <$> reading) := by
  rw [map_eq_pure_bind]
  exact collects.bind fun value => pure (List.subset_append_of_subset_right _ (subset value))

theorem of_settled {P : α → Prop} (settled : Settled P reading) :
    Collects known (fun _ => []) reading := by
  intro before collected
  rcases settled with fails | ⟨value, found, gives, -⟩
  · rcases fails before with ⟨error, stops⟩
    rw [stops]
    trivial
  · rw [gives before]
    change known ++ [] ⊆ (before ++ found).map Reference.name
    rw [List.append_nil, List.map_append]
    exact List.subset_append_of_subset_left _ collected

theorem readEntries {read : String → β → Compile γ} {fields : Fields β}
    (each : ∀ entry ∈ fields, ∀ known, Collects known names' (read entry.1 entry.2)) :
    Collects known (fun values => values.flatMap (names' ·.2)) (readEntries read fields) := by
  induction fields generalizing known with
  | nil => exact pure (List.nil_subset _)
  | cons entry rest ih =>
    rcases List.forall_mem_cons.mp each with ⟨here, later⟩
    refine (here known).bind fun first => (ih later).bind fun others => pure ?_
    rw [List.flatMap_cons]
    exact List.append_subset.mpr ⟨List.subset_append_of_subset_left _
      (List.subset_append_right ..), List.subset_append_right ..⟩

end Collects

variable {node : Node} {path : Path}

theorem collects_reference : Collects known (fun name => [name]) (reference node path) := by
  refine (Collects.of_settled (.orFail ..)).bind fun target => ?_
  refine (Collects.of_settled (.orFail ..)).bind fun name => ?_
  intro before collected
  change _ ⊆ (before ++ [(⟨name, path⟩ : Reference)]).map Reference.name
  rw [List.map_append]
  exact List.append_subset.mpr
    ⟨List.subset_append_of_subset_left _ collected, List.subset_append_right ..⟩

end Compile

open Compile

structure Node.Collects (node : Node) : Prop where
  schema : ∀ known path, Compile.Collects known Schema.names (Schema.ofNode node path)
  named : ∀ known path, Compile.Collects known (List.flatMap (·.2.names))
    (Schema.propertiesOf node path)
  listed : ∀ known path, Compile.Collects known (List.flatMap Schema.names)
    (Schema.branchesOf node path)

section Parts

variable {known : List String} {node : Node} {path : Path}

theorem Compile.collects_patch (collects : node.Collects)
    {branch? : String → Compile (Option Schema)}
    (branches : ∀ known name,
      Collects known (fun found => found.toList.flatMap Schema.names) (branch? name))
    (keyword : String) :
    Collects known Patch.names (patch branch? keyword node path) := by
  rw [patch.eq_def]
  split
  · exact collects_reference.map fun _ => List.Subset.refl _
  · refine (collects.schema known path).map fun schema => ?_
    simp [Patch.names, Patch.reference?, Patch.inside]
  · refine (collects.named known path).map fun schemas => ?_
    simp [Patch.names, Patch.reference?, Patch.inside, List.flatMap_map]
  · split
    · exact .pure (List.nil_subset _)
    · exact .pure (List.nil_subset _)
    · refine (collects.schema known path).map fun schema => ?_
      simp [Patch.names, Patch.reference?, Patch.inside, Additional.checked?]
  · exact (collects.listed known path).map fun _ => List.Subset.refl _
  · exact (collects.listed known path).map fun _ => List.Subset.refl _
  · refine (collects.schema known path).bind fun condition => ?_
    refine (branches _ "then").bind fun consequent => ?_
    refine (branches _ "else").bind fun alternative => .pure ?_
    simp [Patch.names, Patch.reference?, Patch.inside, Conditional.all, List.flatMap_append]
  · exact (Collects.of_settled (settled_facetPatch node path keyword)).map
      fun _ => List.Subset.refl _

namespace Schema

variable {fields : Fields Node} (each : ∀ entry ∈ fields, entry.2.Collects)
include each

theorem collects_named? (name : String) :
    Collects known (fun found => found.toList.flatMap Schema.names) (named? name fields path) := by
  rw [named?_eq]
  cases asked : fields.get? name with
  | none => exact .pure (List.nil_subset _)
  | some value =>
    refine ((each _ (Fields.mem_of_get? asked)).schema known _).map fun schema => ?_
    simp

theorem collects_ofMapping : Collects known Schema.names (ofNode (.mapping fields) path) := by
  rw [ofNode, withKeywords_eq]
  refine (Collects.readEntries fun entry member known => collects_patch (each entry member)
    (fun _ => collects_named? each) entry.1).map fun patches => ?_
  exact names_foldl_patch patches {}

theorem collects_namedSchemas :
    Collects known (List.flatMap (·.2.names)) (namedSchemas fields path) := by
  rw [namedSchemas_eq]
  exact Collects.readEntries fun entry member known => (each entry member).schema known _

end Schema

theorem Schema.collects_listedSchemas {items : List Node} {start : Nat}
    (each : ∀ item ∈ items, item.Collects) :
    Collects known (List.flatMap Schema.names) (listedSchemas items start path) := by
  induction items generalizing start known with
  | nil =>
    rw [listedSchemas]
    exact .pure (List.nil_subset _)
  | cons item rest ih =>
    rcases List.forall_mem_cons.mp each with ⟨here, later⟩
    rw [listedSchemas]
    refine (here.schema known _).bind fun first => (ih later).bind fun others => .pure ?_
    simp

end Parts

open Schema in
theorem Node.collects (node : Node) : node.Collects := by
  induction node using Node.induction with
  | scalar value =>
    refine ⟨fun known path => ?_, fun known path => .fail, fun known path => .fail⟩
    cases value with
    | bool allowed =>
      rw [ofNode]
      exact .pure (List.nil_subset _)
    | _ => exact .fail
  | sequence items ih =>
    refine ⟨fun known path => .fail, fun known path => .fail, fun known path => ?_⟩
    rw [branchesOf]
    exact collects_listedSchemas ih
  | mapping fields ih =>
    refine ⟨fun known path => collects_ofMapping ih, fun known path => ?_,
      fun known path => .fail⟩
    rw [propertiesOf]
    exact collects_namedSchemas ih

namespace SchemaDocument

def names (document : SchemaDocument) : List String :=
  document.definitions.flatMap (·.2.names) ++ document.root.names

theorem collects_readDefinitions {known : List String} (tree : Node) {before : Fields Schema}
    (collected : before.flatMap (·.2.names) ⊆ known) (key : String) :
    Collects known (List.flatMap (·.2.names)) (readDefinitions tree before key) := by
  rw [readDefinitions]
  cases tree.child? key with
  | none => exact .pure collected
  | some value =>
    refine (value.collects.named known _).bind fun schemas => .pure fun name member => ?_
    rcases List.mem_flatMap.mp member with ⟨entry, listed, named⟩
    rcases Fields.mem_foldl_insert listed with new | old
    · exact List.mem_append_right _ (List.mem_flatMap.mpr ⟨entry, new, named⟩)
    · exact List.mem_append_left _ (collected (List.mem_flatMap.mpr ⟨entry, old, named⟩))

theorem collects_read (tree : Node) : Collects [] names (read tree) := by
  rw [read_eq]
  refine (collects_readDefinitions tree (List.nil_subset _) _).bind fun earlier => ?_
  refine (collects_readDefinitions tree (List.subset_append_right ..) _).bind fun all => ?_
  refine (tree.collects.schema _ _).bind fun root => .pure ?_
  exact List.append_subset.mpr ⟨List.subset_append_of_subset_left _ (List.subset_append_right ..),
    List.subset_append_right ..⟩

variable {tree : Node} {document : SchemaDocument}

theorem defined_of_ofNode (reads : ofNode tree = .ok document) :
    document.names ⊆ document.definitions.keys := by
  rcases gives_of_ofNode reads with ⟨all, gives, complete⟩
  have collected := collects_read tree [] (List.nil_subset _)
  rw [gives []] at collected
  intro name member
  exact Fields.contains_iff.mp (dangling?_eq_none_iff.mp complete name (collected member))

end SchemaDocument

def Check.Quiet (check : Check) : Prop :=
  ∀ node path, ∀ v ∈ check node path, ∀ name, v.complaint ≠ .unresolvedReference name

namespace Schema

variable {resolve : Resolver} {schema : Schema} {node : Node} {path : Path} {v : Violation}

theorem exists_of_mem_childViolations (found : v ∈ schema.childViolations resolve node path) :
    (v.complaint = .missing ∨ ∃ key, v.complaint = .unknownProperty key) ∨
      ∃ inner ∈ schema.inside, ∃ place there, v ∈ inner.violations resolve place there := by
  cases node with
  | scalar value => cases found
  | sequence nodes =>
    rcases mem_checkItems.mp found with ⟨i, item, -, found⟩
    rcases exists_of_mem_optionViolations found with ⟨inner, asked, found⟩
    exact .inr ⟨inner, List.mem_append_right _ (mem_underneath_of_items asked), _, _, found⟩
  | mapping fields =>
    rcases List.mem_append.mp found with found | found
    · rcases List.mem_map.mp found with ⟨key, -, rfl⟩
      exact .inl (.inl rfl)
    · rcases mem_checkFields.mp found with ⟨entry, -, found⟩
      rcases mem_entryViolations.mp found with ⟨inner, asked, found⟩ | ⟨-, rfl⟩
      · exact .inr ⟨inner, List.mem_append_right _ (mem_underneath_of_forEntry asked), _, _, found⟩
      · exact .inl (.inr ⟨_, rfl⟩)

theorem quiet_ownViolations (inside : ∀ inner ∈ schema.inside,
    Check.Quiet (inner.violations resolve)) : Check.Quiet (schema.ownViolations resolve) := by
  intro node path v found name
  have alongside : ∀ inner ∈ schema.alongside, Check.Quiet (inner.violations resolve) :=
    fun inner member => inside inner (List.mem_append_left _ member)
  rw [ownViolations_eq] at found
  split at found
  · rw [List.mem_singleton.mp found]
    exact nofun
  · simp only [List.mem_append] at found
    rcases found with (((found | found) | found) | found) | found
    · rcases List.mem_map.mp found with ⟨complaint, member, rfl⟩
      rintro rfl
      exact schema.facets.ofFacets_of_mem_complaints node _ member
    · rcases exists_of_mem_childViolations found with
        (same | ⟨key, same⟩) | ⟨inner, member, place, there, found⟩
      · rw [same]
        exact nofun
      · rw [same]
        exact nofun
      · exact inside inner member place there v found name
    · rcases mem_allViolations.mp found with ⟨inner, member, found⟩
      exact alongside inner (mem_alongside_of_allOf member) _ _ v found name
    · split at found
      · cases found
      · rw [List.mem_singleton.mp found]
        exact nofun
    · rcases exists_of_mem_conditionalViolations found with ⟨choice, asked, inner, chosen, found⟩
      exact alongside inner (mem_alongside_of_choice asked chosen) _ _ v found name

/-- A schema whose references lead to quiet checks is quiet. -/
theorem quiet_violations (resolved : ∀ name check, resolve name = .found check → check.Quiet)
    (schema : Schema) (known : ∀ name ∈ schema.names, resolve name ≠ .unknown) :
    Check.Quiet (schema.violations resolve) := by
  induction schema using Schema.induction with
  | step schema alongside underneath =>
    have own : Check.Quiet (schema.ownViolations resolve) := by
      refine quiet_ownViolations fun inner member => ?_
      have known' : ∀ name ∈ inner.names, resolve name ≠ .unknown :=
        fun name named => known name (mem_names_iff.mpr (.inr ⟨inner, member, named⟩))
      rcases List.mem_append.mp member with beside | below
      · exact alongside inner beside known'
      · exact underneath inner below known'
    intro node path v found name
    rw [violations_eq] at found
    split at found
    · rw [List.mem_singleton.mp found]
      exact nofun
    · cases refers : schema.reference with
      | none =>
        rw [refers] at found
        exact own node path v found name
      | some other =>
        rw [refers] at found
        dsimp only at found
        cases resolution : resolve other with
        | tooDeep =>
          rw [resolution] at found
          rw [List.mem_singleton.mp found]
          exact nofun
        | unknown => exact absurd resolution (known other (mem_names_iff.mpr (.inl refers)))
        | found check =>
          rw [resolution] at found
          rcases List.mem_append.mp found with found | found
          · exact resolved other check resolution node path v found name
          · exact own node path v found name

end Schema

namespace SchemaDocument

variable {tree : Node} {document : SchemaDocument}

theorem resolver_ne_unknown {definitions : Fields Schema} {name : String}
    (defined : name ∈ definitions.keys) (budget : Nat) :
    resolver definitions budget name ≠ .unknown := by
  rcases Option.isSome_iff_exists.mp (Fields.contains_iff.mpr defined) with ⟨target, found⟩
  cases budget with
  | zero =>
    rw [resolver_zero found]
    exact nofun
  | succ budget =>
    rw [resolver_succ found]
    exact nofun

theorem quiet_resolver {definitions : Fields Schema}
    (defined : ∀ entry ∈ definitions, entry.2.names ⊆ definitions.keys) (budget : Nat) :
    ∀ name check, resolver definitions budget name = .found check → check.Quiet :=
  resolver_induction (fun budget resolved _ target found => Schema.quiet_violations resolved target
    fun _ named => resolver_ne_unknown (defined _ (Fields.mem_of_get? found) named) budget) budget

/-- No reference dangles in a schema that was read: each one in the root or in a definition, at
whatever depth, leads to a definition. So validation never comes to a reference without one, neither
in its report nor in checks that it makes for their outcome alone: it does the same whatever is made
of such a reference, even if the check is given up there. -/
theorem resolved_of_ofNode (reads : ofNode tree = .ok document) :
    (∀ part ∈ document.root.parts, ∀ name ∈ part.reference,
      name ∈ document.definitions.keys) ∧
    (∀ entry ∈ document.definitions, ∀ part ∈ entry.2.parts, ∀ name ∈ part.reference,
      name ∈ document.definitions.keys) ∧
    (∃ bound, ∀ room, bound ≤ room → ∀ stray node,
      attemptWithin document.definitions stray room document.root 0 node Path.root =
        some (document.validate node)) ∧
    ∀ node, ∀ v ∈ document.validate node, ∀ name, v.complaint ≠ .unresolvedReference name := by
  have defined := defined_of_ofNode reads
  have root : document.root.names ⊆ document.definitions.keys :=
    fun name named => defined (List.mem_append_right _ named)
  have inside : ∀ entry ∈ document.definitions, entry.2.names ⊆ document.definitions.keys :=
    fun entry member name named =>
      defined (List.mem_append_left _ (List.mem_flatMap.mpr ⟨entry, member, named⟩))
  have tame (stray : Stray) (schema : Schema) (known : schema.names ⊆ document.definitions.keys) :
      Tame document.definitions stray schema := by
    intro part within name refers absent
    exact absurd (known (Schema.mem_names.mpr ⟨part, within, refers⟩))
      (Fields.get?_eq_none_iff.mp absent)
  refine ⟨?_, ?_, ⟨rank document.definitions document.root 0 + 1, ?_⟩, ?_⟩
  · exact fun part within name refers => root (Schema.mem_names.mpr ⟨part, within, refers⟩)
  · exact fun entry member part within name refers =>
      inside entry member (Schema.mem_names.mpr ⟨part, within, refers⟩)
  · intro room enough stray node
    exact attemptWithin_eq
      (fun _ target found => tame stray target (inside _ (Fields.mem_of_get? found)))
      (tame stray document.root root) enough node Path.root
  · intro node
    exact Schema.quiet_violations (quiet_resolver inside _) document.root
      (fun name named => resolver_ne_unknown (root named) _) node Path.root

def referringNode : Node :=
  let refers (pointer : String) : Node := .mapping [("$ref", .ofString pointer)]
  .mapping
    [("anyOf", .sequence [refers "#/$defs/leaf", refers "#/definitions/tree"]),
    ("definitions", .mapping [("tree", .mapping
      [("items", refers "#/definitions/tree"), ("additionalProperties", refers "#/$defs/leaf")]),
      ("leaf", refers "#/definitions/tree")]),
    ("$defs", .mapping [("leaf", .mapping
      [("if", refers "#/$defs/leaf"), ("then", .mapping [("allOf", .sequence [.ofBool true])])])])]

def referring : SchemaDocument :=
  let refers (name : String) : Schema := { reference := some name }
  let tree : Schema := { items := some (refers "tree"), additional := .checked (refers "leaf") }
  let choice : Conditional Schema := ⟨refers "leaf", some { allOf := [{}] }, none⟩
  ⟨{ anyOf := [refers "leaf", refers "tree"] },
    [("tree", tree), ("leaf", { conditional := some choice })]⟩

theorem resolved_of_ofNode_referring : ofNode referringNode = .ok referring ∧
    (∀ part ∈ referring.root.parts, ∀ name ∈ part.reference,
      name ∈ referring.definitions.keys) ∧
    (∀ entry ∈ referring.definitions, ∀ part ∈ entry.2.parts, ∀ name ∈ part.reference,
      name ∈ referring.definitions.keys) ∧
    (∃ bound, ∀ room, bound ≤ room → ∀ stray node,
      attemptWithin referring.definitions stray room referring.root 0 node Path.root =
        some (referring.validate node)) ∧
    ∀ node, ∀ v ∈ referring.validate node, ∀ name, v.complaint ≠ .unresolvedReference name := by
  have reads : ofNode referringNode = .ok referring := by
    rfl
  exact ⟨reads, resolved_of_ofNode reads⟩

end SchemaDocument
end ParticleSim
