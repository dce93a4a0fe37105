import ParticleSim.Proofs.Outline.Outcome
import ParticleSim.Proofs.Schema.Positions

namespace ParticleSim

open Outline (Meets)

def Node.Mentions (node : Node) (text : String) : Prop :=
  node.string? = some text ∨
    ∃ items, node.items? = some items ∧ ∃ item ∈ items, item.string? = some text

def SchemaFault.Describes (node : Node) : SchemaFault → Prop
  | .notDefinitions => ¬node.IsMapping
  | .notSchema => node.bool? = none ∧ ¬node.IsMapping
  | .notString => ¬node.IsString
  | .notStrings => ¬node.IsSequence
  | .notArray => ¬node.IsSequence
  | .notSchemas => ¬node.IsSequence
  | .notNumber => ¬node.IsNumber
  | .notCount => Compile.count? node = none
  | .badPattern => ∃ source, node.string? = some source ∧ Pattern.ofSource? source = none
  | .unsupportedReference target =>
    node.string? = some target ∧ Compile.definitionName? target = none
  | .unknownType name => TypeName.ofText? name = none ∧ node.Mentions name
  | .unresolvedReference name =>
    ∃ target, node.string? = some target ∧ Compile.definitionName? target = some name

def Node.Culprit (tree : Node) (path : Path) (fault : SchemaFault) : Prop :=
  ∃ node, tree.at? path = some node ∧ fault.Describes node

def SchemaError.StandsIn (tree : Node) : SchemaError → Prop
  | .invalid path fault => tree.Culprit path fault
  | .notJson => False

def References.StandIn (tree : Node) (references : List Reference) : Prop :=
  ∀ reference ∈ references, tree.Culprit reference.path (.unresolvedReference reference.name)

theorem Node.not_exists_of_none {α : Type} {view : Node → Option α} {node : Node}
    (none : view node = none) : ¬∃ value, view node = some value := by
  rw [none]
  nofun

namespace Compile

variable {α β γ : Type} {tree node : Node} {path : Path} {P : α → Prop} {Q : γ → Prop}

/-- The reading gives a value of the kind and meets references that stand in the tree, or it fails
with an error that does. -/
def Points (tree : Node) (P : α → Prop) (reading : Compile α) : Prop :=
  ∀ before, References.StandIn tree before →
    Meets (fun result => P result.1 ∧ References.StandIn tree result.2)
      (SchemaError.StandsIn tree) (reading.run before)

namespace Points

variable {reading : Compile α}

theorem pure {value : α} (kind : P value) : Points tree P (pure value) :=
  fun _ stand => ⟨kind, stand⟩

theorem fail {fault : SchemaFault} (culprit : tree.Culprit path fault) :
    Points tree P (fail path fault) :=
  fun _ _ => culprit

theorem bind (points : Points tree P reading) {next : α → Compile γ}
    (later : ∀ value, P value → Points tree Q (next value)) :
    Points tree Q (reading >>= next) := by
  intro before stand
  rw [StateT.run_bind]
  exact (points before stand).bind fun result both => later result.1 both.1 result.2 both.2

theorem map (points : Points tree P reading) {f : α → γ}
    (kind : ∀ value, P value → Q (f value)) :
    Points tree Q (f <$> reading) := by
  rw [map_eq_pure_bind]
  exact points.bind fun value holds => pure (kind value holds)

theorem mono (points : Points tree P reading) {P' : α → Prop}
    (weaker : ∀ value, P value → P' value) : Points tree P' reading :=
  fun before stand => (points before stand).values fun _ both => ⟨weaker _ both.1, both.2⟩

theorem any (points : Points tree P reading) : Points tree (fun _ => True) reading :=
  points.mono fun _ _ => trivial

theorem collect {reference : Reference}
    (culprit : tree.Culprit reference.path (.unresolvedReference reference.name)) :
    Points tree (fun _ => True) (modify (· ++ [reference])) := by
  refine fun before stand => ⟨trivial, fun other member => ?_⟩
  rcases List.mem_append.mp member with earlier | last
  · exact stand other earlier
  · rw [List.mem_singleton.mp last]
    exact culprit

theorem orFail {value : Option α} {fault : SchemaFault} (stands : tree.at? path = some node)
    (describes : value = none → fault.Describes node) :
    Points tree (fun found => value = some found) (orFail value path fault) := by
  cases value with
  | none => exact fail ⟨node, stands, describes rfl⟩
  | some value => exact pure rfl

theorem mapM {items : List β} {read : β → Compile α}
    (each : ∀ item ∈ items, Points tree P (read item)) :
    Points tree (fun values => ∀ value ∈ values, P value) (items.mapM read) := by
  induction items with
  | nil =>
    rw [List.mapM_nil]
    exact pure (List.forall_mem_nil _)
  | cons item rest ih =>
    rcases List.forall_mem_cons.mp each with ⟨here, later⟩
    rw [List.mapM_cons]
    exact here.bind fun _ first => (ih later).bind fun _ others =>
      pure (List.forall_mem_cons.mpr ⟨first, others⟩)

theorem readEntries {read : String → β → Compile α} {fields : Fields β}
    (each : ∀ entry ∈ fields, Points tree (fun _ => True) (read entry.1 entry.2)) :
    Points tree (fun _ => True) (readEntries read fields) := by
  induction fields with
  | nil => exact pure trivial
  | cons entry rest ih =>
    rcases List.forall_mem_cons.mp each with ⟨here, later⟩
    exact here.bind fun _ _ => (ih later).bind fun _ _ => pure trivial

end Points

section Keywords

variable (stands : tree.at? path = some node)
include stands

theorem points_number : Points tree (fun _ => True) (number node path) :=
  (Points.orFail stands Node.not_exists_of_none).any

theorem points_count : Points tree (fun _ => True) (count node path) :=
  (Points.orFail stands id).any

theorem points_strings :
    Points tree (fun texts => ∀ text ∈ texts, node.Mentions text) (strings node path) := by
  refine (Points.orFail stands Node.not_exists_of_none).bind fun items sequence => ?_
  refine Points.mapM fun entry member => ?_
  have listed := List.mk_mem_zipIdx_iff_getElem?.mp member
  have here : tree.at? (path.index entry.2) = some entry.1 := by
    rw [Node.at?_path_index stands, sequence, Option.bind_some, listed]
  exact (Points.orFail here Node.not_exists_of_none).mono fun text same =>
    .inr ⟨items, sequence, entry.1, List.mem_of_getElem? listed, same⟩

theorem points_types : Points tree (fun _ => True) (types node path) := by
  have known (names : List String) (mentioned : ∀ name ∈ names, node.Mentions name) :
      Points tree (fun _ => True)
        (names.mapM fun name => orFail (TypeName.ofText? name) path (.unknownType name)) := by
    refine (Points.mapM (P := fun _ => True) fun name member => ?_).any
    refine (Points.orFail stands ?_).any
    exact fun unknown => ⟨unknown, mentioned name member⟩
  rw [types]
  split
  · next name same => exact known [name] (List.forall_mem_singleton.mpr (.inl same))
  · exact (points_strings stands).bind known

theorem points_pattern : Points tree (fun _ => True) (pattern node path) := by
  refine (Points.orFail stands Node.not_exists_of_none).bind fun source same => ?_
  refine (Points.orFail stands ?_).any
  exact fun bad => ⟨source, same, bad⟩

theorem points_reference : Points tree (fun _ => True) (reference node path) := by
  refine (Points.orFail stands Node.not_exists_of_none).bind fun target same => ?_
  refine (Points.orFail stands ?_).bind fun name named => ?_
  · exact fun unknown => ⟨same, unknown⟩
  · exact (Points.collect ⟨node, stands, target, same, named⟩).bind fun _ _ => .pure trivial

theorem points_facetPatch (keyword : String) :
    Points tree (fun _ => True) (facetPatch keyword node path) := by
  rw [facetPatch.eq_def]
  split
  · exact (points_types stands).map fun _ _ => trivial
  · exact .pure trivial
  · exact (Points.orFail stands Node.not_exists_of_none).map fun _ _ => trivial
  · exact (points_number stands).map fun _ _ => trivial
  · exact (points_number stands).map fun _ _ => trivial
  · exact (points_number stands).map fun _ _ => trivial
  · exact (points_number stands).map fun _ _ => trivial
  · exact (points_count stands).map fun _ _ => trivial
  · exact (points_count stands).map fun _ _ => trivial
  · exact (points_pattern stands).map fun _ _ => trivial
  · exact (points_count stands).map fun _ _ => trivial
  · exact (points_count stands).map fun _ _ => trivial
  · exact (points_strings stands).map fun _ _ => trivial
  · exact .pure trivial

end Keywords

end Compile

open Compile

structure Node.Points (tree node : Node) : Prop where
  schema : ∀ path, tree.at? path = some node →
    Compile.Points tree (fun _ => True) (Schema.ofNode node path)
  named : ∀ path, tree.at? path = some node →
    Compile.Points tree (fun _ => True) (Schema.propertiesOf node path)
  listed : ∀ path, tree.at? path = some node →
    Compile.Points tree (fun _ => True) (Schema.branchesOf node path)

section Parts

variable {tree node : Node} {path : Path}

theorem Compile.points_patch (points : tree.Points node) (stands : tree.at? path = some node)
    {branch? : String → Compile (Option Schema)}
    (branches : ∀ name, Points tree (fun _ => True) (branch? name)) (keyword : String) :
    Points tree (fun _ => True) (patch branch? keyword node path) := by
  rw [patch.eq_def]
  split
  · exact (points_reference stands).map fun _ _ => trivial
  · exact (points.schema path stands).map fun _ _ => trivial
  · exact (points.named path stands).map fun _ _ => trivial
  · split
    · exact .pure trivial
    · exact .pure trivial
    · exact (points.schema path stands).map fun _ _ => trivial
  · exact (points.listed path stands).map fun _ _ => trivial
  · exact (points.listed path stands).map fun _ _ => trivial
  · exact (points.schema path stands).bind fun _ _ => (branches "then").bind fun _ _ =>
      (branches "else").bind fun _ _ => .pure trivial
  · exact (points_facetPatch stands keyword).map fun _ _ => trivial

namespace Schema

variable {fields : Fields Node} (each : ∀ entry ∈ fields, tree.Points entry.2)
  (stands : tree.at? path = some (.mapping fields))
include each stands

theorem points_named? (name : String) :
    Points tree (fun _ => True) (named? name fields path) := by
  rw [named?_eq]
  cases asked : fields.get? name with
  | none => exact .pure trivial
  | some value =>
    have here := (Node.at?_path_key stands name).trans asked
    exact ((each _ (Fields.mem_of_get? asked)).schema _ here).map fun _ _ => trivial

variable (distinct : fields.keys.Nodup)
include distinct

theorem points_ofMapping : Points tree (fun _ => True) (ofNode (.mapping fields) path) := by
  rw [ofNode, withKeywords_eq]
  refine (Points.readEntries fun entry member => ?_).map fun _ _ => trivial
  have here := (Node.at?_path_key stands entry.1).trans (Fields.get?_of_mem distinct member)
  exact points_patch (each entry member) here (points_named? each stands) entry.1

theorem points_namedSchemas : Points tree (fun _ => True) (namedSchemas fields path) := by
  rw [namedSchemas_eq]
  refine Points.readEntries fun entry member => ?_
  have here := (Node.at?_path_key stands entry.1).trans (Fields.get?_of_mem distinct member)
  exact (each entry member).schema _ here

end Schema

theorem Schema.points_listedSchemas {items : List Node} {start : Nat}
    (each : ∀ item ∈ items, tree.Points item)
    (stand : ∀ position item, items[position]? = some item →
      tree.at? (path.index (start + position)) = some item) :
    Points tree (fun _ => True) (listedSchemas items start path) := by
  induction items generalizing start with
  | nil =>
    rw [listedSchemas]
    exact .pure trivial
  | cons item rest ih =>
    rcases List.forall_mem_cons.mp each with ⟨here, later⟩
    rw [listedSchemas]
    refine (here.schema _ (stand 0 item rfl)).bind fun _ _ => ?_
    refine (ih later fun position other listed => ?_).bind fun _ _ => .pure trivial
    rw [Nat.add_right_comm, Nat.add_assoc]
    exact stand (position + 1) other listed

end Parts

open Schema in
theorem Node.UniqueKeys.points {node : Node} (unique : node.UniqueKeys) (tree : Node) :
    tree.Points node := by
  induction node using Node.induction with
  | scalar value =>
    refine ⟨fun path stands => ?_, fun path stands => ?_, fun path stands => ?_⟩
    · cases value with
      | bool allowed =>
        rw [ofNode]
        exact .pure trivial
      | _ => exact .fail ⟨_, stands, rfl, Node.not_exists_of_none rfl⟩
    · exact .fail ⟨_, stands, Node.not_exists_of_none rfl⟩
    · exact .fail ⟨_, stands, Node.not_exists_of_none rfl⟩
  | sequence items ih =>
    refine ⟨fun path stands => .fail ⟨_, stands, rfl, Node.not_exists_of_none rfl⟩,
      fun path stands => .fail ⟨_, stands, Node.not_exists_of_none rfl⟩, fun path stands => ?_⟩
    rw [branchesOf]
    refine points_listedSchemas (fun item member => ih item member (unique.item member)) ?_
    intro position item listed
    rw [Nat.zero_add, Node.at?_path_index stands]
    exact listed
  | mapping fields ih =>
    have each := fun entry member => ih entry member (unique.value member)
    have distinct := unique.keys rfl
    refine ⟨fun path stands => points_ofMapping each stands distinct, fun path stands => ?_,
      fun path stands => .fail ⟨_, stands, Node.not_exists_of_none rfl⟩⟩
    rw [propertiesOf]
    exact points_namedSchemas each stands distinct

namespace SchemaDocument

variable {tree : Node} (unique : tree.UniqueKeys)
include unique

theorem points_readDefinitions (definitions : Fields Schema) (key : String) :
    Points tree (fun _ => True) (readDefinitions tree definitions key) := by
  rw [readDefinitions]
  cases listed : tree.child? key with
  | none => exact .pure trivial
  | some value =>
    have whole : tree.at? Path.root = some tree := rfl
    have here := (Node.at?_path_key whole key).trans listed
    exact (((unique.at value listed).points tree).named _ here).bind fun _ _ => .pure trivial

theorem points_read : Points tree (fun _ => True) (read tree) := by
  rw [read_eq]
  exact (points_readDefinitions unique _ _).bind fun _ _ =>
    (points_readDefinitions unique _ _).bind fun _ _ =>
      ((unique.points tree).schema Path.root rfl).bind fun _ _ => .pure trivial

theorem standsIn_of_ofNode {error : SchemaError} (fails : ofNode tree = .error error) :
    error.StandsIn tree := by
  have outcome : Meets (fun _ => True) (SchemaError.StandsIn tree) (ofNode tree) := by
    rw [ofNode]
    have points := points_read unique [] (List.forall_mem_nil _)
    refine points.bind fun ⟨document, references⟩ both => ?_
    dsimp only
    split
    · next reference dangling => exact both.2 reference (List.mem_of_find?_eq_some dangling)
    · exact trivial
  rw [fails] at outcome
  exact outcome

end SchemaDocument
end ParticleSim
