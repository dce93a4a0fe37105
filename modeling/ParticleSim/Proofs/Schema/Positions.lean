import ParticleSim.Proofs.Schema.Reading
import ParticleSim.Proofs.Schema.Visits

namespace ParticleSim

inductive Slot where
  | items
  | property (name : String)
  | additional
  | allOf (position : Nat)
  | anyOf (position : Nat)
  | condition
  | consequent
  | alternative

namespace Slot

def steps : Slot → Path
  | items => [.key "items"]
  | property name => [.key "properties", .key name]
  | additional => [.key "additionalProperties"]
  | allOf position => [.key "allOf", .index position]
  | anyOf position => [.key "anyOf", .index position]
  | condition => [.key "if"]
  | consequent => [.key "then"]
  | alternative => [.key "else"]

/-- What is written in the slot is read as a schema: branches belong to a condition, and a boolean
only says whether there may be further entries. -/
def Open (node : Node) : Slot → Prop
  | additional => ∀ child ∈ node.child? "additionalProperties", child.bool? = none
  | consequent => (node.child? "if").isSome
  | alternative => (node.child? "if").isSome
  | _ => True

end Slot

def Schema.slot? (schema : Schema) : Slot → Option Schema
  | .items => schema.items
  | .property name => Fields.get? name schema.properties
  | .additional => schema.additional.checked?
  | .allOf position => schema.allOf[position]?
  | .anyOf position => schema.anyOf[position]?
  | .condition => schema.conditional.map (·.condition)
  | .consequent => schema.conditional.bind (·.consequent)
  | .alternative => schema.conditional.bind (·.alternative)

open Compile

def Node.Writes (node : Node) (path : Path) (schema : Schema) : Prop :=
  ∃ found, Gives (Schema.ofNode node path) schema found

/-- A node of a tree that is read as a schema when the tree is, and its path: the tree itself, the
definitions, and what is written in the slots of these. -/
inductive SchemaPlace (tree : Node) : Node → Path → Prop
  | root : SchemaPlace tree tree Path.root
  | definition {key name : String} {entry : Node} (mapping : key ∈ ["definitions", "$defs"])
    (written : tree.at? [.key key, .key name] = some entry) :
    SchemaPlace tree entry [.key key, .key name]
  | slot {node child : Node} {path : Path} (outer : SchemaPlace tree node path) (slot : Slot)
    (opens : slot.Open node) (written : node.at? slot.steps = some child) :
    SchemaPlace tree child (path ++ slot.steps)

/-- The schema of a document, or of a definition that its tree writes, that stands at a path. -/
inductive Position (tree : Node) (document : SchemaDocument) : Path → Schema → Prop
  | root : Position tree document Path.root document.root
  | definition {key name : String} {entry : Node} {schema : Schema}
    (mapping : key ∈ ["definitions", "$defs"])
    (written : tree.at? [.key key, .key name] = some entry)
    (writes : entry.Writes [.key key, .key name] schema) :
    Position tree document [.key key, .key name] schema
  | slot {path : Path} {schema inner : Schema} (outer : Position tree document path schema)
    (slot : Slot) (holds : schema.slot? slot = some inner) :
    Position tree document (path ++ slot.steps) inner

namespace Node

variable {node child : Node}

theorem at?_key {key : String} : node.at? [.key key] = node.child? key := by
  simp [at?]

theorem at?_append (node : Node) (path rest : Path) :
    node.at? (path ++ rest) = (node.at? path).bind (at? rest) := by
  induction path generalizing node with
  | nil => rfl
  | cons step path ih =>
    cases step <;> simp only [List.cons_append, at?, ih, Option.bind_assoc]

theorem at?_path_key {path : Path} (stands : node.at? path = some child) (name : String) :
    node.at? (path.key name) = child.child? name := by
  rw [Path.key, at?_append, stands, Option.bind_some, at?_key]

theorem at?_path_index {path : Path} (stands : node.at? path = some child) (position : Nat) :
    node.at? (path.index position) = child.items?.bind (·[position]?) := by
  rw [Path.index, at?_append, stands, Option.bind_some]
  simp [at?]

theorem at?_cons_eq_some {key : String} {rest : Path}
    (found : node.at? (.key key :: rest) = some child) :
    ∃ value, node.child? key = some value ∧ value.at? rest = some child := by
  rwa [at?, Option.bind_eq_some_iff] at found

theorem UniqueKeys.of_at? (unique : node.UniqueKeys) {path : Path}
    (found : node.at? path = some child) : child.UniqueKeys := by
  induction path generalizing node with
  | nil =>
    cases found
    exact unique
  | cons step rest ih =>
    cases step with
    | key name =>
      rcases at?_cons_eq_some found with ⟨value, here, later⟩
      exact ih (unique.at value here) later
    | index position =>
      rw [at?, Option.bind_eq_some_iff] at found
      rcases found with ⟨item, here, later⟩
      rcases Option.bind_eq_some_iff.mp here with ⟨items, sequence, listed⟩
      exact ih (unique.eachItem items sequence item (List.mem_of_getElem? listed)) later

end Node

namespace Compile

def branch? (node : Node) (path : Path) (name : String) : Compile (Option Schema) :=
  match node.child? name with
  | some value => some <$> Schema.ofNode value (path.key name)
  | none => pure none

theorem settled_branch? (node : Node) (path : Path) (name : String) :
    Settled (fun _ => True) (branch? node path name) := by
  rw [branch?]
  cases node.child? name with
  | none => exact .pure trivial
  | some value => exact (value.settles.schema _).map fun _ _ => trivial

namespace Gives

variable {node : Node} {path : Path} {schema : Schema} {found : List Reference}

/-- The keyword of a mapping gives a patch that is at work in the schema of the mapping. -/
theorem of_child (unique : node.UniqueKeys) (gives : Gives (Schema.ofNode node path) schema found)
    {keyword : String} {value : Node} (child : node.child? keyword = some value) :
    ∃ made part, Gives (patch (branch? node path) keyword value (path.key keyword)) made part ∧
      part ⊆ found ∧ schema.patch made = schema := by
  cases node with
  | scalar _ => cases child
  | sequence _ => cases child
  | mapping fields =>
    have branches : (fun name => Schema.named? name fields path) = branch? (.mapping fields) path :=
      funext fun name => Schema.named?_eq name fields path
    have settled := Schema.settled_patches (fun entry (_ : entry ∈ fields) => entry.2.settles) path
    rw [Schema.ofNode, Schema.withKeywords_eq] at gives
    rcases gives.of_map (.readEntries settled) with ⟨patches, reads, rfl⟩
    rcases reads.entry settled child with ⟨made, part, listed, given, inside⟩
    rw [branches] at given
    have kinds := reads.kind (.readEntries settled)
    -- one patch a keyword, so none of the others undoes this one
    have distinct : (Fields.keys patches).Nodup := by
      rw [kinds.1]
      exact unique.keys rfl
    exact ⟨made, part, given, inside,
      Schema.patch_of_mem distinct kinds.2 (Fields.mem_of_get? listed) {}⟩

theorem never_eq_false {keyword : String} {value : Node}
    (gives : Gives (Schema.ofNode node path) schema found)
    (child : node.child? keyword = some value) : schema.never = false := by
  cases node with
  | scalar _ => cases child
  | sequence _ => cases child
  | mapping fields =>
    have settled := Schema.settled_patches (fun entry (_ : entry ∈ fields) => entry.2.settles) path
    rw [Schema.ofNode, Schema.withKeywords_eq] at gives
    rcases gives.of_map (.readEntries settled) with ⟨patches, -, rfl⟩
    exact Schema.never_foldl_patch patches {}

theorem of_listed {items : List Node} {start : Nat} {schemas : List Schema}
    (gives : Gives (Schema.listedSchemas items start path) schemas found) {position : Nat}
    {item : Node} (listed : items[position]? = some item) : ∃ inner part,
      schemas[position]? = some inner ∧
        Gives (Schema.ofNode item (path.index (start + position))) inner part ∧ part ⊆ found := by
  induction items generalizing start schemas found position with
  | nil => cases listed
  | cons first rest ih =>
    rw [Schema.listedSchemas] at gives
    have settled := Schema.settled_listedSchemas (fun item (_ : item ∈ rest) => item.settles) path
      (start + 1)
    rcases gives.of_bind (Q := fun _ => True) (first.settles.schema _) fun _ _ =>
      settled.bind fun _ _ => .pure trivial with ⟨inner, part, more, here, others, rfl⟩
    rcases others.of_bind (Q := fun _ => True) settled fun _ _ => .pure trivial with
      ⟨later, others, none, given, last, rfl⟩
    rcases last.unique (.pure _) with ⟨rfl, rfl⟩
    cases position with
    | zero =>
      cases listed
      exact ⟨inner, part, rfl, here, List.subset_append_left ..⟩
    | succ position =>
      rcases ih given listed with ⟨inner, part, stands, given, inside⟩
      rw [Nat.add_right_comm, Nat.add_assoc] at given
      refine ⟨inner, part, stands, given, ?_⟩
      rw [List.append_nil]
      exact List.subset_append_of_subset_right _ inside

theorem of_branch {child : Node} {name : String} {branch : Option Schema}
    (gives : Gives (branch? node path name) branch found)
    (written : node.child? name = some child) : ∃ inner, branch = some inner ∧
      Gives (Schema.ofNode child (path.key name)) inner found := by
  rw [branch?, written] at gives
  rcases gives.of_map (child.settles.schema _) with ⟨inner, reads, same⟩
  exact ⟨inner, same, reads⟩

theorem of_branches {value child : Node} {position : Nat} {schemas : List Schema}
    (gives : Gives (Schema.branchesOf value path) schemas found)
    (listed : value.at? [.index position] = some child) : ∃ inner part,
      schemas[position]? = some inner ∧
        Gives (Schema.ofNode child (path.index position)) inner part ∧ part ⊆ found := by
  cases value with
  | scalar _ => cases listed
  | mapping _ => cases listed
  | sequence items =>
    rw [Schema.branchesOf] at gives
    have here : items[position]? = some child := by
      simpa [Node.at?, Node.items?] using listed
    simpa only [Nat.zero_add] using gives.of_listed here

theorem of_named {value child : Node} {name : String} {schemas : Fields Schema}
    (gives : Gives (Schema.propertiesOf value path) schemas found)
    (written : value.child? name = some child) : ∃ inner part,
      schemas.get? name = some inner ∧ Gives (Schema.ofNode child (path.key name)) inner part ∧
        part ⊆ found := by
  cases value with
  | scalar _ => cases written
  | sequence _ => cases written
  | mapping fields =>
    rw [Schema.propertiesOf, Schema.namedSchemas_eq] at gives
    exact gives.entry (K := fun _ _ => True) (fun entry _ => entry.2.settles.schema _) written

theorem keys_of_named {value : Node} {schemas : Fields Schema}
    (gives : Gives (Schema.propertiesOf value path) schemas found) :
    ∃ fields, value.fields? = some fields ∧ schemas.keys = fields.keys := by
  cases value with
  | scalar _ => exact absurd (fails_fail path _) gives.not_fails
  | sequence _ => exact absurd (fails_fail path _) gives.not_fails
  | mapping fields =>
    rw [Schema.propertiesOf, Schema.namedSchemas_eq] at gives
    exact ⟨fields, rfl, gives.keys (K := fun _ _ => True) fun entry _ => entry.2.settles.schema _⟩

variable (unique : node.UniqueKeys) (gives : Gives (Schema.ofNode node path) schema found)
include unique gives

theorem of_condition {child : Node} (written : node.child? "if" = some child) :
    ∃ choice first second third, schema.conditional = some choice ∧
      Gives (Schema.ofNode child (path.key "if")) choice.condition first ∧
        Gives (branch? node path "then") choice.consequent second ∧
          Gives (branch? node path "else") choice.alternative third ∧
            first ++ (second ++ third) ⊆ found := by
  rcases gives.of_child unique written with ⟨made, part, given, inside, work⟩
  rw [patch] at given
  have last : ∀ choice, Settled (fun _ => True) (return .conditional choice : Compile Patch) :=
    fun _ => .pure trivial
  have middle : ∀ condition consequent, Settled (fun _ => True) (do
      let alternative ← branch? node path "else"
      return .conditional ⟨condition, consequent, alternative⟩ : Compile Patch) :=
    fun _ _ => (settled_branch? node path "else").bind fun _ _ => last _
  rcases given.of_bind (child.settles.schema _) fun condition _ =>
    (settled_branch? node path "then").bind fun consequent _ => middle condition consequent with
    ⟨condition, first, _, here, rest, rfl⟩
  rcases rest.of_bind (settled_branch? node path "then") fun consequent _ =>
    middle condition consequent with ⟨consequent, second, _, there, later, rfl⟩
  rcases later.of_bind (settled_branch? node path "else") fun alternative _ =>
    last ⟨condition, consequent, alternative⟩ with ⟨alternative, third, _, beside, last, rfl⟩
  rcases last.unique (.pure _) with ⟨rfl, rfl⟩
  rw [List.append_nil] at inside
  exact ⟨_, first, second, third, (congrArg Schema.conditional work).symm, here, there, beside,
    inside⟩

theorem of_list {keyword : String} (patchOf : List Schema → Patch)
    (reading : ∀ value place, patch (branch? node path) keyword value place =
      patchOf <$> Schema.branchesOf value place) {position : Nat} {child : Node}
    (written : node.at? [.key keyword, .index position] = some child) :
    ∃ schemas inner part, schema.patch (patchOf schemas) = schema ∧
      schemas[position]? = some inner ∧
        Gives (Schema.ofNode child (path ++ [.key keyword, .index position])) inner part ∧
          part ⊆ found := by
  rcases Node.at?_cons_eq_some written with ⟨value, listed, beneath⟩
  rcases gives.of_child unique listed with ⟨made, all, given, inside, work⟩
  rw [reading] at given
  rcases given.of_map (value.settles.listed _) with ⟨schemas, reads, rfl⟩
  rcases reads.of_branches beneath with ⟨inner, part, stands, reads', within⟩
  rw [Path.key, Path.index, List.append_assoc] at reads'
  exact ⟨schemas, inner, part, work, stands, reads', List.Subset.trans within inside⟩

theorem of_slot {slot : Slot} (opens : slot.Open node) {child : Node}
    (written : node.at? slot.steps = some child) : ∃ inner part, schema.slot? slot = some inner ∧
      Gives (Schema.ofNode child (path ++ slot.steps)) inner part ∧ part ⊆ found := by
  cases slot with
  | items =>
    rw [Slot.steps, Node.at?_key] at written
    rcases gives.of_child unique written with ⟨made, part, given, inside, work⟩
    rw [patch] at given
    rcases given.of_map (child.settles.schema _) with ⟨inner, reads, rfl⟩
    refine ⟨inner, part, ?_, reads, inside⟩
    rw [← work]
    rfl
  | property name =>
    rcases Node.at?_cons_eq_some written with ⟨value, listed, beneath⟩
    rw [Node.at?_key] at beneath
    rcases gives.of_child unique listed with ⟨made, all, given, inside, work⟩
    rw [patch] at given
    rcases given.of_map (value.settles.named _) with ⟨schemas, reads, rfl⟩
    rcases reads.of_named beneath with ⟨inner, part, stands, reads', within⟩
    rw [Path.key, Path.key, List.append_assoc] at reads'
    refine ⟨inner, part, ?_, reads', List.Subset.trans within inside⟩
    rw [← work]
    exact stands
  | additional =>
    rw [Slot.steps, Node.at?_key] at written
    rcases gives.of_child unique written with ⟨made, part, given, inside, work⟩
    rw [patch, opens child written] at given
    rcases given.of_map (child.settles.schema _) with ⟨inner, reads, rfl⟩
    refine ⟨inner, part, ?_, reads, inside⟩
    rw [← work]
    rfl
  | allOf position =>
    rcases gives.of_list unique .allOf (fun _ _ => by rw [patch]) written with
      ⟨schemas, inner, part, work, stands, reads, inside⟩
    refine ⟨inner, part, ?_, reads, inside⟩
    rw [← work]
    exact stands
  | anyOf position =>
    rcases gives.of_list unique .anyOf (fun _ _ => by rw [patch]) written with
      ⟨schemas, inner, part, work, stands, reads, inside⟩
    refine ⟨inner, part, ?_, reads, inside⟩
    rw [← work]
    exact stands
  | condition =>
    rw [Slot.steps, Node.at?_key] at written
    rcases gives.of_condition unique written with ⟨choice, first, _, _, chosen, reads, -, -, inside⟩
    refine ⟨choice.condition, first, ?_, reads, (List.append_subset.mp inside).1⟩
    rw [Schema.slot?, chosen, Option.map_some]
  | consequent =>
    rw [Slot.steps, Node.at?_key] at written
    rcases Option.isSome_iff_exists.mp opens with ⟨condition, asked⟩
    rcases gives.of_condition unique asked with
      ⟨choice, _, second, _, chosen, -, reads, -, inside⟩
    rcases reads.of_branch written with ⟨inner, same, reads'⟩
    refine ⟨inner, second, ?_, reads', ?_⟩
    · rw [Schema.slot?, chosen, Option.bind_some, same]
    · exact (List.append_subset.mp (List.append_subset.mp inside).2).1
  | alternative =>
    rw [Slot.steps, Node.at?_key] at written
    rcases Option.isSome_iff_exists.mp opens with ⟨condition, asked⟩
    rcases gives.of_condition unique asked with
      ⟨choice, _, _, third, chosen, -, -, reads, inside⟩
    rcases reads.of_branch written with ⟨inner, same, reads'⟩
    refine ⟨inner, third, ?_, reads', ?_⟩
    · rw [Schema.slot?, chosen, Option.bind_some, same]
    · exact (List.append_subset.mp (List.append_subset.mp inside).2).2

end Gives

open SchemaDocument

variable (tree : Node) (before : Fields Schema) (key : String)

theorem settled_readDefinitions :
    Settled (fun _ => True) (readDefinitions tree before key) := by
  rw [readDefinitions]
  cases tree.child? key with
  | none => exact .pure trivial
  | some value => exact (value.settles.named _).bind fun _ _ => .pure trivial

variable {tree before key} {after : Fields Schema} {found : List Reference}
  (unique : tree.UniqueKeys)
include unique

/-- Definitions are what the entries of their mapping write; names without an entry stay. -/
theorem Gives.of_readDefinitions (gives : Gives (readDefinitions tree before key) after found)
    (name : String) :
    (tree.at? [.key key, .key name] = none → after.get? name = before.get? name) ∧
      ∀ entry, tree.at? [.key key, .key name] = some entry → ∃ schema part,
        after.get? name = some schema ∧
          Gives (Schema.ofNode entry [.key key, .key name]) schema part ∧ part ⊆ found := by
  rw [Node.at?]
  rw [readDefinitions] at gives
  cases mapping : tree.child? key with
  | none =>
    rw [mapping] at gives
    rcases gives.unique (.pure before) with ⟨rfl, -⟩
    exact ⟨fun _ => rfl, fun _ absent => nomatch absent⟩
  | some value =>
    rw [mapping] at gives
    rcases gives.of_bind (Q := fun _ => True) (value.settles.named _) fun _ _ => .pure trivial with
      ⟨schemas, first, _, reads, last, rfl⟩
    rcases last.unique (.pure _) with ⟨rfl, rfl⟩
    rcases reads.keys_of_named with ⟨fields, entries, keys⟩
    have distinct : (Fields.keys schemas).Nodup := by
      rw [keys]
      exact (unique.at value mapping).keys entries
    rw [Option.bind_some, Node.at?_key, Fields.get?_foldl_insert distinct, List.append_nil]
    refine ⟨fun absent => ?_, fun entry written => ?_⟩
    · rw [Node.child?_eq entries, Fields.get?_eq_none_iff, ← keys] at absent
      rw [Fields.get?_eq_none_iff.mpr absent, Option.none_or]
    · rcases reads.of_named written with ⟨schema, part, stands, given, inside⟩
      exact ⟨schema, part, Option.or_eq_some_iff.mpr (.inl stands), given, inside⟩

omit unique

theorem read_eq (tree : Node) : SchemaDocument.read tree = (do
    let definitions ← readDefinitions tree [] "definitions"
    let definitions ← readDefinitions tree definitions "$defs"
    let root ← Schema.ofNode tree Path.root
    return ⟨root, definitions⟩) := by
  simp only [SchemaDocument.read, List.foldlM_cons, List.foldlM_nil, bind_assoc, pure_bind]

theorem settled_root (tree : Node) (definitions : Fields Schema) : Settled (fun _ => True)
    (do return ⟨← Schema.ofNode tree Path.root, definitions⟩ : Compile SchemaDocument) :=
  (tree.settles.schema _).bind fun _ _ => .pure trivial

theorem settled_later (tree : Node) (definitions : Fields Schema) : Settled (fun _ => True) (do
    let definitions ← readDefinitions tree definitions "$defs"
    return ⟨← Schema.ofNode tree Path.root, definitions⟩ : Compile SchemaDocument) :=
  (settled_readDefinitions ..).bind fun _ _ => settled_root ..

theorem settled_read (tree : Node) : Settled (fun _ => True) (SchemaDocument.read tree) := by
  rw [read_eq]
  exact (settled_readDefinitions ..).bind fun _ _ => settled_later ..

theorem Gives.of_read {document : SchemaDocument}
    (gives : Gives (SchemaDocument.read tree) document found) :
    ∃ definitions first second third,
      Gives (readDefinitions tree [] "definitions") definitions first ∧
        Gives (readDefinitions tree definitions "$defs") document.definitions second ∧
          Gives (Schema.ofNode tree Path.root) document.root third ∧
            found = first ++ (second ++ third) := by
  rw [read_eq] at gives
  rcases gives.of_bind (settled_readDefinitions ..) fun _ _ => settled_later .. with
    ⟨definitions, first, _, reads, rest, rfl⟩
  rcases rest.of_bind (settled_readDefinitions ..) fun _ _ => settled_root .. with
    ⟨definitions', second, _, reads', later, rfl⟩
  rcases later.of_bind (Q := fun _ => True) (tree.settles.schema _) fun _ _ => .pure trivial with
    ⟨root, third, _, here, last, rfl⟩
  rcases last.unique (.pure _) with ⟨rfl, rfl⟩
  rw [List.append_nil]
  exact ⟨definitions, first, second, third, reads, reads', here, rfl⟩

end Compile

variable {tree : Node} {document : SchemaDocument} {all : List Reference}

/-- What is read as a schema at a place of the tree stands at that place in the document, and its
references are among those that were collected. -/
theorem SchemaPlace.exists_position (unique : tree.UniqueKeys)
    (whole : Gives (SchemaDocument.read tree) document all) {node : Node} {path : Path}
    (place : SchemaPlace tree node path) : ∃ schema found, Position tree document path schema ∧
      Gives (Schema.ofNode node path) schema found ∧ found ⊆ all ∧ node.UniqueKeys := by
  rcases whole.of_read with ⟨definitions, first, second, third, reads, reads', root, rfl⟩
  induction place with
  | root =>
    refine ⟨document.root, third, .root, root, ?_, unique⟩
    exact List.subset_append_of_subset_right _ (List.subset_append_right ..)
  | definition mapping written =>
    have distinct := unique.of_at? written
    rcases List.mem_pair.mp mapping with rfl | rfl
    · rcases (reads.of_readDefinitions unique _).2 _ written with ⟨schema, part, -, given, inside⟩
      exact ⟨schema, part, .definition (by simp) written ⟨part, given⟩, given,
        List.subset_append_of_subset_left _ inside, distinct⟩
    · rcases (reads'.of_readDefinitions unique _).2 _ written with ⟨schema, part, -, given, inside⟩
      exact ⟨schema, part, .definition (by simp) written ⟨part, given⟩, given,
        List.subset_append_of_subset_right _ (List.subset_append_of_subset_left _ inside), distinct⟩
  | slot outer slot opens written ih =>
    rcases ih with ⟨schema, found, position, gives, inside, distinct⟩
    rcases gives.of_slot distinct opens written with ⟨inner, part, stands, given, within⟩
    exact ⟨inner, part, .slot position slot stands, given, List.Subset.trans within inside,
      distinct.of_at? written⟩

end ParticleSim
