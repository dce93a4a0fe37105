import ParticleSim.Proofs.Schema.Meaning
import ParticleSim.Proofs.Tree.Shape

namespace ParticleSim

namespace Node

variable {node child : Node}

theorem eq_sequence {items : List Node} (sequence : node.items? = some items) :
    node = .sequence items := by
  cases node <;> cases sequence
  rfl

theorem eq_mapping {fields : Fields Node} (mapping : node.fields? = some fields) :
    node = .mapping fields := by
  cases node <;> cases mapping
  rfl

theorem depth_lt_of_item {items : List Node} (sequence : node.items? = some items)
    (member : child ∈ items) : child.depth < node.depth := by
  rw [eq_sequence sequence, depth]
  exact Nat.lt_succ_of_le (depthItems_le_iff.mp (Nat.le_refl _) child member)

theorem depth_lt_of_entry {fields : Fields Node} {entry : String × Node}
    (mapping : node.fields? = some fields) (member : entry ∈ fields) :
    entry.2.depth < node.depth := by
  rw [eq_mapping mapping, depth]
  exact Nat.lt_succ_of_le (depthFields_le_iff.mp (Nat.le_refl _) entry member)

end Node

structure ClosedUnderParts (admissible : Node → Prop) : Prop where
  items : ∀ {items : List Node}, admissible (.sequence items) → ∀ item ∈ items, admissible item
  fields : ∀ {fields : List (String × Node)}, admissible (.mapping fields) →
    ∀ entry ∈ fields, admissible entry.2

def Conditional.all {α : Type} (conditional : Conditional α) : List α :=
  conditional.condition :: (conditional.consequent.toList ++ conditional.alternative.toList)

def Additional.checked? {α : Type} : Additional α → Option α
  | .checked schema => some schema
  | _ => none

def Additional.denies {α : Type} : Additional α → Bool
  | .denied => true
  | _ => false

namespace Schema

def alongside (schema : Schema) : List Schema :=
  schema.allOf ++ schema.anyOf ++ (schema.conditional.map Conditional.all).getD []

def underneath (schema : Schema) : List Schema :=
  schema.items.toList ++ schema.properties.map (·.2) ++ schema.additional.checked?.toList

def forEntry (schema : Schema) (key : String) : Option Schema :=
  (Fields.get? key schema.properties).or schema.additional.checked?

inductive Visits : Schema → Node → Schema → Node → Prop where
  | here (schema : Schema) (node : Node) : Visits schema node schema node
  | alongside {schema inner part : Schema} {node place : Node} (member : inner ∈ schema.alongside)
      (visits : Visits inner node part place) : Visits schema node part place
  | item {schema inner part : Schema} {node place : Node} {nodes : List Node} {item : Node}
      (sequence : node.items? = some nodes) (member : item ∈ nodes)
      (asked : schema.items = some inner) (visits : Visits inner item part place) :
      Visits schema node part place
  | entry {schema inner part : Schema} {node place : Node} {fields : Fields Node}
      {entry : String × Node} (mapping : node.fields? = some fields) (member : entry ∈ fields)
      (asked : schema.forEntry entry.1 = some inner) (visits : Visits inner entry.2 part place) :
      Visits schema node part place

theorem sizeOf_alongside {schema inner : Schema} (member : inner ∈ schema.alongside) :
    sizeOf inner < sizeOf schema := by
  rcases schema with ⟨never, reference, facets, items, properties, additional, allOf, anyOf,
    conditional⟩
  rw [Schema.mk.sizeOf_spec]
  rcases List.mem_append.mp member with member | member
  · rcases List.mem_append.mp member with member | member
    · have small := List.sizeOf_lt_of_mem member
      dsimp only at small
      omega
    · have small := List.sizeOf_lt_of_mem member
      dsimp only at small
      omega
  · rcases conditional with _ | ⟨condition, consequent, alternative⟩
    · cases member
    · rw [Option.some.sizeOf_spec, Conditional.mk.sizeOf_spec]
      rcases List.mem_cons.mp member with rfl | member
      · omega
      · rcases List.mem_append.mp member with member | member
        · rw [Option.mem_toList] at member
          cases member
          rw [Option.some.sizeOf_spec]
          omega
        · rw [Option.mem_toList] at member
          cases member
          rw [Option.some.sizeOf_spec]
          omega

theorem sizeOf_underneath {schema inner : Schema} (member : inner ∈ schema.underneath) :
    sizeOf inner < sizeOf schema := by
  rcases schema with ⟨never, reference, facets, items, properties, additional, allOf, anyOf,
    conditional⟩
  rw [Schema.mk.sizeOf_spec]
  rcases List.mem_append.mp member with member | member
  · rcases List.mem_append.mp member with member | member
    · rw [Option.mem_toList] at member
      cases member
      rw [Option.some.sizeOf_spec]
      omega
    · rcases List.mem_map.mp member with ⟨⟨name, schema⟩, entry, rfl⟩
      have small := List.sizeOf_lt_of_mem entry
      rw [Prod.mk.sizeOf_spec] at small
      dsimp only at small ⊢
      omega
  · cases additional with
    | allowed => cases member
    | denied => cases member
    | checked schema =>
      cases List.mem_singleton.mp member
      rw [Additional.checked.sizeOf_spec]
      omega

theorem induction {motive : Schema → Prop}
    (step : ∀ schema : Schema, (∀ inner ∈ schema.alongside, motive inner) →
      (∀ inner ∈ schema.underneath, motive inner) → motive schema) (schema : Schema) :
    motive schema :=
  step schema (fun inner _ => induction step inner) (fun inner _ => induction step inner)
termination_by sizeOf schema
decreasing_by
  · exact sizeOf_alongside ‹_›
  · exact sizeOf_underneath ‹_›

def Denies (schema : Schema) (key : String) : Prop :=
  Fields.get? key schema.properties = none ∧ schema.additional.denies = true

section Satisfies

variable {meaning : Meaning} {schema : Schema} {node : Node}

theorem optionSatisfies_iff (option : Option Schema) : OptionSatisfies meaning option node ↔
    ∀ inner ∈ option, inner.Satisfies meaning node := by
  cases option <;> simp [OptionSatisfies]

theorem allSatisfy_iff {schemas : List Schema} : AllSatisfy meaning schemas node ↔
    ∀ inner ∈ schemas, inner.Satisfies meaning node := by
  induction schemas with
  | nil => simp [AllSatisfy]
  | cons first rest ih => rw [AllSatisfy, ih, List.forall_mem_cons]

theorem someSatisfies_iff {schemas : List Schema} : SomeSatisfies meaning schemas node ↔
    ∃ inner ∈ schemas, inner.Satisfies meaning node := by
  induction schemas with
  | nil => simp [SomeSatisfies]
  | cons first rest ih => simp [SomeSatisfies, ih]

theorem entrySatisfies_iff {entry : String × Node} :
    EntrySatisfies meaning (AdditionalSatisfies meaning schema.additional) schema.properties entry ↔
      (∀ inner ∈ schema.forEntry entry.1, inner.Satisfies meaning entry.2) ∧
        ¬schema.Denies entry.1 := by
  rw [forEntry, Denies]
  induction schema.properties with
  | nil =>
    rw [EntrySatisfies, Fields.get?]
    cases schema.additional <;> simp [AdditionalSatisfies, Additional.checked?, Additional.denies]
  | cons first rest ih =>
    rcases first with ⟨name, property⟩
    rw [EntrySatisfies, Fields.get?, ih]
    split
    · next same => simp [same]
    · next differ => simp [differ]

theorem conditionalSatisfies_iff {conditional : Option (Conditional Schema)} :
    ConditionalSatisfies meaning conditional node ↔ ∀ choice ∈ conditional,
      (choice.condition.Satisfies meaning node →
        ∀ inner ∈ choice.consequent, inner.Satisfies meaning node) ∧
      (¬choice.condition.Satisfies meaning node →
        ∀ inner ∈ choice.alternative, inner.Satisfies meaning node) := by
  cases conditional <;> simp [ConditionalSatisfies, optionSatisfies_iff]

/-- The meaning of a schema in terms of the schemas directly inside it. -/
theorem satisfies_iff : schema.Satisfies meaning node ↔
    schema.never = false ∧ (∀ name ∈ schema.reference, meaning name node) ∧
      schema.facets.Holds node ∧
      (∀ nodes ∈ node.items?, ∀ item ∈ nodes, ∀ inner ∈ schema.items,
        inner.Satisfies meaning item) ∧
      (∀ fields ∈ node.fields?, ∀ entry ∈ fields,
        (∀ inner ∈ schema.forEntry entry.1, inner.Satisfies meaning entry.2) ∧
          ¬schema.Denies entry.1) ∧
      (∀ inner ∈ schema.allOf, inner.Satisfies meaning node) ∧
      (schema.anyOf = [] ∨ ∃ inner ∈ schema.anyOf, inner.Satisfies meaning node) ∧
      ∀ choice ∈ schema.conditional,
        (choice.condition.Satisfies meaning node →
          ∀ inner ∈ choice.consequent, inner.Satisfies meaning node) ∧
        (¬choice.condition.Satisfies meaning node →
          ∀ inner ∈ choice.alternative, inner.Satisfies meaning node) := by
  simp only [← optionSatisfies_iff schema.items, ← entrySatisfies_iff,
    ← allSatisfy_iff, ← someSatisfies_iff, ← conditionalSatisfies_iff]
  cases schema
  rw [Satisfies]

end Satisfies

section Parts

variable {schema inner part : Schema}

theorem mem_listParts {schemas : List Schema} (member : schema ∈ schemas)
    (inside : part ∈ schema.parts) : part ∈ listParts schemas := by
  induction schemas with
  | nil => cases member
  | cons first rest ih =>
    rw [listParts, List.mem_append]
    rcases List.mem_cons.mp member with rfl | later
    · exact .inl inside
    · exact .inr (ih later)

theorem mem_entryParts {properties : List (String × Schema)} {entry : String × Schema}
    (member : entry ∈ properties) (inside : part ∈ entry.2.parts) :
    part ∈ entryParts properties := by
  induction properties with
  | nil => cases member
  | cons first rest ih =>
    rw [entryParts, List.mem_append]
    rcases List.mem_cons.mp member with rfl | later
    · exact .inl inside
    · exact .inr (ih later)

theorem mem_optionParts {option : Option Schema} (member : schema ∈ option)
    (inside : part ∈ schema.parts) : part ∈ optionParts option := by
  cases member
  exact inside

theorem mem_parts_self (schema : Schema) : schema ∈ schema.parts := by
  cases schema
  rw [parts]
  exact List.mem_cons_self

theorem mem_parts_of_alongside (member : inner ∈ schema.alongside) (inside : part ∈ inner.parts) :
    part ∈ schema.parts := by
  rcases schema with ⟨never, reference, facets, items, properties, additional, allOf, anyOf,
    conditional⟩
  rw [parts]
  simp only [List.mem_cons, List.mem_append]
  rcases List.mem_append.mp member with member | member
  · rcases List.mem_append.mp member with member | member
    · exact .inr (.inl (.inl (.inr (mem_listParts member inside))))
    · exact .inr (.inl (.inr (mem_listParts member inside)))
  · rcases conditional with _ | ⟨condition, consequent, alternative⟩
    · cases member
    · rw [conditionalParts, List.mem_append, List.mem_append]
      rcases List.mem_cons.mp member with rfl | member
      · exact .inr (.inr (.inl (.inl inside)))
      · rcases List.mem_append.mp member with member | member
        · exact .inr (.inr (.inl (.inr (mem_optionParts (Option.mem_toList.mp member) inside))))
        · exact .inr (.inr (.inr (mem_optionParts (Option.mem_toList.mp member) inside)))

theorem mem_parts_of_underneath (member : inner ∈ schema.underneath)
    (inside : part ∈ inner.parts) : part ∈ schema.parts := by
  rcases schema with ⟨never, reference, facets, items, properties, additional, allOf, anyOf,
    conditional⟩
  rw [parts]
  simp only [List.mem_cons, List.mem_append]
  rcases List.mem_append.mp member with member | member
  · rcases List.mem_append.mp member with member | member
    · exact .inr (.inl (.inl (.inl (.inl (.inl
        (mem_optionParts (Option.mem_toList.mp member) inside))))))
    · rcases List.mem_map.mp member with ⟨entry, listed, rfl⟩
      exact .inr (.inl (.inl (.inl (.inl (.inr (mem_entryParts listed inside))))))
  · cases additional with
    | allowed => cases member
    | denied => cases member
    | checked schema =>
      cases List.mem_singleton.mp member
      exact .inr (.inl (.inl (.inl (.inr inside))))

theorem mem_alongside_of_allOf (member : inner ∈ schema.allOf) : inner ∈ schema.alongside :=
  List.mem_append_left _ (List.mem_append_left _ member)

theorem mem_alongside_of_anyOf (member : inner ∈ schema.anyOf) : inner ∈ schema.alongside :=
  List.mem_append_left _ (List.mem_append_right _ member)

theorem mem_alongside_of_choice {choice : Conditional Schema} (asked : choice ∈ schema.conditional)
    (member : inner ∈ choice.all) : inner ∈ schema.alongside := by
  rw [alongside, Option.mem_def.mp asked]
  exact List.mem_append_right _ member

theorem mem_underneath_of_items (asked : schema.items = some inner) :
    inner ∈ schema.underneath := by
  rw [underneath, asked]
  exact List.mem_append_left _ (List.mem_append_left _ List.mem_cons_self)

theorem mem_underneath_of_forEntry {key : String} (asked : schema.forEntry key = some inner) :
    inner ∈ schema.underneath := by
  rw [underneath, List.mem_append, List.mem_append]
  rw [forEntry, Option.or_eq_some_iff] at asked
  rcases asked with found | ⟨-, found⟩
  · exact .inl (.inr (List.mem_map.mpr ⟨_, Fields.mem_of_get? found, rfl⟩))
  · exact .inr (Option.mem_toList.mpr found)

end Parts

namespace Visits

variable {schema part : Schema} {node place : Node}

theorem mem_parts (visits : Visits schema node part place) : part ∈ schema.parts := by
  induction visits with
  | here schema node => exact mem_parts_self schema
  | alongside member _ ih => exact mem_parts_of_alongside member ih
  | item _ _ asked _ ih => exact mem_parts_of_underneath (mem_underneath_of_items asked) ih
  | entry _ _ asked _ ih => exact mem_parts_of_underneath (mem_underneath_of_forEntry asked) ih

/-- A schema is applied to the node itself or further down in it. -/
theorem here_or_deeper (visits : Visits schema node part place) :
    (place = node ∧
      Relation.ReflTransGen (fun outer inner => inner ∈ outer.alongside) schema part) ∨
        place.depth < node.depth := by
  induction visits with
  | here schema node => exact .inl ⟨rfl, .refl⟩
  | alongside member _ ih =>
    rcases ih with ⟨rfl, chain⟩ | deeper
    · exact .inl ⟨rfl, .head member chain⟩
    · exact .inr deeper
  | item sequence member _ _ ih =>
    have child := Node.depth_lt_of_item sequence member
    rcases ih with ⟨rfl, -⟩ | deeper
    · exact .inr child
    · exact .inr (Nat.lt_trans deeper child)
  | entry mapping member _ _ ih =>
    have child := Node.depth_lt_of_entry mapping member
    rcases ih with ⟨rfl, -⟩ | deeper
    · exact .inr child
    · exact .inr (Nat.lt_trans deeper child)

theorem admissible {admissible : Node → Prop} (closed : ClosedUnderParts admissible)
    (visits : Visits schema node part place) (fits : admissible node) : admissible place := by
  induction visits with
  | here schema node => exact fits
  | alongside _ _ ih => exact ih fits
  | item sequence member _ _ ih =>
    exact ih (closed.items (Node.eq_sequence sequence ▸ fits) _ member)
  | entry mapping member _ _ ih =>
    exact ih (closed.fields (Node.eq_mapping mapping ▸ fits) _ member)

end Visits
end Schema
end ParticleSim
