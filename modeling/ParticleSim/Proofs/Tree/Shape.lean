import ParticleSim.Proofs.Tree.Fields
import ParticleSim.Tree.Node

namespace ParticleSim.Node

mutual

def All (condition : Node → Prop) : Node → Prop
  | .scalar value => condition (.scalar value)
  | .sequence items => condition (.sequence items) ∧ AllItems condition items
  | .mapping fields => condition (.mapping fields) ∧ AllFields condition fields

def AllItems (condition : Node → Prop) : List Node → Prop
  | [] => True
  | item :: rest => All condition item ∧ AllItems condition rest

def AllFields (condition : Node → Prop) : List (String × Node) → Prop
  | [] => True
  | (_, value) :: rest => All condition value ∧ AllFields condition rest

end

theorem allItems_iff {condition : Node → Prop} {items : List Node} :
    AllItems condition items ↔ ∀ item ∈ items, item.All condition := by
  induction items with
  | nil => simp [AllItems]
  | cons item rest ih => rw [AllItems, ih, List.forall_mem_cons]

theorem allFields_iff {condition : Node → Prop} {fields : List (String × Node)} :
    AllFields condition fields ↔ ∀ entry ∈ fields, entry.2.All condition := by
  induction fields with
  | nil => simp [AllFields]
  | cons entry rest ih => rw [AllFields, ih, List.forall_mem_cons]

def DistinctKeys : Node → Prop
  | .mapping fields => (Fields.keys fields).Nodup
  | _ => True

def NotNaN : Node → Prop
  | .scalar (.float x) => x.isNaN = false
  | _ => True

def UniqueKeys (node : Node) : Prop :=
  node.All DistinctKeys

def NoNaN (node : Node) : Prop :=
  node.All NotNaN

mutual

/-- How many collections stand inside each other at most; an empty one counts. -/
def depth : Node → Nat
  | .scalar _ => 0
  | .sequence items => depthItems items + 1
  | .mapping fields => depthFields fields + 1

def depthItems : List Node → Nat
  | [] => 0
  | item :: rest => max (depth item) (depthItems rest)

def depthFields : List (String × Node) → Nat
  | [] => 0
  | (_, value) :: rest => max (depth value) (depthFields rest)

end

theorem depthItems_le_iff {items : List Node} {n : Nat} :
    depthItems items ≤ n ↔ ∀ item ∈ items, item.depth ≤ n := by
  induction items with
  | nil => simp [depthItems]
  | cons item rest ih => rw [depthItems, Nat.max_le, ih, List.forall_mem_cons]

theorem depthFields_le_iff {fields : List (String × Node)} {n : Nat} :
    depthFields fields ≤ n ↔ ∀ entry ∈ fields, entry.2.depth ≤ n := by
  induction fields with
  | nil => simp [depthFields]
  | cons entry rest ih => rw [depthFields, Nat.max_le, ih, List.forall_mem_cons]

theorem depth_sequence_le_iff {items : List Node} {budget : Nat} :
    (sequence items).depth ≤ budget ↔ ∃ n, budget = n + 1 ∧ ∀ item ∈ items, item.depth ≤ n := by
  simp only [← depthItems_le_iff]
  rw [depth]
  constructor
  · intro shallow
    exact ⟨budget - 1, by omega, by omega⟩
  · rintro ⟨n, rfl, inside⟩
    omega

theorem depth_mapping_le_iff {fields : List (String × Node)} {budget : Nat} :
    (mapping fields).depth ≤ budget ↔
      ∃ n, budget = n + 1 ∧ ∀ entry ∈ fields, entry.2.depth ≤ n := by
  simp only [← depthFields_le_iff]
  rw [depth]
  constructor
  · intro shallow
    exact ⟨budget - 1, by omega, by omega⟩
  · rintro ⟨n, rfl, inside⟩
    omega

/-- The keys are unique, and collections nest within a budget. -/
structure Fits (budget : Nat) (node : Node) : Prop where
  unique : node.UniqueKeys
  shallow : node.depth ≤ budget

structure FieldsFit (budget : Nat) (fields : Fields Node) : Prop where
  distinct : fields.keys.Nodup
  values : ∀ entry ∈ fields, entry.2.Fits budget

theorem fits_scalar (budget : Nat) (value : Scalar) : (Node.scalar value).Fits budget :=
  ⟨trivial, Nat.zero_le budget⟩

theorem fits_sequence {budget : Nat} {items : List Node}
    (fit : ∀ item ∈ items, item.Fits budget) : (Node.sequence items).Fits (budget + 1) where
  unique := ⟨trivial, allItems_iff.mpr fun item member => (fit item member).unique⟩
  shallow := Nat.succ_le_succ (depthItems_le_iff.mpr fun item member => (fit item member).shallow)

theorem FieldsFit.nil (budget : Nat) : FieldsFit budget [] :=
  ⟨List.nodup_nil, fun _ member => absurd member (List.not_mem_nil)⟩

theorem FieldsFit.insert {budget : Nat} {fields : Fields Node} (fit : FieldsFit budget fields)
    {key : String} (fresh : fields.contains key = false) {value : Node}
    (fits : value.Fits budget) : FieldsFit budget (fields.insert key value) := by
  have absent := Fields.contains_eq_false_iff.mp fresh
  rw [Fields.insert_new absent]
  constructor
  · rw [Fields.keys, List.map_append, List.nodup_append]
    refine ⟨fit.distinct, List.pairwise_singleton _ key, ?_⟩
    intro name member other last
    rw [List.mem_singleton.mp last]
    rintro rfl
    exact absent member
  · intro entry member
    rcases List.mem_append.mp member with member | last
    · exact fit.values entry member
    · rw [List.mem_singleton.mp last]
      exact fits

theorem FieldsFit.mapping {budget : Nat} {fields : Fields Node} (fit : FieldsFit budget fields) :
    (Node.mapping fields).Fits (budget + 1) where
  unique := ⟨fit.distinct, allFields_iff.mpr fun entry member => (fit.values entry member).unique⟩
  shallow := Nat.succ_le_succ
    (depthFields_le_iff.mpr fun entry member => (fit.values entry member).shallow)

end ParticleSim.Node
