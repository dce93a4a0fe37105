import ParticleSim.Proofs.Number.Equality
import ParticleSim.Proofs.Tree.Alike
import ParticleSim.Proofs.Tree.Children

namespace ParticleSim

theorem Scalar.equal_cases {a b : Scalar} (same : a.equal b = true) :
    a = b ∨ ∃ x y, a = .float x ∧ b = .float y ∧ (x == y) = true := by
  cases a <;> cases b <;> try cases same
  · exact .inl rfl
  · exact .inl (congrArg _ (beq_iff_eq.mp same))
  · exact .inl (congrArg _ (beq_iff_eq.mp same))
  · exact .inr ⟨_, _, rfl, rfl, same⟩
  · exact .inl (congrArg _ (beq_iff_eq.mp same))

theorem Scalar.equal_symm {a b : Scalar} (same : a.equal b = true) : b.equal a = true := by
  rcases equal_cases same with rfl | ⟨x, y, rfl, rfl, close⟩
  · exact same
  · exact Binary64.beq_symm close

theorem Scalar.equal_trans {a b c : Scalar} (first : a.equal b = true)
    (second : b.equal c = true) : a.equal c = true := by
  rcases equal_cases first with rfl | ⟨x, y, rfl, rfl, close⟩
  · exact second
  · rcases equal_cases second with rfl | ⟨_, z, same, rfl, close'⟩
    · exact close
    · cases same
      exact Binary64.beq_trans close close'

namespace Node

/-- What holds of a node whenever it holds of its items or values holds of all nodes. -/
theorem induction {motive : Node → Prop} (scalar : ∀ value, motive (.scalar value))
    (sequence : ∀ items : List Node, (∀ item ∈ items, motive item) → motive (.sequence items))
    (mapping : ∀ fields : Fields Node, (∀ entry ∈ fields, motive entry.2) →
      motive (.mapping fields)) (node : Node) : motive node := by
  cases node with
  | scalar value => exact scalar value
  | sequence items => exact sequence items fun item _ => induction scalar sequence mapping item
  | mapping fields =>
    exact mapping fields fun entry _ => induction scalar sequence mapping entry.2
termination_by sizeOf node
decreasing_by
  · rename_i member
    have small := List.sizeOf_lt_of_mem member
    rw [Node.sequence.sizeOf_spec]
    omega
  · rename_i member
    have small := List.sizeOf_lt_of_mem member
    rw [Node.mapping.sizeOf_spec]
    cases entry
    rw [Prod.mk.sizeOf_spec] at small
    dsimp only
    omega

theorem All.imp {condition condition' : Node → Prop} {node : Node}
    (weaker : ∀ node, condition node → condition' node) (all : node.All condition) :
    node.All condition' := by
  induction node using Node.induction with
  | scalar value => exact weaker _ all
  | sequence items ih =>
    exact ⟨weaker _ all.1, allItems_iff.mpr fun item member =>
      ih item member (allItems_iff.mp all.2 item member)⟩
  | mapping fields ih =>
    exact ⟨weaker _ all.1, allFields_iff.mpr fun entry member =>
      ih entry member (allFields_iff.mp all.2 entry member)⟩

/-- Nodes of one kind: equal scalars, sequences with related items, or mappings with related
values. -/
inductive Layer (R : Node → Node → Prop) : Node → Node → Prop where
  | scalar {a b : Scalar} (same : a.equal b = true) : Layer R (.scalar a) (.scalar b)
  | sequence {items others : List Node} (each : List.Forall₂ R items others) :
    Layer R (.sequence items) (.sequence others)
  | mapping {fields others : Fields Node} (alike : fields.Alike R others) :
    Layer R (.mapping fields) (.mapping others)

structure Like (node other : Node) : Prop where
  distinct : node.UniqueKeys
  distinct' : other.UniqueKeys
  same : node.equal other = true

theorem equalItems_iff {items others : List Node} :
    equalItems items others = true ↔ List.Forall₂ (fun a b => a.equal b = true) items others := by
  induction items generalizing others with
  | nil => cases others <;> simp [equalItems]
  | cons item rest ih => cases others <;> simp [equalItems, ih]

theorem within_iff {fields others : Fields Node} : within fields others = true ↔
    ∀ entry ∈ fields, ∃ found, others.get? entry.1 = some found ∧
      entry.2.equal found = true := by
  induction fields with
  | nil => simp [within]
  | cons entry rest ih =>
    rw [within, Bool.and_eq_true, ih, List.forall_mem_cons]
    refine and_congr_left fun _ => ?_
    cases others.get? entry.1 <;> simp

/-- Mappings with distinct keys are equal if the same keys have equal values. -/
theorem equal_mapping_iff {fields others : Fields Node} (distinct : fields.keys.Nodup)
    (distinct' : others.keys.Nodup) : (mapping fields).equal (mapping others) = true ↔
      fields.Alike (fun a b => a.equal b = true) others := by
  rw [equal, Bool.and_eq_true, beq_iff_eq, within_iff]
  constructor
  · intro given
    rcases given with ⟨long, found⟩
    refine ⟨distinct, distinct', fun key => ?_⟩
    cases here : fields.get? key with
    | some value =>
      rcases found _ (Fields.mem_of_get? here) with ⟨other, there, same⟩
      rw [there]
      exact .some same
    | none =>
      have inside : fields.keys ⊆ others.keys := by
        intro name member
        rcases List.mem_map.mp member with ⟨entry, listed, rfl⟩
        rcases found entry listed with ⟨other, there, -⟩
        exact List.mem_map.mpr ⟨_, Fields.mem_of_get? there, rfl⟩
      have perm : fields.keys.Perm others.keys :=
        (List.subperm_of_subset distinct inside).perm_of_length_le
          (by rw [Fields.keys, Fields.keys, List.length_map, List.length_map, long])
      rw [Fields.get?_eq_none_iff, perm.mem_iff, ← Fields.get?_eq_none_iff] at here
      rw [here]
      exact .none
  · intro alike
    rcases alike.exists_perm with ⟨middle, perm, matching⟩
    exact ⟨perm.length_eq.trans matching.length_eq, fun _ member => alike.exists_partner member⟩

theorem UniqueKeys.item {items : List Node} (unique : (sequence items).UniqueKeys) {item : Node}
    (member : item ∈ items) : item.UniqueKeys :=
  unique.eachItem items rfl item member

theorem UniqueKeys.value {fields : Fields Node} (unique : (mapping fields).UniqueKeys)
    {entry : String × Node} (member : entry ∈ fields) : entry.2.UniqueKeys := by
  rw [UniqueKeys, All, allFields_iff] at unique
  exact unique.2 entry member

theorem Like.layer {node other : Node} (like : node.Like other) : Layer Like node other := by
  rcases like with ⟨distinct, distinct', same⟩
  cases node with
  | scalar a =>
    cases other with
    | scalar b =>
      rw [equal] at same
      exact .scalar same
    | _ => simp [equal] at same
  | sequence items =>
    cases other with
    | sequence others =>
      rw [equal, equalItems_iff] at same
      exact .sequence (forall₂_mono same fun item member item' member' same =>
        ⟨distinct.item member, distinct'.item member', same⟩)
    | _ => simp [equal] at same
  | mapping fields =>
    cases other with
    | mapping others =>
      have alike := (equal_mapping_iff distinct.1 distinct'.1).mp same
      refine .mapping ⟨alike.distinct, alike.distinct', fun key => ?_⟩
      exact rel_mono (alike.related key) fun a b found found' same =>
        ⟨distinct.value (Fields.mem_of_get? found), distinct'.value (Fields.mem_of_get? found'),
          same⟩
    | _ => simp [equal] at same

/-- Trees of one kind with equal parts are equal. -/
theorem equal_of_layer {node other : Node}
    (layer : Layer (fun a b => a.equal b = true) node other) : node.equal other = true := by
  cases layer with
  | scalar same => rwa [equal]
  | sequence each => rwa [equal, equalItems_iff]
  | mapping alike => exact (equal_mapping_iff alike.distinct alike.distinct').mpr alike

theorem Like.symm {node other : Node} (like : node.Like other) : other.Like node := by
  suffices same : ∀ {other : Node}, node.Like other → other.equal node = true from
    ⟨like.distinct', like.distinct, same like⟩
  clear like
  induction node using induction with
  | scalar a =>
    intro other like
    cases like.layer with
    | scalar same => exact equal_of_layer (.scalar (Scalar.equal_symm same))
  | sequence items ih =>
    intro other like
    cases like.layer with
    | sequence each =>
      exact equal_of_layer (.sequence (forall₂_mono each.flip
        fun item' _ item member like => ih item member like))
  | mapping fields ih =>
    intro other like
    cases like.layer with
    | mapping alike =>
      exact equal_of_layer (.mapping
        (alike.imp fun entry member other like => ih entry member like).flip)

theorem Like.trans {node other third : Node} (first : node.Like other)
    (second : other.Like third) : node.Like third := by
  suffices same : ∀ {other third : Node}, node.Like other → other.Like third →
      node.equal third = true from ⟨first.distinct, second.distinct', same first second⟩
  clear first second
  induction node using induction with
  | scalar a =>
    intro other third first second
    cases first.layer with
    | scalar same =>
      cases second.layer with
      | scalar same' => exact equal_of_layer (.scalar (Scalar.equal_trans same same'))
  | sequence items ih =>
    intro other third first second
    cases first.layer with
    | sequence each =>
      cases second.layer with
      | sequence each' =>
        exact equal_of_layer (.sequence (forall₂_trans each each'
          fun item member b c first second => ih item member first second))
  | mapping fields ih =>
    intro other third first second
    cases first.layer with
    | mapping alike =>
      cases second.layer with
      | mapping alike' =>
        exact equal_of_layer (.mapping (alike.trans alike'
          fun entry member b c first second => ih entry member first second))

namespace Like

variable {node other third fourth : Node} (like : node.Like other)

theorem equal_congr (left : node.Like other) (right : third.Like fourth) :
    node.equal third = other.equal fourth := by
  rw [Bool.eq_iff_iff]
  constructor
  · intro same
    exact (left.symm.trans ((Like.mk left.distinct right.distinct same).trans right)).same
  · intro same
    exact (left.trans ((Like.mk left.distinct' right.distinct' same).trans right.symm)).same

include like

theorem typeName_eq : node.typeName = other.typeName := by
  cases like.layer with
  | scalar same => rcases Scalar.equal_cases same with rfl | ⟨x, y, rfl, rfl, -⟩ <;> rfl
  | _ => rfl

theorem bool?_eq : node.bool? = other.bool? := by
  cases like.layer with
  | scalar same => rcases Scalar.equal_cases same with rfl | ⟨x, y, rfl, rfl, -⟩ <;> rfl
  | _ => rfl

theorem integer?_eq : node.integer? = other.integer? := by
  cases like.layer with
  | scalar same => rcases Scalar.equal_cases same with rfl | ⟨x, y, rfl, rfl, -⟩ <;> rfl
  | _ => rfl

theorem string?_eq : node.string? = other.string? := by
  cases like.layer with
  | scalar same => rcases Scalar.equal_cases same with rfl | ⟨x, y, rfl, rfl, -⟩ <;> rfl
  | _ => rfl

theorem number? : Option.Rel (fun x y => (x == y) = true) node.number? other.number? := by
  cases like.layer with
  | @scalar a b same =>
    rcases Scalar.equal_cases same with rfl | ⟨x, y, rfl, rfl, close⟩
    · cases a with
      | integer n => exact .some (Binary64.beq_self (Binary64.isNaN_ofInt64 n))
      | float x => exact .some same
      | _ => exact .none
    · exact .some close
  | _ => exact .none

theorem items? : Option.Rel (List.Forall₂ Like) node.items? other.items? := by
  cases like.layer with
  | sequence each => exact .some each
  | _ => exact .none

theorem fields? : Option.Rel (Fields.Alike Like) node.fields? other.fields? := by
  cases like.layer with
  | mapping alike => exact .some alike
  | _ => exact .none

theorem child? (key : String) : Option.Rel Like (node.child? key) (other.child? key) := by
  cases like.layer with
  | mapping alike => exact alike.related key
  | _ => exact .none

end Like
end Node
end ParticleSim
