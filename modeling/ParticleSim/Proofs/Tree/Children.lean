import ParticleSim.Proofs.Tree.Fields
import ParticleSim.Proofs.Tree.Shape

namespace ParticleSim.Node

def At (key : String) (condition : Node → Prop) (node : Node) : Prop :=
  ∀ child ∈ node.child? key, condition child

def Has (key : String) (condition : Node → Prop) (node : Node) : Prop :=
  ∃ child, node.child? key = some child ∧ condition child

def EachItem (condition : Node → Prop) (node : Node) : Prop :=
  ∀ items ∈ node.items?, ∀ item ∈ items, condition item

def IsNumber (node : Node) : Prop := ∃ x, node.number? = some x
def IsString (node : Node) : Prop := ∃ text, node.string? = some text
def IsSequence (node : Node) : Prop := ∃ items, node.items? = some items
def IsMapping (node : Node) : Prop := ∃ fields, node.fields? = some fields

variable {node : Node} {key : String} {condition condition' : Node → Prop}

theorem At.imp (weaker : ∀ child, condition child → condition' child)
    (holds : node.At key condition) : node.At key condition' :=
  fun child found => weaker child (holds child found)

theorem Has.imp (weaker : ∀ child, condition child → condition' child)
    (has : node.Has key condition) : node.Has key condition' := by
  rcases has with ⟨child, found, holds⟩
  exact ⟨child, found, weaker child holds⟩

theorem EachItem.imp (weaker : ∀ child, condition child → condition' child)
    (each : node.EachItem condition) : node.EachItem condition' :=
  fun items sequence item member => weaker item (each items sequence item member)

theorem child?_eq {fields : Fields Node} (mapping : node.fields? = some fields) (key : String) :
    node.child? key = fields.get? key := by
  rw [child?, mapping, Option.bind_some]

theorem at_true : node.At key (fun _ => True) ↔ True :=
  iff_of_true (fun _ _ => trivial) trivial

theorem Has.isMapping (has : node.Has key condition) : node.IsMapping := by
  rcases has with ⟨child, found, -⟩
  rw [child?, Option.bind_eq_some_iff] at found
  rcases found with ⟨fields, mapping, -⟩
  exact ⟨fields, mapping⟩

theorem UniqueKeys.keys (unique : node.UniqueKeys) {fields : Fields Node}
    (mapping : node.fields? = some fields) : fields.keys.Nodup := by
  cases node with
  | mapping entries =>
    cases mapping
    exact unique.1
  | _ => cases mapping

theorem UniqueKeys.at (unique : node.UniqueKeys) : node.At key UniqueKeys := by
  intro child found
  cases node with
  | mapping fields =>
    rw [UniqueKeys, All, allFields_iff] at unique
    exact unique.2 _ (Fields.mem_of_get? found)
  | _ => cases found

theorem UniqueKeys.eachItem (unique : node.UniqueKeys) : node.EachItem UniqueKeys := by
  intro items sequence
  cases node with
  | sequence items' =>
    cases sequence
    rw [UniqueKeys, All, allItems_iff] at unique
    exact unique.2
  | _ => cases sequence

theorem eq_ofString {text : String} (same : node.string? = some text) : node = .ofString text := by
  cases node with
  | scalar value =>
    cases value with
    | string found =>
      cases same
      rfl
    | _ => cases same
  | _ => cases same

theorem equal_ofString {text : String} (same : node.string? = some text) :
    node.equal (.ofString text) = true := by
  rw [eq_ofString same, ofString, equal, Scalar.equal, beq_self_eq_true]

theorem string?_of_equal {text : String}
    (same : (ofString text).equal node = true) : node.string? = some text := by
  cases node with
  | scalar value =>
    cases value with
    | string found =>
      rw [ofString, equal, Scalar.equal, beq_iff_eq] at same
      rw [same]
      rfl
    | _ => cases same
  | _ => cases same

end ParticleSim.Node
