import ParticleSim.Proofs.Number.Order
import ParticleSim.Proofs.Schema.Culprits
import ParticleSim.Proofs.World.Reading
/-!
Where a document is at fault that describes no world. The path of a bad magnitude leads to a bad
number or to a corner that does not lie behind the other; the path of a malformed field leads to a
misfit, or from a mapping to a key that it lacks.
-/
namespace ParticleSim

open Outline (Meets)

namespace Node

inductive Unshaped (node : Node) : String → Prop
  | mapping (unlike : ¬node.IsMapping) : Unshaped node "mapping"
  | sequence (unlike : ¬node.IsSequence) : Unshaped node "sequence"
  | string (unlike : ¬node.IsString) : Unshaped node "string"
  | number (unlike : ¬node.IsNumber) : Unshaped node "number"

inductive Misfits (tree : Node) : Path → Misfit → Prop
  | shape {path : Path} {node : Node} {expected : String} (stands : tree.at? path = some node)
    (unshaped : node.Unshaped expected) : Misfits tree path (.wrongShape expected node.typeName)
  | policy {path : Path} {node : Node} {name : String} (stands : tree.at? path = some node)
    (text : node.string? = some name) (unknown : name ≠ "clamp" ∧ name ≠ "wrap") :
    Misfits tree path (.unknownPolicy name)
  | missing {path : Path} {node : Node} {fields : Fields Node} {key : String}
    (stands : tree.at? path = some node) (mapping : node.fields? = some fields)
    (lacks : key ∉ fields.keys) : Misfits tree (path.key key) .missing

/-- At the path of a tree there is a number that is not both finite and positive, or the upper
corner of the bounds that does not lie above and right of the lower one. -/
inductive BadMagnitude (tree : Node) : Path → Prop
  | number {path : Path} {node : Node} {x : Float} (stands : tree.at? path = some node)
    (number : node.number? = some x) (bad : ¬Magnitude (0.0 < ·) x) : BadMagnitude tree path
  | corner {lower upper : Node} {low high : Vec}
    (min : tree.at? [.key "bounds", .key "min"] = some lower) (writesLow : lower.WritesVec low)
    (max : tree.at? [.key "bounds", .key "max"] = some upper) (writesHigh : upper.WritesVec high)
    (disordered : ¬(low.x < high.x ∧ low.y < high.y)) :
    BadMagnitude tree [.key "bounds", .key "max"]

end Node

/-- Where the error names a path, what is at fault stands there. -/
def BuildError.StandsIn (tree : Node) : BuildError → Prop
  | .invalidMagnitude path => tree.BadMagnitude path
  | .malformed path misfit => tree.Misfits path misfit
  | .unknownKind _ | .danglingReference _ | .duplicateBody _ => True

namespace World

variable {α : Type} {tree node : Node} {path : Path}

/-- A reading gives a value of the kind, or it fails with an error that stands in the tree. -/
def Points (tree : Node) (P : α → Prop) (result : Except BuildError α) : Prop :=
  Meets P (BuildError.StandsIn tree) result

namespace Points

variable {P : α → Prop} {result : Except BuildError α}

theorem bind {β : Type} {Q : β → Prop} {next : α → Except BuildError β}
    (points : Points tree P result) (later : ∀ value, P value → Points tree Q (next value)) :
    Points tree Q (result >>= next) :=
  Meets.bind points later

theorem any (points : Points tree P result) : Points tree (fun _ => True) result :=
  Meets.values points fun _ _ => trivial

theorem that (points : Points tree (fun _ => True) result)
    (kind : ∀ value, result = .ok value → P value) : Points tree P result := by
  cases result with
  | ok value => exact kind value rfl
  | error _ => exact points

theorem mapM {items : List Node} {read : Read α} (sequence : node.items? = some items)
    (stands : tree.at? path = some node) (each : ∀ item i, tree.at? (path.index i) = some item →
      Points tree (fun _ => True) (read item (path.index i))) :
    Points tree (fun _ => True)
      (items.zipIdx.mapM fun (item, i) => read item (path.index i)) := by
  have entries : ∀ entry ∈ items.zipIdx,
      Points tree (fun _ => True) (read entry.1 (path.index entry.2)) := by
    intro entry member
    refine each entry.1 entry.2 ?_
    rw [Node.at?_path_index stands, sequence]
    exact List.mk_mem_zipIdx_iff_getElem?.mp member
  generalize items.zipIdx = entries' at entries
  induction entries' with
  | nil => exact trivial
  | cons entry rest ih =>
    rcases List.forall_mem_cons.mp entries with ⟨here, later⟩
    rw [List.mapM_cons]
    exact here.bind fun _ _ => (ih later).bind fun _ _ => trivial

end Points

section Shapes

variable (stands : tree.at? path = some node)
include stands

theorem points_shape {expected : String} {view : Node → Option α}
    (unlike : view node = none → node.Unshaped expected) :
    Points tree (fun value => view node = some value) (shape expected view node path) := by
  rw [shape]
  cases viewed : view node with
  | none => exact .shape stands (unlike viewed)
  | some value => exact rfl

theorem points_mapping :
    Points tree (fun fields => node.fields? = some fields) (mapping node path) :=
  points_shape stands fun none => .mapping (Node.not_exists_of_none none)

theorem points_sequence :
    Points tree (fun items => node.items? = some items) (sequence node path) :=
  points_shape stands fun none => .sequence (Node.not_exists_of_none none)

theorem points_string :
    Points tree (fun text => node.string? = some text) (string node path) :=
  points_shape stands fun none => .string (Node.not_exists_of_none none)

theorem points_numberThat {condition : Float → Bool}
    (weaker : ∀ x : Float, 0.0 < x → condition x = true) :
    Points tree (fun _ => True) (numberThat condition node path) := by
  rw [numberThat]
  refine (points_shape stands fun none => .number (Node.not_exists_of_none none)).bind ?_
  intro x number
  split
  · exact trivial
  · next refused =>
    refine .number stands number fun sound => refused ?_
    rw [sound.1, weaker x sound.2]
    rfl

theorem points_number : Points tree (fun _ => True) (number node path) :=
  points_numberThat stands fun _ _ => rfl

theorem points_positive : Points tree (fun _ => True) (positive node path) :=
  points_numberThat stands fun _ => decide_eq_true

theorem points_nonNegative : Points tree (fun _ => True) (nonNegative node path) :=
  points_numberThat stands fun _ positive => decide_eq_true (Binary64.le_of_lt positive)

end Shapes

section Entries

variable {read : Read α} {fields : Fields Node} {key : String}
  (stands : tree.at? path = some node) (mapping : node.fields? = some fields)
include stands mapping

theorem at?_entry : tree.at? (path.key key) = fields.get? key := by
  rw [Node.at?_path_key stands, Node.child?_eq mapping]

variable (each : ∀ child, tree.at? (path.key key) = some child →
  Points tree (fun _ => True) (read child (path.key key)))
include each

theorem points_required : Points tree (fun _ => True) (required read fields path key) := by
  rw [required]
  cases asked : fields.get? key with
  | none => exact .missing stands mapping (Fields.get?_eq_none_iff.mp asked)
  | some child => exact each child ((at?_entry stands mapping).trans asked)

theorem points_optional : Points tree (fun _ => True) (optional read fields path key) := by
  rw [optional]
  cases asked : fields.get? key with
  | none => exact trivial
  | some child =>
    exact Meets.map (each child ((at?_entry stands mapping).trans asked)) fun _ _ => trivial

end Entries

/-! One lemma for each reader. -/

section Readers

variable (stands : tree.at? path = some node)
include stands

theorem points_vector : Points tree (fun _ => True) (vector node path) := by
  refine (points_mapping stands).bind fun fields mapping => ?_
  refine (points_required stands mapping fun _ => points_number).bind fun x _ => ?_
  exact (points_required stands mapping fun _ => points_number).bind fun _ _ => trivial

theorem points_policy : Points tree (fun _ => True) (policy node path) := by
  refine (points_string stands).bind fun name text => ?_
  split
  · exact trivial
  · next first =>
    split
    · exact trivial
    · next second => exact .policy stands text ⟨first, second⟩

theorem points_bodyKind : Points tree (fun _ => True) (bodyKind node path) := by
  refine (points_string stands).bind fun name _ => ?_
  split
  · exact trivial
  · split <;> exact trivial

theorem points_readBody : Points tree (fun _ => True) (readBody node path) := by
  refine (points_mapping stands).bind fun fields mapping => ?_
  refine (points_required stands mapping fun _ here => (points_string here).any).bind fun _ _ => ?_
  refine (points_optional stands mapping fun _ => points_bodyKind).bind fun _ _ => ?_
  refine (points_required stands mapping fun _ => points_positive).bind fun _ _ => ?_
  refine (points_required stands mapping fun _ => points_vector).bind fun _ _ => ?_
  exact (points_optional stands mapping fun _ => points_vector).bind fun _ _ => trivial

theorem points_bodyReference (ids : List String) :
    Points tree (fun _ => True) (bodyReference ids node path) := by
  refine (points_string stands).bind fun id _ => ?_
  split <;> exact trivial

theorem points_readTargets (ids : List String) :
    Points tree (fun _ => True) (readTargets ids node path) := by
  refine (points_sequence stands).bind fun items sequence => ?_
  exact (Points.mapM sequence stands fun _ _ => (points_bodyReference · ids)).bind
    fun _ _ => trivial

theorem points_readForce (ids : List String) :
    Points tree (fun _ => True) (readForce ids node path) := by
  refine (points_mapping stands).bind fun fields mapping => ?_
  refine (points_required stands mapping fun _ here => (points_string here).any).bind
    fun kind _ => ?_
  have targets : Points tree (fun _ => True)
      (do return (← optional (readTargets ids) fields path "targets").getD .all) :=
    (points_optional stands mapping fun _ => (points_readTargets · ids)).bind fun _ _ => trivial
  dsimp only
  split
  · refine (points_required stands mapping fun _ => points_vector).bind fun _ _ => ?_
    exact targets.bind fun _ _ => trivial
  · split
    · refine (points_required stands mapping fun _ => points_nonNegative).bind fun _ _ => ?_
      exact targets.bind fun _ _ => trivial
    · split
      · refine (points_required stands mapping fun _ => points_vector).bind fun _ _ => ?_
        refine (points_required stands mapping fun _ => (points_bodyReference · ids)).bind
          fun _ _ => ?_
        refine (points_required stands mapping fun _ => points_positive).bind fun _ _ => ?_
        exact (points_optional stands mapping fun _ => points_nonNegative).bind
          fun _ _ => trivial
      · exact trivial

theorem points_readForces (ids : List String) :
    Points tree (fun _ => True) (readForces ids node path) :=
  (points_sequence stands).bind fun _ sequence =>
    Points.mapM sequence stands fun _ _ => (points_readForce · ids)

end Readers

/-- Corners are compared once both have been read, so both stand in the tree. -/
theorem points_readBounds (stands : tree.at? (Path.root.key "bounds") = some node) :
    Points tree (fun _ => True) (readBounds node (Path.root.key "bounds")) := by
  refine (points_mapping stands).bind fun fields mapping => ?_
  have corner (key : String) : Points tree (Required key Node.WritesVec fields)
      (required vector fields (Path.root.key "bounds") key) :=
    (points_required stands mapping fun _ => points_vector).that fun _ read =>
      ((required_eq_ok accepts_vector).mp read).1
  refine (corner "min").bind fun low ⟨lower, min, writesLow⟩ => ?_
  refine (corner "max").bind fun high ⟨upper, max, writesHigh⟩ => ?_
  split
  · next refused =>
    rw [Bool.not_eq_true', ← Bool.not_eq_true, Bool.and_eq_true, decide_eq_true_eq,
      decide_eq_true_eq] at refused
    exact .corner ((at?_entry stands mapping).trans min) writesLow
      ((at?_entry stands mapping).trans max) writesHigh refused
  · exact (points_required stands mapping fun _ => points_policy).bind fun _ _ => trivial

theorem points_readBodies {earlier : List Body} {items : List Node}
    (stand : ∀ position item, items[position]? = some item →
      tree.at? (path.index (earlier.length + position)) = some item) :
    Points tree (fun _ => True) (readBodies path earlier items) := by
  induction items generalizing earlier with
  | nil => exact trivial
  | cons item rest ih =>
    rw [readBodies]
    refine (points_readBody (stand 0 item rfl)).bind fun body _ => ?_
    split
    · exact trivial
    · refine ih fun position other listed => ?_
      rw [List.length_append, List.length_singleton, Nat.add_assoc, Nat.add_comm 1]
      exact stand (position + 1) other listed

theorem points_ofNode (tree : Node) : Points tree (fun _ => True) (ofNode tree) := by
  have stands : tree.at? Path.root = some tree := rfl
  refine (points_mapping stands).bind fun fields mapping => ?_
  refine (points_optional stands mapping fun _ here => (points_string here).any).bind fun _ _ => ?_
  refine (points_optional stands mapping fun _ => points_positive).bind fun _ _ => ?_
  refine (points_optional stands mapping fun _ => points_readBounds).bind fun _ _ => ?_
  have bodies : Points tree (Required "bodies" (fun node items => node.items? = some items) fields)
      (required sequence fields Path.root "bodies") :=
    (points_required stands mapping fun _ here => (points_sequence here).any).that fun _ read =>
      ((required_eq_ok accepts_sequence).mp read).1
  refine bodies.bind fun items ⟨child, written, sequence⟩ => ?_
  refine (points_readBodies fun position item listed => ?_).bind fun _ _ => ?_
  · have here := (at?_entry stands mapping).trans written
    rw [List.length_nil, Nat.zero_add, Node.at?_path_index here, sequence]
    exact listed
  · exact (points_optional stands mapping fun _ => (points_readForces · _)).bind
      fun _ _ => trivial

end World

/-- What a refusal says of a path is true of what stands there in the tree. -/
theorem culprits_stand (tree : Node) :
    (∀ path, World.ofNode tree = .error (.invalidMagnitude path) → tree.BadMagnitude path) ∧
      (∀ path misfit, World.ofNode tree = .error (.malformed path misfit) →
        tree.Misfits path misfit) ∧
      (tree.UniqueKeys → ∀ path fault,
        SchemaDocument.ofNode tree = .error (.invalid path fault) → tree.Culprit path fault) := by
  have points := World.points_ofNode tree
  refine ⟨fun path fails => ?_, fun path misfit fails => ?_, fun unique path fault fails => ?_⟩
  · rw [fails] at points
    exact points
  · rw [fails] at points
    exact points
  · exact SchemaDocument.standsIn_of_ofNode unique fails

/-- As a document it has corners in the wrong order, as a schema it has an unknown type. -/
def Node.twisted : Node :=
  let point (x y : Int64) : Node := .mapping [("x", .ofInt64 x), ("y", .ofInt64 y)]
  .mapping
    [("bounds", .mapping
      [("min", point 0 0), ("max", point 1 (-1)), ("policy", .ofString "clamp")]),
    ("if", .ofBool true),
    ("then", .mapping [("type", .sequence [.ofString "string", .ofString "int"])])]

def Node.unfinished : Node :=
  let body (id : String) (position : Fields Node) : Node :=
    .mapping [("id", .ofString id), ("mass", .ofInt64 1), ("position", .mapping position)]
  .mapping [("bodies", .sequence
    [body "a" [("x", .ofInt64 0), ("y", .ofInt64 0)], body "b" [("x", .ofInt64 1)]])]

theorem culprits_stand_twisted :
    let corner : Path := [.key "bounds", .key "max"]
    let ordinate : Path := [.key "bodies", .index 1, .key "position", .key "y"]
    let branch : Path := [.key "then", .key "type"]
    (World.ofNode Node.twisted = .error (.invalidMagnitude corner) ∧
      Node.twisted.BadMagnitude corner) ∧
    (World.ofNode Node.unfinished = .error (.malformed ordinate .missing) ∧
      Node.unfinished.Misfits ordinate .missing) ∧
    Node.twisted.UniqueKeys ∧
      SchemaDocument.ofNode Node.twisted = .error (.invalid branch (.unknownType "int")) ∧
      Node.twisted.Culprit branch (.unknownType "int") := by
  intro corner ordinate branch
  have disordered : World.ofNode Node.twisted = .error (.invalidMagnitude corner) := by
    decide +kernel
  have lacking : World.ofNode Node.unfinished = .error (.malformed ordinate .missing) := by
    decide +kernel
  have unique : Node.twisted.UniqueKeys := by
    simp [Node.twisted, Node.UniqueKeys, Node.All, Node.AllItems, Node.AllFields,
      Node.DistinctKeys, Fields.keys, Node.ofString, Node.ofInt64, Node.ofBool]
  have unknown : SchemaDocument.ofNode Node.twisted =
      .error (.invalid branch (.unknownType "int")) := by
    rfl
  exact ⟨⟨disordered, (culprits_stand Node.twisted).1 corner disordered⟩,
    ⟨lacking, (culprits_stand Node.unfinished).2.1 ordinate .missing lacking⟩,
    unique, unknown, (culprits_stand Node.twisted).2.2 unique branch _ unknown⟩

end ParticleSim
