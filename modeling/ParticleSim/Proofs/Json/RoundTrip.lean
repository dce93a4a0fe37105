import ParticleSim.Proofs.Json.ExactFloats
import ParticleSim.Proofs.Json.Trees

namespace ParticleSim

namespace Json

theorem toNodes_eq (items : List Value) : Value.toNodes items = items.map Value.toNode := by
  induction items with
  | nil => rfl
  | cons item rest ih => rw [Value.toNodes, ih, List.map_cons]

theorem toEntries_eq (members : List (String × Value)) :
    Value.toEntries members = members.map fun member => (member.1, member.2.toNode) := by
  induction members with
  | nil => rfl
  | cons member rest ih => rw [Value.toEntries, ih, List.map_cons]

def FiniteFloat : Node → Prop
  | .scalar (.float x) => x.isFinite = true
  | _ => True

theorem equal_toNode {node : Node} (unique : node.UniqueKeys) (finite : node.All FiniteFloat) :
    node.equal (node.serialize valueFormat).toNode = true := by
  induction node using Node.induction with
  | scalar value =>
    cases value with
    | null => rfl
    | bool b => exact beq_self_eq_true b
    | integer n =>
      change (Node.scalar (.integer n)).equal (.scalar (.ofNumber (.ofInt64 n))) = true
      rw [ofNumber_ofInt64]
      exact beq_self_eq_true n
    | float x =>
      have bounded : x.isFinite = true := finite
      change (Node.scalar (.float x)).equal (floatValue x).toNode = true
      rw [floatValue, if_pos bounded]
      exact Binary64.beq_self (Binary64.isFinite_iff.mp bounded).1
    | string s => exact beq_self_eq_true s
  | sequence items ih =>
    rw [Node.serialize_sequence]
    change (Node.sequence items).equal (.sequence (Value.toNodes _)) = true
    rw [Node.equal, toNodes_eq, List.map_map, Node.equalItems_iff, List.forall₂_map_right_iff,
      List.forall₂_same]
    exact fun item member =>
      ih item member (unique.item member) (Node.allItems_iff.mp finite.2 item member)
  | mapping fields ih =>
    have sorted := Fields.sorted_perm unique.1
    have distinct := (sorted.map Prod.fst).nodup_iff.mpr unique.1
    have members : Value.toEntries (Fields.sorted
        (fields.map fun entry => (entry.1, entry.2.serialize valueFormat))) =
        (Fields.sorted fields).map
          fun entry => (entry.1, (entry.2.serialize valueFormat).toNode) := by
      rw [toEntries_eq, Fields.sorted_map, List.map_map]
      rfl
    have names : Fields.keys ((Fields.sorted fields).map
        fun entry => (entry.1, (entry.2.serialize valueFormat).toNode)) =
        (Fields.sorted fields).keys := by
      rw [Fields.keys, List.map_map]
      rfl
    rw [Node.serialize_mapping]
    change (Node.mapping fields).equal (.mapping (Fields.ofList (Value.toEntries _))) = true
    rw [members, Fields.ofList_of_nodup (names ▸ distinct),
      Node.equal_mapping_iff unique.1 (names ▸ distinct)]
    refine .of_perm unique.1 sorted.symm ?_
    rw [List.forall₂_map_right_iff, List.forall₂_same]
    intro entry member
    have listed := sorted.mem_iff.mp member
    exact ⟨rfl, ih entry listed (unique.value listed) (Node.allFields_iff.mp finite.2 entry listed)⟩

/-- Both texts of the tree are read as one tree, which equals it. -/
def ComesBack (floats : Floats) (node : Node) : Prop :=
  ∃ back, floats.parse? (floats.compact node) = some back ∧
    floats.parse? (floats.pretty node) = some back ∧ node.equal back = true

theorem comesBack {floats : Floats} {node : Node} (unique : node.UniqueKeys)
    (finite : node.All FiniteFloat) (shallow : node.depth ≤ maxDepth)
    (inverts : node.All (FloatInverts floats)) : ComesBack floats node := by
  refine ⟨_, ?_, ?_, equal_toNode unique finite⟩
  · rw [Floats.parse?, Floats.compact, (writes_compact inverts shallow).reads.ofText?]
    rfl
  · rw [Floats.parse?, Floats.pretty, (writes_pretty inverts shallow 0).reads.ofText?]
    rfl

def Floats.Lossless (floats : Floats) : Prop :=
  ∀ x : Float, x.isFinite = true → floats.Inverts x

/-- A whole number below `10 ^ 14`, or any other with a short text. -/
def EverydayFloat : Node → Prop
  | .scalar (.float x) => isShort x = true ∨ ∃ n : Nat, n < 10 ^ 14 ∧
      ((Binary64.exact x).significand : ℚ) * 2 ^ (Binary64.exact x).exponent = n
  | _ => True

/-- A tree with distinct keys and finite floats, of at most 127 nested collections, comes back from
its compact and from its spread text, if every finite float comes back from its own. The conversions
in use do not bring back all of them, but those of everyday use, and whole ones as floats. -/
theorem read_back (node : Node) (unique : node.UniqueKeys) (finite : node.All FiniteFloat)
    (shallow : node.depth ≤ maxDepth) :
    (∀ floats : Floats, floats.Lossless → ComesBack floats node) ∧
      (node.All EverydayFloat → ComesBack Floats.standard node) := by
  constructor
  · intro floats lossless
    refine comesBack unique finite shallow (finite.imp fun leaf _ => ?_)
    unfold FloatInverts
    split
    · exact lossless _
    · trivial
  · intro everyday
    refine comesBack unique finite shallow (everyday.imp fun leaf tame => ?_)
    unfold FloatInverts
    split
    · next x =>
      intro bounded
      rcases tame with short | ⟨n, small, whole⟩
      · exact Floats.standard_inverts short
      · exact Floats.standard_inverts (isShort_of_whole bounded whole small)
    · trivial

/-- Keys out of order, a whole float, a zero with a sign, the least integer, and characters that are
written by letters and digits. -/
def mixed : Node :=
  .mapping [("whole", .ofFloat 3.0), ("zero", .ofFloat (-0.0)), ("least", .ofInt64 Int64.minValue),
    ("\"\\\n\x01", .sequence [.null, .ofBool true, .sequence [], .mapping [("b", .ofFloat 0.1),
      ("a", .ofString "\u007f\u00e9\t")]])]

theorem read_back_mixed :
    mixed.UniqueKeys ∧ mixed.All FiniteFloat ∧ mixed.depth ≤ maxDepth ∧
      Floats.nearest.Lossless ∧ mixed.All EverydayFloat ∧
      ComesBack Floats.nearest mixed ∧ ComesBack Floats.standard mixed := by
  have unique : mixed.UniqueKeys := by
    simp [mixed, Node.UniqueKeys, Node.All, Node.AllItems, Node.AllFields, Node.DistinctKeys,
      Fields.keys, Node.ofFloat, Node.ofString, Node.ofInt64, Node.ofBool, Node.null]
  have finite : mixed.All FiniteFloat :=
    ⟨trivial, (by decide : (3.0 : Float).isFinite = true),
      (by decide : (-0.0 : Float).isFinite = true), trivial,
      ⟨trivial, trivial, trivial, ⟨trivial, trivial⟩,
        ⟨trivial, (by decide : (0.1 : Float).isFinite = true), trivial, trivial⟩, trivial⟩,
      trivial⟩
  have shallow : mixed.depth ≤ maxDepth := by decide
  have lossless : Floats.nearest.Lossless := fun _ => Floats.nearest_inverts
  have everyday : mixed.All EverydayFloat :=
    ⟨trivial, .inl (by decide +kernel), .inl (by decide +kernel), trivial,
      ⟨trivial, trivial, trivial, ⟨trivial, trivial⟩,
        ⟨trivial, .inl (by decide +kernel), trivial, trivial⟩, trivial⟩, trivial⟩
  have back := read_back mixed unique finite shallow
  exact ⟨unique, finite, shallow, lossless, everyday, back.1 _ lossless, back.2 everyday⟩

end Json
end ParticleSim
