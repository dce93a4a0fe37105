import ParticleSim.Proofs.Outline.RoundTrip
import ParticleSim.Proofs.Schema.Validity
import ParticleSim.Schema.Compile
/-!
Schemas that refer to themselves. If every cycle of references leads into the children of a node,
the definitions still fix what references mean, and a chain of references is as long as the tree is
deep. A budget that grows with the tree outlasts all chains; the one that validation has does not.
-/
namespace ParticleSim

def RefersHere (definitions : Fields Schema) (name other : String) : Prop :=
  ∃ schema, definitions.get? name = some schema ∧
    ∃ part, Relation.ReflTransGen (fun outer inner => inner ∈ outer.alongside) schema part ∧
      part.reference = some other

/-- Every cycle of references passes through the items or entries of a node. -/
def Guarded (definitions : Fields Schema) : Prop :=
  ∀ name, ¬Relation.TransGen (RefersHere definitions) name name

variable {definitions : Fields Schema}

theorem Leads.here_or_deeper {name other : String} {node place : Node}
    (leads : Leads definitions name node other place) :
    (place = node ∧ RefersHere definitions name other) ∨ place.depth < node.depth := by
  rcases leads with ⟨schema, found, part, visits, mentioned⟩
  rcases visits.here_or_deeper with ⟨same, chain⟩ | deeper
  · exact .inl ⟨same, schema, found, part, chain, mentioned⟩
  · exact .inr deeper

/-- On each level of the tree a chain of references visits a definition at most once. -/
theorem within_of_guarded (guarded : Guarded definitions) (name : String) (node : Node) :
    Within definitions (definitions.length * (node.depth + 1)) name node := by
  rcases exists_rank definitions.keys guarded with ⟨rank, bounded, falls⟩
  rw [Fields.keys, List.length_map] at bounded
  refine within_of_measure (fun name node => definitions.length * node.depth + rank name) ?_ ?_
  · intro name node other place leads defined
    rcases leads.here_or_deeper with ⟨rfl, refers⟩ | deeper
    · exact Nat.add_lt_add_left (falls name other refers defined) _
    · have level := Nat.mul_le_mul_left definitions.length (Nat.succ_le_of_lt deeper)
      have low := bounded other defined
      rw [Nat.mul_succ] at level
      omega
  · intro defined
    have low := bounded name defined
    rw [Nat.mul_succ]
    omega

theorem Schema.Visits.depth_le {schema part : Schema} {node place : Node}
    (visits : schema.Visits node part place) : place.depth ≤ node.depth := by
  rcases visits.here_or_deeper with ⟨rfl, -⟩ | deeper
  · exact le_rfl
  · exact le_of_lt deeper

theorem interprets_of_guarded (guarded : Guarded definitions) :
    ∃! meaning, Interprets definitions meaning := by
  have within := within_of_guarded guarded
  have interprets := interprets_of_within (fun node => definitions.length * (node.depth + 1)) within
    fun visits => Nat.mul_le_mul_left _ (Nat.succ_le_succ visits.depth_le)
  refine ⟨_, interprets, fun meaning fits => ?_⟩
  funext name node
  exact propext (fits.agree interprets (within name node))

namespace SchemaDocument

structure Unconditional (document : SchemaDocument) : Prop where
  root : ∀ part ∈ document.root.parts, part.conditional = none
  definitions : ∀ name schema, document.definitions.get? name = some schema →
    ∀ part ∈ schema.parts, part.conditional = none

/-- Chains of references on the way into the tree visit at most so many definitions. -/
def Follows (document : SchemaDocument) (budget : Nat) (node : Node) : Prop :=
  ∀ part place, document.root.Visits node part place → ∀ name ∈ part.reference,
    Within document.definitions budget name place

/-- With a budget for all chains of references, a check finds nothing in a tree that satisfies the
schema. Only where a schema chooses between branches, NaN must stay out. -/
theorem violations_eq_nil_of_follows {document : SchemaDocument} {meaning : Meaning}
    (interprets : Interprets document.definitions meaning) {node : Node}
    (comparable : document.Unconditional ∨ document.NoNaN ∧ node.NoNaN) {budget : Nat}
    (follows : document.Follows budget node) (satisfies : document.root.Satisfies meaning node) :
    document.root.violations (resolver document.definitions budget) node Path.root = [] := by
  rcases comparable with unconditional | ⟨numbers, clean⟩
  · have suits : ∀ schema : Schema, (∀ part ∈ schema.parts, part.conditional = none) →
        schema.Suits False fun _ => True := by
      refine fun schema never => ⟨False.elim, fun part member some => ?_⟩
      rw [never part member] at some
      cases some
    exact (root_verdict ⟨fun _ _ _ => trivial, fun _ _ _ => trivial⟩ interprets
      (fun name schema found => suits schema (unconditional.definitions name schema found))
      (suits _ unconditional.root) follows trivial).sound satisfies
  · have suits : ∀ schema : Schema, schema.NoNaN → schema.Suits True Node.NoNaN :=
      fun schema numbers => ⟨fun _ part member other fits bound listed =>
        ⟨numbers part member bound listed, number_of_noNaN fits⟩, fun _ _ _ => trivial⟩
    exact (root_verdict closed_noNaN interprets
      (fun name schema found => suits schema (numbers.definitions name schema found))
      (suits _ numbers.root) follows clean).sound satisfies

/-- Where every cycle of references leads into the children of a node, the definitions fix what
references mean, and a check with a budget for all chains of references finds nothing in a tree that
satisfies the schema. Such a budget grows with the depth of the tree; validation has one of 64. -/
theorem validate_eq_nil_of_guarded (document : SchemaDocument)
    (guarded : Guarded document.definitions) :
    (∃! meaning, Interprets document.definitions meaning) ∧
      ∀ meaning, Interprets document.definitions meaning →
        ∀ node : Node, document.Unconditional ∨ document.NoNaN ∧ node.NoNaN →
          document.root.Satisfies meaning node →
            (document.Follows 64 node → document.validate node = []) ∧
              ∀ budget, document.definitions.length * (node.depth + 1) ≤ budget →
                document.root.violations (resolver document.definitions budget) node
                  Path.root = [] := by
  refine ⟨interprets_of_guarded guarded, fun meaning interprets node comparable satisfies =>
    ⟨fun follows => ?_, fun budget enough => ?_⟩⟩
  · exact violations_eq_nil_of_follows interprets comparable follows satisfies
  · refine violations_eq_nil_of_follows interprets comparable ?_ satisfies
    intro part place visits name _
    have level := Nat.mul_le_mul_left document.definitions.length
      (Nat.succ_le_succ visits.depth_le)
    exact (within_of_guarded guarded name place).mono (level.trans enough)

/-- Trees of sequences in sequences: a definition whose items refer to it. -/
def ofSequences : SchemaDocument :=
  ⟨{ reference := some "n" }, [("n", { items := some { reference := some "n" } })]⟩

def sequencesNode : Node :=
  let refers : String × Node := ("$ref", .ofString "#/definitions/n")
  .mapping [refers, ("definitions", .mapping [("n", .mapping [("items", .mapping [refers])])])]

theorem ofNode_sequencesNode : ofNode sequencesNode = .ok ofSequences := by
  rfl

theorem guarded_ofSequences : Guarded ofSequences.definitions := by
  have nowhere : ∀ name other, ¬RefersHere ofSequences.definitions name other := by
    rintro name other ⟨schema, found, part, chain, mentioned⟩
    have member := Fields.mem_of_get? found
    cases List.mem_singleton.mp member
    rcases Relation.ReflTransGen.cases_head chain with rfl | ⟨inner, impossible, -⟩
    · cases mentioned
    · cases impossible
  intro name cycle
  rcases Relation.TransGen.head'_iff.mp cycle with ⟨other, refers, -⟩
  exact nowhere name other refers

theorem holds_default (node : Node) : ({} : Facets).Holds node := by
  constructor <;> simp

theorem satisfies_of_items {meaning : Meaning} {reference : Option String} {items : Option Schema}
    {node : Node} (means : ∀ name ∈ reference, meaning name node)
    (each : ∀ nodes ∈ node.items?, ∀ item ∈ nodes, ∀ inner ∈ items, inner.Satisfies meaning item) :
    Schema.Satisfies meaning { reference := reference, items := items } node := by
  refine Schema.satisfies_iff.mpr ⟨rfl, means, holds_default node, each, ?_, by simp, .inl rfl,
    by simp⟩
  simp [Schema.forEntry, Schema.Denies, Fields.get?, Additional.checked?, Additional.denies]

theorem satisfies_nested {meaning : Meaning}
    (interprets : Interprets ofSequences.definitions meaning) (levels : Nat) :
    ofSequences.root.Satisfies meaning (Outline.nested levels) := by
  have means : meaning "n" (Outline.nested levels) := by
    induction levels with
    | zero =>
      refine (interprets _ _).mpr ⟨_, rfl, satisfies_of_items (by simp) ?_⟩
      simp [Outline.nested, Node.items?]
    | succ levels ih =>
      refine (interprets _ _).mpr ⟨_, rfl, satisfies_of_items (by simp) ?_⟩
      simp only [Outline.nested, Node.items?, Option.mem_some, forall_eq', List.mem_singleton,
        forall_eq]
      exact satisfies_of_items (by simpa using ih) (by simp)
  exact satisfies_of_items (by simpa using means) (by simp)

theorem ownViolations_single (resolve : Resolver) (reference : Option String)
    (items : Option Schema) (node : Node) (path : Path) :
    Schema.ownViolations resolve { reference := reference, items := items } (.sequence [node])
      path = Schema.optionViolations resolve items node (path.index 0) := by
  have plain : ({} : Facets).complaints (.sequence [node]) = [] :=
    (Facets.passes_of_holds (holds_default _) path).complaints
  simp [Schema.ownViolations, Facets.wrongTypes?, plain, checkItems, Schema.allViolations,
    Schema.conditionalViolations]

theorem violations_nested (budget : Nat) (path : Path) : ∃ place,
    ofSequences.root.violations (resolver ofSequences.definitions budget) (Outline.nested budget)
      path = [⟨place, .referenceTooDeep "n"⟩] := by
  induction budget generalizing path with
  | zero => exact ⟨path, rfl⟩
  | succ budget ih =>
    rcases ih (path.index 0) with ⟨place, refused⟩
    refine ⟨place, ?_⟩
    let items : Schema := { items := some { reference := some "n" } }
    have outer : ofSequences.root.violations (resolver ofSequences.definitions (budget + 1))
        (.sequence [Outline.nested budget]) path =
          items.violations (resolver ofSequences.definitions budget)
              (.sequence [Outline.nested budget]) path ++
            ofSequences.root.ownViolations (resolver ofSequences.definitions (budget + 1))
              (.sequence [Outline.nested budget]) path := Schema.violations_eq ..
    have inner : items.violations (resolver ofSequences.definitions budget)
        (.sequence [Outline.nested budget]) path =
          items.ownViolations (resolver ofSequences.definitions budget)
            (.sequence [Outline.nested budget]) path := Schema.violations_eq ..
    have nothing : ofSequences.root.ownViolations (resolver ofSequences.definitions (budget + 1))
        (.sequence [Outline.nested budget]) path = [] := by
      refine (ownViolations_single _ (some "n") none _ path).trans ?_
      rw [Schema.optionViolations]
    rw [Outline.nested, outer, inner, nothing, ownViolations_single, Schema.optionViolations,
      List.append_nil]
    exact refused

theorem validate_eq_nil_of_guarded_nested : Guarded ofSequences.definitions ∧
    ofSequences.validate (Outline.nested 62) = [] := by
  rcases validate_eq_nil_of_guarded ofSequences guarded_ofSequences with
    ⟨⟨meaning, interprets, -⟩, valid⟩
  have unconditional : ofSequences.Unconditional := by
    refine ⟨by decide +kernel, fun name schema found => ?_⟩
    have member := Fields.mem_of_get? found
    cases List.mem_singleton.mp member
    decide +kernel
  have bound : ofSequences.definitions.length * ((Outline.nested 62).depth + 1) ≤ 64 := by
    rw [Outline.depth_nested]
    decide
  exact ⟨guarded_ofSequences, (valid meaning interprets (Outline.nested 62) (.inl unconditional)
    (satisfies_nested interprets 62)).2 64 bound⟩

/-- A tree that was read satisfies a schema of sequences in sequences, and validation finds a
violation in it. -/
theorem validate_nested : ofNode sequencesNode = .ok ofSequences ∧
    Guarded ofSequences.definitions ∧
      Outline.parse (Outline.emit (Outline.nested 64)) = .ok (Outline.nested 64) ∧
        (∃ meaning, Interprets ofSequences.definitions meaning ∧
          ofSequences.root.Satisfies meaning (Outline.nested 64)) ∧
            ∃ place, ofSequences.validate (Outline.nested 64) =
              [⟨place, .referenceTooDeep "n"⟩] := by
  rcases interprets_of_guarded guarded_ofSequences with ⟨meaning, interprets, -⟩
  refine ⟨ofNode_sequencesNode, guarded_ofSequences, ?_, ?_, violations_nested 64 Path.root⟩
  · apply (Outline.reads_emit (Outline.uniqueKeys_nested 64)).enough
    rw [Outline.depth_nested]
    decide
  · exact ⟨meaning, interprets, satisfies_nested interprets 64⟩

end SchemaDocument
end ParticleSim
