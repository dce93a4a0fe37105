import ParticleSim.Proofs.Schema.References
import ParticleSim.Schema.Scenario

namespace ParticleSim

theorem closed_noNaN : ClosedUnderParts Node.NoNaN :=
  ⟨fun all => Node.allItems_iff.mp all.2, fun all => Node.allFields_iff.mp all.2⟩

theorem number_of_noNaN {node : Node} (clean : node.NoNaN) :
    ∀ x ∈ node.number?, x.isNaN = false := by
  intro x number
  cases node with
  | scalar value =>
    cases value with
    | integer n =>
      cases number
      exact Binary64.isNaN_ofInt64 n
    | float y =>
      cases number
      exact clean
    | _ => cases number
  | _ => cases number

namespace ScenarioSchema

def rank : String → Nat
  | "force" => 2
  | "targets" => 1
  | "bounds" => 1
  | "body" => 1
  | _ => 0

theorem acyclic_definitions : Acyclic document.definitions :=
  acyclic_of_rank rank (by decide +kernel)

theorem bounds_root : ∀ part ∈ document.root.parts, part.facets.bounds = [] := by
  decide +kernel

theorem bounds_definitions : ∀ entry ∈ document.definitions, ∀ part ∈ entry.2.parts,
    part.facets.bounds = [] := by
  decide +kernel

end ScenarioSchema

/-- Validation finds nothing in exactly the trees that satisfy the schema. If no definition refers
to itself and there are few enough of them, they fix the meaning of all references. -/
theorem SchemaDocument.validate_eq_nil_iff (document : SchemaDocument)
    (acyclic : Acyclic document.definitions) (few : document.definitions.length ≤ 64)
    (numbers : document.NoNaN) :
    (∃! meaning, Interprets document.definitions meaning) ∧
      ∀ meaning, Interprets document.definitions meaning → ∀ node : Node, node.NoNaN →
        (document.validate node = [] ↔ document.root.Satisfies meaning node) := by
  have within := within_of_acyclic acyclic few
  constructor
  · refine ⟨_, interprets_meaningWithin within, fun meaning fits => ?_⟩
    funext name node
    exact propext (fits.unique (interprets_meaningWithin within) (within name) node)
  · intro meaning interprets node clean
    refine validate_of_within closed_noNaN interprets ?_ ?_ within clean
    · exact fun name schema found part member other fits bound listed =>
        ⟨numbers.definitions name schema found part member bound listed, number_of_noNaN fits⟩
    · exact fun part member other fits bound listed =>
        ⟨numbers.root part member bound listed, number_of_noNaN fits⟩

theorem scenario_validate_eq_nil_iff :
    (∃! meaning, Interprets ScenarioSchema.document.definitions meaning) ∧
      ∀ meaning, Interprets ScenarioSchema.document.definitions meaning →
        ∀ node : Node, node.NoNaN → (ScenarioSchema.document.validate node = [] ↔
          ScenarioSchema.document.root.Satisfies meaning node) := by
  refine SchemaDocument.validate_eq_nil_iff ScenarioSchema.document
    ScenarioSchema.acyclic_definitions (by decide) ⟨?_, ?_⟩
  · intro part member bound listed
    rw [ScenarioSchema.bounds_root part member] at listed
    cases listed
  · intro name schema found part member bound listed
    rw [ScenarioSchema.bounds_definitions _ (Fields.mem_of_get? found) part member] at listed
    cases listed

end ParticleSim
