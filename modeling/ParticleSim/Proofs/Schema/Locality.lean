import ParticleSim.Proofs.Schema.Origins
import ParticleSim.Proofs.Schema.Recursion
/-!
One bad node in a tree. Where no schema chooses between branches, what stands at a position shows
only in violations on the way to the position and below it: all others are found in the same order,
whatever stands there.
-/
namespace ParticleSim

/-- The trees are the same but for what stands at a position, which both of them have. -/
inductive Node.DifferAt : Path → Node → Node → Prop where
  | here (node other : Node) : DifferAt [] node other
  | entry {before after : Fields Node} {key : String} {rest : Path} {value other : Node}
    (first : key ∉ before.keys) (differ : DifferAt rest value other) :
    DifferAt (.key key :: rest) (.mapping (before ++ (key, value) :: after))
      (.mapping (before ++ (key, other) :: after))
  | item {before after : List Node} {rest : Path} {item other : Node}
    (differ : DifferAt rest item other) :
    DifferAt (.index before.length :: rest) (.sequence (before ++ item :: after))
      (.sequence (before ++ other :: after))

/-- The violations whose paths neither lead to a position nor on from it. -/
def apart (position : Path) (violations : List Violation) : List Violation :=
  violations.filter fun v => ¬v.path <+: position ∧ ¬position <+: v.path

section Apart

variable {position : Path} {violations others : List Violation}

theorem apart_append : apart position (violations ++ others) =
    apart position violations ++ apart position others :=
  List.filter_append ..

theorem apart_eq_nil (related : ∀ v ∈ violations, v.path <+: position ∨ position <+: v.path) :
    apart position violations = [] := by
  rw [apart, List.filter_eq_nil_iff]
  intro v member
  rw [decide_eq_true_eq, ← not_or, not_not]
  exact related v member

theorem apart_cons {v : Violation} (leads : v.path <+: position) :
    apart position (v :: violations) = apart position violations := by
  rw [← List.singleton_append, apart_append, apart_eq_nil (by simp [leads]), List.nil_append]

end Apart

/-- Trees that differ at a position have the same violations apart from it. -/
def Check.Local (check : Check) : Prop :=
  ∀ position node other, Node.DifferAt position node other → ∀ path,
    apart (path ++ position) (check node path) = apart (path ++ position) (check other path)

theorem Check.Sober.apart_eq_nil {check : Check} (sober : check.Sober) (node : Node)
    (path : Path) : apart path (check node path) = [] :=
  ParticleSim.apart_eq_nil fun v found => .inr (sober node path v found).isPrefix

theorem apart_checkFields {check : String → Check} {before after : Fields Node} {key : String}
    {value other : Node} {path position : Path}
    (same : apart position (check key value (path.key key)) =
      apart position (check key other (path.key key))) :
    apart position (checkFields check path (before ++ (key, value) :: after)) =
      apart position (checkFields check path (before ++ (key, other) :: after)) := by
  simp only [checkFields, List.flatMap_append, List.flatMap_cons, apart_append, same]

theorem apart_checkItems {check : Check} {before after : List Node} {item other : Node}
    {path position : Path} (same : apart position (check item (path.index before.length)) =
      apart position (check other (path.index before.length))) :
    apart position (checkItems check path (before ++ item :: after)) =
      apart position (checkItems check path (before ++ other :: after)) := by
  simp only [checkItems, List.zipIdx_append, List.zipIdx_cons, List.flatMap_append,
    List.flatMap_cons, apart_append, Nat.zero_add, same]

theorem Facets.missing_congr (facets : Facets) {fields others : Fields Node}
    (same : fields.keys = others.keys) (path : Path) :
    facets.missing fields path = facets.missing others path := by
  have contains : ∀ key, fields.contains key = others.contains key := by
    intro key
    rw [Bool.eq_iff_iff, Fields.contains_iff, Fields.contains_iff, same]
  simp only [missing, contains]

theorem Node.DifferAt.wrongTypes?_eq {position : Path} {node other : Node}
    (differ : DifferAt position node other) (inside : position ≠ []) (facets : Facets) :
    facets.wrongTypes? node = facets.wrongTypes? other := by
  have accepts : ∀ type : TypeName, type.accepts node = type.accepts other := by
    intro type
    cases differ with
    | here => exact absurd rfl inside
    | entry first differ => cases type <;> rfl
    | item differ => cases type <;> rfl
  simp only [Facets.wrongTypes?, accepts]

namespace Schema

/-- The schema and all schemas inside it do not choose between branches. -/
def Unconditional (schema : Schema) : Prop :=
  ∀ part ∈ schema.parts, part.conditional = none

variable {resolve : Resolver} {schema : Schema} {position path : Path} {node other : Node}

theorem apart_allViolations {schemas : List Schema}
    (each : ∀ inner ∈ schemas, apart position (inner.violations resolve node path) =
      apart position (inner.violations resolve other path)) :
    apart position (allViolations resolve schemas node path) =
      apart position (allViolations resolve schemas other path) := by
  induction schemas with
  | nil => simp [allViolations]
  | cons first rest ih =>
    rw [List.forall_mem_cons] at each
    rw [allViolations, allViolations, apart_append, apart_append, each.1, ih each.2]

theorem local_optionViolations {option : Option Schema}
    (each : ∀ inner ∈ option, Check.Local (inner.violations resolve)) :
    Check.Local (optionViolations resolve option) := by
  intro position node other differ path
  cases option with
  | none => simp [optionViolations]
  | some inner =>
    rw [optionViolations, optionViolations]
    exact each inner rfl position node other differ path

theorem local_entryViolations (key : String)
    (each : ∀ inner ∈ schema.forEntry key, Check.Local (inner.violations resolve)) :
    Check.Local (entryViolations resolve (additionalViolations resolve schema.additional)
      schema.properties key) := by
  intro position node other differ path
  rw [forEntry] at each
  rw [entryViolations_eq]
  cases property : Fields.get? key schema.properties with
  | some inner =>
    rw [property] at each
    exact each inner rfl position node other differ path
  | none =>
    rw [property] at each
    cases additional : schema.additional with
    | allowed => simp [additionalViolations]
    | denied => simp [additionalViolations]
    | checked inner =>
      rw [additional] at each
      simp only [additionalViolations]
      exact each inner rfl position node other differ path

theorem apart_childViolations
    (underneath : ∀ inner ∈ schema.underneath, Check.Local (inner.violations resolve))
    (differ : Node.DifferAt position node other) (inside : position ≠ []) :
    apart (path ++ position) (schema.childViolations resolve node path) =
      apart (path ++ position) (schema.childViolations resolve other path) := by
  cases differ with
  | here => exact absurd rfl inside
  | @entry before after key rest value other first differ =>
    have keys : Fields.keys (before ++ (key, value) :: after) =
        Fields.keys (before ++ (key, other) :: after) := by
      simp [Fields.keys]
    have entry := local_entryViolations key (fun inner asked =>
      underneath inner (mem_underneath_of_forEntry asked)) rest value other differ (path.key key)
    rw [Path.key, List.append_assoc, List.singleton_append] at entry
    rw [childViolations, childViolations, apart_append, apart_append,
      schema.facets.missing_congr keys, apart_checkFields entry]
  | @item before after rest item other differ =>
    have item := local_optionViolations (fun inner asked =>
      underneath inner (mem_underneath_of_items asked)) rest item other differ
        (path.index before.length)
    rw [Path.index, List.append_assoc, List.singleton_append] at item
    rw [childViolations, childViolations, apart_checkItems item]

theorem local_ownViolations (sober : Check.Sober (schema.ownViolations resolve))
    (alongside : ∀ inner ∈ schema.alongside, Check.Local (inner.violations resolve))
    (underneath : ∀ inner ∈ schema.underneath, Check.Local (inner.violations resolve))
    (unconditional : schema.conditional = none) : Check.Local (schema.ownViolations resolve) := by
  intro position node other differ path
  by_cases here : position = []
  · rw [here, List.append_nil, sober.apart_eq_nil, sober.apart_eq_nil]
  have above : path <+: path ++ position := List.prefix_append path position
  have single : ∀ complaint, apart (path ++ position) [⟨path, complaint⟩] = [] :=
    fun complaint => apart_eq_nil (by simp [above])
  rw [ownViolations_eq, ownViolations_eq, differ.wrongTypes?_eq here]
  cases schema.facets.wrongTypes? other with
  | some types => exact (single _).trans (single _).symm
  | none =>
    have facets : ∀ complaints : Complaints,
        apart (path ++ position) (complaints.map fun complaint => ⟨path, complaint⟩) = [] :=
      fun complaints => apart_eq_nil (by simp [above])
    have alternatives : ∀ passes : Bool,
        apart (path ++ position) (if passes then [] else [⟨path, .noAlternative⟩]) = [] := by
      intro passes
      cases passes with
      | true => rfl
      | false => exact single _
    have all := apart_allViolations fun inner member =>
      alongside inner (mem_alongside_of_allOf member) position node other differ path
    simp only [apart_append, facets, alternatives, unconditional, conditionalViolations,
      apart_childViolations underneath differ here, all]

/-- A schema without branches is local if the checks of its references are. -/
theorem local_violations (sober : ∀ name check, resolve name = .found check → check.Sober)
    (resolved : ∀ name check, resolve name = .found check → check.Local) (schema : Schema)
    (unconditional : schema.Unconditional) : Check.Local (schema.violations resolve) := by
  induction schema using Schema.induction with
  | step schema alongside underneath =>
    have own : Check.Local (schema.ownViolations resolve) := by
      refine local_ownViolations ?_ ?_ ?_ ?_
      · exact sober_ownViolations (fun inner _ => sober_violations sober inner)
          fun inner _ => sober_violations sober inner
      · exact fun inner member => alongside inner member fun part inside =>
          unconditional part (mem_parts_of_alongside member inside)
      · exact fun inner member => underneath inner member fun part inside =>
          unconditional part (mem_parts_of_underneath member inside)
      · exact unconditional schema (mem_parts_self schema)
    intro position node other differ path
    have above : path <+: path ++ position := List.prefix_append path position
    have same := own position node other differ path
    rw [violations_eq, violations_eq]
    split
    · rfl
    · cases schema.reference with
      | none => exact same
      | some name =>
        dsimp only
        cases resolution : resolve name with
        | tooDeep => rfl
        | unknown =>
          calc apart (path ++ position)
                (⟨path, .unresolvedReference name⟩ :: schema.ownViolations resolve node path)
              = apart (path ++ position) (schema.ownViolations resolve node path) :=
                apart_cons above
            _ = apart (path ++ position) (schema.ownViolations resolve other path) := same
            _ = _ := (apart_cons above).symm
        | found check =>
          dsimp only
          rw [apart_append, apart_append, same,
            resolved name check resolution position node other differ path]

end Schema

namespace SchemaDocument

theorem local_resolver {definitions : Fields Schema}
    (unconditional : ∀ name schema, definitions.get? name = some schema → schema.Unconditional)
    (budget : Nat) (name : String) (check : Check)
    (found : resolver definitions budget name = .found check) : check.Local :=
  resolver_induction (fun budget resolved name schema defined =>
    Schema.local_violations (sober_resolver definitions budget) resolved schema
      (unconditional name schema defined)) budget name check found

/-- One bad node neither hides nor adds violations elsewhere: if no schema chooses between branches,
two trees that differ at a position have the same violations apart from it, in the same order. -/
theorem apart_validate (document : SchemaDocument) (unconditional : document.Unconditional)
    (position : Path) (node other : Node) (differ : Node.DifferAt position node other) :
    apart position (document.validate node) = apart position (document.validate other) :=
  Schema.local_violations (sober_resolver _ _) (local_resolver unconditional.definitions _)
    document.root unconditional.root position node other differ Path.root

def bothNamed : Node :=
  .mapping [("bodies", .sequence
    [.mapping [("name", .ofString "a")], .mapping [("name", .ofString "b")]])]

theorem apart_validate_oneNamed :
    ofBodies.Unconditional ∧ Node.DifferAt [.key "bodies", .index 0] oneNamed bothNamed ∧
      apart [.key "bodies", .index 0] (ofBodies.validate oneNamed) =
        [⟨[.key "bodies", .index 1, .key "mass"], .missing⟩,
          ⟨[.key "bodies", .index 1, .key "name"], .nothingAllowed⟩] ∧
      apart [.key "bodies", .index 0] (ofBodies.validate oneNamed) =
        apart [.key "bodies", .index 0] (ofBodies.validate bothNamed) := by
  have unconditional : ofBodies.Unconditional := by
    refine ⟨by decide +kernel, fun name schema found => ?_⟩
    have member := Fields.mem_of_get? found
    cases List.mem_singleton.mp member
    decide +kernel
  have differ : Node.DifferAt [.key "bodies", .index 0] oneNamed bothNamed :=
    @Node.DifferAt.entry [] [] _ _ _ _ List.not_mem_nil (@Node.DifferAt.item [] _ _ _ _ (.here _ _))
  exact ⟨unconditional, differ, rfl, apart_validate ofBodies unconditional _ _ _ differ⟩

end SchemaDocument
end ParticleSim
