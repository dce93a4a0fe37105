import ParticleSim.Proofs.Schema.Facets
import ParticleSim.Proofs.Schema.Visits
/-!
A check without violations and a tree that satisfies its schema are the same. The induction over the
schema takes references as given: where they are resolved to what they mean, so is the schema.
-/
namespace ParticleSim

/-- A check that finds nothing and what it checks for: what holds is found clean and, where the
check is exact, what is found clean holds. -/
structure Verdict (exact clean holds : Prop) : Prop where
  sound : holds → clean
  complete : exact → clean → holds

namespace Verdict

variable {exact clean clean' holds holds' : Prop}

theorem of_iff (same : clean ↔ holds) : Verdict exact clean holds :=
  ⟨same.mpr, fun _ => same.mp⟩

theorem iff (verdict : Verdict exact clean holds) (exactly : exact) : clean ↔ holds :=
  ⟨verdict.complete exactly, verdict.sound⟩

theorem and (left : Verdict exact clean holds) (right : Verdict exact clean' holds') :
    Verdict exact (clean ∧ clean') (holds ∧ holds') :=
  ⟨And.imp left.sound right.sound,
    fun exactly => And.imp (left.complete exactly) (right.complete exactly)⟩

theorem or (left : Verdict exact clean holds) (right : Verdict exact clean' holds') :
    Verdict exact (clean ∨ clean') (holds ∨ holds') :=
  ⟨Or.imp left.sound right.sound,
    fun exactly => Or.imp (left.complete exactly) (right.complete exactly)⟩

theorem all {α : Sort*} {clean holds : α → Prop} (each : ∀ a, Verdict exact (clean a) (holds a)) :
    Verdict exact (∀ a, clean a) (∀ a, holds a) :=
  ⟨fun all a => (each a).sound (all a), fun exactly all a => (each a).complete exactly (all a)⟩

theorem exists_mem {α : Type} {items : List α} {clean holds : α → Prop}
    (each : ∀ a ∈ items, Verdict exact (clean a) (holds a)) :
    Verdict exact (∃ a ∈ items, clean a) (∃ a ∈ items, holds a) :=
  ⟨fun ⟨a, member, good⟩ => ⟨a, member, (each a member).sound good⟩,
    fun exactly ⟨a, member, good⟩ => ⟨a, member, (each a member).complete exactly good⟩⟩

end Verdict

theorem checkItems_eq_nil_iff {check : Check} {items : List Node} {path : Path} :
    checkItems check path items = [] ↔
      ∀ (i : Nat) (small : i < items.length), check items[i] (path.index i) = [] := by
  rw [checkItems, List.flatMap_eq_nil_iff]
  constructor
  · intro clean i small
    exact clean (items[i], i)
      (List.mk_mem_zipIdx_iff_getElem?.mpr (List.getElem?_eq_getElem small))
  · rintro clean ⟨item, i⟩ indexed
    rcases List.getElem?_eq_some_iff.mp (List.mk_mem_zipIdx_iff_getElem?.mp indexed) with
      ⟨small, rfl⟩
    exact clean i small

theorem checkFields_eq_nil_iff {check : String → Check} {fields : Fields Node} {path : Path} :
    checkFields check path fields = [] ↔
      ∀ entry ∈ fields, check entry.1 entry.2 (path.key entry.1) = [] :=
  List.flatMap_eq_nil_iff

namespace Schema

def ownViolations (resolve : Resolver) (schema : Schema) (node : Node) (path : Path) :
    List Violation :=
  match schema.facets.wrongTypes? node with
  | some types => [⟨path, .wrongType types node.typeName⟩]
  | none =>
    (schema.facets.complaints node).map (⟨path, ·⟩) ++
    (match node with
      | .scalar _ => []
      | .sequence nodes => checkItems (optionViolations resolve schema.items) path nodes
      | .mapping fields =>
        schema.facets.missing fields path ++
        checkFields (entryViolations resolve (additionalViolations resolve schema.additional)
          schema.properties) path fields) ++
    allViolations resolve schema.allOf node path ++
    (if schema.anyOf.isEmpty || anyPasses resolve schema.anyOf node path then []
      else [⟨path, .noAlternative⟩]) ++
    conditionalViolations resolve schema.conditional node path

theorem violations_eq (resolve : Resolver) (schema : Schema) (node : Node) (path : Path) :
    schema.violations resolve node path =
      if schema.never then [⟨path, .nothingAllowed⟩]
      else
        match schema.reference with
        | none => schema.ownViolations resolve node path
        | some name =>
          match resolve name with
          | .tooDeep => [⟨path, .referenceTooDeep name⟩]
          | .unknown =>
            ⟨path, .unresolvedReference name⟩ :: schema.ownViolations resolve node path
          | .found check => check node path ++ schema.ownViolations resolve node path := by
  cases schema
  rw [violations.eq_def]
  rfl

section Clean

variable {resolve : Resolver} {schema : Schema} {node : Node} {path : Path}

theorem entryViolations_eq (resolve : Resolver) (additional : String → Check)
    (properties : List (String × Schema)) (key : String) :
    entryViolations resolve additional properties key =
      (match Fields.get? key properties with
        | some schema => schema.violations resolve
        | none => additional key) := by
  funext value path
  induction properties with
  | nil => rw [entryViolations, Fields.get?]
  | cons first rest ih =>
    rcases first with ⟨name, schema⟩
    rw [entryViolations, Fields.get?]
    split
    · rfl
    · exact ih

theorem optionViolations_eq_nil_iff (option : Option Schema) :
    optionViolations resolve option node path = [] ↔
      ∀ inner ∈ option, inner.violations resolve node path = [] := by
  cases option <;> simp [optionViolations]

theorem entryViolations_eq_nil_iff {key : String} :
    entryViolations resolve (additionalViolations resolve schema.additional) schema.properties key
      node path = [] ↔
        (∀ inner ∈ schema.forEntry key, inner.violations resolve node path = []) ∧
          ¬schema.Denies key := by
  rw [entryViolations_eq, forEntry, Denies]
  cases Fields.get? key schema.properties with
  | some property => simp
  | none =>
    cases schema.additional <;>
      simp [additionalViolations, Additional.checked?, Additional.denies]

theorem allViolations_eq_nil_iff {schemas : List Schema} :
    allViolations resolve schemas node path = [] ↔
      ∀ inner ∈ schemas, inner.violations resolve node path = [] := by
  induction schemas with
  | nil => simp [allViolations]
  | cons first rest ih => rw [allViolations, List.append_eq_nil_iff, ih, List.forall_mem_cons]

theorem anyPasses_iff {schemas : List Schema} : anyPasses resolve schemas node path = true ↔
    ∃ inner ∈ schemas, inner.violations resolve node path = [] := by
  induction schemas with
  | nil => simp [anyPasses]
  | cons first rest ih => simp [anyPasses, ih]

theorem conditionalViolations_eq_nil_iff {conditional : Option (Conditional Schema)} :
    conditionalViolations resolve conditional node path = [] ↔ ∀ choice ∈ conditional,
      (choice.condition.violations resolve node path = [] →
        ∀ inner ∈ choice.consequent, inner.violations resolve node path = []) ∧
      (¬choice.condition.violations resolve node path = [] →
        ∀ inner ∈ choice.alternative, inner.violations resolve node path = []) := by
  rcases conditional with _ | ⟨condition, consequent, alternative⟩
  · simp [conditionalViolations]
  · rw [conditionalViolations]
    simp only [List.isEmpty_iff, Option.mem_some, forall_eq']
    split
    · next holds => simp [holds, optionViolations_eq_nil_iff]
    · next fails => simp [fails, optionViolations_eq_nil_iff]

theorem ownViolations_eq_nil_iff : schema.ownViolations resolve node path = [] ↔
    schema.facets.Passes node path ∧
      (∀ nodes ∈ node.items?, checkItems (optionViolations resolve schema.items) path nodes = []) ∧
      (∀ fields ∈ node.fields?, checkFields (entryViolations resolve
        (additionalViolations resolve schema.additional) schema.properties) path fields = []) ∧
      allViolations resolve schema.allOf node path = [] ∧
      (schema.anyOf = [] ∨ anyPasses resolve schema.anyOf node path = true) ∧
      conditionalViolations resolve schema.conditional node path = [] := by
  have alternatives : (if schema.anyOf.isEmpty || anyPasses resolve schema.anyOf node path then []
      else [(⟨path, .noAlternative⟩ : Violation)]) = [] ↔
        schema.anyOf = [] ∨ anyPasses resolve schema.anyOf node path = true := by
    rw [← List.isEmpty_iff (l := schema.anyOf), ← Bool.or_eq_true]
    split
    · next holds => simp [holds]
    · next fails => simp [fails]
  rw [ownViolations.eq_def]
  cases types : schema.facets.wrongTypes? node with
  | some wrong =>
    have fails : ¬schema.facets.Passes node path := by
      intro passes
      rw [passes.types] at types
      cases types
    simp [fails]
  | none =>
    simp only [List.append_eq_nil_iff, List.map_eq_nil_iff, alternatives]
    have passes : schema.facets.Passes node path ↔ schema.facets.complaints node = [] ∧
        ∀ fields ∈ node.fields?, schema.facets.missing fields path = [] :=
      ⟨fun passes => ⟨passes.complaints, passes.missing⟩, fun clean => ⟨types, clean.1, clean.2⟩⟩
    rw [passes]
    cases node <;> simp [Node.fields?, Node.items?, and_assoc]

theorem violations_eq_nil_iff_inner : schema.violations resolve node path = [] ↔
    schema.never = false ∧
      (∀ name ∈ schema.reference, ∃ check, resolve name = .found check ∧ check node path = []) ∧
      schema.facets.Passes node path ∧
      (∀ nodes ∈ node.items?, ∀ (i : Nat) (small : i < nodes.length), ∀ inner ∈ schema.items,
        inner.violations resolve nodes[i] (path.index i) = []) ∧
      (∀ fields ∈ node.fields?, ∀ entry ∈ fields,
        (∀ inner ∈ schema.forEntry entry.1,
          inner.violations resolve entry.2 (path.key entry.1) = []) ∧ ¬schema.Denies entry.1) ∧
      (∀ inner ∈ schema.allOf, inner.violations resolve node path = []) ∧
      (schema.anyOf = [] ∨ ∃ inner ∈ schema.anyOf, inner.violations resolve node path = []) ∧
      ∀ choice ∈ schema.conditional,
        (choice.condition.violations resolve node path = [] →
          ∀ inner ∈ choice.consequent, inner.violations resolve node path = []) ∧
        (¬choice.condition.violations resolve node path = [] →
          ∀ inner ∈ choice.alternative, inner.violations resolve node path = []) := by
  simp only [← optionViolations_eq_nil_iff schema.items, ← checkItems_eq_nil_iff,
    ← entryViolations_eq_nil_iff, ← checkFields_eq_nil_iff, ← allViolations_eq_nil_iff,
    ← anyPasses_iff, ← conditionalViolations_eq_nil_iff]
  rw [← ownViolations_eq_nil_iff, violations_eq]
  cases schema.never with
  | true => simp
  | false =>
    rw [if_neg Bool.false_ne_true]
    cases schema.reference with
    | none => simp
    | some name => cases resolution : resolve name <;> simp [resolution]

end Clean

/-- At the node the reference is resolved to what it means. Where the check is exact, the numbers
compare with the bounds; a condition that chooses a branch needs that. -/
structure DecidedAt (exact : Prop) (resolve : Resolver) (meaning : Meaning) (schema : Schema)
    (node : Node) : Prop where
  numbers : exact → schema.facets.Comparable node
  choice : schema.conditional.isSome → exact
  reference : ∀ name ∈ schema.reference, ∀ path, Verdict exact
    (∃ check, resolve name = .found check ∧ check node path = []) (meaning name node)

/-- Where references are resolved to what they mean, wherever the schema and the schemas inside it
are applied, a check finds nothing in trees that satisfy the schema and, where it is exact, in no
others. -/
theorem verdict {exact : Prop} {resolve : Resolver} {meaning : Meaning} (schema : Schema)
    {node : Node} (decided : ∀ part place, schema.Visits node part place →
      part.DecidedAt exact resolve meaning place) (path : Path) :
    Verdict exact (schema.violations resolve node path = []) (schema.Satisfies meaning node) := by
  induction schema using Schema.induction generalizing node path with
  | step schema alongside underneath =>
    have here := decided schema node (.here schema node)
    have same : ∀ inner ∈ schema.alongside, Verdict exact
        (inner.violations resolve node path = []) (inner.Satisfies meaning node) :=
      fun inner member => alongside inner member
        (fun part place visits => decided part place (.alongside member visits)) path
    rw [violations_eq_nil_iff_inner, satisfies_iff]
    refine .and (.of_iff Iff.rfl) (.and ?_ (.and ?_ (.and ?_ (.and ?_ (.and ?_ (.and ?_ ?_))))))
    · exact .all fun name => .all fun mentioned => here.reference name mentioned path
    · exact ⟨fun holds => Facets.passes_of_holds holds path,
        fun exactly => (Facets.passes_iff_holds (here.numbers exactly) path).mp⟩
    · refine .all fun nodes => .all fun sequence => ?_
      rw [List.forall_mem_iff_forall_getElem]
      exact .all fun i => .all fun small => .all fun inner => .all fun asked =>
        underneath inner (mem_underneath_of_items asked) (fun part place visits =>
          decided part place (.item sequence (List.getElem_mem small) asked visits)) _
    · exact .all fun fields => .all fun mapping => .all fun entry => .all fun member =>
        .and (.all fun inner => .all fun asked => underneath inner
          (mem_underneath_of_forEntry asked) (fun part place visits =>
            decided part place (.entry mapping member asked visits)) _) (.of_iff Iff.rfl)
    · exact .all fun inner => .all fun member => same inner (mem_alongside_of_allOf member)
    · exact .or (.of_iff Iff.rfl) (.exists_mem fun inner member =>
        same inner (mem_alongside_of_anyOf member))
    · refine .all fun choice => .all fun asked => ?_
      have exactly : exact := here.choice (by rw [Option.mem_def.mp asked]; rfl)
      have each : ∀ inner ∈ choice.all, (inner.violations resolve node path = [] ↔
          inner.Satisfies meaning node) :=
        fun inner member => (same inner (mem_alongside_of_choice asked member)).iff exactly
      simp only [Conditional.all, List.forall_mem_cons, List.forall_mem_append,
        Option.mem_toList] at each
      refine .of_iff ?_
      rw [each.1]
      exact and_congr (imp_congr Iff.rfl (forall₂_congr each.2.1))
        (imp_congr Iff.rfl (forall₂_congr each.2.2))

end Schema

/-! What a reference is resolved to while the budget lasts. -/

namespace SchemaDocument

variable {definitions : Fields Schema} {name : String} {target : Schema}

theorem resolver_of_undefined (undefined : definitions.get? name = none) (budget : Nat) :
    resolver definitions budget name = .unknown := by
  cases budget with
  | zero => rw [resolver, Fields.contains, undefined]; rfl
  | succ budget => rw [resolver, undefined]

theorem resolver_zero (defined : definitions.get? name = some target) :
    resolver definitions 0 name = .tooDeep := by
  rw [resolver, Fields.contains, defined]
  rfl

theorem resolver_succ (defined : definitions.get? name = some target) (budget : Nat) :
    resolver definitions (budget + 1) name =
      .found (target.violations (resolver definitions budget)) := by
  rw [resolver, defined]

end SchemaDocument
end ParticleSim
