import ParticleSim.Proofs.Schema.Origins
import ParticleSim.Schema.Compile
/-!
The check as a recursion that calls itself for the schemas inside a schema and for definitions.
Only calls for definitions are counted, yet calls nest no deeper than the schemas alone allow,
whatever the tree. A circle of references is left by force, so a violation stays behind.
-/
namespace ParticleSim

abbrev Attempt := Node → Path → Option (List Violation)

theorem mapM_eq_some {α β : Type} {f : α → Option β} {g : α → β} {items : List α}
    (each : ∀ item ∈ items, f item = some (g item)) : items.mapM f = some (items.map g) := by
  induction items with
  | nil => rfl
  | cons item rest ih =>
    rcases List.forall_mem_cons.mp each with ⟨here, later⟩
    rw [List.mapM_cons, here, ih later]
    rfl

theorem anyM_eq_some {α : Type} {f : α → Option Bool} {g : α → Bool} {items : List α}
    (each : ∀ item ∈ items, f item = some (g item)) : items.anyM f = some (items.any g) := by
  induction items with
  | nil => rfl
  | cons item rest ih =>
    rcases List.forall_mem_cons.mp each with ⟨here, later⟩
    rw [List.anyM, here, List.any_cons]
    cases g item with
    | true => rfl
    | false => exact ih later

namespace Schema

section Attempts

variable (attempt : Schema → Attempt) (schema : Schema)

def attemptOption : Option Schema → Attempt
  | none, _, _ => return []
  | some inner, node, path => attempt inner node path

def attemptEntry (key : String) : Attempt := fun node path =>
  match Fields.get? key schema.properties, schema.additional with
  | some property, _ => attempt property node path
  | none, .allowed => return []
  | none, .denied => return [⟨path, .unknownProperty key⟩]
  | none, .checked extra => attempt extra node path

def attemptChildren : Attempt
  | .scalar _, _ => return []
  | .sequence items, path => do
    let found ← items.zipIdx.mapM fun (item, i) =>
      attemptOption attempt schema.items item (path.index i)
    return found.flatten
  | .mapping fields, path => do
    let found ← fields.mapM fun (key, value) =>
      attemptEntry attempt schema key value (path.key key)
    return schema.facets.missing fields path ++ found.flatten

def attemptChoice : Attempt := fun node path =>
  match schema.conditional with
  | none => return []
  | some choice => do
    let found ← attempt choice.condition node path
    attemptOption attempt (if found.isEmpty then choice.consequent else choice.alternative)
      node path

/-- Everything but the reference. Of the alternatives, those behind the first that passes are not
tried. -/
def attemptOwn : Attempt := fun node path =>
  match schema.facets.wrongTypes? node with
  | some types => return [⟨path, .wrongType types node.typeName⟩]
  | none => do
    let children ← attemptChildren attempt schema node path
    let all ← schema.allOf.mapM fun inner => attempt inner node path
    let passes ← schema.anyOf.anyM fun inner => List.isEmpty <$> attempt inner node path
    let chosen ← attemptChoice attempt schema node path
    return (schema.facets.complaints node).map (⟨path, ·⟩) ++ children ++ all.flatten ++
      (if schema.anyOf.isEmpty || passes then [] else [⟨path, .noAlternative⟩]) ++ chosen

end Attempts

section Inside

def inside (schema : Schema) : List Schema :=
  schema.alongside ++ schema.underneath

theorem sizeOf_inside {schema inner : Schema} (member : inner ∈ schema.inside) :
    sizeOf inner < sizeOf schema :=
  (List.mem_append.mp member).elim sizeOf_alongside sizeOf_underneath

theorem listParts_eq (schemas : List Schema) : listParts schemas = schemas.flatMap parts := by
  induction schemas with
  | nil => rw [listParts, List.flatMap_nil]
  | cons first rest ih => rw [listParts, ih, List.flatMap_cons]

theorem entryParts_eq (properties : List (String × Schema)) :
    entryParts properties = (properties.map (·.2)).flatMap parts := by
  induction properties with
  | nil => rw [entryParts, List.map_nil, List.flatMap_nil]
  | cons first rest ih => rw [entryParts, ih, List.map_cons, List.flatMap_cons]

theorem optionParts_eq (option : Option Schema) :
    optionParts option = option.toList.flatMap parts := by
  cases option <;> simp [optionParts]

theorem additionalParts_eq (additional : Additional Schema) :
    additionalParts additional = additional.checked?.toList.flatMap parts := by
  cases additional <;> simp [additionalParts, Additional.checked?]

theorem conditionalParts_eq (conditional : Option (Conditional Schema)) :
    conditionalParts conditional =
      ((conditional.map Conditional.all).getD []).flatMap parts := by
  cases conditional <;> simp [conditionalParts, Conditional.all, optionParts_eq]

theorem mem_parts_iff {schema part : Schema} :
    part ∈ schema.parts ↔ part = schema ∨ ∃ inner ∈ schema.inside, part ∈ inner.parts := by
  cases schema
  rw [parts, List.mem_cons, inside, alongside, underneath, ← List.mem_flatMap, listParts_eq,
    listParts_eq, entryParts_eq, optionParts_eq, additionalParts_eq, conditionalParts_eq]
  simp only [List.flatMap_append, List.mem_append]
  tauto

end Inside

section Answers

variable {resolve : Resolver} {schema : Schema} {attempt : Schema → Attempt} {node : Node}
  {path : Path}

theorem allViolations_eq_flatten (schemas : List Schema) :
    allViolations resolve schemas node path =
      (schemas.map fun inner => inner.violations resolve node path).flatten := by
  induction schemas with
  | nil => rw [allViolations, List.map_nil, List.flatten_nil]
  | cons first rest ih => rw [allViolations, ih, List.map_cons, List.flatten_cons]

theorem anyPasses_eq_any (schemas : List Schema) :
    anyPasses resolve schemas node path =
      schemas.any fun inner => (inner.violations resolve node path).isEmpty := by
  induction schemas with
  | nil => rw [anyPasses, List.any_nil]
  | cons first rest ih => rw [anyPasses, ih, List.any_cons]

def Answers (resolve : Resolver) (attempt : Schema → Attempt) (schema : Schema) : Prop :=
  ∀ node path, attempt schema node path = some (schema.violations resolve node path)

theorem attemptOption_eq {option : Option Schema}
    (each : ∀ inner ∈ option, Answers resolve attempt inner) (node : Node) (path : Path) :
    attemptOption attempt option node path =
      some (optionViolations resolve option node path) := by
  cases option with
  | none => simp [attemptOption, optionViolations]
  | some inner => simpa [attemptOption, optionViolations] using each inner rfl node path

theorem attemptChoice_eq (alongside : ∀ inner ∈ schema.alongside, Answers resolve attempt inner)
    (node : Node) (path : Path) : attemptChoice attempt schema node path =
      some (conditionalViolations resolve schema.conditional node path) := by
  rw [attemptChoice]
  cases asked : schema.conditional with
  | none => simp [conditionalViolations]
  | some choice =>
    have answers : ∀ inner ∈ choice.all, Answers resolve attempt inner :=
      fun inner member => alongside inner (mem_alongside_of_choice asked member)
    simp only [Conditional.all, List.forall_mem_cons, List.forall_mem_append,
      Option.mem_toList] at answers
    rcases answers with ⟨condition, consequent, alternative⟩
    dsimp only
    rw [condition node path, Option.bind_eq_bind, Option.bind_some, conditionalViolations]
    split
    · exact attemptOption_eq consequent node path
    · exact attemptOption_eq alternative node path

section Underneath

variable (underneath : ∀ inner ∈ schema.underneath, Answers resolve attempt inner)
include underneath

theorem attemptEntry_eq (key : String) (node : Node) (path : Path) :
    attemptEntry attempt schema key node path =
      some (entryViolations resolve (additionalViolations resolve schema.additional)
        schema.properties key node path) := by
  have answers : ∀ inner ∈ schema.forEntry key, Answers resolve attempt inner :=
    fun inner asked => underneath inner (mem_underneath_of_forEntry asked)
  rw [forEntry] at answers
  rw [attemptEntry, entryViolations_eq]
  cases named : Fields.get? key schema.properties with
  | some property =>
    rw [named, Option.some_or] at answers
    exact answers property rfl node path
  | none =>
    rw [named, Option.none_or] at answers
    cases other : schema.additional with
    | allowed => simp [additionalViolations]
    | denied => simp [additionalViolations]
    | checked extra =>
      rw [other] at answers
      simpa [additionalViolations] using answers extra rfl node path

theorem attemptChildren_eq (node : Node) (path : Path) :
    attemptChildren attempt schema node path =
      some (schema.childViolations resolve node path) := by
  cases node with
  | scalar value => rfl
  | sequence nodes =>
    have items : ∀ inner ∈ schema.items, Answers resolve attempt inner :=
      fun inner asked => underneath inner (mem_underneath_of_items asked)
    rw [attemptChildren, childViolations, checkItems,
      mapM_eq_some fun entry _ => attemptOption_eq items entry.1 (path.index entry.2)]
    rfl
  | mapping fields =>
    rw [attemptChildren, childViolations, checkFields,
      mapM_eq_some fun entry _ => attemptEntry_eq underneath entry.1 entry.2 (path.key entry.1)]
    rfl

end Underneath

theorem attemptOwn_eq (inside : ∀ inner ∈ schema.inside, Answers resolve attempt inner)
    (node : Node) (path : Path) :
    attemptOwn attempt schema node path = some (schema.ownViolations resolve node path) := by
  rcases List.forall_mem_append.mp inside with ⟨alongside, underneath⟩
  rw [attemptOwn, ownViolations_eq]
  cases schema.facets.wrongTypes? node with
  | some types => rfl
  | none =>
    have all := fun inner member => alongside inner (mem_alongside_of_allOf member) node path
    have any : ∀ inner ∈ schema.anyOf, List.isEmpty <$> attempt inner node path =
        some (inner.violations resolve node path).isEmpty := by
      intro inner member
      rw [alongside inner (mem_alongside_of_anyOf member) node path]
      rfl
    dsimp only
    rw [attemptChildren_eq underneath, mapM_eq_some all, anyM_eq_some any,
      attemptChoice_eq alongside, allViolations_eq_flatten, anyPasses_eq_any]
    rfl

end Answers

end Schema

namespace SchemaDocument

abbrev Stray := String → Path → Option (List Violation)

def reportStray : Stray := fun name path =>
  some [⟨path, .unresolvedReference name⟩]

section Attempts

variable (definitions : Fields Schema) (stray : Stray)

def attemptOnce (attempt : Schema → Nat → Attempt) (schema : Schema) (count : Nat) : Attempt :=
  fun node path =>
    if schema.never then return [⟨path, .nothingAllowed⟩]
    else
      let own := Schema.attemptOwn (attempt · count) schema node path
      match schema.reference with
      | none => own
      | some name =>
        match definitions.get? name with
        | none => return (← stray name path) ++ (← own)
        | some target =>
          if maxReferences ≤ count then return [⟨path, .referenceTooDeep name⟩]
          else return (← attempt target (count + 1) node path) ++ (← own)

/-- The check with room for so many calls inside each other, given up if they nest deeper. -/
def attemptWithin : Nat → Schema → Nat → Attempt
  | 0 => fun _ _ _ _ => none
  | room + 1 => attemptOnce definitions stray (attemptWithin room)

end Attempts

theorem sizeOf_definition {definitions : Fields Schema} {name : String} {target : Schema}
    (defined : definitions.get? name = some target) : sizeOf target < sizeOf definitions := by
  have small := List.sizeOf_lt_of_mem (Fields.mem_of_get? defined)
  rw [Prod.mk.sizeOf_spec] at small
  omega

section Bound

variable {definitions : Fields Schema} {stray : Stray}

def Tame (definitions : Fields Schema) (stray : Stray) (schema : Schema) : Prop :=
  ∀ part ∈ schema.parts, ∀ name ∈ part.reference, definitions.get? name = none →
    stray name = reportStray name

theorem Tame.inner {schema inner : Schema} (tame : Tame definitions stray schema)
    (member : inner ∈ schema.inside) : Tame definitions stray inner :=
  fun part within => tame part (Schema.mem_parts_iff.mpr (.inr ⟨inner, member, within⟩))

/-- Calls nest at most so deep below one with the schema: each reference may lead to a definition,
and there are schemas inside schemas. -/
noncomputable def rank (definitions : Fields Schema) (schema : Schema) (count : Nat) : Nat :=
  (maxReferences - count) * sizeOf definitions + sizeOf schema

theorem rank_inner (definitions : Fields Schema) {schema inner : Schema}
    (member : inner ∈ schema.inside) (count : Nat) :
    rank definitions inner count < rank definitions schema count :=
  Nat.add_lt_add_left (Schema.sizeOf_inside member) _

theorem rank_definition {name : String} {schema target : Schema} {count : Nat}
    (defined : definitions.get? name = some target) (few : count < maxReferences) :
    rank definitions target (count + 1) < rank definitions schema count := by
  have small := sizeOf_definition defined
  have left : maxReferences - count = maxReferences - (count + 1) + 1 := by omega
  rw [rank, rank, left, Nat.succ_mul]
  omega

/-- With room for as many calls as the rank of the schema, the check is not given up. -/
theorem attemptWithin_eq
    (tame : ∀ name target, definitions.get? name = some target → Tame definitions stray target)
    {room : Nat} {schema : Schema} (tameHere : Tame definitions stray schema) {count : Nat}
    (enough : rank definitions schema count < room) (node : Node) (path : Path) :
    attemptWithin definitions stray room schema count node path =
      some (schema.violations (resolver definitions (maxReferences - count)) node path) := by
  induction room generalizing schema count node path with
  | zero => exact absurd enough (Nat.not_lt_zero _)
  | succ room ih =>
    have own : Schema.attemptOwn (attemptWithin definitions stray room · count) schema node path =
        some (schema.ownViolations (resolver definitions (maxReferences - count)) node path) :=
      Schema.attemptOwn_eq (fun inner member => ih (tameHere.inner member)
        (Nat.lt_of_lt_of_le (rank_inner definitions member count) (Nat.le_of_lt_succ enough)))
        node path
    rw [attemptWithin, attemptOnce, Schema.violations_eq]
    cases schema.never with
    | true => rfl
    | false =>
      rw [if_neg Bool.false_ne_true, if_neg Bool.false_ne_true]
      dsimp only
      rw [own]
      cases mentioned : schema.reference with
      | none => rfl
      | some name =>
        dsimp only
        cases defined : definitions.get? name with
        | none =>
          have reported := tameHere schema (Schema.mem_parts_self schema) name mentioned defined
          rw [resolver_of_undefined defined, reported]
          rfl
        | some target =>
          dsimp only
          split
          · next many =>
            rw [Nat.sub_eq_zero_of_le many, resolver_zero defined]
            rfl
          · next few =>
            have left : maxReferences - count = maxReferences - (count + 1) + 1 := by omega
            have behind := ih (tame name target defined) (Nat.lt_of_lt_of_le
              (rank_definition defined (Nat.lt_of_not_le few)) (Nat.le_of_lt_succ enough)) node path
            rw [behind, left, resolver_succ defined]
            rfl

end Bound

def RefersDirectly (definitions : Fields Schema) (name other : String) : Prop :=
  ∃ target, definitions.get? name = some target ∧ target.reference = some other

/-- A check that follows references from one definition to the next without end finds something,
be it that they nest too deeply. -/
theorem violations_ne_nil {definitions : Fields Schema} (endless : String → Prop)
    (leads : ∀ name, endless name →
      ∃ other, RefersDirectly definitions name other ∧ endless other)
    {schema : Schema} {name : String} (refers : schema.reference = some name)
    (start : endless name) (budget : Nat) (node : Node) (path : Path) :
    schema.violations (resolver definitions budget) node path ≠ [] := by
  induction budget generalizing schema name with
  | zero =>
    rcases leads name start with ⟨_, ⟨target, defined, -⟩, -⟩
    rw [Schema.violations_eq, refers]
    dsimp only
    rw [resolver_zero defined]
    split <;> exact List.cons_ne_nil _ _
  | succ budget ih =>
    rcases leads name start with ⟨other, ⟨target, defined, further⟩, endless'⟩
    rw [Schema.violations_eq, refers]
    dsimp only
    rw [resolver_succ defined]
    split
    · exact List.cons_ne_nil _ _
    · exact List.append_ne_nil_of_left_ne_nil (ih further endless') _

/-- Validation ends: it calls itself no deeper than a bound that the schema sets for all trees. And
it accepts nothing by going in circles: where following references from the root alone leads back to
a definition, every tree has a violation. -/
theorem validate_ends (document : SchemaDocument) :
    (∃ bound, ∀ room, bound ≤ room → ∀ node,
      attemptWithin document.definitions reportStray room document.root 0 node Path.root =
        some (document.validate node)) ∧
    ∀ first name, document.root.reference = some first →
      Relation.ReflTransGen (RefersDirectly document.definitions) first name →
        Relation.TransGen (RefersDirectly document.definitions) name name →
          ∀ node, document.validate node ≠ [] := by
  refine ⟨⟨rank document.definitions document.root 0 + 1, fun room enough node => ?_⟩, ?_⟩
  · exact attemptWithin_eq (fun _ _ _ _ _ _ _ _ => rfl) (fun _ _ _ _ _ => rfl) enough node
      Path.root
  · intro first name refers reaches circle node
    refine violations_ne_nil
      (fun other => Relation.TransGen (RefersDirectly document.definitions) other name) ?_ refers ?_
      maxReferences node Path.root
    · intro other leads
      rcases Relation.TransGen.head'_iff.mp leads with ⟨next, here, further⟩
      exact ⟨next, here, Relation.TransGen.trans_right further circle⟩
    · exact Relation.TransGen.trans_right reaches circle

def circular : SchemaDocument :=
  ⟨{ reference := some "a" }, [("a", { reference := some "b" }), ("b", { reference := some "a" })]⟩

def circularNode : Node :=
  let refers (pointer : String) : String × Node := ("$ref", .ofString pointer)
  .mapping [refers "#/definitions/a", ("definitions", .mapping
    [("a", .mapping [refers "#/definitions/b"]), ("b", .mapping [refers "#/definitions/a"])])]

theorem validate_ends_circular : ofNode circularNode = .ok circular ∧
    circular.root.reference = some "a" ∧
      Relation.ReflTransGen (RefersDirectly circular.definitions) "a" "b" ∧
        Relation.TransGen (RefersDirectly circular.definitions) "b" "b" ∧
          ∀ node, circular.validate node ≠ [] := by
  have there : RefersDirectly circular.definitions "a" "b" := ⟨_, rfl, rfl⟩
  have back : RefersDirectly circular.definitions "b" "a" := ⟨_, rfl, rfl⟩
  have circle : Relation.TransGen (RefersDirectly circular.definitions) "b" "b" :=
    .tail (.single back) there
  exact ⟨rfl, rfl, .single there, circle,
    (validate_ends circular).2 "a" "b" rfl (.single there) circle⟩

end SchemaDocument
end ParticleSim
