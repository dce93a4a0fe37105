import ParticleSim.Proofs.Schema.Soundness
import ParticleSim.Proofs.Tree.Equality

namespace ParticleSim

/-- Violations at the same paths, each path counted, in any order. -/
def SamePlaces (first second : List Violation) : Prop :=
  (first.map Violation.path).Perm (second.map Violation.path)

namespace SamePlaces

variable {first second third fourth : List Violation}

theorem append (left : SamePlaces first second) (right : SamePlaces third fourth) :
    SamePlaces (first ++ third) (second ++ fourth) := by
  rw [SamePlaces, List.map_append, List.map_append]
  exact List.Perm.append left right

theorem isEmpty_eq (same : SamePlaces first second) : first.isEmpty = second.isEmpty := by
  have long := List.Perm.length_eq same
  rw [List.length_map, List.length_map] at long
  rw [Bool.eq_iff_iff, List.isEmpty_iff_length_eq_zero, List.isEmpty_iff_length_eq_zero, long]

theorem single (path : Path) (complaint other : Complaint) :
    SamePlaces [⟨path, complaint⟩] [⟨path, other⟩] :=
  .refl _

/-- Complaints about one node are as good as their number. -/
theorem of_length {complaints others : Complaints} (long : complaints.length = others.length)
    (path : Path) : SamePlaces (complaints.map (⟨path, ·⟩)) (others.map (⟨path, ·⟩)) := by
  rw [SamePlaces, List.map_map, List.map_map]
  simp only [Function.comp_def, List.map_const', long]
  exact .refl _

theorem flatMap {α β : Type} {R : α → β → Prop} {items : List α} {others : List β}
    {check : α → List Violation} {check' : β → List Violation}
    (each : List.Forall₂ R items others)
    (same : ∀ a b, R a b → SamePlaces (check a) (check' b)) :
    SamePlaces (items.flatMap check) (others.flatMap check') := by
  induction each with
  | nil => exact .refl _
  | cons related _ ih =>
    rw [List.flatMap_cons, List.flatMap_cons]
    exact (same _ _ related).append ih

theorem flatMap_perm {α : Type} {items others : List α} (perm : items.Perm others)
    (check : α → List Violation) : SamePlaces (items.flatMap check) (others.flatMap check) :=
  (perm.flatMap_right check).map _

theorem trans (left : SamePlaces first second) (right : SamePlaces second third) :
    SamePlaces first third :=
  List.Perm.trans left right

end SamePlaces

structure Facets.Alike (facets other : Facets) : Prop where
  types : facets.types = other.types
  constant : Option.Rel Node.Like facets.constant other.constant
  enumeration : Option.Rel (List.Forall₂ Node.Like) facets.enumeration other.enumeration
  minimum : Option.Rel (fun x y => (x == y) = true) facets.minimum other.minimum
  maximum : Option.Rel (fun x y => (x == y) = true) facets.maximum other.maximum
  exclusiveMinimum :
    Option.Rel (fun x y => (x == y) = true) facets.exclusiveMinimum other.exclusiveMinimum
  exclusiveMaximum :
    Option.Rel (fun x y => (x == y) = true) facets.exclusiveMaximum other.exclusiveMaximum
  minLength : facets.minLength = other.minLength
  maxLength : facets.maxLength = other.maxLength
  pattern : facets.pattern = other.pattern
  minItems : facets.minItems = other.minItems
  maxItems : facets.maxItems = other.maxItems
  required : facets.required = other.required

theorem TypeName.accepts_congr {node node' : Node} (like : node.Like node') (type : TypeName) :
    type.accepts node = type.accepts node' := by
  cases like.layer with
  | scalar same =>
    rcases Scalar.equal_cases same with rfl | ⟨x, y, rfl, rfl, close⟩
    · rfl
    · cases type with
      | integer => exact Binary64.isWhole_congr close
      | _ => rfl
  | sequence _ => cases type <;> rfl
  | mapping _ => cases type <;> rfl

theorem length_complain {condition condition' : Bool} (same : condition = condition')
    (complaint complaint' : Complaint) :
    (complain condition complaint).length = (complain condition' complaint').length := by
  subst same
  cases condition <;> rfl

namespace Facets.Alike

variable {facets other : Facets} (alike : facets.Alike other) {node node' : Node}
  (like : node.Like node')
include alike

theorem length_numberComplaints {x y : Float} (close : (x == y) = true) :
    (facets.numberComplaints x).length = (other.numberComplaints y).length := by
  simp only [numberComplaints, List.length_append]
  refine congrArg₂ _ (congrArg₂ _ (congrArg₂ _ ?_ ?_) ?_) ?_
  · exact rel_elim alike.minimum rfl fun _ _ same =>
      length_complain (decide_eq_decide.mpr (Binary64.lt_congr close same)) _ _
  · exact rel_elim alike.maximum rfl fun _ _ same =>
      length_complain (decide_eq_decide.mpr (Binary64.lt_congr same close)) _ _
  · exact rel_elim alike.exclusiveMinimum rfl fun _ _ same =>
      length_complain (decide_eq_decide.mpr (Binary64.le_congr close same)) _ _
  · exact rel_elim alike.exclusiveMaximum rfl fun _ _ same =>
      length_complain (decide_eq_decide.mpr (Binary64.le_congr same close)) _ _

theorem stringComplaints_eq (text : String) :
    facets.stringComplaints text = other.stringComplaints text := by
  rw [stringComplaints, stringComplaints, alike.minLength, alike.maxLength, alike.pattern]

theorem itemCountComplaints_eq (count : Nat) :
    facets.itemCountComplaints count = other.itemCountComplaints count := by
  rw [itemCountComplaints, itemCountComplaints, alike.minItems, alike.maxItems]

include like

theorem wrongTypes?_eq : facets.wrongTypes? node = other.wrongTypes? node' := by
  simp only [wrongTypes?, alike.types, TypeName.accepts_congr like]

theorem length_valueComplaints :
    (facets.valueComplaints node).length = (other.valueComplaints node').length := by
  simp only [valueComplaints, List.length_append]
  refine congrArg₂ _ ?_ ?_
  · exact rel_elim alike.constant rfl fun _ _ same =>
      length_complain (congrArg Bool.not (like.equal_congr same)) _ _
  · refine rel_elim alike.enumeration rfl fun allowed allowed' each =>
      length_complain (congrArg Bool.not ?_) _ _
    induction each with
    | nil => rfl
    | cons same _ ih => rw [List.any_cons, List.any_cons, ih, same.equal_congr like]

theorem length_complaints :
    (facets.complaints node).length = (other.complaints node').length := by
  simp only [complaints, List.length_append]
  refine congrArg₂ _ (congrArg₂ _ (congrArg₂ _ ?_ ?_) ?_) ?_
  · exact length_valueComplaints alike like
  · exact rel_elim like.number? rfl fun _ _ close =>
      length_numberComplaints alike close
  · rw [like.string?_eq]
    cases node'.string? with
    | none => rfl
    | some text => exact congrArg _ (stringComplaints_eq alike text)
  · refine rel_elim like.items? rfl fun items items' each => ?_
    dsimp only
    rw [itemCountComplaints_eq alike, each.length_eq]

end Facets.Alike

theorem Facets.Alike.missing {facets other : Facets} (alike : facets.Alike other)
    {fields others : Fields Node} (related : fields.Alike Node.Like others) (path : Path) :
    SamePlaces (facets.missing fields path) (other.missing others path) := by
  have listed : ∀ key, fields.contains key = others.contains key := by
    exact fun key => rel_isSome (related.related key)
  simp only [Facets.missing, alike.required, listed]
  exact .refl _

/-- The checks find violations of equal nodes at the same places. -/
def Check.Agree (check other : Check) : Prop :=
  ∀ node node', Node.Like node node' → ∀ path, SamePlaces (check node path) (other node' path)

inductive Resolution.Agree : Resolution → Resolution → Prop where
  | unknown : Agree .unknown .unknown
  | tooDeep : Agree .tooDeep .tooDeep
  | found {check other : Check} (agree : check.Agree other) : Agree (.found check) (.found other)

def Schema.Agree (schema other : Schema) : Prop :=
  ∀ resolve resolve' : Resolver, (∀ name, (resolve name).Agree (resolve' name)) →
    Check.Agree (schema.violations resolve) (other.violations resolve')

inductive Additional.Alike {α β : Type} (R : α → β → Prop) :
    Additional α → Additional β → Prop where
  | allowed : Alike R .allowed .allowed
  | denied : Alike R .denied .denied
  | checked {a : α} {b : β} (related : R a b) : Alike R (.checked a) (.checked b)

structure Conditional.Alike {α β : Type} (R : α → β → Prop) (conditional : Conditional α)
    (other : Conditional β) : Prop where
  condition : R conditional.condition other.condition
  consequent : Option.Rel R conditional.consequent other.consequent
  alternative : Option.Rel R conditional.alternative other.alternative

structure Schema.Alike (schema other : Schema) : Prop where
  never : schema.never = other.never
  reference : schema.reference = other.reference
  facets : schema.facets.Alike other.facets
  items : Option.Rel Agree schema.items other.items
  properties : Fields.Alike Agree schema.properties other.properties
  additional : schema.additional.Alike Agree other.additional
  allOf : List.Forall₂ Agree schema.allOf other.allOf
  anyOf : List.Forall₂ Agree schema.anyOf other.anyOf
  conditional : Option.Rel (Conditional.Alike Agree) schema.conditional other.conditional

theorem checkItems_agree {check check' : Check} (agree : check.Agree check')
    {items others : List Node} (each : List.Forall₂ Node.Like items others) (path : Path) :
    SamePlaces (checkItems check path items) (checkItems check' path others) := by
  rw [checkItems, checkItems]
  generalize 0 = start
  induction each generalizing start with
  | nil => exact .refl _
  | cons like _ ih =>
    rw [List.zipIdx_cons, List.zipIdx_cons, List.flatMap_cons, List.flatMap_cons]
    exact (agree _ _ like _).append (ih _)

theorem checkFields_agree {check check' : String → Check}
    (agree : ∀ key, (check key).Agree (check' key)) {fields others : Fields Node}
    (alike : fields.Alike Node.Like others) (path : Path) :
    SamePlaces (checkFields check path fields) (checkFields check' path others) := by
  rcases alike.exists_perm with ⟨middle, perm, matching⟩
  refine (SamePlaces.flatMap_perm perm _).trans (SamePlaces.flatMap matching ?_)
  rintro ⟨key, value⟩ ⟨key', value'⟩ ⟨same, like⟩
  dsimp only at same
  subst same
  exact agree key value value' like _

namespace Schema

section Parts

variable {resolve resolve' : Resolver} (resolved : ∀ name, (resolve name).Agree (resolve' name))
include resolved

theorem optionViolations_agree {schema other : Option Schema}
    (agree : Option.Rel Agree schema other) :
    Check.Agree (optionViolations resolve schema) (optionViolations resolve' other) := by
  intro node node' like path
  cases agree with
  | none =>
    rw [optionViolations, optionViolations]
    exact .refl _
  | some agree =>
    rw [optionViolations, optionViolations]
    exact agree _ _ resolved node node' like path

theorem additionalViolations_agree {additional other : Additional Schema}
    (alike : additional.Alike Agree other) (key : String) :
    Check.Agree (additionalViolations resolve additional key)
      (additionalViolations resolve' other key) := by
  intro node node' like path
  cases alike with
  | allowed =>
    rw [additionalViolations, additionalViolations]
    exact .refl _
  | denied =>
    rw [additionalViolations, additionalViolations]
    exact .refl _
  | checked agree =>
    rw [additionalViolations, additionalViolations]
    exact agree _ _ resolved node node' like path

theorem entryViolations_agree {additional additional' : String → Check}
    (agree : ∀ key, (additional key).Agree (additional' key))
    {properties others : List (String × Schema)} (alike : Fields.Alike Agree properties others)
    (key : String) : Check.Agree (entryViolations resolve additional properties key)
      (entryViolations resolve' additional' others key) := by
  rw [entryViolations_eq, entryViolations_eq]
  exact rel_elim (alike.related key) (agree key) fun _ _ agree => agree _ _ resolved

theorem allViolations_agree {schemas others : List Schema}
    (each : List.Forall₂ Agree schemas others) :
    Check.Agree (allViolations resolve schemas) (allViolations resolve' others) := by
  intro node node' like path
  induction each with
  | nil =>
    rw [allViolations, allViolations]
    exact .refl _
  | cons agree _ ih =>
    rw [allViolations, allViolations]
    exact (agree _ _ resolved node node' like path).append ih

theorem anyPasses_eq {schemas others : List Schema} (each : List.Forall₂ Agree schemas others)
    {node node' : Node} (like : node.Like node') (path : Path) :
    anyPasses resolve schemas node path = anyPasses resolve' others node' path := by
  induction each with
  | nil => rw [anyPasses, anyPasses]
  | cons agree _ ih =>
    rw [anyPasses, anyPasses, ih, (agree _ _ resolved node node' like path).isEmpty_eq]

theorem conditionalViolations_agree {conditional other : Option (Conditional Schema)}
    (alike : Option.Rel (Conditional.Alike Agree) conditional other) :
    Check.Agree (conditionalViolations resolve conditional)
      (conditionalViolations resolve' other) := by
  intro node node' like path
  rcases rel_cases alike with ⟨rfl, rfl⟩ | ⟨⟨condition, consequent, alternative⟩,
    ⟨condition', consequent', alternative'⟩, rfl, rfl, ⟨chooses, holds, fails⟩⟩
  · rw [conditionalViolations, conditionalViolations]
    exact .refl _
  · rw [conditionalViolations, conditionalViolations,
      (chooses _ _ resolved node node' like path).isEmpty_eq]
    split
    · exact optionViolations_agree resolved holds node node' like path
    · exact optionViolations_agree resolved fails node node' like path

theorem ownViolations_agree {schema other : Schema} (alike : schema.Alike other) :
    Check.Agree (schema.ownViolations resolve) (other.ownViolations resolve') := by
  intro node node' like path
  rw [ownViolations.eq_def, ownViolations.eq_def, alike.facets.wrongTypes?_eq like,
    like.typeName_eq]
  cases other.facets.wrongTypes? node' with
  | some types => exact .refl _
  | none =>
    have complaints := SamePlaces.of_length (alike.facets.length_complaints like) path
    have all := allViolations_agree resolved alike.allOf node node' like path
    have chosen := conditionalViolations_agree resolved alike.conditional node node' like path
    have alternatives : schema.anyOf.isEmpty = other.anyOf.isEmpty := by
      rw [Bool.eq_iff_iff, List.isEmpty_iff_length_eq_zero, List.isEmpty_iff_length_eq_zero,
        alike.anyOf.length_eq]
    dsimp only
    rw [anyPasses_eq resolved alike.anyOf like path, alternatives]
    refine (((complaints.append ?_).append all).append (.refl _)).append chosen
    cases like.layer with
    | scalar _ => exact .refl _
    | sequence each =>
      exact checkItems_agree (optionViolations_agree resolved alike.items) each path
    | mapping fields =>
      refine (alike.facets.missing fields path).append (checkFields_agree ?_ fields path)
      exact entryViolations_agree resolved (additionalViolations_agree resolved alike.additional)
        alike.properties

end Parts

/-- Schemas of the same conditions agree, if the schemas inside them do. -/
theorem Alike.agree {schema other : Schema} (alike : schema.Alike other) : schema.Agree other := by
  intro resolve resolve' resolved node node' like path
  have own := ownViolations_agree resolved alike node node' like path
  rw [violations_eq, violations_eq, alike.never, alike.reference]
  split
  · exact .refl _
  · cases other.reference with
    | none => exact own
    | some name =>
      dsimp only
      have leads := resolved name
      generalize resolve name = resolution at leads
      generalize resolve' name = resolution' at leads
      cases leads with
      | unknown => exact (SamePlaces.single path _ _).append own
      | tooDeep => exact .refl _
      | found agree => exact (agree node node' like path).append own

end Schema

namespace SchemaDocument

def DefinitionsAgree (definitions others : Fields Schema) : Prop :=
  ∀ name, Option.Rel Schema.Agree (definitions.get? name) (others.get? name)

theorem resolver_agree {definitions others : Fields Schema}
    (related : DefinitionsAgree definitions others)
    (budget : Nat) (name : String) :
    (resolver definitions budget name).Agree (resolver others budget name) := by
  induction budget generalizing name with
  | zero =>
    rw [resolver, resolver, Fields.contains, Fields.contains]
    exact rel_elim (related name) .unknown fun _ _ _ => .tooDeep
  | succ budget ih =>
    rw [resolver, resolver]
    exact rel_elim (related name) .unknown fun _ _ agree => .found (agree _ _ ih)

structure Agree (document other : SchemaDocument) : Prop where
  root : document.root.Agree other.root
  definitions : DefinitionsAgree document.definitions other.definitions

/-- Validation of equal trees finds violations at the same places. -/
theorem Agree.validate {document other : SchemaDocument} (agree : document.Agree other)
    {node node' : Node} (like : node.Like node') :
    SamePlaces (document.validate node) (other.validate node') :=
  agree.root _ _ (resolver_agree agree.definitions maxReferences) node node' like Path.root

end SchemaDocument
end ParticleSim
