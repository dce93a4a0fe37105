import ParticleSim.Proofs.Schema.Visits
import ParticleSim.Proofs.Tree.Children

namespace ParticleSim

namespace TypeName

variable {node : Node}

theorem accepts_number (accepted : number.accepts node = true) : node.IsNumber := by
  cases node with
  | scalar value =>
    cases value with
    | integer n => exact ⟨_, rfl⟩
    | float x => exact ⟨_, rfl⟩
    | _ => cases accepted
  | _ => cases accepted

theorem accepts_string (accepted : string.accepts node = true) : node.IsString := by
  cases node with
  | scalar value =>
    cases value with
    | string text => exact ⟨_, rfl⟩
    | _ => cases accepted
  | _ => cases accepted

theorem accepts_array (accepted : array.accepts node = true) : node.IsSequence := by
  cases node with
  | sequence items => exact ⟨_, rfl⟩
  | _ => cases accepted

theorem accepts_object (accepted : object.accepts node = true) : node.IsMapping := by
  cases node with
  | mapping fields => exact ⟨_, rfl⟩
  | _ => cases accepted

end TypeName

namespace Schema

variable {meaning : Meaning} {schema : Schema} {node : Node}

theorem satisfies_of_holds {facets : Facets} {properties : List (String × Schema)}
    (holds : facets.Holds node)
    (entries : ∀ fields ∈ node.fields?, ∀ entry ∈ fields,
      EntrySatisfies meaning (fun _ => True) properties entry) :
    Satisfies meaning { facets := facets, properties := properties } node := by
  have allowed : AdditionalSatisfies meaning .allowed = fun _ => True := by
    funext child
    rw [AdditionalSatisfies]
  rw [← allowed] at entries
  refine satisfies_iff.mpr ⟨rfl, by simp, holds, by simp, ?_, by simp, .inl rfl, by simp⟩
  intro fields mapping entry member
  exact entrySatisfies_iff.mp (entries fields mapping entry member)

namespace Satisfies

variable (satisfies : schema.Satisfies meaning node)
include satisfies

theorem facets : schema.facets.Holds node := (satisfies_iff.mp satisfies).2.2.1

theorem type {type : TypeName} (asked : schema.facets.types = some [type]) :
    type.accepts node = true := by
  obtain ⟨found, member, accepted⟩ := satisfies.facets.type _ asked
  rwa [List.mem_singleton.mp member] at accepted

theorem reference {name : String} (asked : schema.reference = some name) : meaning name node :=
  (satisfies_iff.mp satisfies).2.1 name asked

theorem eachItem {items : Schema} (asked : schema.items = some items) :
    node.EachItem (items.Satisfies meaning) := by
  intro nodes sequence item member
  exact (satisfies_iff.mp satisfies).2.2.2.1 nodes sequence item member items asked

theorem property {key : String} {property : Schema}
    (asked : Fields.get? key schema.properties = some property) :
    node.At key (property.Satisfies meaning) := by
  intro child found
  rw [Node.child?, Option.mem_def, Option.bind_eq_some_iff] at found
  obtain ⟨fields, mapping, found⟩ := found
  have entry := (satisfies_iff.mp satisfies).2.2.2.2.1 fields mapping _ (Fields.mem_of_get? found)
  exact entry.1 property (Option.or_eq_some_iff.mpr (.inl asked))

theorem requiredProperty {key : String} {property : Schema} (mapping : node.IsMapping)
    (required : key ∈ schema.facets.required)
    (asked : Fields.get? key schema.properties = some property) :
    node.Has key (property.Satisfies meaning) := by
  obtain ⟨fields, mapping⟩ := mapping
  have listed := satisfies.facets.complete fields mapping key required
  cases found : fields.get? key with
  | none => exact absurd listed (Fields.get?_eq_none_iff.mp found)
  | some child =>
    rw [← Node.child?_eq mapping] at found
    exact ⟨child, found, satisfies.property asked child found⟩

theorem allOf {part : Schema} (member : part ∈ schema.allOf) : part.Satisfies meaning node :=
  (satisfies_iff.mp satisfies).2.2.2.2.2.1 part member

theorem consequent {condition consequent : Schema} {alternative : Option Schema}
    (asked : schema.conditional = some ⟨condition, some consequent, alternative⟩)
    (holds : condition.Satisfies meaning node) : consequent.Satisfies meaning node := by
  exact ((satisfies_iff.mp satisfies).2.2.2.2.2.2.2 _ asked).1 holds consequent rfl

end Satisfies
end Schema

end ParticleSim
