import ParticleSim.Proofs.Number.Order
import ParticleSim.Proofs.Schema.Meaning
import ParticleSim.Proofs.Tree.Fields

namespace ParticleSim

theorem complain_eq_nil_iff {condition : Bool} {complaint : Complaint} :
    complain condition complaint = [] ↔ condition = false := by
  cases condition <;> simp [complain]

namespace Facets

variable {facets : Facets} {node : Node}

structure Passes (facets : Facets) (node : Node) (path : Path) : Prop where
  types : facets.wrongTypes? node = none
  complaints : facets.complaints node = []
  missing : ∀ fields ∈ node.fields?, facets.missing fields path = []

theorem wrongTypes?_eq_none_iff : facets.wrongTypes? node = none ↔
    ∀ types ∈ facets.types, ∃ type ∈ types, type.accepts node = true := by
  rw [wrongTypes?]
  cases facets.types with
  | none => simp
  | some types => simp

theorem valueComplaints_eq_nil_iff : facets.valueComplaints node = [] ↔
    (∀ constant ∈ facets.constant, node.equal constant = true) ∧
      ∀ allowed ∈ facets.enumeration, ∃ value ∈ allowed, value.equal node = true := by
  rw [valueComplaints, List.append_eq_nil_iff]
  apply and_congr
  · cases facets.constant with
    | none => simp
    | some constant => simp [complain_eq_nil_iff]
  · cases facets.enumeration with
    | none => simp
    | some allowed => simp [complain_eq_nil_iff]

/-- Numbers are compared in the way that leaves NaN unnoticed. -/
theorem numberComplaints_eq_nil_iff {x : Float} : facets.numberComplaints x = [] ↔
    (∀ bound ∈ facets.minimum, ¬x < bound) ∧ (∀ bound ∈ facets.maximum, ¬bound < x) ∧
      (∀ bound ∈ facets.exclusiveMinimum, ¬x ≤ bound) ∧
        ∀ bound ∈ facets.exclusiveMaximum, ¬bound ≤ x := by
  rw [numberComplaints, List.append_eq_nil_iff, List.append_eq_nil_iff, List.append_eq_nil_iff,
    and_assoc, and_assoc]
  refine and_congr ?_ (and_congr ?_ (and_congr ?_ ?_))
  · cases facets.minimum with
    | none => simp
    | some bound => simp [complain_eq_nil_iff]
  · cases facets.maximum with
    | none => simp
    | some bound => simp [complain_eq_nil_iff]
  · cases facets.exclusiveMinimum with
    | none => simp
    | some bound => simp [complain_eq_nil_iff]
  · cases facets.exclusiveMaximum with
    | none => simp
    | some bound => simp [complain_eq_nil_iff]

theorem stringComplaints_eq_nil_iff {text : String} : facets.stringComplaints text = [] ↔
    (∀ least ∈ facets.minLength, least ≤ text.length) ∧
      (∀ most ∈ facets.maxLength, text.length ≤ most) ∧
        ∀ pattern ∈ facets.pattern, pattern.isMatch text = true := by
  rw [stringComplaints, List.append_eq_nil_iff, List.append_eq_nil_iff, and_assoc]
  refine and_congr ?_ (and_congr ?_ ?_)
  · cases facets.minLength with
    | none => simp
    | some least => simp [complain_eq_nil_iff, String.length_toList]
  · cases facets.maxLength with
    | none => simp
    | some most => simp [complain_eq_nil_iff, String.length_toList]
  · cases facets.pattern with
    | none => simp
    | some pattern => simp [complain_eq_nil_iff]

theorem itemCountComplaints_eq_nil_iff {count : Nat} : facets.itemCountComplaints count = [] ↔
    (∀ least ∈ facets.minItems, least ≤ count) ∧ ∀ most ∈ facets.maxItems, count ≤ most := by
  rw [itemCountComplaints, List.append_eq_nil_iff]
  apply and_congr
  · cases facets.minItems with
    | none => simp
    | some least => simp [complain_eq_nil_iff]
  · cases facets.maxItems with
    | none => simp
    | some most => simp [complain_eq_nil_iff]

theorem missing_eq_nil_iff {fields : Fields Node} {path : Path} :
    facets.missing fields path = [] ↔ ∀ key ∈ facets.required, key ∈ fields.keys := by
  rw [missing, List.map_eq_nil_iff, List.filter_eq_nil_iff]
  apply forall₂_congr
  intro key _
  rw [Bool.not_eq_true', Fields.contains_eq_false_iff, not_not]

theorem complaints_eq_nil_iff : facets.complaints node = [] ↔
    facets.valueComplaints node = [] ∧ (∀ x ∈ node.number?, facets.numberComplaints x = []) ∧
      (∀ text ∈ node.string?, facets.stringComplaints text = []) ∧
        ∀ items ∈ node.items?, facets.itemCountComplaints items.length = [] := by
  rw [complaints, List.append_eq_nil_iff, List.append_eq_nil_iff, List.append_eq_nil_iff,
    and_assoc, and_assoc]
  refine and_congr Iff.rfl (and_congr ?_ (and_congr ?_ ?_))
  · cases node.number? <;> simp
  · cases node.string? <;> simp
  · cases node.items? <;> simp

def Comparable (facets : Facets) (node : Node) : Prop :=
  ∀ bound ∈ facets.bounds, bound.isNaN = false ∧ ∀ x ∈ node.number?, x.isNaN = false

theorem numbers_hold (comparable : facets.Comparable node)
    (clean : ∀ x ∈ node.number?, facets.numberComplaints x = []) :
    (∀ bound ∈ facets.minimum, ∀ x ∈ node.number?, bound ≤ x) ∧
      (∀ bound ∈ facets.maximum, ∀ x ∈ node.number?, x ≤ bound) ∧
      (∀ bound ∈ facets.exclusiveMinimum, ∀ x ∈ node.number?, bound < x) ∧
      ∀ bound ∈ facets.exclusiveMaximum, ∀ x ∈ node.number?, x < bound := by
  have ordered : ∀ bound ∈ facets.bounds, ∀ x ∈ node.number?,
      (¬x < bound ↔ bound ≤ x) ∧ (¬bound < x ↔ x ≤ bound) ∧ (¬x ≤ bound ↔ bound < x) ∧
        (¬bound ≤ x ↔ x < bound) := by
    intro bound member x number
    obtain ⟨right, left⟩ := comparable bound member
    exact ⟨Binary64.not_lt_iff (left x number) right, Binary64.not_lt_iff right (left x number),
      Binary64.not_le_iff (left x number) right, Binary64.not_le_iff right (left x number)⟩
  simp only [bounds, List.mem_append, Option.mem_toList] at ordered
  simp only [numberComplaints_eq_nil_iff] at clean
  refine ⟨?_, ?_, ?_, ?_⟩
  · exact fun bound member x number =>
      (ordered bound (.inl (.inl (.inl member))) x number).1.mp ((clean x number).1 bound member)
  · exact fun bound member x number =>
      (ordered bound (.inl (.inl (.inr member))) x number).2.1.mp
        ((clean x number).2.1 bound member)
  · exact fun bound member x number =>
      (ordered bound (.inl (.inr member)) x number).2.2.1.mp ((clean x number).2.2.1 bound member)
  · exact fun bound member x number =>
      (ordered bound (.inr member) x number).2.2.2.mp ((clean x number).2.2.2 bound member)

theorem passes_of_holds (holds : facets.Holds node) (path : Path) : facets.Passes node path := by
  refine ⟨wrongTypes?_eq_none_iff.mpr holds.type, ?_, ?_⟩
  · rw [complaints_eq_nil_iff, valueComplaints_eq_nil_iff]
    refine ⟨⟨holds.constant, holds.listed⟩, ?_, ?_, ?_⟩
    · exact fun x number => numberComplaints_eq_nil_iff.mpr
        ⟨fun bound member => Binary64.not_lt_of_le (holds.atLeast bound member x number),
          fun bound member => Binary64.not_lt_of_le (holds.atMost bound member x number),
          fun bound member less => Binary64.not_lt_of_le less (holds.above bound member x number),
          fun bound member less => Binary64.not_lt_of_le less (holds.below bound member x number)⟩
    · exact fun text string => stringComplaints_eq_nil_iff.mpr
        ⟨fun bound member => holds.long bound member text string,
          fun bound member => holds.short bound member text string,
          fun pattern member => holds.matching pattern member text string⟩
    · exact fun items sequence => itemCountComplaints_eq_nil_iff.mpr
        ⟨fun bound member => holds.many bound member items sequence,
          fun bound member => holds.few bound member items sequence⟩
  · exact fun fields mapping => missing_eq_nil_iff.mpr (holds.complete fields mapping)

theorem passes_iff_holds (comparable : facets.Comparable node) (path : Path) :
    facets.Passes node path ↔ facets.Holds node := by
  constructor
  · intro given
    rcases given with ⟨types, complaints, missing⟩
    rw [complaints_eq_nil_iff, valueComplaints_eq_nil_iff] at complaints
    obtain ⟨⟨constant, listed⟩, numbers, strings, counts⟩ := complaints
    obtain ⟨least, most, above, below⟩ := numbers_hold comparable numbers
    simp only [stringComplaints_eq_nil_iff] at strings
    simp only [itemCountComplaints_eq_nil_iff] at counts
    exact
      { type := wrongTypes?_eq_none_iff.mp types
        constant := constant
        listed := listed
        atLeast := least
        atMost := most
        above := above
        below := below
        long := fun bound member text string => (strings text string).1 bound member
        short := fun bound member text string => (strings text string).2.1 bound member
        matching := fun pattern member text string => (strings text string).2.2 pattern member
        many := fun bound member items sequence => (counts items sequence).1 bound member
        few := fun bound member items sequence => (counts items sequence).2 bound member
        complete := fun fields mapping => missing_eq_nil_iff.mp (missing fields mapping) }
  · exact fun holds => passes_of_holds holds path

end Facets

end ParticleSim
