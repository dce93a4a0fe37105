import ParticleSim.Proofs.Tree.Equality
/-!
The laws of equality of trees. On trees with distinct keys it is symmetric and transitive, and a
tree equals itself unless a NaN is in it. Mappings are equal if their entries match in some order.
-/
namespace ParticleSim

theorem Fields.alike_iff {α β : Type} {R : α → β → Prop} {fields : Fields α} {others : Fields β}
    (distinct : fields.keys.Nodup) : fields.Alike R others ↔
      ∃ middle, fields.Perm middle ∧ List.Forall₂ (Matches R) middle others :=
  ⟨Alike.exists_perm, fun ⟨_, perm, matching⟩ => .of_perm distinct perm matching⟩

theorem Fields.alike_self_iff {α : Type} {R : α → α → Prop} {fields : Fields α}
    (distinct : fields.keys.Nodup) :
    fields.Alike R fields ↔ ∀ entry ∈ fields, R entry.2 entry.2 := by
  constructor
  · intro alike entry member
    rcases alike.exists_partner member with ⟨other, found, related⟩
    rw [get?_of_mem distinct member, Option.some_inj] at found
    rwa [← found] at related
  · intro each
    refine ⟨distinct, distinct, fun key => rel_mono (rel_refl _) fun value other found _ same => ?_⟩
    subst same
    exact each _ (mem_of_get? found)

theorem Scalar.equal_self_iff {value : Scalar} :
    value.equal value = true ↔ (Node.scalar value).NotNaN := by
  cases value with
  | float x => exact ⟨Binary64.isNaN_of_beq, Binary64.beq_self⟩
  | null => exact iff_of_true rfl trivial
  | _ => exact iff_of_true (beq_self_eq_true _) trivial

namespace Node

/-- A tree equals itself if no number in it is NaN. -/
theorem equal_self_iff {node : Node} (unique : node.UniqueKeys) :
    node.equal node = true ↔ node.NoNaN := by
  induction node using induction with
  | scalar value =>
    rw [equal]
    exact Scalar.equal_self_iff
  | sequence items ih =>
    rw [equal, equalItems_iff, List.forall₂_same, NoNaN, All, allItems_iff]
    refine (forall₂_congr fun item member => ?_).trans (and_iff_right trivial).symm
    exact ih item member (unique.item member)
  | mapping fields ih =>
    rw [equal_mapping_iff unique.1 unique.1, Fields.alike_self_iff unique.1, NoNaN, All,
      allFields_iff]
    refine (forall₂_congr fun entry member => ?_).trans (and_iff_right trivial).symm
    exact ih entry member (unique.value member)

theorem equal_comm {a b : Node} (unique : a.UniqueKeys) (unique' : b.UniqueKeys) :
    a.equal b = b.equal a := by
  rw [Bool.eq_iff_iff]
  exact ⟨fun same => (Like.mk unique unique' same).symm.same,
    fun same => (Like.mk unique' unique same).symm.same⟩

/-- Equality of trees with distinct keys is symmetric and transitive, and reflexive without NaN.
Mappings are equal if the entries of one, in some order, have the keys of the other with equal
values. An integer never equals a float. -/
theorem equal_lawful {a b c : Node} (uniqueA : a.UniqueKeys) (uniqueB : b.UniqueKeys)
    (uniqueC : c.UniqueKeys) :
    a.equal b = b.equal a ∧
    (a.equal b = true → b.equal c = true → a.equal c = true) ∧
    (a.equal a = true ↔ a.NoNaN) ∧
    (∀ fields others : Fields Node, a = mapping fields → b = mapping others →
      (a.equal b = true ↔ ∃ middle, fields.Perm middle ∧
        List.Forall₂ (Fields.Matches fun x y => x.equal y = true) middle others)) ∧
    (∀ n x, a = ofInt64 n → b = ofFloat x → a.equal b = false ∧ b.equal a = false) := by
  refine ⟨equal_comm uniqueA uniqueB, fun first second => ?_, equal_self_iff uniqueA, ?_, ?_⟩
  · exact ((Like.mk uniqueA uniqueB first).trans (Like.mk uniqueB uniqueC second)).same
  · rintro fields others rfl rfl
    rw [equal_mapping_iff uniqueA.1 uniqueB.1, Fields.alike_iff uniqueA.1]
  · rintro n x rfl rfl
    exact ⟨rfl, rfl⟩

def shuffled (front : Bool) (zero : Float) : Node :=
  .mapping (if front then [("id", .ofString "b"), ("at", .sequence [.ofFloat zero, .ofInt64 1])]
    else [("at", .sequence [.ofFloat zero, .ofInt64 1]), ("id", .ofString "b")])

theorem equal_lawful_shuffled :
    (∀ front zero, (shuffled front zero).UniqueKeys) ∧
    (shuffled true 0.0).equal (shuffled false (-0.0)) =
      (shuffled false (-0.0)).equal (shuffled true 0.0) ∧
    (shuffled true 0.0).equal (shuffled true (-0.0)) = true ∧
    (shuffled true Binary64.nan).equal (shuffled true Binary64.nan) = false := by
  have unique : ∀ front zero, (shuffled front zero).UniqueKeys := by
    intro front zero
    cases front <;>
      simp [shuffled, UniqueKeys, All, AllItems, AllFields, DistinctKeys, Fields.keys, ofFloat,
        ofString, ofInt64]
  have first : (shuffled true 0.0).equal (shuffled false (-0.0)) = true := by decide +kernel
  have second : (shuffled false (-0.0)).equal (shuffled true (-0.0)) = true := by decide +kernel
  have laws := equal_lawful (unique true 0.0) (unique false (-0.0)) (unique true (-0.0))
  have nan := (equal_lawful (unique true Binary64.nan) (unique true 0.0) (unique true 0.0)).2.2.1
  refine ⟨unique, laws.1, laws.2.1 first second, ?_⟩
  rw [← Bool.not_eq_true, nan]
  rintro ⟨-, -, ⟨-, number, -⟩, -⟩
  have missing : Binary64.nan.isNaN = true := by decide +kernel
  exact absurd (missing.symm.trans number) (by decide)

end Node
end ParticleSim
