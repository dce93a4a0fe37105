import Mathlib.Data.List.Forall2
import Mathlib.Data.List.Perm.Basic
import Mathlib.Data.List.Nodup
import ParticleSim.Proofs.Tree.Fields

namespace ParticleSim

theorem rel_cases {α β : Type} {R : α → β → Prop} {first : Option α} {second : Option β}
    (related : Option.Rel R first second) : (first = none ∧ second = none) ∨
      ∃ a b, first = some a ∧ second = some b ∧ R a b := by
  cases related with
  | none => exact .inl ⟨rfl, rfl⟩
  | some related => exact .inr ⟨_, _, rfl, rfl, related⟩

/-- What holds of two missing options and of two with related values holds of related options. -/
@[elab_as_elim]
theorem rel_elim {α β : Type} {R : α → β → Prop} {motive : Option α → Option β → Prop}
    {first : Option α} {second : Option β} (related : Option.Rel R first second)
    (none : motive none none) (some : ∀ a b, R a b → motive (some a) (some b)) :
    motive first second := by
  cases related with
  | none => exact none
  | some related => exact some _ _ related

theorem rel_refl {α : Type} (value : Option α) : Option.Rel Eq value value := by
  cases value with
  | none => exact .none
  | some a => exact .some rfl

theorem rel_mono {α β : Type} {R S : α → β → Prop} {first : Option α} {second : Option β}
    (related : Option.Rel R first second)
    (weaker : ∀ a b, first = some a → second = some b → R a b → S a b) :
    Option.Rel S first second := by
  cases related with
  | none => exact .none
  | some related => exact .some (weaker _ _ rfl rfl related)

theorem rel_isSome {α β : Type} {R : α → β → Prop} {first : Option α} {second : Option β}
    (related : Option.Rel R first second) : first.isSome = second.isSome := by
  cases related <;> rfl

theorem rel_or {α β : Type} {R : α → β → Prop} {first second : Option α} {third fourth : Option β}
    (left : Option.Rel R first third) (right : Option.Rel R second fourth) :
    Option.Rel R (first.or second) (third.or fourth) := by
  cases left with
  | none => exact right
  | some related => exact .some related

theorem forall₂_mono {α β : Type} {R S : α → β → Prop} {first : List α} {second : List β}
    (related : List.Forall₂ R first second)
    (weaker : ∀ a ∈ first, ∀ b ∈ second, R a b → S a b) : List.Forall₂ S first second := by
  induction related with
  | nil => exact .nil
  | cons here _ ih =>
    exact .cons (weaker _ List.mem_cons_self _ List.mem_cons_self here)
      (ih fun a member b member' =>
        weaker a (List.mem_cons_of_mem _ member) b (List.mem_cons_of_mem _ member'))

theorem forall₂_trans {α β γ : Type} {R : α → β → Prop} {S : β → γ → Prop} {T : α → γ → Prop}
    {first : List α} {second : List β} {third : List γ} (left : List.Forall₂ R first second)
    (right : List.Forall₂ S second third) (compose : ∀ a ∈ first, ∀ b c, R a b → S b c → T a c) :
    List.Forall₂ T first third := by
  induction left generalizing third with
  | nil =>
    cases right
    exact .nil
  | cons here _ ih =>
    cases right with
    | cons here' right =>
      exact .cons (compose _ List.mem_cons_self _ _ here here')
        (ih right fun a member => compose a (List.mem_cons_of_mem _ member))

namespace Fields

variable {α β γ : Type}

/-- Fields with the same distinct keys, in any order, and related values under each key. -/
structure Alike (R : α → β → Prop) (fields : Fields α) (others : Fields β) : Prop where
  distinct : fields.keys.Nodup
  distinct' : others.keys.Nodup
  related : ∀ key, Option.Rel R (fields.get? key) (others.get? key)

def Matches (R : α → β → Prop) (entry : String × α) (other : String × β) : Prop :=
  entry.1 = other.1 ∧ R entry.2 other.2

theorem keys_eq_of_matches {R : α → β → Prop} {fields : Fields α} {others : Fields β}
    (matching : List.Forall₂ (Matches R) fields others) : fields.keys = others.keys := by
  induction matching with
  | nil => rfl
  | cons first _ ih =>
    rw [keys, keys, List.map_cons, List.map_cons, first.1]
    exact congrArg _ ih

theorem get?_of_matches {R : α → β → Prop} {fields : Fields α} {others : Fields β}
    (matching : List.Forall₂ (Matches R) fields others) (key : String) :
    Option.Rel R (fields.get? key) (others.get? key) := by
  induction matching with
  | nil => exact .none
  | @cons entry other _ _ first _ ih =>
    rw [get?, get?, first.1]
    split
    · exact .some first.2
    · exact ih

theorem get?_perm {fields others : Fields α} (distinct : fields.keys.Nodup)
    (perm : fields.Perm others) (key : String) : fields.get? key = others.get? key := by
  cases found : others.get? key with
  | none =>
    rw [get?_eq_none_iff] at found ⊢
    exact fun member => found ((perm.map _).mem_iff.mp member)
  | some value => exact get?_of_mem distinct (perm.mem_iff.mpr (mem_of_get? found))

namespace Alike

variable {R : α → β → Prop} {S : β → γ → Prop} {T : α → γ → Prop} {fields : Fields α}
  {others : Fields β} {more : Fields γ}

theorem flip (alike : Alike R fields others) : Alike (fun b a => R a b) others fields := by
  refine ⟨alike.distinct', alike.distinct, fun key => ?_⟩
  rcases rel_cases (alike.related key) with ⟨first, second⟩ | ⟨a, b, first, second, related⟩
  · rw [first, second]
    exact .none
  · rw [first, second]
    exact .some related

theorem exists_partner (alike : Alike R fields others) {entry : String × α}
    (member : entry ∈ fields) :
    ∃ other, others.get? entry.1 = some other ∧ R entry.2 other := by
  have here : fields.get? entry.1 = some entry.2 := get?_of_mem alike.distinct member
  rcases rel_cases (alike.related entry.1) with ⟨absent, -⟩ | ⟨_, other, found, there, related⟩
  · rw [here] at absent
    cases absent
  · rw [here] at found
    cases found
    exact ⟨other, there, related⟩

theorem imp {R' : α → β → Prop} (alike : Alike R fields others)
    (weaker : ∀ entry ∈ fields, ∀ other, R entry.2 other → R' entry.2 other) :
    Alike R' fields others :=
  ⟨alike.distinct, alike.distinct', fun key => rel_mono (alike.related key)
    fun _ b found _ related => weaker _ (mem_of_get? found) b related⟩

theorem trans (first : Alike R fields others) (second : Alike S others more)
    (compose : ∀ entry ∈ fields, ∀ b c, R entry.2 b → S b c → T entry.2 c) :
    Alike T fields more := by
  refine ⟨first.distinct, second.distinct', fun key => ?_⟩
  rcases rel_cases (first.related key) with ⟨left, middle⟩ | ⟨a, b, left, middle, related⟩
  · rcases rel_cases (second.related key) with ⟨-, right⟩ | ⟨_, _, found, -⟩
    · rw [left, right]
      exact .none
    · rw [middle] at found
      cases found
  · rcases rel_cases (second.related key) with ⟨absent, -⟩ | ⟨_, c, found, right, related'⟩
    · rw [middle] at absent
      cases absent
    · rw [middle] at found
      cases found
      rw [left, right]
      exact .some (compose _ (mem_of_get? left) b c related related')

theorem exists_matches {fields : Fields α} {others : Fields β}
    (found : ∀ other ∈ others, ∃ value, fields.get? other.1 = some value ∧ R value other.2) :
    ∃ middle : Fields α, middle ⊆ fields ∧ List.Forall₂ (Matches R) middle others := by
  induction others with
  | nil => exact ⟨[], List.nil_subset _, .nil⟩
  | cons other rest ih =>
    rcases List.forall_mem_cons.mp found with ⟨⟨value, here, related⟩, later⟩
    rcases ih later with ⟨middle, inside, matching⟩
    exact ⟨(other.1, value) :: middle, List.cons_subset.mpr ⟨mem_of_get? here, inside⟩,
      .cons ⟨rfl, related⟩ matching⟩

/-- The entries in the order of the other fields match those one by one. -/
theorem exists_perm (alike : Alike R fields others) :
    ∃ middle : Fields α, fields.Perm middle ∧ List.Forall₂ (Matches R) middle others := by
  rcases exists_matches fun _ member => alike.flip.exists_partner member with
    ⟨middle, inside, matching⟩
  have names := keys_eq_of_matches matching
  have distinct : middle.Nodup := by
    have apart := alike.distinct'
    rw [← names] at apart
    exact List.Nodup.of_map _ apart
  have covered : fields.keys ⊆ middle.keys := by
    intro key member
    by_contra absent
    rw [names, ← get?_eq_none_iff] at absent
    rcases rel_cases (alike.related key) with ⟨missing, -⟩ | ⟨_, _, -, there, -⟩
    · exact get?_eq_none_iff.mp missing member
    · rw [absent] at there
      cases there
  have long : fields.length ≤ middle.length := by
    have short := (List.subperm_of_subset alike.distinct covered).length_le
    rwa [keys, keys, List.length_map, List.length_map] at short
  exact ⟨middle, ((List.subperm_of_subset distinct inside).perm_of_length_le long).symm, matching⟩

theorem of_perm {middle : Fields α} (distinct : fields.keys.Nodup) (perm : fields.Perm middle)
    (matching : List.Forall₂ (Matches R) middle others) : Alike R fields others := by
  refine ⟨distinct, ?_, fun key => ?_⟩
  · rw [← keys_eq_of_matches matching]
    exact (perm.map _).nodup distinct
  · rw [get?_perm distinct perm key]
    exact get?_of_matches matching key

end Alike
end Fields

end ParticleSim
