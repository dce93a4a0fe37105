import Mathlib.Data.List.Basic
/-!
Writings that tell values apart. A value stands in front of what follows it without a mark between
the two, so more than its own text has to determine it: the text together with whatever may follow.
-/
namespace ParticleSim

variable {α β : Type}

/-- Valid values in front of continuations of a kind are told apart by the joint text, and so are
the continuations. -/
def Unambiguous (valid : α → Prop) (follow : List β → Prop) (write : α → List β) : Prop :=
  ∀ ⦃a b : α⦄ ⦃rest more : List β⦄, valid a → valid b → follow rest → follow more →
    write a ++ rest = write b ++ more → a = b ∧ rest = more

def SelfDelimiting (write : α → List β) : Prop :=
  ∀ ⦃a b : α⦄ ⦃rest more : List β⦄, write a ++ rest = write b ++ more → a = b ∧ rest = more

def StartsOutside (inside : β → Bool) (text : List β) : Prop :=
  ∀ c ∈ text.head?, inside c = false

theorem startsOutside_nil {inside : β → Bool} : StartsOutside inside [] := by
  intro first none
  cases none

theorem startsOutside_cons {inside : β → Bool} {c : β} (other : inside c = false)
    (rest : List β) : StartsOutside inside (c :: rest) := by
  intro first same
  cases same
  exact other

variable {valid : α → Prop} {follow : List β → Prop} {write : α → List β}

namespace SelfDelimiting

theorem of_length (length : Nat) (long : ∀ a, (write a).length = length)
    (injective : ∀ a b, write a = write b → a = b) : SelfDelimiting write := by
  intro a b rest more same
  rcases List.append_inj same ((long a).trans (long b).symm) with ⟨here, behind⟩
  exact ⟨injective a b here, behind⟩

theorem unambiguous (delimiting : SelfDelimiting write) : Unambiguous valid follow write :=
  fun _ _ _ _ _ _ _ _ same => delimiting same

end SelfDelimiting

namespace Unambiguous

/-- Texts over a class of characters end where another character stands. -/
theorem of_class {inside : β → Bool} (all : ∀ a, valid a → ∀ c ∈ write a, inside c = true)
    (injective : ∀ a b, write a = write b → a = b) :
    Unambiguous valid (StartsOutside inside) write := by
  have run : ∀ {a : α} {rest : List β}, valid a → StartsOutside inside rest →
      (write a ++ rest).takeWhile inside = write a := by
    intro a rest holds outside
    rw [List.takeWhile_append_of_pos (all a holds)]
    cases rest with
    | nil => exact List.append_nil _
    | cons c rest =>
      have stop : ¬inside c = true := Bool.eq_false_iff.mp (outside c rfl)
      rw [List.takeWhile_cons_of_neg stop, List.append_nil]
  intro a b rest more first second outside outside' same
  have here : write a = write b := by
    rw [← run first outside, ← run second outside', same]
  rw [here] at same
  exact ⟨injective a b here, List.append_cancel_left same⟩

theorem follow_flatMap (joins : ∀ a rest, valid a → follow rest → follow (write a ++ rest))
    {items : List α} (all : ∀ a ∈ items, valid a) {rest : List β} (behind : follow rest) :
    follow (items.flatMap write ++ rest) := by
  induction items with
  | nil => exact behind
  | cons a items ih =>
    rw [List.forall_mem_cons] at all
    rw [List.flatMap_cons, List.append_assoc]
    exact joins a _ all.1 (ih all.2)

/-- A list of values, one written behind the other, in front of a text that starts none. -/
theorem list (unambiguous : Unambiguous valid follow write)
    (joins : ∀ a rest, valid a → follow rest → follow (write a ++ rest)) :
    Unambiguous (fun items : List α => ∀ a ∈ items, valid a)
      (fun rest => follow rest ∧ ∀ a more, valid a → write a ++ more ≠ rest)
      (List.flatMap write) := by
  intro items others rest more all all' behind behind' same
  induction items generalizing others with
  | nil =>
    cases others with
    | nil => exact ⟨rfl, same⟩
    | cons b others =>
      rw [List.flatMap_nil, List.nil_append, List.flatMap_cons, List.append_assoc] at same
      exact absurd same.symm (behind.2 b _ (all' b List.mem_cons_self))
  | cons a items ih =>
    rw [List.forall_mem_cons] at all
    cases others with
    | nil =>
      rw [List.flatMap_nil, List.nil_append, List.flatMap_cons, List.append_assoc] at same
      exact absurd same (behind'.2 a _ all.1)
    | cons b others =>
      rw [List.forall_mem_cons] at all'
      rw [List.flatMap_cons, List.flatMap_cons, List.append_assoc, List.append_assoc] at same
      rcases unambiguous all.1 all'.1 (follow_flatMap joins all.2 behind.1)
        (follow_flatMap joins all'.2 behind'.1) same with ⟨rfl, later⟩
      rcases ih all.2 all'.2 later with ⟨rfl, last⟩
      exact ⟨rfl, last⟩

theorem flatMap_inj (unambiguous : Unambiguous valid follow write)
    (joins : ∀ a rest, valid a → follow rest → follow (write a ++ rest)) (empty : follow [])
    (nonempty : ∀ a, valid a → write a ≠ []) {items others : List α} (all : ∀ a ∈ items, valid a)
    (all' : ∀ a ∈ others, valid a) (same : items.flatMap write = others.flatMap write) :
    items = others := by
  have ends : follow [] ∧ ∀ a more, valid a → write a ++ more ≠ [] :=
    ⟨empty, fun a _ holds => List.append_ne_nil_of_left_ne_nil (nonempty a holds) _⟩
  exact (unambiguous.list joins all all' ends ends (congrArg (· ++ []) same)).1

end Unambiguous
end ParticleSim
