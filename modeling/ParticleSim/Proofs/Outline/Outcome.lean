import Mathlib.Data.List.Basic
import ParticleSim.Outline.Line

namespace ParticleSim.Outline

def Meets {ε α : Type} (good : α → Prop) (bad : ε → Prop) : Except ε α → Prop
  | .ok value => good value
  | .error fault => bad fault

namespace Meets

variable {ε α β : Type} {good good' : α → Prop} {bad bad' : ε → Prop} {result : Except ε α}

theorem imp (meets : Meets good bad result) (values : ∀ value, good value → good' value)
    (faults : ∀ fault, bad fault → bad' fault) : Meets good' bad' result := by
  cases result with
  | ok value => exact values value meets
  | error fault => exact faults fault meets

theorem values (meets : Meets good bad result) (values : ∀ value, good value → good' value) :
    Meets good' bad result := meets.imp values fun _ same => same

theorem faults (meets : Meets good bad result) (faults : ∀ fault, bad fault → bad' fault) :
    Meets good bad' result := meets.imp (fun _ same => same) faults

theorem bind {then_ : β → Prop} {next : α → Except ε β} (first : Meets good bad result)
    (second : ∀ value, good value → Meets then_ bad (next value)) :
    Meets then_ bad (result >>= next) := by
  cases result with
  | ok value => exact second value first
  | error fault => exact first

theorem map {then_ : β → Prop} {f : α → β} (meets : Meets good bad result)
    (values : ∀ value, good value → then_ (f value)) : Meets then_ bad (result.map f) := by
  cases result with
  | ok value => exact values value meets
  | error fault => exact meets

theorem mapError {ε' : Type} {bad' : ε' → Prop} {f : ε → ε'} (meets : Meets good bad result)
    (faults : ∀ fault, bad fault → bad' (f fault)) : Meets good bad' (result.mapError f) := by
  cases result with
  | ok value => exact meets
  | error fault => exact faults fault meets

end Meets

def Blank (text : List Char) : Prop :=
  ∀ c ∈ text, c = ' '

theorem Blank.append {front back : List Char} (first : Blank front) (second : Blank back) :
    Blank (front ++ back) := by
  intro c member
  exact (List.mem_append.mp member).elim (first c) (second c)

theorem blank_replicate (n : Nat) : Blank (List.replicate n ' ') :=
  fun _ member => List.eq_of_mem_replicate member

theorem exists_blank_skipSpaces (text : List Char) :
    ∃ gap, Blank gap ∧ text = gap ++ skipSpaces text := by
  refine ⟨text.takeWhile isSpace, ?_, List.takeWhile_append_dropWhile.symm⟩
  intro c member
  exact beq_iff_eq.mp (List.all_eq_true.mp List.all_takeWhile c member)

theorem exists_blank_trimEnd (text : List Char) :
    ∃ gap, Blank gap ∧ text = trimEnd text ++ gap := by
  obtain ⟨gap, blank, same⟩ := exists_blank_skipSpaces text.reverse
  refine ⟨gap.reverse, fun c member => blank c (List.mem_reverse.mp member), ?_⟩
  calc
    text = text.reverse.reverse := (List.reverse_reverse text).symm
    _ = (skipSpaces text.reverse).reverse ++ gap.reverse := by
      conv_lhs => rw [same, List.reverse_append]

theorem skipSpaces_suffix (text : List Char) : skipSpaces text <:+ text :=
  List.dropWhile_suffix _

theorem trimEnd_isPrefix (text : List Char) : trimEnd text <+: text := by
  obtain ⟨gap, -, same⟩ := exists_blank_trimEnd text
  exact ⟨gap, same.symm⟩

theorem exists_trimEnd_append {c : Char} (other : c ≠ ' ') (front body : List Char) :
    ∃ kept gap, body = kept ++ gap ∧ trimEnd (front ++ c :: body) = front ++ c :: kept := by
  obtain ⟨gap, blank, same⟩ := exists_blank_trimEnd (front ++ c :: body)
  have outside : c ∉ gap := fun member => other (blank c member)
  rcases List.append_eq_append_iff.mp same with ⟨kept, trimmed, behind⟩ | ⟨more, -, behind⟩
  · cases kept with
    | nil =>
      rw [List.nil_append] at behind
      exact absurd (by simp [← behind]) outside
    | cons d kept =>
      obtain ⟨rfl, rfl⟩ := List.cons.inj behind
      exact ⟨kept, gap, rfl, trimmed⟩
  · exact absurd (by simp [behind]) outside

theorem ne_space_of_skipSpaces {text rest : List Char} {c : Char}
    (left : skipSpaces text = c :: rest) : c ≠ ' ' := by
  have other := List.head?_dropWhile_not isSpace text
  rw [show text.dropWhile isSpace = c :: rest from left] at other
  simpa [isSpace] using other

end ParticleSim.Outline
