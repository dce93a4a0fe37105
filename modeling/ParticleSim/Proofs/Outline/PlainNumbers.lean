import ParticleSim.Proofs.Number.Numeral
import ParticleSim.Outline.Plain
/-!
Two filters stand before the readers of numbers. They change nothing: a text that they keep away is
no numeral, and the words that the reader of floats takes as well never come to it.
-/
namespace ParticleSim.Outline.Plain

variable {text : List Char}

theorem inFloat_of_digit {c : Char} (digit : isDigit c = true) : inFloat c = true := by
  rw [inFloat, digit, Bool.true_or]

theorem inFloat_mantissa {n places : Nat} (writes : WritesMantissa text n places) :
    ∀ c ∈ text, inFloat c = true := by
  cases writes with
  | whole nonempty natural => exact fun c member => inFloat_of_digit (natural.digit c member)
  | pointed nonempty natural =>
    have digits := fun c member => inFloat_of_digit (natural.digit c member)
    rw [List.forall_mem_append] at digits
    exact List.forall_mem_append.mpr ⟨digits.1, List.forall_mem_cons.mpr ⟨rfl, digits.2⟩⟩
  | fraction nonempty natural =>
    exact List.forall_mem_cons.mpr
      ⟨rfl, fun c member => inFloat_of_digit (natural.digit c member)⟩

theorem inFloat_exponent {power : Int} (writes : WritesExponent text power) :
    ∀ c ∈ text, inFloat c = true := by
  cases writes with
  | absent => exact List.forall_mem_nil _
  | present letters integer =>
    refine List.forall_mem_cons.mpr ⟨by rcases letters with rfl | rfl <;> rfl, ?_⟩
    rcases integer with ⟨signed, nonempty, natural⟩
    refine List.forall_mem_append.mpr
      ⟨?_, fun c member => inFloat_of_digit (natural.digit c member)⟩
    cases signed with
    | absent => exact List.forall_mem_nil _
    | plus => exact List.forall_mem_singleton.mpr rfl
    | minus => exact List.forall_mem_singleton.mpr rfl

theorem startsFloat_digits {digits : List Char} (nonempty : digits ≠ [])
    (all : ∀ c ∈ digits, isDigit c = true) (rest : List Char) :
    (digits ++ rest).head?.any startsFloat = true := by
  rcases List.exists_cons_of_ne_nil nonempty with ⟨c, others, rfl⟩
  rw [List.cons_append, List.head?_cons, Option.any_some, startsFloat,
    all c List.mem_cons_self, Bool.true_or]

theorem startsFloat_mantissa {n places : Nat} (writes : WritesMantissa text n places)
    (rest : List Char) : (text ++ rest).head?.any startsFloat = true := by
  cases writes with
  | whole nonempty natural => exact startsFloat_digits nonempty natural.digit rest
  | pointed nonempty natural =>
    rw [List.append_assoc]
    exact startsFloat_digits nonempty
      (fun c member => natural.digit c (List.mem_append_left _ member)) _
  | fraction => rfl

theorem looksLikeFloat_of_unsigned? {negative : Bool} {literal : Literal}
    (found : Literal.unsigned? negative text = some literal) : looksLikeFloat text = true := by
  rcases Literal.unsigned?_eq_some_iff.mp found with
    ⟨mantissa, exponent, n, places, power, rfl, digits, scaled, -⟩
  rw [looksLikeFloat, Bool.and_eq_true, Bool.and_eq_true, List.any_eq_true, List.all_eq_true]
  exact ⟨⟨startsFloat_mantissa digits exponent,
    (WritesDecimal.mk .absent digits scaled).exists_digit⟩,
    List.forall_mem_append.mpr ⟨inFloat_mantissa digits, inFloat_exponent scaled⟩⟩

theorem toLower_of_startsFloat {c : Char} (starts : startsFloat c = true) : c.toLower = c := by
  rw [startsFloat, Bool.or_eq_true, beq_iff_eq] at starts
  rcases starts with digit | rfl
  · rw [isDigit, Bool.and_eq_true, decide_eq_true_eq, decide_eq_true_eq] at digit
    have high : c.toNat ≤ 57 := digit.2
    refine dif_neg fun upper => ?_
    have low : 65 ≤ c.toNat := upper.1
    omega
  · rfl

theorem specialNumber?_of_startsFloat
    (starts : (splitSign text).2.head?.any startsFloat = true) : specialNumber? text = none := by
  rw [specialNumber?]
  generalize splitSign text = parts at starts ⊢
  rcases parts with ⟨negative, _ | ⟨c, rest⟩⟩
  · cases starts
  · have same := toLower_of_startsFloat starts
    have other : c ≠ 'i' ∧ c ≠ 'n' := by
      constructor <;> rintro rfl <;> cases starts
    have infinity : "infinity".toList = ['i', 'n', 'f', 'i', 'n', 'i', 't', 'y'] := rfl
    simp [same, other, infinity]

theorem floatOrString_eq (starts : (splitSign text).2.head?.any startsFloat = true) :
    floatOrString text = match Literal.ofText? text with
      | some literal => .float literal.toFloat
      | none => .string (String.ofList text) := by
  rw [floatOrString, number?, specialNumber?_of_startsFloat starts]
  cases Literal.ofText? text <;> rfl

/-- An integer that fits 64 bits, any other numeral as a float, or else the text itself. -/
theorem number_eq (text : List Char) : number text =
    match int64? text with
    | some n => .integer n
    | none =>
      match Literal.ofText? text with
      | some literal => .float literal.toFloat
      | none => .string (String.ofList text) := by
  rw [number]
  split
  · next digits =>
    cases int64? text with
    | some n => rfl
    | none =>
      rw [isDigits_iff] at digits
      have starts := startsFloat_digits digits.1 digits.2.digit []
      rw [List.append_nil] at starts
      exact floatOrString_eq starts
  · next mixed =>
    have noInteger : int64? text = none := by
      rw [int64?]
      exact if_neg mixed
    rw [noInteger]
    split
    · next filtered =>
      rw [looksLikeFloat, Bool.and_eq_true, Bool.and_eq_true] at filtered
      exact floatOrString_eq filtered.1.1
    · next filtered =>
      have noLiteral : Literal.ofText? text = none := by
        by_contra found
        rcases Option.ne_none_iff_exists'.mp found with ⟨literal, found⟩
        exact filtered (looksLikeFloat_of_unsigned? found)
      rw [noLiteral]

end ParticleSim.Outline.Plain
