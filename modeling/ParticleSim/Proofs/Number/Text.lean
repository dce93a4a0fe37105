import Mathlib.Tactic
import ParticleSim.Proofs.Number.Literal
import ParticleSim.Proofs.Number.Shortest

namespace ParticleSim

def EndsDigits (text : List Char) : Prop := ∀ c ∈ text.head?, isDigit c = false

theorem takeWhile_digits {digits rest : List Char} (all : ∀ c ∈ digits, isDigit c = true)
    (stop : EndsDigits rest) : (digits ++ rest).takeWhile isDigit = digits := by
  rw [List.takeWhile_append_of_pos all]
  cases rest with
  | nil => simp
  | cons c rest =>
    have last : isDigit c = false := stop c rfl
    rw [List.takeWhile_cons_of_neg (by simp [last]), List.append_nil]

theorem dropWhile_digits {digits rest : List Char} (all : ∀ c ∈ digits, isDigit c = true)
    (stop : EndsDigits rest) : (digits ++ rest).dropWhile isDigit = rest := by
  rw [List.dropWhile_append_of_pos all]
  cases rest with
  | nil => rfl
  | cons c rest =>
    have last : isDigit c = false := stop c rfl
    rw [List.dropWhile_cons_of_neg (by simp [last])]

theorem isDigits_of_all {digits : List Char} (nonempty : digits ≠ [])
    (all : ∀ c ∈ digits, isDigit c = true) : isDigits digits = true := by
  rw [isDigits, Bool.and_eq_true, List.all_eq_true]
  refine ⟨?_, all⟩
  cases digits with
  | nil => exact absurd rfl nonempty
  | cons c rest => rfl

@[simp]
theorem splitSign_minus (rest : List Char) : splitSign ('-' :: rest) = (true, rest) := rfl

theorem splitSign_head {c : Char} (digit : isDigit c = true) (rest : List Char) :
    splitSign (c :: rest) = (false, c :: rest) := by
  rw [splitSign.eq_def]
  split
  · next same => cases same; exact absurd digit (by decide)
  · next same => cases same; exact absurd digit (by decide)
  · rfl

theorem splitSign_digits {digits : List Char} (all : ∀ c ∈ digits, isDigit c = true) :
    splitSign digits = (false, digits) := by
  cases digits with
  | nil => rfl
  | cons c rest => exact splitSign_head (all c (List.mem_cons_self ..)) rest

theorem int64?_intText (n : Int64) : int64? (intText n.toInt) = some n := by
  have digits := Decimal.isDigit_digitsOf n.toInt.natAbs
  have valid := isDigits_of_all (Decimal.digitsOf_ne_nil n.toInt.natAbs) digits
  have range : Int64.minValue.toInt ≤ n.toInt ∧ n.toInt ≤ Int64.maxValue.toInt :=
    ⟨Int64.minValue_le_toInt n, Int64.toInt_le n⟩
  rw [int64?, intText]
  by_cases below : n.toInt < 0
  · have value : -(n.toInt.natAbs : Int) = n.toInt := by omega
    rw [if_pos below, splitSign_minus]
    dsimp only
    rw [if_pos valid, if_pos rfl, Decimal.ofDigits_digitsOf, value, if_pos range, Int64.ofInt_toInt]
  · have value : (n.toInt.natAbs : Int) = n.toInt := by omega
    rw [if_neg below, splitSign_digits digits]
    dsimp only
    rw [if_pos valid, if_neg Bool.false_ne_true, Decimal.ofDigits_digitsOf, value, if_pos range,
      Int64.ofInt_toInt]

def isNumeral (c : Char) : Bool :=
  isDigit c || c ∈ ['.', '-', '+', 'e']

namespace Literal

theorem unsigned_point (negative : Bool) {whole fraction : List Char} (nonempty : whole ≠ [])
    (wholeDigits : ∀ c ∈ whole, isDigit c = true)
    (fractionDigits : ∀ c ∈ fraction, isDigit c = true) :
    unsigned? negative (whole ++ '.' :: fraction) =
      some ⟨negative, ofDigits (whole ++ fraction), -fraction.length⟩ := by
  have stop : EndsDigits ('.' :: fraction) := by
    intro c same
    cases same
    decide
  have none_left : EndsDigits [] := by
    intro c same
    cases same
  have front := takeWhile_digits fractionDigits none_left
  have back := dropWhile_digits fractionDigits none_left
  rw [List.append_nil] at front back
  rw [unsigned?, takeWhile_digits wholeDigits stop, dropWhile_digits wholeDigits stop]
  simp only [front, back]
  cases whole with
  | nil => exact absurd rfl nonempty
  | cons c rest => simp [exponent?]

theorem unsigned_exponent (negative : Bool) {whole fraction exponent : List Char}
    (nonempty : whole ≠ []) (wholeDigits : ∀ c ∈ whole, isDigit c = true)
    (fractionDigits : ∀ c ∈ fraction, isDigit c = true) {minus : Bool} {digits : List Char}
    (parts : splitSign exponent = (minus, digits)) (valid : isDigits digits = true) :
    unsigned? negative
        (whole ++ (if fraction = [] then [] else '.' :: fraction) ++ 'e' :: exponent) =
      some ⟨negative, ofDigits (whole ++ fraction),
        (if minus then -(ofDigits digits : Int) else ofDigits digits) - fraction.length⟩ := by
  have exponentValue : exponent? ('e' :: exponent) =
      some (if minus then -(ofDigits digits : Int) else ofDigits digits) := by
    rw [exponent?, parts]
    simp [valid]
  have stopE : EndsDigits ('e' :: exponent) := by
    intro c same
    cases same
    decide
  by_cases empty : fraction = []
  · subst empty
    rw [if_pos rfl, List.append_nil, unsigned?, takeWhile_digits wholeDigits stopE,
      dropWhile_digits wholeDigits stopE]
    cases whole with
    | nil => exact absurd rfl nonempty
    | cons c rest => simp [exponentValue]
  · have stopPoint : EndsDigits ('.' :: fraction ++ 'e' :: exponent) := by
      intro c same
      cases same
      decide
    rw [if_neg empty, List.append_assoc, unsigned?, takeWhile_digits wholeDigits stopPoint,
      dropWhile_digits wholeDigits stopPoint]
    simp only [List.cons_append, takeWhile_digits fractionDigits stopE,
      dropWhile_digits fractionDigits stopE, exponentValue]
    cases whole with
    | nil => exact absurd rfl nonempty
    | cons c rest => simp

end Literal

def Decimal.value (d : Decimal) : ℚ :=
  ofDigits d.digits * 10 ^ (d.point - d.digits.length)

namespace Format

variable {d : Decimal} (nonempty : d.digits ≠ []) (all : ∀ c ∈ d.digits, isDigit c = true)
include nonempty all

/-- Digits with a point in its place write the value of the decimal. -/
theorem positionalText_literal (negative : Bool) :
    ∃ c k, Literal.unsigned? negative (positionalText true d) = some ⟨negative, c, k⟩ ∧
      (c : ℚ) * 10 ^ k = d.value := by
  have zeros : ∀ count : Nat, ∀ c ∈ List.replicate count '0', isDigit c = true := by
    intro count c member
    rw [List.eq_of_mem_replicate member]
    rfl
  rw [positionalText]
  split
  · next low =>
    refine ⟨_, _, Literal.unsigned_point negative (List.cons_ne_nil '0' []) ?_ ?_, ?_⟩
    · intro c member
      rw [List.mem_singleton.mp member]
      rfl
    · intro c member
      rcases List.mem_append.mp member with zero | digit
      · exact zeros _ c zero
      · exact all c digit
    · have front : ofDigits (['0'] ++ (List.replicate (-d.point).toNat '0' ++ d.digits)) =
          ofDigits d.digits := by
        rw [← List.append_assoc]
        exact ofDigits_zeros_append ((-d.point).toNat + 1) d.digits
      change (ofDigits (['0'] ++ (List.replicate (-d.point).toNat '0' ++ d.digits)) : ℚ) *
        10 ^ (-((List.replicate (-d.point).toNat '0' ++ d.digits).length : Int)) = _
      rw [front, Decimal.value]
      congr 2
      rw [List.length_append, List.length_replicate]
      omega
  · next high =>
    split
    · next inside =>
      refine ⟨_, _, Literal.unsigned_point negative ?_ ?_ ?_, ?_⟩
      · intro empty
        have := congrArg List.length empty
        rw [List.length_take, List.length_nil] at this
        omega
      · exact fun c member => all c (List.mem_of_mem_take member)
      · exact fun c member => all c (List.mem_of_mem_drop member)
      · rw [List.take_append_drop, Decimal.value, List.length_drop]
        congr 2
        omega
    · next above =>
      rw [if_pos rfl]
      have shape : ['.', '0'] = '.' :: ['0'] := rfl
      refine ⟨_, _, Literal.unsigned_point negative ?_ ?_ ?_, ?_⟩
      · exact fun empty => nonempty (List.append_eq_nil_iff.mp empty).1
      · intro c member
        rcases List.mem_append.mp member with digit | zero
        · exact all c digit
        · exact zeros _ c zero
      · intro c member
        rw [List.mem_singleton.mp member]
        rfl
      · have back := ofDigits_append_zeros (d.digits ++
          List.replicate (d.point - d.digits.length).toNat '0') 1
        rw [List.replicate_one, ofDigits_append_zeros] at back
        rw [back, Decimal.value]
        have exponent : d.point - d.digits.length =
          ((d.point - d.digits.length).toNat : Int) := by omega
        rw [exponent, zpow_natCast]
        push_cast
        simp only [List.length_singleton, Nat.cast_one, zpow_neg_one, Int.toNat_natCast]
        ring

theorem exponentText_literal (plusSign negative : Bool) :
    ∃ c k, Literal.unsigned? negative (exponentText plusSign d) = some ⟨negative, c, k⟩ ∧
      (c : ℚ) * 10 ^ k = d.value := by
  have digits := Decimal.isDigit_digitsOf (d.point - 1).natAbs
  have valid := isDigits_of_all (Decimal.digitsOf_ne_nil (d.point - 1).natAbs) digits
  have one : 0 < d.digits.length := List.length_pos_iff.mpr nonempty
  have shape : exponentText plusSign d = d.digits.take 1 ++
      (if d.digits.drop 1 = [] then [] else '.' :: d.digits.drop 1) ++ 'e' ::
        ((if d.point - 1 < 0 then ['-'] else if plusSign then ['+'] else []) ++
          Decimal.digitsOf (d.point - 1).natAbs) := by
    rw [exponentText]
    simp only [List.append_assoc, List.cons_append]
    congr 2
    by_cases single : d.digits.length ≤ 1
    · rw [if_pos single, if_pos (List.drop_eq_nil_of_le single)]
    · rw [if_neg single, if_neg (by rw [List.drop_eq_nil_iff]; exact single)]
  have parts : ∃ minus, splitSign ((if d.point - 1 < 0 then ['-'] else
      if plusSign then ['+'] else []) ++ Decimal.digitsOf (d.point - 1).natAbs) =
        (minus, Decimal.digitsOf (d.point - 1).natAbs) ∧
      (if minus then -((d.point - 1).natAbs : Int) else (d.point - 1).natAbs) = d.point - 1 := by
    by_cases low : d.point - 1 < 0
    · refine ⟨true, ?_, ?_⟩
      · rw [if_pos low]
        rfl
      · rw [if_pos rfl]
        omega
    · refine ⟨false, ?_, ?_⟩
      · rw [if_neg low]
        cases plusSign
        · exact splitSign_digits digits
        · rfl
      · rw [if_neg Bool.false_ne_true]
        omega
  rcases parts with ⟨minus, split, exponent⟩
  rw [shape]
  refine ⟨_, _, Literal.unsigned_exponent negative ?_ ?_ ?_ split valid, ?_⟩
  · intro empty
    have := congrArg List.length empty
    rw [List.length_take, List.length_nil] at this
    omega
  · exact fun c member => all c (List.mem_of_mem_take member)
  · exact fun c member => all c (List.mem_of_mem_drop member)
  · rw [List.take_append_drop, Decimal.value, Decimal.ofDigits_digitsOf, exponent, List.length_drop]
    congr 2
    omega

def layout (format : Format) (d : Decimal) : List Char :=
  if format.isPositional d.point then positionalText format.pointZero d
  else exponentText format.plusSign d

theorem layout_literal {format : Format} (keepsPoint : format.pointZero = true)
    (negative : Bool) :
    ∃ c k, Literal.unsigned? negative (format.layout d) = some ⟨negative, c, k⟩ ∧
      (c : ℚ) * 10 ^ k = d.value := by
  rw [layout, keepsPoint]
  split
  · exact positionalText_literal nonempty all negative
  · exact exponentText_literal nonempty all _ negative

theorem layout_head (format : Format) :
    ∃ c rest, format.layout d = c :: rest ∧ isDigit c = true := by
  rcases List.exists_cons_of_ne_nil nonempty with ⟨c, rest, same⟩
  have digit : isDigit c = true := all c (by rw [same]; exact List.mem_cons_self ..)
  rw [layout, positionalText, exponentText, same]
  split
  · split
    · exact ⟨'0', _, rfl, rfl⟩
    · split
      · next high inside =>
        obtain ⟨n, count⟩ : ∃ n, d.point.toNat = n + 1 := ⟨d.point.toNat - 1, by omega⟩
        rw [count]
        exact ⟨c, _, rfl, digit⟩
      · exact ⟨c, _, rfl, digit⟩
  · exact ⟨c, _, rfl, digit⟩

omit nonempty in
theorem isNumeral_layout (format : Format) : ∀ c ∈ format.layout d, isNumeral c = true := by
  have digits : ∀ c, isDigit c = true → isNumeral c = true := by
    intro c digit
    rw [isNumeral, digit, Bool.true_or]
  have zeros : ∀ c count, c ∈ List.replicate count '0' → isNumeral c = true := by
    intro c count member
    rw [List.eq_of_mem_replicate member]
    rfl
  intro c member
  rw [layout, positionalText, exponentText] at member
  split at member
  · split at member
    · rw [List.cons_append, List.cons_append, List.mem_cons, List.mem_cons,
        List.mem_append] at member
      rcases member with rfl | rfl | member | member
      · rfl
      · rfl
      · exact zeros c _ member
      · exact digits c (all c member)
    · split at member
      · rw [List.mem_append, List.mem_cons] at member
        rcases member with member | rfl | member
        · exact digits c (all c (List.mem_of_mem_take member))
        · rfl
        · exact digits c (all c (List.mem_of_mem_drop member))
      · rw [List.mem_append, List.mem_append] at member
        rcases member with (member | member) | member
        · exact digits c (all c member)
        · exact zeros c _ member
        · split at member
          · rw [List.mem_cons, List.mem_singleton] at member
            rcases member with rfl | rfl <;> rfl
          · cases member
  · rw [List.mem_append, List.mem_append, List.mem_append, List.mem_cons] at member
    rcases member with ((member | member) | rfl | member) | member
    · exact digits c (all c (List.mem_of_mem_take member))
    · split at member
      · cases member
      · rw [List.mem_cons] at member
        rcases member with rfl | member
        · rfl
        · exact digits c (all c (List.mem_of_mem_drop member))
    · rfl
    · split at member
      · rw [List.mem_singleton.mp member]
        rfl
      · split at member
        · rw [List.mem_singleton.mp member]
          rfl
        · cases member
    · exact digits c (Decimal.isDigit_digitsOf _ c member)

omit nonempty all in
/-- With whole numbers ending in `.0`, no layout is a run of digits. -/
theorem layout_point {format : Format} (keepsPoint : format.pointZero = true) (d : Decimal) :
    ∃ c ∈ format.layout d, isDigit c = false := by
  rw [layout, positionalText, exponentText, keepsPoint]
  split
  · refine ⟨'.', ?_, rfl⟩
    split
    · simp
    · split <;> simp
  · exact ⟨'e', by simp, rfl⟩

end Format

namespace Binary64

def signedZero (negative : Bool) : Float :=
  .ofModel (.pack (.zero (signOf negative)))

theorem ofScientific_zero (minus : Bool) (k : Nat) :
    Float.ofScientific 0 minus k = signedZero false := by
  have zero : (0 : Nat).toUInt64.toFloat.toModel.unpack = .zero .positive :=
    unpack_zero (x := (0 : Nat).toUInt64.toFloat) (by decide) (by decide)
  rw [Float.ofScientific]
  split
  · next small =>
    have inside : k < Float.exactlyRepresentablePowersOfTen.size := by
      change k < 23
      omega
    rcases unpack_power inside with ⟨p, q, positive, -, unpacked⟩
    dsimp only
    split
    · change Float.ofModel (.pack (Float.Model.UnpackedFloat.div _
        (0 : Nat).toUInt64.toFloat.toModel.unpack
        Float.exactlyRepresentablePowersOfTen[k].toModel.unpack)) = _
      rw [zero, unpacked]
      rfl
    · change Float.ofModel (.pack (Float.Model.UnpackedFloat.mul _
        (0 : Nat).toUInt64.toFloat.toModel.unpack
        Float.exactlyRepresentablePowersOfTen[k].toModel.unpack)) = _
      rw [zero, unpacked]
      rfl
  · rfl

theorem toFloat_zero (negative : Bool) (k : Int) :
    (Literal.mk negative 0 k).toFloat = signedZero negative := by
  have flipped : -signedZero false = signedZero true := by decide
  rw [Literal.toFloat]
  dsimp only
  rw [ofScientific_zero]
  cases negative
  · rfl
  · exact flipped

theorem eq_signedZero {x : Float} (bottom : field x = 0) (zero : fraction x = 0) :
    x = signedZero (isNegative x) := by
  apply ext_bits
  rw [toBits_parts x, bottom, zero]
  cases isNegative x
  · decide
  · decide

end Binary64

/-- The shortest digits of a finite number, and any literal of their value, denote the number. -/
theorem Decimal.shortest_meaning {x : Float} (finite : Binary64.field x ≠ 2047) (tie : Tie) :
    (shortest tie (Binary64.exact x)).digits ≠ [] ∧
      (∀ c ∈ (shortest tie (Binary64.exact x)).digits, isDigit c = true) ∧
      ∀ (c : Nat) (k : Int), (c : ℚ) * 10 ^ k = (shortest tie (Binary64.exact x)).value →
        (Literal.mk (Binary64.isNegative x) c k).toFloat = x := by
  by_cases positive : 0 < (Binary64.exact x).significand
  · have canonical := Binary64.exact_canonical finite positive
    rcases shortest_spec canonical (Binary64.exact x).negative tie with ⟨c, k, same, rounds⟩
    have coefficient := Binary64.coefficient_pos canonical rounds
    rcases ofCoefficient_spec coefficient k with ⟨nonempty, all, value⟩
    rw [same]
    refine ⟨nonempty, all, fun c' k' equal => ?_⟩
    rw [← equal.trans value] at rounds
    rw [Binary64.toFloat_eq canonical rounds, Binary64.assemble_exact finite positive]
  · have parts : Binary64.field x = 0 ∧ Binary64.fraction x = 0 := by
      rw [Binary64.exact_significand] at positive
      split at positive
      · next bottom => exact ⟨bottom, by omega⟩
      · omega
    have same : shortest tie (Binary64.exact x) = ⟨['0'], 1⟩ := by
      rw [shortest, if_pos (by omega)]
    rw [same]
    refine ⟨List.cons_ne_nil _ _, List.all_eq_true.mp (by decide), fun c k equal => ?_⟩
    have zero : Decimal.value ⟨['0'], 1⟩ = 0 := by
      rw [Decimal.value]
      exact zero_mul _
    rw [zero, mul_eq_zero, or_iff_left (by positivity), Nat.cast_eq_zero] at equal
    subst equal
    exact (Binary64.toFloat_zero (Binary64.isNegative x) k).trans
      (Binary64.eq_signedZero parts.1 parts.2).symm

namespace Format

open Binary64

theorem finiteText_eq (format : Format) (x : Float) :
    format.finiteText x =
      if isNegative x then '-' :: format.layout (Decimal.shortest format.tie (exact x))
      else format.layout (Decimal.shortest format.tie (exact x)) := by
  rw [← exact_negative]
  rfl

theorem ofText_finiteText_of_layout {format : Format} {x : Float} (finite : field x ≠ 2047)
    {literal : Literal} (layout : Literal.unsigned? (isNegative x)
      (format.layout (Decimal.shortest format.tie (exact x))) = some literal) :
    Literal.ofText? (format.finiteText x) = some literal := by
  rcases Decimal.shortest_meaning finite format.tie with ⟨nonempty, all, -⟩
  rcases layout_head nonempty all format with ⟨first, rest, head, digit⟩
  rw [finiteText_eq, Literal.ofText?]
  cases negative : isNegative x with
  | true =>
    rw [negative] at layout
    simpa using layout
  | false =>
    rw [negative] at layout
    have plain := splitSign_head digit rest
    rw [head] at layout ⊢
    simpa [plain] using layout

theorem ofText_finiteText {format : Format} (keepsPoint : format.pointZero = true) {x : Float}
    (finite : field x ≠ 2047) :
    ∃ literal, Literal.ofText? (format.finiteText x) = some literal ∧ literal.toFloat = x := by
  rcases Decimal.shortest_meaning finite format.tie with ⟨nonempty, all, meaning⟩
  rcases layout_literal nonempty all keepsPoint (isNegative x) with ⟨c, k, literal, value⟩
  exact ⟨⟨isNegative x, c, k⟩, ofText_finiteText_of_layout finite literal, meaning c k value⟩

end Format
end ParticleSim
