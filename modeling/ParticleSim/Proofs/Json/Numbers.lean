import Mathlib.Data.List.DropRight
import ParticleSim.Json.Reader
import ParticleSim.Json.Writer
import ParticleSim.Proofs.Number.Numeral
import ParticleSim.Proofs.Number.Text
import ParticleSim.Proofs.Number.Units

namespace ParticleSim

theorem Decimal.head_digitsOf {n : Nat} (positive : 0 < n) :
    (digitsOf n).head? ≠ some '0' := by
  have digit : ∀ d < 10, 0 < d → Nat.digitChar d ≠ '0' := by decide
  induction n using Nat.strong_induction_on with
  | _ n ih =>
    by_cases small : n < 10
    · rw [digitsOf_small small, List.head?_cons, ne_eq, Option.some_inj]
      exact digit n small positive
    · rw [digitsOf_large (Nat.not_lt.mp small),
        List.head?_append_of_ne_nil _ (digitsOf_ne_nil _)]
      exact ih (n / 10) (by omega) (by omega)

namespace Json

/-- What stands behind a value: nothing, or a comma, a closing bracket or a line break. -/
def Closes (rest : List Char) : Prop :=
  ∀ c ∈ rest.head?, c ∈ [',', ']', '}', '\n']

theorem closes_nil : Closes [] := by
  intro c none
  cases none

theorem closes_cons {c : Char} (mark : c ∈ [',', ']', '}', '\n']) (rest : List Char) :
    Closes (c :: rest) := by
  intro first same
  cases same
  exact mark

theorem closing_other {c : Char} (mark : c ∈ [',', ']', '}', '\n']) :
    isDigit c = false ∧ c ≠ 'e' ∧ c ≠ 'E' := by
  simp only [List.mem_cons, List.not_mem_nil, or_false] at mark
  rcases mark with rfl | rfl | rfl | rfl <;> decide

theorem Closes.endsDigits {rest : List Char} (closes : Closes rest) : EndsDigits rest :=
  fun c first => (closing_other (closes c first)).1

theorem Closes.ne {rest : List Char} (closes : Closes rest) {c : Char}
    (other : c ∉ [',', ']', '}', '\n']) : rest.head? ≠ some c :=
  fun first => other (closes c first)

theorem Closes.noExponent {rest : List Char} (closes : Closes rest) :
    ∀ c ∈ rest.head?, c ≠ 'e' ∧ c ≠ 'E' :=
  fun c first => (closing_other (closes c first)).2

def Leads (whole : List Char) : Prop :=
  whole.length = 1 ∨ whole.head? ≠ some '0'

section Parts

variable {whole fraction digits tail middle rest : List Char}

theorem readFraction?_absent (noPoint : rest.head? ≠ some '.') :
    readFraction? rest = some (none, rest) := by
  rw [readFraction?.eq_def]
  split
  · next same => exact absurd rfl noPoint
  · rfl

theorem readFraction?_present (nonempty : fraction ≠ [])
    (all : ∀ c ∈ fraction, isDigit c = true) (stop : EndsDigits middle) :
    readFraction? ('.' :: (fraction ++ middle)) = some (some fraction, middle) := by
  rw [readFraction?, takeWhile_digits all stop, dropWhile_digits all stop, if_neg]
  rw [List.isEmpty_iff]
  exact nonempty

theorem readExponent?_absent (noMark : ∀ c ∈ rest.head?, c ≠ 'e' ∧ c ≠ 'E') :
    readExponent? rest = some (none, rest) := by
  cases rest with
  | nil => rfl
  | cons c rest =>
    have marks := noMark c rfl
    rw [readExponent?, if_neg]
    simp [marks]

theorem readExponent?_present {negative : Bool} {sign : List Char}
    (split : splitSign (sign ++ digits ++ rest) = (negative, digits ++ rest))
    (nonempty : digits ≠ []) (all : ∀ c ∈ digits, isDigit c = true) (stop : EndsDigits rest) :
    readExponent? ('e' :: (sign ++ digits ++ rest)) =
      some (some (if negative then -(ofDigits digits : Int) else ofDigits digits), rest) := by
  rw [readExponent?, if_pos (by decide), split]
  dsimp only
  rw [takeWhile_digits all stop, dropWhile_digits all stop, if_neg]
  rw [List.isEmpty_iff]
  exact nonempty

def readUnsigned? (negative : Bool) (text : List Char) : Option (NumberParts × List Char) := do
  let whole := text.takeWhile isDigit
  guard (!whole.isEmpty && (whole.length == 1 || whole.head? != some '0'))
  let (fraction, rest) ← readFraction? (text.dropWhile isDigit)
  let (exponent, rest) ← readExponent? rest
  return (⟨negative, whole, fraction, exponent⟩, rest)

theorem readNumber?_minus (text : List Char) :
    readNumber? ('-' :: text) = readUnsigned? true text := rfl

theorem readNumber?_digit {c : Char} (digit : isDigit c = true) (text : List Char) :
    readNumber? (c :: text) = readUnsigned? false (c :: text) := by
  rw [readNumber?.eq_def]
  split
  next negative rest same =>
    split at same
    · next minus =>
      cases minus
      cases digit
    · cases same
      rfl

theorem readUnsigned?_parts (negative : Bool) {part : Option (List Char)} {power : Option Int}
    (nonempty : whole ≠ []) (all : ∀ c ∈ whole, isDigit c = true) (leads : Leads whole)
    (stop : EndsDigits tail) (fractionRead : readFraction? tail = some (part, middle))
    (exponentRead : readExponent? middle = some (power, rest)) :
    readUnsigned? negative (whole ++ tail) = some (⟨negative, whole, part, power⟩, rest) := by
  have valid : (!whole.isEmpty && (whole.length == 1 || whole.head? != some '0')) = true := by
    rw [Bool.and_eq_true, Bool.not_eq_true', List.isEmpty_eq_false_iff, Bool.or_eq_true,
      beq_iff_eq, bne_iff_ne]
    exact ⟨nonempty, leads⟩
  simp only [readUnsigned?, takeWhile_digits all stop, dropWhile_digits all stop, valid, guard,
    if_true, fractionRead, Option.bind_eq_bind, Option.pure_def, Option.bind_some, exponentRead]

end Parts

theorem le_foldl_digits (digits : List Char) (total : Nat) :
    total ≤ digits.foldl (fun total c => 10 * total + digitValue c) total := by
  induction digits generalizing total with
  | nil => exact Nat.le_refl total
  | cons c rest ih =>
    have first : total ≤ 10 * total + digitValue c := by omega
    exact Nat.le_trans first (ih _)

theorem absorb_eq {digits : List Char} {significand : Nat}
    (fits : digits.foldl (fun total c => 10 * total + digitValue c) significand < UInt64.size) :
    absorb significand digits =
      (digits.foldl (fun total c => 10 * total + digitValue c) significand, digits.length) := by
  induction digits generalizing significand with
  | nil => rfl
  | cons c rest ih =>
    rw [List.foldl_cons] at fits
    rw [absorb, if_pos (Nat.lt_of_le_of_lt (le_foldl_digits rest _) fits), ih fits]
    rfl

def integerParts (n : Int) : NumberParts :=
  ⟨decide (n < 0), Decimal.digitsOf n.natAbs, none, none⟩

theorem readNumber?_intText (n : Int) {rest : List Char} (closes : Closes rest) :
    readNumber? (intText n ++ rest) = some (integerParts n, rest) := by
  have digits := Decimal.isDigit_digitsOf n.natAbs
  have leads : Leads (Decimal.digitsOf n.natAbs) := by
    by_cases zero : n.natAbs = 0
    · rw [zero]
      exact .inl rfl
    · exact .inr (Decimal.head_digitsOf (Nat.pos_of_ne_zero zero))
  have unsigned := readUnsigned?_parts (decide (n < 0)) (Decimal.digitsOf_ne_nil _) digits
    leads closes.endsDigits (readFraction?_absent (closes.ne (by decide)))
    (readExponent?_absent closes.noExponent)
  rw [integerParts, ← unsigned, intText]
  by_cases negative : n < 0
  · rw [if_pos negative, List.cons_append, readNumber?_minus, decide_eq_true negative]
  · rcases List.exists_cons_of_ne_nil (Decimal.digitsOf_ne_nil n.natAbs) with ⟨c, others, same⟩
    rw [same] at digits
    rw [if_neg negative, decide_eq_false negative, same, List.cons_append,
      readNumber?_digit (digits c List.mem_cons_self)]

def Number.ofInt64 (n : Int64) : Number :=
  if n.toInt < 0 then .negative n else .natural n.toInt.natAbs.toUInt64

theorem ofNumber_ofInt64 (n : Int64) : Scalar.ofNumber (.ofInt64 n) = .integer n := by
  have high := Int64.toInt_le n
  have maximum : Int64.maxValue.toInt = 2 ^ 63 - 1 := by decide
  have size : UInt64.size = 2 ^ 64 := rfl
  rw [Scalar.ofNumber, Number.ofInt64]
  by_cases negative : n.toInt < 0
  · rw [if_pos negative]
    rfl
  · have count : n.toInt.natAbs.toUInt64.toNat = n.toInt.natAbs :=
      UInt64.toNat_ofNat_of_lt' (by omega)
    have value : (n.toInt.natAbs : Int) = n.toInt := by omega
    rw [if_neg negative, Number.int64?.eq_1, count, value, if_pos high, Int64.ofInt_toInt]

theorem absorb_digitsOf {n : Nat} (fits : n < UInt64.size) :
    absorb 0 (Decimal.digitsOf n) = (n, (Decimal.digitsOf n).length) := by
  have value := Decimal.ofDigits_digitsOf n
  rw [absorb_eq]
  · rw [← ofDigits, value]
  · rwa [← ofDigits, value]

theorem toNumber?_integerParts (floats : Floats) (n : Int64) :
    (integerParts n.toInt).toNumber? floats = some (.ofInt64 n) := by
  have low := Int64.minValue_le_toInt n
  have high := Int64.toInt_le n
  have minimum : Int64.minValue.toInt = -2 ^ 63 := by decide
  have maximum : Int64.maxValue.toInt = 2 ^ 63 - 1 := by decide
  have size : UInt64.size = 2 ^ 64 := rfl
  have kept := absorb_digitsOf (show n.toInt.natAbs < UInt64.size by omega)
  rw [NumberParts.toNumber?, integerParts, Number.ofInt64]
  simp only [kept, Option.isNone_none, Bool.and_self, decide_true, if_true, decide_eq_true_eq]
  split
  · next negative =>
    have signed : -(n.toInt.natAbs : Int) = n.toInt := by omega
    rw [if_pos (by omega), signed, Int64.ofInt_toInt]
  · rfl

theorem toNumber?_natural (floats : Floats) (n : UInt64) :
    (integerParts n.toNat).toNumber? floats = some (.natural n) := by
  rw [NumberParts.toNumber?, integerParts, Int.natAbs_natCast]
  simp only [absorb_digitsOf n.toNat_lt, Option.isNone_none, Bool.and_self, decide_true, if_true,
    decide_eq_true_eq]
  rw [if_neg (Int.natCast_nonneg _).not_gt, Nat.toUInt64_eq, UInt64.ofNat_toNat]

/-! Floats. -/

section Pointed

variable {whole fraction digits sign rest : List Char} (nonempty : whole ≠ [])
  (all : ∀ c ∈ whole, isDigit c = true) (leads : Leads whole) (negative : Bool)
include nonempty all leads

theorem readUnsigned?_point (filled : fraction ≠ [])
    (fractionDigits : ∀ c ∈ fraction, isDigit c = true) (closes : Closes rest) :
    readUnsigned? negative (whole ++ '.' :: (fraction ++ rest)) =
      some (⟨negative, whole, some fraction, none⟩, rest) :=
  readUnsigned?_parts negative nonempty all leads (Literal.endsDigits_cons (by decide) _)
    (readFraction?_present filled fractionDigits closes.endsDigits)
    (readExponent?_absent closes.noExponent)

theorem readUnsigned?_exponent {minus : Bool}
    (split : ∀ rest, splitSign (sign ++ digits ++ rest) = (minus, digits ++ rest))
    (present : digits ≠ []) (exponentDigits : ∀ c ∈ digits, isDigit c = true)
    (fractionDigits : ∀ c ∈ fraction, isDigit c = true) (closes : Closes rest) :
    readUnsigned? negative (whole ++ (if fraction = [] then [] else '.' :: fraction) ++
        'e' :: (sign ++ digits ++ rest)) =
      some (⟨negative, whole, if fraction = [] then none else some fraction,
        some (if minus then -(ofDigits digits : Int) else ofDigits digits)⟩, rest) := by
  have exponentRead := readExponent?_present (split rest) present exponentDigits closes.endsDigits
  have stop : EndsDigits ('e' :: (sign ++ digits ++ rest)) :=
    Literal.endsDigits_cons (by decide) _
  by_cases empty : fraction = []
  · rw [if_pos empty, if_pos empty, List.append_nil]
    exact readUnsigned?_parts negative nonempty all leads stop
      (readFraction?_absent (by simp)) exponentRead
  · rw [if_neg empty, if_neg empty, List.append_assoc, List.cons_append]
    exact readUnsigned?_parts negative nonempty all leads (Literal.endsDigits_cons (by decide) _)
      (readFraction?_present empty fractionDigits stop) exponentRead

end Pointed

/-- The digits start with no zero, or they are those of zero. -/
def StartsHigh (d : Decimal) : Prop :=
  d.digits.head? ≠ some '0' ∨ d = ⟨['0'], 1⟩

theorem startsHigh_shortest {x : Float} (finite : Binary64.field x ≠ 2047) (tie : Tie) :
    StartsHigh (Decimal.shortest tie (Binary64.exact x)) := by
  by_cases positive : 0 < (Binary64.exact x).significand
  · have canonical := Binary64.exact_canonical finite positive
    rcases Decimal.shortest_spec canonical (Binary64.exact x).negative tie with ⟨c, k, same, rounds⟩
    have coefficient := Binary64.coefficient_pos canonical rounds
    have nonempty := (Decimal.ofCoefficient_spec coefficient k).1
    have front : (Decimal.ofCoefficient c k).digits <+: Decimal.digitsOf c :=
      List.rdropWhile_prefix _ _
    rcases front with ⟨zeros, whole⟩
    have head := Decimal.head_digitsOf coefficient
    rw [← whole, List.head?_append_of_ne_nil _ nonempty] at head
    exact .inl (by rwa [same])
  · rw [Decimal.shortest, if_pos (by omega)]
    exact .inr rfl

def NumberParts.Pointed (parts : NumberParts) : Prop :=
  parts.fraction.isSome = true ∨ parts.exponent.isSome = true

theorem NumberParts.Pointed.isNone_eq_false {parts : NumberParts} (pointed : parts.Pointed) :
    (parts.fraction.isNone && parts.exponent.isNone) = false := by
  rw [Bool.and_eq_false_iff, Option.isNone_eq_false_iff, Option.isNone_eq_false_iff]
  exact pointed

theorem NumberParts.Pointed.toNumber?_eq {parts : NumberParts} (pointed : parts.Pointed)
    (floats : Floats) : parts.toNumber? floats = (floats.read? parts).map .float := by
  rw [NumberParts.toNumber?]
  simp only [pointed.isNone_eq_false, Bool.false_and, Bool.false_eq_true, if_false]

section Layouts

variable {d : Decimal} (nonempty : d.digits ≠ []) (all : ∀ c ∈ d.digits, isDigit c = true)
include nonempty all

theorem positionalText_sides (high : StartsHigh d) : ∃ whole fraction,
    Format.positionalText true d = whole ++ '.' :: fraction ∧
      (whole ≠ [] ∧ Leads whole ∧ ∀ c ∈ whole, isDigit c = true) ∧
      fraction ≠ [] ∧ ∀ c ∈ fraction, isDigit c = true := by
  have zeros : ∀ count, ∀ c ∈ List.replicate count '0', isDigit c = true := by
    intro count c member
    rw [List.eq_of_mem_replicate member]
    rfl
  rw [Format.positionalText]
  split
  · refine ⟨['0'], _, rfl, ⟨List.cons_ne_nil _ _, .inl rfl, zeros 1⟩,
      List.append_ne_nil_of_right_ne_nil _ nonempty, fun c member => ?_⟩
    rcases List.mem_append.mp member with zero | digit
    · exact zeros _ c zero
    · exact all c digit
  · next above =>
    split
    · next inside =>
      refine ⟨_, _, rfl, ⟨?_, ?_, fun c member => all c (List.mem_of_mem_take member)⟩, ?_,
        fun c member => all c (List.mem_of_mem_drop member)⟩
      · rw [ne_eq, List.take_eq_nil_iff, not_or]
        exact ⟨by omega, nonempty⟩
      · rcases high with high | rfl
        · rw [Leads, List.head?_take, if_neg (by omega)]
          exact .inr high
        · exact absurd inside (by decide)
      · rw [ne_eq, List.drop_eq_nil_iff]
        omega
    · refine ⟨_, ['0'], rfl, ⟨List.append_ne_nil_of_left_ne_nil nonempty _, ?_, fun c member => ?_⟩,
        List.cons_ne_nil _ _, zeros 1⟩
      · rcases high with high | rfl
        · rw [Leads, List.head?_append_of_ne_nil _ nonempty]
          exact .inr high
        · exact .inl rfl
      · rcases List.mem_append.mp member with digit | zero
        · exact all c digit
        · exact zeros _ c zero

omit nonempty all in
theorem exponentText_sides (plusSign : Bool) : ∃ sign minus, Format.exponentText plusSign d =
    d.digits.take 1 ++ (if d.digits.drop 1 = [] then [] else '.' :: d.digits.drop 1) ++
      'e' :: (sign ++ Decimal.digitsOf (d.point - 1).natAbs) ∧
      ∀ rest, splitSign (sign ++ Decimal.digitsOf (d.point - 1).natAbs ++ rest) =
        (minus, Decimal.digitsOf (d.point - 1).natAbs ++ rest) := by
  have plain : ∀ rest, splitSign (Decimal.digitsOf (d.point - 1).natAbs ++ rest) =
      (false, Decimal.digitsOf (d.point - 1).natAbs ++ rest) := by
    intro rest
    have digits := Decimal.isDigit_digitsOf (d.point - 1).natAbs
    rcases List.exists_cons_of_ne_nil (Decimal.digitsOf_ne_nil (d.point - 1).natAbs) with
      ⟨c, others, same⟩
    rw [same] at digits
    rw [same, List.cons_append, splitSign_head (digits c List.mem_cons_self)]
  have fraction : (if d.digits.length ≤ 1 then [] else '.' :: d.digits.drop 1) =
      if d.digits.drop 1 = [] then [] else '.' :: d.digits.drop 1 :=
    if_congr List.drop_eq_nil_iff.symm rfl rfl
  rw [Format.exponentText, fraction]
  by_cases low : d.point - 1 < 0
  · exact ⟨['-'], true, by simp [low], fun rest => rfl⟩
  · cases plusSign with
    | true => exact ⟨['+'], false, by simp [low], fun rest => rfl⟩
    | false => exact ⟨[], false, by simp [low], plain⟩

/-- A layout of digits is read to its end, and keeps a point or an exponent. -/
theorem exists_readUnsigned?_layout (high : StartsHigh d) (negative : Bool) :
    ∃ parts : NumberParts, parts.Pointed ∧ ∀ rest, Closes rest →
      readUnsigned? negative (numberFormat.layout d ++ rest) = some (parts, rest) := by
  rw [Format.layout]
  split
  · rcases positionalText_sides nonempty all high with
      ⟨whole, fraction, shape, ⟨filled, leads, digits⟩, filled', digits'⟩
    refine ⟨⟨negative, whole, some fraction, none⟩, .inl rfl, fun rest closes => ?_⟩
    rw [← readUnsigned?_point filled digits leads negative filled' digits' closes]
    have keepsPoint : numberFormat.pointZero = true := rfl
    rw [keepsPoint, shape, List.append_assoc, List.cons_append]
  · rcases exponentText_sides numberFormat.plusSign with ⟨sign, minus, shape, split⟩
    have first : Leads (d.digits.take 1) := by
      rcases List.exists_cons_of_ne_nil nonempty with ⟨c, others, same⟩
      rw [same]
      exact .inl rfl
    have filled : d.digits.take 1 ≠ [] := by
      rw [ne_eq, List.take_eq_nil_iff, not_or]
      exact ⟨by decide, nonempty⟩
    refine ⟨⟨negative, d.digits.take 1, if d.digits.drop 1 = [] then none else d.digits.drop 1,
      some (if minus then -(ofDigits (Decimal.digitsOf (d.point - 1).natAbs) : Int)
        else ofDigits (Decimal.digitsOf (d.point - 1).natAbs))⟩, .inr rfl, fun rest closes => ?_⟩
    rw [← readUnsigned?_exponent filled (fun c member => all c (List.mem_of_mem_take member)) first
      negative split (Decimal.digitsOf_ne_nil _) (Decimal.isDigit_digitsOf _)
      (fun c member => all c (List.mem_of_mem_drop member)) closes, shape, List.append_assoc,
      List.cons_append]

end Layouts

theorem exists_readNumber?_finiteText {x : Float} (finite : x.isFinite = true) :
    ∃ parts : NumberParts, parts.Pointed ∧ ∀ rest, Closes rest →
      readNumber? (numberFormat.finiteText x ++ rest) = some (parts, rest) := by
  have below := Binary64.field_of_isFinite finite
  rcases Decimal.shortest_meaning below numberFormat.tie with ⟨nonempty, all, -⟩
  rcases exists_readUnsigned?_layout nonempty all (startsHigh_shortest below _)
    (Binary64.isNegative x) with ⟨parts, pointed, reads⟩
  refine ⟨parts, pointed, fun rest closes => ?_⟩
  rw [← reads rest closes, Format.finiteText_eq]
  cases Binary64.isNegative x with
  | true => exact readNumber?_minus _
  | false =>
    rcases Format.layout_head nonempty all numberFormat with ⟨c, others, shape, digit⟩
    rw [if_neg Bool.false_ne_true, shape]
    exact readNumber?_digit digit _

/-! What closes a number does not change how it is read. -/

section Closing

variable {text tail middle rest : List Char} {parts : NumberParts}

theorem Closes.endsDigits_append (closes : Closes rest) (stop : EndsDigits tail) :
    EndsDigits (tail ++ rest) := by
  cases tail with
  | nil => exact closes.endsDigits
  | cons c tail => exact stop

theorem splitSign_append (filled : text ≠ []) (rest : List Char) :
    splitSign (text ++ rest) = ((splitSign text).1, (splitSign text).2 ++ rest) := by
  rcases List.exists_cons_of_ne_nil filled with ⟨c, others, rfl⟩
  rw [List.cons_append]
  by_cases minus : c = '-'
  · rw [minus]
    rfl
  · by_cases plus : c = '+'
    · rw [plus]
      rfl
    · simp [splitSign, minus, plus]

theorem readFraction?_cases {part : Option (List Char)}
    (found : readFraction? tail = some (part, middle)) :
    (part = none ∧ middle = tail ∧ tail.head? ≠ some '.') ∨
      ∃ fraction, part = some fraction ∧ tail = '.' :: (fraction ++ middle) ∧
        fraction ≠ [] ∧ (∀ c ∈ fraction, isDigit c = true) ∧ EndsDigits middle := by
  rw [readFraction?.eq_def] at found
  split at found
  · next rest =>
    rcases Literal.exists_digits rest with ⟨digits, behind, rfl, all, stop⟩
    dsimp only at found
    rw [takeWhile_digits all stop, dropWhile_digits all stop] at found
    split at found
    · cases found
    · next filled =>
      cases found
      exact .inr ⟨digits, rfl, rfl, by simpa using filled, all, stop⟩
  · next noPoint =>
    cases found
    refine .inl ⟨rfl, rfl, fun point => ?_⟩
    rcases List.head?_eq_some_iff.mp point with ⟨rest, same⟩
    exact noPoint rest same

theorem readFraction?_append {part : Option (List Char)} (closes : Closes rest)
    (found : readFraction? tail = some (part, middle)) :
    readFraction? (tail ++ rest) = some (part, middle ++ rest) := by
  rcases readFraction?_cases found with ⟨rfl, rfl, noPoint⟩ |
    ⟨fraction, rfl, rfl, filled, digits, stop⟩
  · apply readFraction?_absent
    cases middle with
    | nil => exact closes.ne (by decide)
    | cons c middle => exact noPoint
  · rw [List.cons_append, List.append_assoc]
    exact readFraction?_present filled digits (closes.endsDigits_append stop)

theorem readExponent?_append {power : Option Int} (closes : Closes rest)
    (found : readExponent? middle = some (power, [])) :
    readExponent? (middle ++ rest) = some (power, rest) := by
  cases middle with
  | nil =>
    cases found
    exact readExponent?_absent closes.noExponent
  | cons c signed =>
    rw [readExponent?] at found
    rw [List.cons_append, readExponent?]
    split at found
    · next mark =>
      have filled : signed ≠ [] := by
        rintro rfl
        cases found
      rw [if_pos mark, splitSign_append filled]
      generalize splitSign signed = number at found ⊢
      rcases number with ⟨negative, digits⟩
      dsimp only at found ⊢
      split at found
      · cases found
      · next present =>
        rw [Option.some_inj, Prod.mk.injEq, List.dropWhile_eq_nil_iff] at found
        have front : digits.takeWhile isDigit = digits := List.takeWhile_eq_self_iff.mpr found.2
        rw [takeWhile_digits found.2 closes.endsDigits, dropWhile_digits found.2 closes.endsDigits]
        rw [front] at found present
        rw [if_neg present, found.1]
    · cases found

theorem readUnsigned?_append {negative : Bool} (closes : Closes rest)
    (found : readUnsigned? negative text = some (parts, [])) :
    readUnsigned? negative (text ++ rest) = some (parts, rest) := by
  rcases Literal.exists_digits text with ⟨whole, tail, rfl, digits, stop⟩
  rw [readUnsigned?, takeWhile_digits digits stop, dropWhile_digits digits stop] at found
  simp only [Option.bind_eq_bind, Option.bind_eq_some_iff, Option.pure_def,
    Option.some_inj] at found
  rcases found with ⟨_, filled, ⟨part, middle⟩, fractionRead, ⟨power, rest⟩, exponentRead, same⟩
  cases same
  have behind := closes.endsDigits_append stop
  rw [List.append_assoc, readUnsigned?, takeWhile_digits digits behind,
    dropWhile_digits digits behind]
  simp only [filled, readFraction?_append closes fractionRead,
    readExponent?_append closes exponentRead, Option.bind_eq_bind, Option.bind_some,
    Option.pure_def]

end Closing

end Json
end ParticleSim
