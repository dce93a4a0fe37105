import ParticleSim.Proofs.Number.Text

namespace ParticleSim

def WritesNatural (digits : List Char) (n : Nat) : Prop :=
  ∃ values : List Nat, (∀ d ∈ values, d < 10) ∧ digits = values.map Nat.digitChar ∧
    n = Nat.ofDigits 10 values.reverse

inductive WritesSign : List Char → Bool → Prop where
  | absent : WritesSign [] false
  | plus : WritesSign ['+'] false
  | minus : WritesSign ['-'] true

def withSign (negative : Bool) (n : Nat) : Int :=
  if negative then -(n : Int) else n

inductive WritesInteger : List Char → Int → Prop where
  | mk {sign digits : List Char} {negative : Bool} {n : Nat} (signed : WritesSign sign negative)
    (nonempty : digits ≠ []) (natural : WritesNatural digits n) :
    WritesInteger (sign ++ digits) (withSign negative n)

/-- Digits with an optional fraction, or a fraction alone. Behind other digits the point may stand
without digits of its own. The coefficient is what the digits write without the point, and so many
places of it stand behind the point. -/
inductive WritesMantissa : List Char → Nat → Nat → Prop where
  | whole {digits : List Char} {n : Nat} (nonempty : digits ≠ [])
    (natural : WritesNatural digits n) : WritesMantissa digits n 0
  | pointed {digits fraction : List Char} {n : Nat} (nonempty : digits ≠ [])
    (natural : WritesNatural (digits ++ fraction) n) :
    WritesMantissa (digits ++ '.' :: fraction) n fraction.length
  | fraction {fraction : List Char} {n : Nat} (nonempty : fraction ≠ [])
    (natural : WritesNatural fraction n) : WritesMantissa ('.' :: fraction) n fraction.length

inductive WritesExponent : List Char → Int → Prop where
  | absent : WritesExponent [] 0
  | present {letter : Char} {text : List Char} {n : Int} (marks : letter = 'e' ∨ letter = 'E')
    (integer : WritesInteger text n) : WritesExponent (letter :: text) n

inductive WritesDecimal : List Char → Literal → Prop where
  | mk {sign mantissa exponent : List Char} {negative : Bool} {n places : Nat} {power : Int}
    (signed : WritesSign sign negative) (digits : WritesMantissa mantissa n places)
    (scaled : WritesExponent exponent power) :
    WritesDecimal (sign ++ (mantissa ++ exponent)) ⟨negative, n, power - places⟩

/-! Digits. -/

theorem digitChar_digitValue {c : Char} (digit : isDigit c = true) :
    digitValue c < 10 ∧ Nat.digitChar (digitValue c) = c := by
  have spelled : ∀ n < 10, digitValue (Char.ofNat (48 + n)) < 10 ∧
      Nat.digitChar (digitValue (Char.ofNat (48 + n))) = Char.ofNat (48 + n) := by decide
  rw [isDigit, Bool.and_eq_true, decide_eq_true_eq, decide_eq_true_eq] at digit
  have low : 48 ≤ c.toNat := digit.1
  have high : c.toNat ≤ 57 := digit.2
  have same : Char.ofNat (48 + (c.toNat - 48)) = c := by
    rw [Nat.add_sub_cancel' low, Char.ofNat_toNat]
  have spelled := spelled (c.toNat - 48) (by omega)
  rwa [same] at spelled

theorem ofDigits_map_digitChar {values : List Nat} (small : ∀ d ∈ values, d < 10) :
    ofDigits (values.map Nat.digitChar) = Nat.ofDigits 10 values.reverse := by
  induction values with
  | nil => simp [ofDigits]
  | cons d rest ih =>
    have value : ofDigits [Nat.digitChar d] = d := by
      simpa [ofDigits] using (digitChar_spec d (small d (List.mem_cons_self ..))).2
    have rest_value := ih fun e member => small e (List.mem_cons_of_mem d member)
    calc ofDigits ((d :: rest).map Nat.digitChar)
        = d * 10 ^ rest.length + ofDigits (rest.map Nat.digitChar) := by
          rw [List.map_cons, ← List.singleton_append, ofDigits_append, value, List.length_map]
      _ = Nat.ofDigits 10 (d :: rest).reverse := by
          simp [rest_value, Nat.ofDigits_append, Nat.add_comm, Nat.mul_comm]

theorem writesNatural_iff {digits : List Char} {n : Nat} :
    WritesNatural digits n ↔ (∀ c ∈ digits, isDigit c = true) ∧ ofDigits digits = n := by
  constructor
  · rintro ⟨values, small, rfl, rfl⟩
    refine ⟨?_, ofDigits_map_digitChar small⟩
    simpa using fun d member => (digitChar_spec d (small d member)).1
  · rintro ⟨all, rfl⟩
    have same : (digits.map digitValue).map Nat.digitChar = digits := by
      rw [List.map_map]
      exact List.map_congr_left (fun c member => (digitChar_digitValue (all c member)).2)
        |>.trans digits.map_id
    have small : ∀ d ∈ digits.map digitValue, d < 10 := by
      simpa using fun c member => (digitChar_digitValue (all c member)).1
    exact ⟨digits.map digitValue, small, same.symm, by rw [← ofDigits_map_digitChar small, same]⟩

theorem isDigits_iff {digits : List Char} : isDigits digits = true ↔
    digits ≠ [] ∧ WritesNatural digits (ofDigits digits) := by
  rw [writesNatural_iff, isDigits, Bool.and_eq_true, List.all_eq_true, Bool.not_eq_true',
    List.isEmpty_eq_false_iff]
  simp

theorem WritesNatural.digit {digits : List Char} {n : Nat} (writes : WritesNatural digits n) :
    ∀ c ∈ digits, isDigit c = true :=
  (writesNatural_iff.mp writes).1

/-! Signs. -/

theorem splitSign_sign {sign text : List Char} {negative : Bool}
    (signed : WritesSign sign negative) (other : ∀ c ∈ text.head?, c ≠ '+' ∧ c ≠ '-') :
    splitSign (sign ++ text) = (negative, text) := by
  cases signed with
  | plus => rfl
  | minus => rfl
  | absent =>
    rw [List.nil_append, splitSign.eq_def]
    split
    · exact absurd rfl (other '-' rfl).2
    · exact absurd rfl (other '+' rfl).1
    · rfl

theorem writesSign_splitSign (text : List Char) :
    ∃ sign, WritesSign sign (splitSign text).1 ∧ text = sign ++ (splitSign text).2 := by
  rw [splitSign.eq_def]
  split
  · exact ⟨_, .minus, rfl⟩
  · exact ⟨_, .plus, rfl⟩
  · exact ⟨_, .absent, rfl⟩

theorem ne_sign_of_digit {c : Char} (digit : isDigit c = true) : c ≠ '+' ∧ c ≠ '-' := by
  constructor <;> rintro rfl <;> cases digit

theorem WritesNatural.head {digits : List Char} {n : Nat} (writes : WritesNatural digits n) :
    ∀ c ∈ digits.head?, c ≠ '+' ∧ c ≠ '-' :=
  fun c first => ne_sign_of_digit (writes.digit c (List.mem_of_head? first))

/-! Integers. -/

theorem writesInteger_iff {text : List Char} {n : Int} : WritesInteger text n ↔
    isDigits (splitSign text).2 = true ∧
      n = withSign (splitSign text).1 (ofDigits (splitSign text).2) := by
  constructor
  · rintro ⟨signed, nonempty, natural⟩
    rw [splitSign_sign signed natural.head, isDigits_iff]
    rcases writesNatural_iff.mp natural with ⟨-, rfl⟩
    exact ⟨⟨nonempty, natural⟩, rfl⟩
  · rintro ⟨digits, rfl⟩
    rw [isDigits_iff] at digits
    rcases writesSign_splitSign text with ⟨sign, signed, same⟩
    have writes := WritesInteger.mk signed digits.1 digits.2
    rwa [← same] at writes

theorem int64?_eq_some_iff {text : List Char} {n : Int64} :
    int64? text = some n ↔ WritesInteger text n.toInt := by
  have range := And.intro (Int64.minValue_le_toInt n) (Int64.toInt_le n)
  rw [writesInteger_iff, int64?]
  dsimp only
  rw [← withSign]
  constructor
  · intro found
    split at found
    · next digits =>
      split at found
      · next inside =>
        cases found
        exact ⟨digits, Int64.toInt_ofInt_of_le inside.1 (Int.lt_add_one_of_le inside.2)⟩
      · cases found
    · cases found
  · rintro ⟨digits, value⟩
    rw [if_pos digits, ← value, if_pos range, Int64.ofInt_toInt]

/-- The reader of 64-bit integers leaves exactly the numerals that are out of range. -/
theorem WritesInteger.int64?_eq_none_iff {text : List Char} {n : Int}
    (writes : WritesInteger text n) : int64? text = none ↔ n < -2 ^ 63 ∨ 2 ^ 63 ≤ n := by
  constructor
  · intro unread
    by_contra inside
    have value : (Int64.ofInt n).toInt = n := Int64.toInt_ofInt_of_le (by omega) (by omega)
    rw [← value, ← int64?_eq_some_iff, unread] at writes
    cases writes
  · intro outside
    by_contra read
    rcases Option.ne_none_iff_exists'.mp read with ⟨m, read⟩
    have low := Int64.le_toInt m
    have high := Int64.toInt_lt m
    rw [int64?_eq_some_iff, writesInteger_iff] at read
    rw [writesInteger_iff] at writes
    omega

/-! Literals. -/

namespace Literal

theorem exponent?_eq_some_iff {text : List Char} {power : Int} :
    exponent? text = some power ↔ WritesExponent text power := by
  cases text with
  | nil =>
    rw [exponent?, Option.some_inj]
    constructor
    · rintro rfl
      exact .absent
    · rintro ⟨⟩
      rfl
  | cons letter rest =>
    have marks : (letter == 'e' || letter == 'E') = true ↔ letter = 'e' ∨ letter = 'E' := by simp
    rw [exponent?]
    dsimp only
    rw [← withSign]
    constructor
    · intro found
      split at found
      · next present =>
        cases found
        rw [Bool.and_eq_true, marks] at present
        exact .present present.1 (writesInteger_iff.mpr ⟨present.2, rfl⟩)
      · cases found
    · rintro (_ | ⟨letter, integer⟩)
      rcases writesInteger_iff.mp integer with ⟨digits, rfl⟩
      rw [if_pos]
      rw [Bool.and_eq_true, marks]
      exact ⟨letter, digits⟩

theorem endsDigits_of_writesExponent {text : List Char} {power : Int}
    (writes : WritesExponent text power) : EndsDigits text := by
  intro c first
  cases writes with
  | absent => cases first
  | present marks _ =>
    cases first
    rcases marks with rfl | rfl <;> rfl

theorem endsDigits_cons {c : Char} (other : isDigit c = false) (rest : List Char) :
    EndsDigits (c :: rest) := by
  intro first same
  cases same
  exact other

section Unsigned

variable {digits fraction rest : List Char} (all : ∀ c ∈ digits, isDigit c = true)
  (stop : EndsDigits rest) (negative : Bool)
include all stop

theorem unsigned?_whole (noPoint : rest.head? ≠ some '.') :
    unsigned? negative (digits ++ rest) = if digits = [] then none else
      (exponent? rest).map fun power => ⟨negative, ofDigits digits, power - (0 : Nat)⟩ := by
  rw [unsigned?, takeWhile_digits all stop, dropWhile_digits all stop]
  split
  next same =>
    split at same
    · exact absurd rfl noPoint
    · cases same
      simp

theorem unsigned?_pointed (allFraction : ∀ c ∈ fraction, isDigit c = true) :
    unsigned? negative (digits ++ '.' :: (fraction ++ rest)) =
      if digits = [] ∧ fraction = [] then none else
        (exponent? rest).map fun power =>
          ⟨negative, ofDigits (digits ++ fraction), power - fraction.length⟩ := by
  have point : EndsDigits ('.' :: (fraction ++ rest)) := endsDigits_cons rfl _
  rw [unsigned?, takeWhile_digits all point, dropWhile_digits all point]
  simp only [takeWhile_digits allFraction stop, dropWhile_digits allFraction stop]
  simp

end Unsigned

theorem exists_digits (text : List Char) : ∃ digits rest, text = digits ++ rest ∧
    (∀ c ∈ digits, isDigit c = true) ∧ EndsDigits rest := by
  refine ⟨text.takeWhile isDigit, text.dropWhile isDigit, List.takeWhile_append_dropWhile.symm,
    List.all_eq_true.mp List.all_takeWhile, fun c first => ?_⟩
  have other := List.head?_dropWhile_not isDigit text
  rw [first] at other
  simpa using other

/-- The reader takes the digits on both sides of a point, and leaves the rest to the exponent. -/
theorem unsigned?_eq_some_iff {negative : Bool} {text : List Char} {literal : Literal} :
    unsigned? negative text = some literal ↔ ∃ mantissa exponent n places power,
      text = mantissa ++ exponent ∧ WritesMantissa mantissa n places ∧
        WritesExponent exponent power ∧ literal = ⟨negative, n, power - places⟩ := by
  constructor
  · intro found
    rcases exists_digits text with ⟨digits, behind, rfl, all, stop⟩
    by_cases point : behind.head? = some '.'
    · rcases List.head?_eq_some_iff.mp point with ⟨more, rfl⟩
      rcases exists_digits more with ⟨fraction, rest, rfl, allFraction, stop⟩
      rw [unsigned?_pointed all stop negative allFraction] at found
      split at found
      · cases found
      · next some =>
        rcases Option.map_eq_some_iff.mp found with ⟨power, scaled, rfl⟩
        rw [exponent?_eq_some_iff] at scaled
        have natural : WritesNatural (digits ++ fraction) (ofDigits (digits ++ fraction)) :=
          writesNatural_iff.mpr ⟨by simpa [or_imp, forall_and] using ⟨all, allFraction⟩, rfl⟩
        cases digits with
        | nil => exact ⟨'.' :: fraction, rest, _, _, power, rfl,
            .fraction (by simpa using some) natural, scaled, rfl⟩
        | cons c digits => exact ⟨c :: digits ++ '.' :: fraction, rest, _, _, power, by simp,
            .pointed (by simp) natural, scaled, rfl⟩
    · rw [unsigned?_whole all stop negative point] at found
      split at found
      · cases found
      · next nonempty =>
        rcases Option.map_eq_some_iff.mp found with ⟨power, scaled, rfl⟩
        rw [exponent?_eq_some_iff] at scaled
        exact ⟨digits, behind, _, _, power, rfl,
          .whole nonempty (writesNatural_iff.mpr ⟨all, rfl⟩), scaled, rfl⟩
  · rintro ⟨mantissa, exponent, n, places, power, rfl, digits, scaled, rfl⟩
    have stop := endsDigits_of_writesExponent scaled
    have noPoint : exponent.head? ≠ some '.' := by
      cases scaled with
      | absent => simp
      | present marks _ => rcases marks with rfl | rfl <;> simp
    rw [← exponent?_eq_some_iff] at scaled
    cases digits with
    | whole nonempty natural =>
      rcases writesNatural_iff.mp natural with ⟨all, rfl⟩
      rw [unsigned?_whole all stop negative noPoint, if_neg nonempty, scaled]
      rfl
    | @pointed digits fraction _ nonempty natural =>
      rcases writesNatural_iff.mp natural with ⟨all, rfl⟩
      rw [List.forall_mem_append] at all
      rw [List.append_assoc, List.cons_append, unsigned?_pointed all.1 stop negative all.2,
        if_neg (by simp [nonempty]), scaled]
      rfl
    | @fraction fraction _ nonempty natural =>
      rcases writesNatural_iff.mp natural with ⟨all, rfl⟩
      have none : ∀ c ∈ ([] : List Char), isDigit c = true := by simp
      have read := unsigned?_pointed none stop negative all
      rw [if_neg (by simp [nonempty]), scaled] at read
      exact read

theorem mantissa_head {mantissa : List Char} {n places : Nat}
    (writes : WritesMantissa mantissa n places) (behind : List Char) :
    ∀ c ∈ (mantissa ++ behind).head?, c ≠ '+' ∧ c ≠ '-' := by
  cases writes with
  | whole nonempty natural =>
    rw [List.head?_append_of_ne_nil _ nonempty]
    exact natural.head
  | @pointed digits fraction _ nonempty natural =>
    have head := natural.head
    rw [List.head?_append_of_ne_nil _ nonempty] at head
    rwa [List.append_assoc, List.head?_append_of_ne_nil _ nonempty]
  | fraction => simp

theorem ofText?_eq_some_iff {text : List Char} {literal : Literal} :
    ofText? text = some literal ↔ WritesDecimal text literal := by
  rw [ofText?]
  dsimp only
  constructor
  · intro found
    rw [unsigned?_eq_some_iff] at found
    rcases found with ⟨mantissa, exponent, n, places, power, parts, digits, scaled, rfl⟩
    rcases writesSign_splitSign text with ⟨sign, signed, same⟩
    have writes := WritesDecimal.mk signed digits scaled
    rwa [← parts, ← same] at writes
  · rintro ⟨signed, digits, scaled⟩
    rw [splitSign_sign signed (mantissa_head digits _), unsigned?_eq_some_iff]
    exact ⟨_, _, _, _, _, rfl, digits, scaled, rfl⟩

end Literal

/-! Integers are the numerals without a point and an exponent. -/

def marks : List Char :=
  ['.', 'e', 'E']

theorem marks_other {c : Char} (mark : c ∈ marks) : isDigit c = false ∧ c ≠ '+' ∧ c ≠ '-' := by
  have listed : c = '.' ∨ c = 'e' ∨ c = 'E' := by simpa [marks] using mark
  rcases listed with rfl | rfl | rfl <;> decide

theorem WritesInteger.unmarked {text : List Char} {n : Int} (writes : WritesInteger text n)
    {c : Char} (mark : c ∈ marks) : c ∉ text := by
  rcases writes with ⟨signed, nonempty, natural⟩
  rcases marks_other mark with ⟨noDigit, noPlus, noMinus⟩
  intro member
  rcases List.mem_append.mp member with inSign | inDigits
  · cases signed <;> simp_all
  · simp [natural.digit c inDigits] at noDigit

theorem WritesInteger.decimal {text : List Char} {n : Int} (writes : WritesInteger text n) :
    ∃ negative, WritesDecimal text ⟨negative, n.natAbs, 0⟩ ∧ n = withSign negative n.natAbs := by
  rcases writes with @⟨sign, digits, negative, magnitude, signed, nonempty, natural⟩
  have size : (withSign negative magnitude).natAbs = magnitude := by
    cases negative <;> simp [withSign]
  refine ⟨negative, ?_, by rw [size]⟩
  have decimal := WritesDecimal.mk signed (.whole nonempty natural) .absent
  simpa [size] using decimal

theorem WritesDecimal.integer_or_marked {text : List Char} {literal : Literal}
    (writes : WritesDecimal text literal) :
    (∃ n, WritesInteger text n) ∨ ∃ c ∈ marks, c ∈ text := by
  rcases writes with ⟨signed, digits, scaled⟩
  cases scaled with
  | @present letter _ _ letters _ =>
    exact .inr ⟨letter, by rcases letters with rfl | rfl <;> simp [marks], by simp⟩
  | absent =>
    cases digits with
    | whole nonempty natural =>
      rw [List.append_nil]
      exact .inl ⟨_, .mk signed nonempty natural⟩
    | pointed => exact .inr ⟨'.', by simp [marks], by simp⟩
    | fraction => exact .inr ⟨'.', by simp [marks], by simp⟩

theorem WritesDecimal.exists_digit {text : List Char} {literal : Literal}
    (writes : WritesDecimal text literal) : ∃ c ∈ text, isDigit c = true := by
  rcases writes with ⟨_, digits, _⟩
  -- the first of the digits that the mantissa cannot be without
  have first : ∀ {run : List Char} {n : Nat}, run ≠ [] → WritesNatural run n →
      ∃ c ∈ run, isDigit c = true := by
    intro run n nonempty natural
    rcases List.exists_mem_of_ne_nil run nonempty with ⟨c, member⟩
    exact ⟨c, member, natural.digit c member⟩
  cases digits with
  | whole nonempty natural =>
    rcases first nonempty natural with ⟨c, member, digit⟩
    exact ⟨c, by simp [member], digit⟩
  | pointed nonempty natural =>
    rcases List.exists_mem_of_ne_nil _ nonempty with ⟨c, member⟩
    exact ⟨c, by simp [member], natural.digit c (List.mem_append_left _ member)⟩
  | fraction nonempty natural =>
    rcases first nonempty natural with ⟨c, member, digit⟩
    exact ⟨c, by simp [member], digit⟩

end ParticleSim
