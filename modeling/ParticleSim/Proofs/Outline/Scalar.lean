import ParticleSim.Proofs.Outline.PlainNumbers
import ParticleSim.Outline.Writer

namespace ParticleSim.Outline

def startsNumber : List Char → Bool
  | [] => false
  | '-' :: rest => rest.head?.any isDigit
  | c :: _ => isDigit c

theorem startsNumber_digit {c : Char} (digit : isDigit c = true) (rest : List Char) :
    startsNumber (c :: rest) = true := by
  rw [startsNumber.eq_def]
  split
  · next same => cases same
  · next same => cases same; exact absurd digit (by decide)
  · next same => cases same; exact digit

theorem startsNumber_minus {c : Char} (digit : isDigit c = true) (rest : List Char) :
    startsNumber ('-' :: c :: rest) = true := digit

namespace Plain

theorem not_word {words : List String}
    (words_differ : words.all (fun word => !startsNumber word.toList) = true) {text : List Char}
    (starts : startsNumber text = true) : String.ofList text ∉ words := by
  intro member
  have differs := List.all_eq_true.mp words_differ _ member
  rw [String.toList_ofList, starts] at differs
  cases differs

theorem resolve_number {text : List Char} (starts : startsNumber text = true) :
    resolve text = number text := by
  rw [resolve, if_neg (not_word (by decide) starts), if_neg (not_word (by decide) starts),
    if_neg (not_word (by decide) starts), if_neg (not_word (by decide) starts),
    if_neg (not_word (by decide) starts), if_neg (not_word (by decide) starts)]

end Plain

theorem startsNumber_intText (n : Int) : startsNumber (intText n) = true := by
  have digits := Decimal.isDigit_digitsOf n.natAbs
  obtain ⟨c, rest, same⟩ := List.exists_cons_of_ne_nil (Decimal.digitsOf_ne_nil n.natAbs)
  have digit : isDigit c = true := digits c (by rw [same]; exact List.mem_cons_self ..)
  rw [intText, same]
  split
  · exact startsNumber_minus digit rest
  · exact startsNumber_digit digit rest

theorem resolve_intText (n : Int64) : Plain.resolve (intText n.toInt) = .integer n := by
  rw [Plain.resolve_number (startsNumber_intText n.toInt), Plain.number_eq, int64?_intText]

theorem isNumeral_intText (n : Int) : ∀ c ∈ intText n, isNumeral c = true := by
  have digits : ∀ c ∈ Decimal.digitsOf n.natAbs, isNumeral c = true := by
    intro c member
    rw [isNumeral, Decimal.isDigit_digitsOf _ c member, Bool.true_or]
  intro c member
  rw [intText] at member
  split at member
  · rcases List.mem_cons.mp member with rfl | member
    · rfl
    · exact digits c member
  · exact digits c member

section Finite

open Binary64

variable {format : Format} {x : Float} (finite : field x ≠ 2047)
include finite

theorem startsNumber_finiteText : startsNumber (format.finiteText x) = true := by
  obtain ⟨nonempty, all, -⟩ := Decimal.shortest_meaning finite format.tie
  obtain ⟨c, rest, same, digit⟩ := Format.layout_head nonempty all format
  rw [Format.finiteText_eq, same]
  split
  · exact startsNumber_minus digit rest
  · exact startsNumber_digit digit rest

theorem isNumeral_finiteText : ∀ c ∈ format.finiteText x, isNumeral c = true := by
  obtain ⟨-, all, -⟩ := Decimal.shortest_meaning finite format.tie
  have layout := Format.isNumeral_layout all format
  intro c member
  rw [Format.finiteText_eq] at member
  split at member
  · rcases List.mem_cons.mp member with rfl | member
    · rfl
    · exact layout c member
  · exact layout c member

theorem int64?_finiteText (keepsPoint : format.pointZero = true) :
    int64? (format.finiteText x) = none := by
  obtain ⟨nonempty, all, -⟩ := Decimal.shortest_meaning finite format.tie
  obtain ⟨c, rest, same, digit⟩ := Format.layout_head nonempty all format
  obtain ⟨point, member, other⟩ :=
    Format.layout_point keepsPoint (Decimal.shortest format.tie (exact x))
  have mixed : isDigits (format.layout (Decimal.shortest format.tie (exact x))) = false := by
    rw [isDigits, Bool.and_eq_false_iff, List.all_eq_false]
    exact .inr ⟨point, member, by rw [other]; exact Bool.false_ne_true⟩
  rw [Format.finiteText_eq, int64?]
  rw [same] at mixed ⊢
  cases isNegative x with
  | true =>
    rw [if_pos rfl, splitSign_minus]
    dsimp only
    rw [mixed, if_neg Bool.false_ne_true]
  | false =>
    rw [if_neg Bool.false_ne_true, splitSign_head digit]
    dsimp only
    rw [mixed, if_neg Bool.false_ne_true]

theorem resolve_finiteText (keepsPoint : format.pointZero = true) :
    Plain.resolve (format.finiteText x) = .float x := by
  obtain ⟨literal, read, same⟩ := Format.ofText_finiteText keepsPoint finite
  rw [Plain.resolve_number (startsNumber_finiteText finite), Plain.number_eq,
    int64?_finiteText finite keepsPoint, read]
  dsimp only
  rw [same]

end Finite

/-- Every number reads back as itself, the infinities and NaN by their words. -/
theorem resolve_floatText (x : Float) : Plain.resolve (floatText x) = .float x := by
  rw [floatText]
  split
  · next missing =>
    rw [Binary64.eq_nan missing]
    decide +kernel
  · split
    · next infinite =>
      rw [Binary64.eq_infinity infinite]
      cases Binary64.isNegative x
      · decide +kernel
      · decide +kernel
    · next notNaN notInfinite =>
      exact resolve_finiteText (Binary64.field_of_finite notNaN notInfinite) rfl

def isQuoted : Scalar → Bool
  | .string s => !isPlainString s.toList
  | _ => false

theorem quoted_scalarText {value : Scalar} (quoted : isQuoted value = true) :
    ∃ s, value = .string s ∧ scalarText value = Quoted.encode s.toList := by
  cases value with
  | string s =>
    rw [isQuoted, Bool.not_eq_true'] at quoted
    refine ⟨s, rfl, ?_⟩
    rw [scalarText, if_neg (by rw [quoted]; exact Bool.false_ne_true)]
  | _ => cases quoted

theorem resolve_scalarText {value : Scalar} (plain : isQuoted value = false) :
    Plain.resolve (scalarText value) = value := by
  cases value with
  | null => decide
  | bool value => cases value <;> decide
  | integer n => exact resolve_intText n
  | float x => exact resolve_floatText x
  | string s =>
    rw [isQuoted, Bool.not_eq_false'] at plain
    rw [scalarText, if_pos plain]
    rw [isPlainString, Bool.and_eq_true, beq_iff_eq, String.ofList_toList] at plain
    exact plain.2

end ParticleSim.Outline
