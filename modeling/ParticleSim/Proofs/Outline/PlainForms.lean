import ParticleSim.Proofs.Outline.PlainNumbers
/-!
What an unquoted text stands for, whatever the resolver makes of it: a listed word for its value, an
integer that fits 64 bits for itself, any other numeral for the nearest number, and everything else
for the text as it is.
-/
namespace ParticleSim.Outline.Plain

/-- The spellings that stand for themselves alone, and their values. -/
def words : List (String × Scalar) :=
  [("", .null), ("~", .null), ("null", .null), ("Null", .null), ("NULL", .null),
    ("true", .bool true), ("True", .bool true), ("TRUE", .bool true),
    ("false", .bool false), ("False", .bool false), ("FALSE", .bool false),
    (".inf", .float Binary64.infinity), (".Inf", .float Binary64.infinity),
    (".INF", .float Binary64.infinity), ("+.inf", .float Binary64.infinity),
    ("+.Inf", .float Binary64.infinity), ("+.INF", .float Binary64.infinity),
    ("-.inf", .float (-Binary64.infinity)), ("-.Inf", .float (-Binary64.infinity)),
    ("-.INF", .float (-Binary64.infinity)),
    (".nan", .float Binary64.nan), (".NaN", .float Binary64.nan), (".NAN", .float Binary64.nan)]

/-- The scalar that an unquoted text stands for. A numeral of an integer out of range and one with a
point or an exponent stand for the nearest number. -/
inductive StandsFor (text : List Char) : Scalar → Prop where
  | word {value : Scalar} (listed : (String.ofList text, value) ∈ words) : StandsFor text value
  | integer {n : Int64} (writes : WritesInteger text n.toInt) : StandsFor text (.integer n)
  | large {n : Int} (writes : WritesInteger text n) (outside : n < -2 ^ 63 ∨ 2 ^ 63 ≤ n) :
    StandsFor text (.float (Literal.toFloat ⟨decide (n < 0), n.natAbs, 0⟩))
  | decimal {literal : Literal} (writes : WritesDecimal text literal)
    (marked : ∃ c ∈ marks, c ∈ text) : StandsFor text (.float literal.toFloat)
  | string (unlisted : ∀ value, (String.ofList text, value) ∉ words)
    (noInteger : ∀ n, ¬WritesInteger text n) (noDecimal : ∀ literal, ¬WritesDecimal text literal) :
    StandsFor text (.string (String.ofList text))

variable {text : List Char}

theorem resolve_word {value : Scalar} (listed : (String.ofList text, value) ∈ words) :
    resolve text = value := by
  have resolved : ∀ entry ∈ words, resolve entry.1.toList = entry.2 := by decide +kernel
  simpa using resolved _ listed

theorem resolve_unlisted (unlisted : ∀ value, (String.ofList text, value) ∉ words) :
    resolve text = number text := by
  have outside : ∀ (spellings : List String) (value : Scalar),
      (∀ word ∈ spellings, (word, value) ∈ words) → String.ofList text ∉ spellings :=
    fun spellings value listed member => unlisted value (listed _ member)
  have noNull := outside nullWords .null (by decide)
  have noTrue := outside trueWords (.bool true) (by decide)
  have noFalse := outside falseWords (.bool false) (by decide)
  have noInfinity := outside infinityWords (.float Binary64.infinity) (by decide +kernel)
  have noNegative := outside negativeInfinityWords (.float (-Binary64.infinity)) (by decide +kernel)
  have noNaN := outside nanWords (.float Binary64.nan) (by decide +kernel)
  simp only [resolve, noNull, noTrue, noFalse, noInfinity, noNegative, noNaN, if_false]

/-- No word has a digit in it, and every numeral has. -/
theorem unlisted_of_decimal {literal : Literal} (writes : WritesDecimal text literal) :
    ∀ value, (String.ofList text, value) ∉ words := by
  have undigited : ∀ entry ∈ words, entry.1.toList.all (!isDigit ·) = true := by decide +kernel
  rcases writes.exists_digit with ⟨c, member, digit⟩
  intro value listed
  have other := List.all_eq_true.mp (undigited _ listed) c (by simpa using member)
  simp [digit] at other

theorem resolve_integer {n : Int64} (writes : WritesInteger text n.toInt) :
    resolve text = .integer n := by
  rcases writes.decimal with ⟨_, decimal, -⟩
  rw [resolve_unlisted (unlisted_of_decimal decimal), number_eq, int64?_eq_some_iff.mpr writes]

theorem resolve_decimal {literal : Literal} (writes : WritesDecimal text literal)
    (unread : int64? text = none) : resolve text = .float literal.toFloat := by
  rw [resolve_unlisted (unlisted_of_decimal writes), number_eq, unread,
    Literal.ofText?_eq_some_iff.mpr writes]

theorem decimal_of_large {n : Int} (writes : WritesInteger text n)
    (outside : n < -2 ^ 63 ∨ 2 ^ 63 ≤ n) :
    WritesDecimal text ⟨decide (n < 0), n.natAbs, 0⟩ := by
  rcases writes.decimal with ⟨negative, decimal, value⟩
  rw [withSign] at value
  have sign : negative = decide (n < 0) := by
    cases negative with
    | true =>
      rw [if_pos rfl] at value
      exact (decide_eq_true (by omega)).symm
    | false =>
      rw [if_neg Bool.false_ne_true] at value
      exact (decide_eq_false (by omega)).symm
  rwa [sign] at decimal

theorem StandsFor.resolve_eq {value : Scalar} (stands : StandsFor text value) :
    resolve text = value := by
  cases stands with
  | word listed => exact resolve_word listed
  | integer writes => exact resolve_integer writes
  | large writes outside =>
    exact resolve_decimal (decimal_of_large writes outside) (writes.int64?_eq_none_iff.mpr outside)
  | decimal writes marked =>
    apply resolve_decimal writes
    cases read : int64? text with
    | none => rfl
    | some m =>
      rcases marked with ⟨c, mark, member⟩
      exact absurd member ((int64?_eq_some_iff.mp read).unmarked mark)
  | string unlisted noInteger noDecimal =>
    have noNumber : int64? text = none :=
      Option.eq_none_iff_forall_ne_some.mpr fun n read => noInteger _ (int64?_eq_some_iff.mp read)
    have noLiteral : Literal.ofText? text = none :=
      Option.eq_none_iff_forall_ne_some.mpr fun literal read =>
        noDecimal _ (Literal.ofText?_eq_some_iff.mp read)
    rw [resolve_unlisted unlisted, number_eq, noNumber, noLiteral]

theorem standsFor_resolve (text : List Char) : StandsFor text (resolve text) := by
  by_cases listed : ∃ value, (String.ofList text, value) ∈ words
  · rcases listed with ⟨value, listed⟩
    rw [resolve_word listed]
    exact .word listed
  · have unlisted := not_exists.mp listed
    rw [resolve_unlisted unlisted, number_eq]
    cases integer : int64? text with
    | some n => exact .integer (int64?_eq_some_iff.mp integer)
    | none =>
      cases decimal : Literal.ofText? text with
      | some literal =>
        have writes := Literal.ofText?_eq_some_iff.mp decimal
        rcases writes.integer_or_marked with ⟨n, whole⟩ | marked
        · have outside := whole.int64?_eq_none_iff.mp integer
          have large := Literal.ofText?_eq_some_iff.mpr (decimal_of_large whole outside)
          cases large.symm.trans decimal
          exact .large whole outside
        · exact .decimal writes marked
      | none =>
        have noDecimal : ∀ literal, ¬WritesDecimal text literal := by
          intro literal writes
          rw [← Literal.ofText?_eq_some_iff, decimal] at writes
          cases writes
        refine .string unlisted (fun n writes => ?_) noDecimal
        rcases writes.decimal with ⟨_, decimal, -⟩
        exact noDecimal _ decimal

/-- What an unquoted text is resolved to is exactly what it stands for. -/
theorem resolve_eq_iff (text : List Char) (value : Scalar) :
    resolve text = value ↔ StandsFor text value := by
  constructor
  · rintro rfl
    exact standsFor_resolve text
  · exact StandsFor.resolve_eq

-- a second point leaves a text, and the least integer is no float
example : resolve ['1', '.', '2', '.', '3'] = .string "1.2.3" := rfl
example : resolve ['-', '9', '2', '2', '3', '3', '7', '2', '0', '3', '6', '8', '5', '4', '7', '7',
    '5', '8', '0', '8'] = .integer Int64.minValue := rfl

end ParticleSim.Outline.Plain
