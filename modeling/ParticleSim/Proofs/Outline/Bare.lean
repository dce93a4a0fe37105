import ParticleSim.Proofs.Outline.Scalar
import ParticleSim.Outline.Block

namespace ParticleSim.Outline

def openers : List Char :=
  [' ', '#', '[', ']', '{', '}', '"', '\'', ',', '|', '>', '&', '*', '!', '%', '@', '\x60', ':',
    '\uFEFF']

/-- The text starts with a dash that is not the sign of a number. -/
def looseDash : List Char → Bool
  | ['-'] => true
  | '-' :: c :: _ => c == ' ' || c == '-'
  | _ => false

theorem looseDash_other {c : Char} (other : c ≠ '-') (rest : List Char) :
    looseDash (c :: rest) = false := by
  rw [looseDash.eq_def]
  split
  · next same => cases same; exact absurd rfl other
  · next same => cases same; exact absurd rfl other
  · rfl

theorem isItem_append {text : List Char} (nonempty : text ≠ []) (tight : looseDash text = false)
    (after : List Char) : isItem (text ++ after) = false := by
  rw [isItem.eq_def]
  split
  · next same =>
    rcases List.append_eq_singleton_iff.mp same with ⟨rfl, -⟩ | ⟨rfl, -⟩
    · exact absurd rfl nonempty
    · cases tight
  · next rest same =>
    rcases text with _ | ⟨c, _ | ⟨d, more⟩⟩
    · exact absurd rfl nonempty
    · cases same
      cases tight
    · cases same
      cases tight
  · rfl

theorem isItem_of_tight {text : List Char} (tight : looseDash text = false) :
    isItem text = false := by
  cases text with
  | nil => rfl
  | cons c rest =>
    rw [← List.append_nil (c :: rest)]
    exact isItem_append (List.cons_ne_nil c rest) tight []

structure Bare (text : List Char) : Prop where
  first : ∃ c rest, text = c :: rest ∧ c ∉ openers
  last : ∀ c ∈ text.getLast?, c ≠ ' ' ∧ c ≠ ':'
  clean : ∀ c ∈ text, needsQuotes c = false
  noColon : hasPair ':' ' ' text = false
  noComment : hasPair ' ' '#' text = false
  noDash : looseDash text = false

theorem bare_of_not_hazardous {text : List Char} (safe : isHazardous text = false) : Bare text := by
  cases text with
  | nil => cases safe
  | cons c rest =>
    simp only [isHazardous, Bool.or_eq_false_iff, List.any_eq_false, beq_eq_false_iff_ne,
      decide_eq_false_iff_not, Bool.not_eq_true] at safe
    rcases safe with ⟨⟨⟨⟨⟨⟨space, lastSpace⟩, start⟩, lastColon⟩, noColon⟩, noComment⟩, clean⟩
    refine ⟨⟨c, rest, rfl, ?_⟩, ?_, clean, noColon, noComment, ?_⟩
    · intro member
      have subset : openers.all (fun d => d = ' ' ∨ d ∈ indicators) = true := by decide
      rcases of_decide_eq_true (List.all_eq_true.mp subset c member) with same | inside
      · exact space same
      · exact start inside
    · intro d final
      constructor
      · intro equal
        subst equal
        exact lastSpace final
      · intro equal
        subst equal
        exact lastColon final
    · exact looseDash_other (by rintro rfl; exact start (by decide)) rest

def isWordChar (c : Char) : Bool :=
  isNumeral c || ('a' ≤ c && c ≤ 'z')

theorem isWordChar_range {c : Char} (word : isWordChar c = true) :
    0x2B ≤ c.toNat ∧ c.toNat < 0x7F := by
  simp only [isWordChar, isNumeral, isDigit, Bool.or_eq_true, Bool.and_eq_true, decide_eq_true_eq,
    List.mem_cons, List.not_mem_nil, or_false] at word
  rcases word with (⟨low, high⟩ | rfl | rfl | rfl | rfl) | ⟨low, high⟩
  · have low : 48 ≤ c.toNat := low
    have high : c.toNat ≤ 57 := high
    omega
  · decide
  · decide
  · decide
  · decide
  · have low : 97 ≤ c.toNat := low
    have high : c.toNat ≤ 122 := high
    omega

theorem hasPair_of_notMem {a b : Char} {text : List Char} (without : a ∉ text) :
    hasPair a b text = false := by
  induction text with
  | nil => rfl
  | cons c rest ih =>
    rw [List.mem_cons, not_or] at without
    cases rest with
    | nil => rfl
    | cons d rest =>
      rw [hasPair, ih without.2, Bool.or_false, Bool.and_eq_false_iff]
      exact .inl (beq_eq_false_iff_ne.mpr fun same => without.1 same.symm)

theorem bare_of_word {text : List Char} (nonempty : text ≠ [])
    (word : text.all isWordChar = true) (noDash : looseDash text = false) : Bare text := by
  have other : ∀ c, isWordChar c = false → c ∉ text := by
    intro c no member
    rw [List.all_eq_true.mp word c member] at no
    cases no
  rcases List.exists_cons_of_ne_nil nonempty with ⟨c, rest, rfl⟩
  refine ⟨⟨c, rest, rfl, ?_⟩, ?_, ?_, hasPair_of_notMem (other ':' rfl),
    hasPair_of_notMem (other ' ' rfl), noDash⟩
  · intro member
    have none : openers.any isWordChar = false := by decide
    exact other c (eq_false_of_ne_true (List.any_eq_false.mp none c member))
      (List.mem_cons_self ..)
  · intro d final
    have member := List.mem_of_getLast? final
    constructor
    · intro equal
      subst equal
      exact other ' ' rfl member
    · intro equal
      subst equal
      exact other ':' rfl member
  · intro d member
    have range := isWordChar_range (List.all_eq_true.mp word d member)
    rw [needsQuotes, Bool.or_eq_false_iff]
    constructor
    · rw [CharClass.isControl, Bool.or_eq_false_iff, Bool.and_eq_false_iff, decide_eq_false_iff_not,
        decide_eq_false_iff_not, decide_eq_false_iff_not]
      omega
    · rw [decide_eq_false_iff_not]
      intro special
      have none : [',', '[', ']', '{', '}', '"', '\'', '\\'].any isWordChar = false := by decide
      exact other d (eq_false_of_ne_true (List.any_eq_false.mp none d special)) member

theorem bare_of_number {text : List Char} (starts : startsNumber text = true)
    (all : ∀ c ∈ text, isNumeral c = true) : Bare text := by
  apply bare_of_word
  · intro equal
    subst equal
    cases starts
  · rw [List.all_eq_true]
    intro c member
    rw [isWordChar, all c member, Bool.true_or]
  · rw [looseDash.eq_def]
    split
    · cases starts
    · next c rest =>
      have digit : isDigit c = true := starts
      rw [Bool.or_eq_false_iff, beq_eq_false_iff_ne, beq_eq_false_iff_ne]
      constructor <;> rintro rfl <;> cases digit
    · rfl

theorem bare_floatText (x : Float) : Bare (floatText x) := by
  rw [floatText]
  split
  · exact bare_of_word (by decide) (by decide) rfl
  · split
    · split
      · exact bare_of_word (by decide) (by decide) rfl
      · exact bare_of_word (by decide) (by decide) rfl
    · next notNaN notInfinite =>
      have finite := Binary64.field_of_finite notNaN notInfinite
      exact bare_of_number (startsNumber_finiteText finite) (isNumeral_finiteText finite)

theorem bare_scalarText {value : Scalar} (plain : isQuoted value = false) :
    Bare (scalarText value) := by
  cases value with
  | null => exact bare_of_word (by decide) (by decide) rfl
  | bool value =>
    cases value
    · exact bare_of_word (by decide) (by decide) rfl
    · exact bare_of_word (by decide) (by decide) rfl
  | integer n => exact bare_of_number (startsNumber_intText _) (isNumeral_intText _)
  | float x => exact bare_floatText x
  | string s =>
    rw [isQuoted, Bool.not_eq_false'] at plain
    rw [scalarText, if_pos plain]
    rw [isPlainString, Bool.and_eq_true, Bool.not_eq_true'] at plain
    exact bare_of_not_hazardous plain.1

/-! What the readers make of an unquoted text. -/

theorem trimEnd_of_last {text : List Char} (last : ∀ c ∈ text.getLast?, c ≠ ' ') :
    trimEnd text = text := by
  rw [trimEnd, ← List.head?_reverse] at *
  cases turned : text.reverse with
  | nil => rw [List.dropWhile_nil, ← turned, List.reverse_reverse]
  | cons c rest =>
    have other : isSpace c = false := by
      rw [isSpace, beq_eq_false_iff_ne]
      exact last c (by rw [turned]; rfl)
    rw [List.dropWhile_cons_of_neg (by rw [other]; exact Bool.false_ne_true), ← turned,
      List.reverse_reverse]

theorem skipSpaces_cons {c : Char} (other : c ≠ ' ') (rest : List Char) :
    skipSpaces (c :: rest) = c :: rest :=
  List.dropWhile_cons_of_neg (by rw [isSpace, beq_iff_eq]; exact other)

@[simp]
theorem skipSpaces_space (rest : List Char) : skipSpaces (' ' :: rest) = skipSpaces rest := rfl

/-- Without a colon before a space, the first colon that separates is the one behind the text. -/
theorem splitAtColon_append {key after : List Char} (noColon : hasPair ':' ' ' key = false)
    (ends : endsKey after = true) : splitAtColon (key ++ ':' :: after) = some (key, after) := by
  induction key with
  | nil => rw [List.nil_append, splitAtColon, ends]; rfl
  | cons c rest ih =>
    have further : hasPair ':' ' ' rest = false := by
      cases rest with
      | nil => rfl
      | cons d rest => exact (Bool.or_eq_false_iff.mp noColon).2
    have stays : (c = ':' && endsKey (rest ++ ':' :: after)) = false := by
      rw [Bool.and_eq_false_iff, decide_eq_false_iff_not]
      cases rest with
      | nil => exact .inr rfl
      | cons d rest =>
        have apart := (Bool.or_eq_false_iff.mp noColon).1
        rw [Bool.and_eq_false_iff, beq_eq_false_iff_ne] at apart
        exact apart
    rw [List.cons_append, splitAtColon, if_neg (by rw [stays]; exact Bool.false_ne_true),
      ih further]
    rfl

theorem splitAtColon_none {text : List Char} (noColon : hasPair ':' ' ' text = false)
    (last : ∀ c ∈ text.getLast?, c ≠ ':') : splitAtColon text = none := by
  induction text with
  | nil => rfl
  | cons c rest ih =>
    cases rest with
    | nil =>
      rw [splitAtColon, decide_eq_false (last c rfl), Bool.false_and, if_neg Bool.false_ne_true]
      rfl
    | cons d rest =>
      rcases Bool.or_eq_false_iff.mp noColon with ⟨apart, further⟩
      rw [Bool.and_eq_false_iff, beq_eq_false_iff_ne] at apart
      have stays : (c = ':' && endsKey (d :: rest)) = false := by
        rw [Bool.and_eq_false_iff, decide_eq_false_iff_not]
        exact apart
      rw [splitAtColon, if_neg (by rw [stays]; exact Bool.false_ne_true),
        ih further (by rwa [List.getLast?_cons_cons] at last)]
      rfl

theorem colonSpace?_none {text : List Char} (noColon : hasPair ':' ' ' text = false) :
    colonSpace? text = none := by
  induction text with
  | nil => rfl
  | cons c rest ih =>
    rw [colonSpace?.eq_def]
    split
    · next same => cases same; cases noColon
    · next same =>
      cases same
      cases rest with
      | nil => rfl
      | cons d rest => rw [ih (Bool.or_eq_false_iff.mp noColon).2]; rfl
    · rfl

namespace Bare

variable {text : List Char} (bare : Bare text)
include bare

theorem trimEnd_eq : trimEnd text = text :=
  trimEnd_of_last fun c final => (bare.last c final).1

theorem splitKey_none : splitKey text = none := by
  have apart := splitAtColon_none bare.noColon fun c final => (bare.last c final).2
  rcases bare.first with ⟨c, rest, rfl, other⟩
  simp only [openers, List.mem_cons, not_or] at other
  simp [splitKey, Quoted.isQuote, other, apart]

theorem splitKey_key {after : List Char} (ends : endsKey after = true) :
    splitKey (text ++ ':' :: after) = some (text, after) := by
  have split := splitAtColon_append bare.noColon ends
  rcases bare.first with ⟨c, rest, rfl, other⟩
  simp only [openers, List.mem_cons, not_or] at other
  simpa [splitKey, Quoted.isQuote, other] using split

theorem readKey_eq (line : Line) : readKey line text = .ok (String.ofList text) := by
  have trimmed := bare.trimEnd_eq
  rcases bare.first with ⟨c, rest, rfl, other⟩
  simp only [openers, List.mem_cons, not_or] at other
  simp [readKey, Quoted.isQuote, other, trimmed]

theorem readInline_eq (line column budget : Nat) :
    readInline line column budget text = .ok (.scalar (Plain.resolve text)) := by
  have apart := colonSpace?_none bare.noColon
  rcases bare.first with ⟨c, rest, rfl, other⟩
  simp only [openers, List.mem_cons, not_or] at other
  simp [readInline, Quoted.isQuote, other, apart]

end Bare

end ParticleSim.Outline
