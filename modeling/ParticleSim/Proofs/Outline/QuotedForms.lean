import Mathlib.Data.List.Infix
import ParticleSim.Proofs.Outline.Quoted
/-!
What a quoted scalar is, whatever the reader makes of it: a mark, the forms of the characters of its
value one behind the other, and the mark again. The reader takes exactly these, and it refuses the
first escape that is none of the forms. It takes one form too many: a plus sign may stand in the
place of the first digit of a code point.
-/
namespace ParticleSim.Outline.Quoted

def hexDigits : List (List Char) :=
  [['0'], ['1'], ['2'], ['3'], ['4'], ['5'], ['6'], ['7'], ['8'], ['9'], ['a', 'A'], ['b', 'B'],
    ['c', 'C'], ['d', 'D'], ['e', 'E'], ['f', 'F']]

def HexDigit (c : Char) (value : Nat) : Prop :=
  c ∈ hexDigits.getD value []

def HexNumber (digits : List Char) (number : Nat) : Prop :=
  ∃ values, List.Forall₂ HexDigit digits values ∧
    number = values.foldl (fun total value => 16 * total + value) 0

def FourDigits (field : List Char) (c : Char) : Prop :=
  field.length = 4 ∧ HexNumber field c.toNat

/-- The code point of the character in four digits, or in three behind a plus sign. -/
def SignedDigits (field : List Char) (c : Char) : Prop :=
  FourDigits field c ∨
    ∃ digits, field = '+' :: digits ∧ digits.length = 3 ∧ HexNumber digits c.toNat

def letters : List (Char × Char) :=
  [('n', '\n'), ('t', '\t'), ('r', '\r'), ('0', '\x00'), ('"', '"'), ('\\', '\\'), ('/', '/')]

section Grammar

variable (places : List Char → Char → Prop)

/-- How a character is written between two marks. -/
inductive Form : Char → List Char → Char → Prop where
  | itself {mark c : Char} (other : c ≠ mark) (plain : mark = '"' → c ≠ '\\') : Form mark [c] c
  | doubled : Form '\'' ['\'', '\''] '\''
  | letter {letter c : Char} (means : (letter, c) ∈ letters) : Form '"' ['\\', letter] c
  | digits {field : List Char} {c : Char} (means : places field c) :
    Form '"' ('\\' :: 'u' :: field) c

inductive Spells (mark : Char) : List Char → List Char → Prop where
  | nil : Spells mark [] []
  | cons {form text value : List Char} {c : Char} (first : Form places mark form c)
    (later : Spells mark text value) : Spells mark (form ++ text) (c :: value)

/-- The text starts with a complete quoted scalar. Two single quotes in a row are always one quote
of the value, so the last one has none behind it. -/
def Complete (text value rest : List Char) : Prop :=
  ∃ mark inner, isQuote mark = true ∧ text = mark :: inner ++ mark :: rest ∧
    Spells places mark inner value ∧ (mark = '\'' → rest.head? ≠ some '\'')

/-- A backslash and what it cannot stand before: a letter without a meaning, or places that name no
character, of which there may be too few. -/
inductive BadEscape : List Char → List Char → Prop where
  | letter {letter : Char} {rest : List Char} (noPoint : letter ≠ 'u')
    (unknown : ∀ c, (letter, c) ∉ letters) : BadEscape ('\\' :: letter :: rest) ['\\', letter]
  | digits {rest : List Char} (unknown : ∀ c, ¬places (rest.take 4) c) :
    BadEscape ('\\' :: 'u' :: rest) ('\\' :: 'u' :: rest.take 4)

/-- The first escape between double quotes that is no form stands at the offset. -/
def Refused (text : List Char) (offset : Nat) (sequence : List Char) : Prop :=
  ∃ inner value tail, text = '"' :: inner ++ tail ∧ Spells places '"' inner value ∧
    BadEscape places tail sequence ∧ offset = inner.length + 1

def Unclosed (text : List Char) : Prop :=
  (∀ mark ∈ text.head?, isQuote mark = false) ∨
    ∃ mark inner value, isQuote mark = true ∧ Spells places mark inner value ∧
      (text = mark :: inner ∨ mark = '"' ∧ text = mark :: inner ++ ['\\'])

end Grammar

section Digits

theorem toNat_of_hexValue? {c : Char} {value : Nat} (found : hexValue? c = some value) :
    ∃ start ∈ [48, 65, 97], ∃ n < 10, c.toNat = start + n := by
  have toNat_le : ∀ {a b : Char}, a ≤ b → a.toNat ≤ b.toNat := fun le => le
  have between : ∀ {a b : Char}, a ≤ c → c ≤ b → b.toNat < a.toNat + 10 →
      ∃ n < 10, c.toNat = a.toNat + n := by
    intro a b low high near
    have low := toNat_le low
    have high := toNat_le high
    exact ⟨c.toNat - a.toNat, by omega, by omega⟩
  rw [hexValue?] at found
  split at found
  · next digit =>
    rw [isDigit, Bool.and_eq_true, decide_eq_true_eq, decide_eq_true_eq] at digit
    exact ⟨48, by simp, between digit.1 digit.2 (by decide)⟩
  · split at found
    · next letter => exact ⟨97, by simp, between letter.1 letter.2 (by decide)⟩
    · split at found
      · next letter => exact ⟨65, by simp, between letter.1 letter.2 (by decide)⟩
      · cases found

theorem hexValue?_eq_some_iff {c : Char} {value : Nat} :
    hexValue? c = some value ↔ HexDigit c value := by
  constructor
  · have low : ∀ start ∈ [48, 65, 97], ∀ n < 10, ∀ value ∈ hexValue? (Char.ofNat (start + n)),
        Char.ofNat (start + n) ∈ hexDigits.getD value [] := by decide +kernel
    intro found
    rcases toNat_of_hexValue? found with ⟨start, listed, n, small, same⟩
    have digit := low start listed n small value
    rw [← same, Char.ofNat_toNat] at digit
    exact digit found
  · have listed : (hexDigits.zipIdx.all fun entry =>
        entry.1.all fun c => hexValue? c == some entry.2) = true := by decide +kernel
    simp only [List.all_eq_true, beq_iff_eq] at listed
    intro digit
    rw [HexDigit, List.getD_eq_getElem?_getD] at digit
    cases found : hexDigits[value]? with
    | none =>
      rw [found] at digit
      cases digit
    | some forms =>
      rw [found] at digit
      exact listed (forms, value) (List.mk_mem_zipIdx_iff_getElem?.mpr found) c digit

theorem foldlM_hexValue?_eq_some_iff {digits : List Char} {start number : Nat} :
    digits.foldlM (fun total c => (hexValue? c).map (16 * total + ·)) start = some number ↔
      ∃ values, List.Forall₂ HexDigit digits values ∧
        number = values.foldl (fun total value => 16 * total + value) start := by
  induction digits generalizing start with
  | nil => simp [eq_comm]
  | cons c rest ih =>
    simp only [List.foldlM_cons, Option.bind_eq_bind, Option.bind_eq_some_iff,
      Option.map_eq_some_iff, hexValue?_eq_some_iff]
    constructor
    · rintro ⟨_, ⟨value, digit, rfl⟩, others⟩
      rcases ih.mp others with ⟨values, each, sum⟩
      exact ⟨value :: values, .cons digit each, sum⟩
    · rintro ⟨_, each, sum⟩
      cases each with
      | cons digit each => exact ⟨_, ⟨_, digit, rfl⟩, ih.mpr ⟨_, each, sum⟩⟩

theorem hexNumber?_eq_some_iff {digits : List Char} {number : Nat} :
    hexNumber? digits = some number ↔ HexNumber digits number :=
  foldlM_hexValue?_eq_some_iff

theorem char?_eq_some_iff {point : Nat} {c : Char} : char? point = some c ↔ point = c.toNat := by
  rw [char?]
  constructor
  · intro found
    by_cases valid : point.isValidChar
    · rw [dif_pos valid] at found
      cases found
      rfl
    · rw [dif_neg valid] at found
      cases found
  · rintro rfl
    have valid : c.toNat.isValidChar := c.valid
    rw [dif_pos valid]
    rfl

theorem hexNumber?_plus (rest : List Char) : hexNumber? ('+' :: rest) = none := by
  rw [hexNumber?, List.foldlM_cons]
  rfl

/-- The places of an escape name a character exactly if they are the digits of its code point, with
a plus sign in the place of the first or without. -/
theorem scalarValue?_eq_some_iff {p q r s c : Char} :
    scalarValue? p q r s = some c ↔ SignedDigits [p, q, r, s] c := by
  have named : ∀ digits, (hexNumber? digits).bind char? = some c ↔ HexNumber digits c.toNat := by
    intro digits
    rw [Option.bind_eq_some_iff]
    simp only [char?_eq_some_iff, exists_eq_right, hexNumber?_eq_some_iff]
  rw [scalarValue?, SignedDigits, FourDigits, named]
  by_cases plus : p = '+'
  · subst plus
    have unsigned : ¬HexNumber ['+', q, r, s] c.toNat := by
      rw [← hexNumber?_eq_some_iff, hexNumber?_plus]
      nofun
    simp [unsigned]
  · simp [plus]

theorem escape?_eq_some_iff {letter c : Char} :
    escape? letter = some c ↔ (letter, c) ∈ letters := by
  constructor
  · intro means
    rw [escape?.eq_def] at means
    split at means
    case h_8 => cases means
    all_goals
      cases means
      decide
  · have listed : ∀ entry ∈ letters, escape? entry.1 = some entry.2 := by decide
    exact listed (letter, c)

theorem SignedDigits.exists_four {field : List Char} {c : Char} (digits : SignedDigits field c) :
    ∃ p q r s, field = [p, q, r, s] ∧ scalarValue? p q r s = some c := by
  have length : field.length = 4 := by
    rcases digits with four | ⟨rest, rfl, three, -⟩
    · exact four.1
    · rw [List.length_cons, three]
  match field, length with
  | [p, q, r, s], _ => exact ⟨p, q, r, s, rfl, scalarValue?_eq_some_iff.mpr digits⟩

end Digits

section Grammar

variable {places : List Char → Char → Prop} {mark : Char}

/-- No further form of a character starts here: the mark closes the scalar, an escape is refused, or
the text is at its end. -/
inductive Stuck (places : List Char → Char → Prop) : Char → List Char → Prop where
  | closed {mark : Char} {rest : List Char} (alone : mark = '\'' → rest.head? ≠ some '\'') :
    Stuck places mark (mark :: rest)
  | refused {tail sequence : List Char} (bad : BadEscape places tail sequence) :
    Stuck places '"' tail
  | ended {mark : Char} : Stuck places mark []
  | cut : Stuck places '"' ['\\']

theorem stuck_or_form (quote : isQuote mark = true) (text : List Char) :
    Stuck places mark text ∨
      ∃ form rest c, form ≠ [] ∧ text = form ++ rest ∧ Form places mark form c := by
  rw [isQuote, Bool.or_eq_true, beq_iff_eq, beq_iff_eq] at quote
  cases text with
  | nil => exact .inl .ended
  | cons first rest =>
    by_cases same : first = mark
    · subst same
      rcases quote with rfl | rfl
      · exact .inl (.closed fun other => absurd other (by decide))
      · by_cases doubled : rest.head? = some '\''
        · rcases List.head?_eq_some_iff.mp doubled with ⟨behind, rfl⟩
          exact .inr ⟨_, behind, _, by simp, rfl, .doubled⟩
        · exact .inl (.closed fun _ => doubled)
    · by_cases slash : mark = '"' ∧ first = '\\'
      · rcases slash with ⟨rfl, rfl⟩
        cases rest with
        | nil => exact .inl .cut
        | cons letter behind =>
          by_cases point : letter = 'u'
          · subst point
            by_cases named : ∃ c, places (behind.take 4) c
            · rcases named with ⟨c, means⟩
              refine .inr ⟨_, behind.drop 4, c, by simp, ?_, .digits means⟩
              rw [List.cons_append, List.cons_append, List.take_append_drop]
            · exact .inl (.refused (.digits (not_exists.mp named)))
          · by_cases known : ∃ c, (letter, c) ∈ letters
            · rcases known with ⟨c, means⟩
              exact .inr ⟨_, behind, c, by simp, rfl, .letter means⟩
            · exact .inl (.refused (.letter point (not_exists.mp known)))
      · exact .inr ⟨[first], rest, first, by simp, rfl, .itself same fun double slash' =>
          slash ⟨double, slash'⟩⟩

variable (places)

theorem exists_spells (quote : isQuote mark = true) (text : List Char) : ∃ inner value tail,
    text = inner ++ tail ∧ Spells places mark inner value ∧ Stuck places mark tail := by
  induction length : text.length using Nat.strong_induction_on generalizing text with
  | _ n ih =>
    rcases stuck_or_form quote text with stuck | ⟨form, rest, c, filled, rfl, is⟩
    · exact ⟨[], [], text, rfl, .nil, stuck⟩
    · have shorter : rest.length < n := by
        have some := List.length_pos_iff.mpr filled
        rw [List.length_append] at length
        omega
      rcases ih rest.length shorter rest rfl with ⟨inner, value, tail, rfl, spells, stuck⟩
      exact ⟨form ++ inner, c :: value, tail, by rw [List.append_assoc], .cons is spells, stuck⟩

theorem complete_or_refused_or_unclosed (text : List Char) :
    (∃ value rest, Complete places text value rest) ∨
      (∃ offset sequence, Refused places text offset sequence) ∨ Unclosed places text := by
  match text with
  | [] => exact .inr (.inr (.inl nofun))
  | mark :: body =>
    by_cases quote : isQuote mark = true
    · rcases exists_spells places quote body with ⟨inner, value, tail, rfl, spells, stuck⟩
      cases stuck with
      | closed alone => exact .inl ⟨value, _, mark, inner, quote, rfl, spells, alone⟩
      | refused bad => exact .inr (.inl ⟨_, _, inner, value, tail, rfl, spells, bad, rfl⟩)
      | ended =>
        rw [List.append_nil]
        exact .inr (.inr (.inr ⟨mark, inner, value, quote, spells, .inl rfl⟩))
      | cut => exact .inr (.inr (.inr ⟨_, inner, value, quote, spells, .inr ⟨rfl, rfl⟩⟩))
    · exact .inr (.inr (.inl (by simpa using quote)))

end Grammar

/-! The reader takes one form after the other, and stops where there is none. -/

section Reading

theorem readDouble_form {form : List Char} {c : Char} (is : Form SignedDigits '"' form c)
    (offset : Nat) (rest : List Char) : readDouble offset (form ++ rest) =
      (readDouble (offset + form.length) rest).map (push c) := by
  cases is with
  | itself other plain =>
    rw [List.cons_append, List.nil_append, readDouble.eq_def]
    dsimp only
    rw [if_neg other, if_neg (plain rfl)]
    rfl
  | @letter letter _ means =>
    have noPoint : letter ≠ 'u' := by
      rintro rfl
      exact absurd means (by simp [letters])
    rw [← escape?_eq_some_iff] at means
    rw [List.cons_append, List.cons_append, List.nil_append, readDouble.eq_def]
    dsimp only
    rw [if_neg (by decide), if_pos rfl]
    split
    · next same => cases same
    · next same => cases same; exact absurd rfl noPoint
    · next same => cases same; exact absurd rfl noPoint
    · next same => cases same; rw [means]; rfl
  | digits means =>
    rcases means.exists_four with ⟨p, q, r, s, rfl, named⟩
    dsimp only [List.cons_append, List.nil_append]
    rw [readDouble.eq_def]
    simp only [named]
    rfl

theorem readSingle_form {form : List Char} {c : Char} (is : Form SignedDigits '\'' form c)
    (rest : List Char) : readSingle (form ++ rest) = (readSingle rest).map (push c) := by
  cases is with
  | itself other plain =>
    rw [List.cons_append, List.nil_append, readSingle.eq_def]
    dsimp only
    rw [if_neg other]
  | doubled =>
    rw [List.cons_append, List.cons_append, List.nil_append, readSingle.eq_def]
    rfl

theorem readDouble_spells {inner value : List Char} (spells : Spells SignedDigits '"' inner value)
    (offset : Nat) (tail : List Char) : readDouble offset (inner ++ tail) =
      (readDouble (offset + inner.length) tail).map fun found => value.foldr push found := by
  induction spells generalizing offset with
  | nil =>
    rw [List.nil_append, List.length_nil, Nat.add_zero]
    cases readDouble offset tail <;> rfl
  | @cons form _ _ _ first later ih =>
    rw [List.append_assoc, readDouble_form first, ih, List.length_append, Nat.add_assoc]
    cases readDouble _ tail <;> rfl

theorem readSingle_spells {inner value : List Char} (spells : Spells SignedDigits '\'' inner value)
    (tail : List Char) : readSingle (inner ++ tail) =
      (readSingle tail).map fun found => value.foldr push found := by
  induction spells with
  | nil =>
    rw [List.nil_append]
    cases readSingle tail <;> rfl
  | cons first later ih =>
    rw [List.append_assoc, readSingle_form first, ih]
    cases readSingle tail <;> rfl

theorem foldr_push (value rest : List Char) : value.foldr push ([], rest) = (value, rest) := by
  induction value with
  | nil => rfl
  | cons c value ih => rw [List.foldr_cons, ih, push]

theorem readDouble_badEscape {tail sequence : List Char}
    (bad : BadEscape SignedDigits tail sequence) (offset : Nat) :
    readDouble offset tail = .error (.badEscape offset sequence) := by
  cases bad with
  | @letter letter rest noPoint unknown =>
    have nothing : escape? letter = none := by
      rw [Option.eq_none_iff_forall_ne_some]
      exact fun c means => unknown c (escape?_eq_some_iff.mp means)
    rw [readDouble.eq_def]
    dsimp only
    rw [if_neg (by decide), if_pos rfl]
    split
    · next same => cases same
    · next same => cases same; exact absurd rfl noPoint
    · next same => cases same; exact absurd rfl noPoint
    · next same => cases same; rw [nothing]
  | @digits rest unknown =>
    match rest with
    | p :: q :: r :: s :: rest =>
      have nothing : scalarValue? p q r s = none := by
        rw [Option.eq_none_iff_forall_ne_some]
        exact fun c means => unknown c (scalarValue?_eq_some_iff.mp means)
      rw [readDouble.eq_def]
      simp [nothing]
    | [] => rw [readDouble.eq_def]; rfl
    | [_] => rw [readDouble.eq_def]; rfl
    | [_, _] => rw [readDouble.eq_def]; rfl
    | [_, _, _] => rw [readDouble.eq_def]; rfl

variable {text value rest sequence : List Char} {offset : Nat}

theorem Complete.read (complete : Complete SignedDigits text value rest) :
    read text = .ok (value, rest) := by
  rcases complete with ⟨mark, inner, quote, rfl, spells, alone⟩
  rw [isQuote, Bool.or_eq_true, beq_iff_eq, beq_iff_eq] at quote
  rcases quote with rfl | rfl
  · rw [List.cons_append, Quoted.read, readDouble_spells spells, readDouble.eq_def]
    exact congrArg Except.ok (foldr_push value rest)
  · have closed : readSingle ('\'' :: rest) = .ok ([], rest) := by
      rw [readSingle.eq_def]
      dsimp only
      rw [if_pos rfl]
      split
      · exact absurd rfl (alone rfl)
      · rfl
    rw [List.cons_append, Quoted.read, readSingle_spells spells, closed]
    exact congrArg Except.ok (foldr_push value rest)

theorem Refused.read (refused : Refused SignedDigits text offset sequence) :
    read text = .error (.badEscape offset sequence) := by
  rcases refused with ⟨inner, value, tail, rfl, spells, bad, rfl⟩
  rw [List.cons_append, Quoted.read, readDouble_spells spells, readDouble_badEscape bad,
    Nat.add_comm]
  rfl

theorem Unclosed.read (unclosed : Unclosed SignedDigits text) :
    read text = .error .unterminated := by
  rcases unclosed with none | ⟨mark, inner, value, quote, spells, ends⟩
  · rw [read.eq_def]
    split
    · cases none _ rfl
    · cases none _ rfl
    · rfl
  · rw [isQuote, Bool.or_eq_true, beq_iff_eq, beq_iff_eq] at quote
    rcases quote with rfl | rfl
    · rcases ends with rfl | ⟨-, rfl⟩
      · have all := readDouble_spells spells 1 []
        rw [List.append_nil] at all
        rw [Quoted.read, all, readDouble.eq_def]
        rfl
      · rw [List.cons_append, Quoted.read, readDouble_spells spells, readDouble.eq_def]
        rfl
    · rcases ends with rfl | ⟨double, -⟩
      · have all := readSingle_spells spells []
        rw [List.append_nil] at all
        rw [Quoted.read, all, readSingle.eq_def]
        rfl
      · cases double

end Reading

/-- What the reader makes of a text that opens at a place is what the grammar says: it takes exactly
the complete scalars, complains of the first escape that has no meaning at its backslash, and of a
missing end at the mark. -/
structure ReadsBy (places : List Char → Char → Prop) (line column : Nat) (text : List Char) :
    Prop where
  taken : ∀ value rest, readAt line column text = .ok (value, rest) ↔
    Complete places text value rest
  refused : ∀ error, readAt line column text = .error error ↔
    (∃ offset sequence, Refused places text offset sequence ∧
      error = ⟨line, column + offset, .invalidEscape (String.ofList sequence)⟩) ∨
    Unclosed places text ∧ error = ⟨line, column, .unterminatedQuote⟩

theorem readsBy_signedDigits (line column : Nat) (text : List Char) :
    ReadsBy SignedDigits line column text := by
  have taken : ∀ {value rest}, Complete SignedDigits text value rest →
      readAt line column text = .ok (value, rest) := by
    intro value rest complete
    rw [readAt, complete.read]
    rfl
  have refused : ∀ {offset sequence}, Refused SignedDigits text offset sequence →
      readAt line column text =
        .error ⟨line, column + offset, .invalidEscape (String.ofList sequence)⟩ := by
    intro offset sequence refused
    rw [readAt, refused.read]
    rfl
  have unclosed : Unclosed SignedDigits text →
      readAt line column text = .error ⟨line, column, .unterminatedQuote⟩ := by
    intro unclosed
    rw [readAt, unclosed.read]
    rfl
  have some := complete_or_refused_or_unclosed SignedDigits text
  constructor
  · refine fun value rest => ⟨fun found => ?_, taken⟩
    rcases some with ⟨other, more, complete⟩ | ⟨offset, sequence, bad⟩ | never
    · cases found.symm.trans (taken complete)
      exact complete
    · cases found.symm.trans (refused bad)
    · cases found.symm.trans (unclosed never)
  · refine fun error => ⟨fun found => ?_, ?_⟩
    · rcases some with ⟨value, rest, complete⟩ | ⟨offset, sequence, bad⟩ | never
      · cases found.symm.trans (taken complete)
      · cases found.symm.trans (refused bad)
        exact .inl ⟨offset, sequence, bad, rfl⟩
      · cases found.symm.trans (unclosed never)
        exact .inr ⟨never, rfl⟩
    · rintro (⟨offset, sequence, bad, rfl⟩ | ⟨never, rfl⟩)
      · exact refused bad
      · exact unclosed never

/-! Grammars that agree on the places of the escapes of a text agree on the text. -/

section Agreement

variable {places places' : List Char → Char → Prop}

def AgreeOn (places places' : List Char → Char → Prop) (text : List Char) : Prop :=
  ∀ field c, '\\' :: 'u' :: field <:+: text → (places field c ↔ places' field c)

variable {text value rest sequence : List Char} {offset : Nat} {mark : Char}

theorem AgreeOn.symm (agree : AgreeOn places places' text) : AgreeOn places' places text :=
  fun field c inside => (agree field c inside).symm

theorem AgreeOn.part {part : List Char} (agree : AgreeOn places places' text)
    (inside : part <:+: text) : AgreeOn places places' part :=
  fun field c deeper => agree field c (deeper.trans inside)

theorem Spells.agree (spells : Spells places mark text value)
    (agree : AgreeOn places places' text) : Spells places' mark text value := by
  induction spells with
  | nil => exact .nil
  | @cons form text _ _ first _ ih =>
    refine .cons ?_ (ih (agree.part (List.suffix_append form text).isInfix))
    cases first with
    | itself other plain => exact .itself other plain
    | doubled => exact .doubled
    | letter means => exact .letter means
    | digits means => exact .digits ((agree _ _ (List.prefix_append _ text).isInfix).mp means)

theorem BadEscape.agree (bad : BadEscape places text sequence)
    (agree : AgreeOn places places' text) : BadEscape places' text sequence := by
  cases bad with
  | letter noPoint unknown => exact .letter noPoint unknown
  | @digits rest unknown =>
    rcases List.take_prefix 4 rest with ⟨behind, whole⟩
    have inside : '\\' :: 'u' :: rest.take 4 <:+: '\\' :: 'u' :: rest :=
      ⟨[], behind, congrArg (fun text => '\\' :: 'u' :: text) whole⟩
    exact .digits fun c means => unknown c ((agree _ c inside).mpr means)

theorem Complete.agree (complete : Complete places text value rest)
    (agree : AgreeOn places places' text) : Complete places' text value rest := by
  rcases complete with ⟨mark, inner, quote, rfl, spells, alone⟩
  exact ⟨mark, inner, quote, rfl, spells.agree (agree.part ⟨[mark], mark :: rest, rfl⟩), alone⟩

theorem Refused.agree (refused : Refused places text offset sequence)
    (agree : AgreeOn places places' text) : Refused places' text offset sequence := by
  rcases refused with ⟨inner, value, tail, rfl, spells, bad, same⟩
  exact ⟨inner, value, tail, rfl, spells.agree (agree.part ⟨['"'], tail, rfl⟩),
    bad.agree (agree.part (List.suffix_append ('"' :: inner) tail).isInfix), same⟩

theorem Unclosed.agree (unclosed : Unclosed places text)
    (agree : AgreeOn places places' text) : Unclosed places' text := by
  rcases unclosed with none | ⟨mark, inner, value, quote, spells, ends⟩
  · exact .inl none
  · refine .inr ⟨mark, inner, value, quote, spells.agree (agree.part ?_), ends⟩
    rcases ends with rfl | ⟨-, rfl⟩
    · exact (List.suffix_cons mark inner).isInfix
    · exact ⟨[mark], ['\\'], rfl⟩

theorem ReadsBy.agree {line column : Nat} (reads : ReadsBy places line column text)
    (agree : AgreeOn places places' text) : ReadsBy places' line column text := by
  constructor
  · intro value rest
    rw [reads.taken]
    exact ⟨fun complete => complete.agree agree, fun complete => complete.agree agree.symm⟩
  · intro error
    rw [reads.refused]
    refine or_congr (exists₂_congr fun offset sequence => and_congr_left' ?_)
      (and_congr_left' ?_)
    · exact ⟨fun refused => refused.agree agree, fun refused => refused.agree agree.symm⟩
    · exact ⟨fun unclosed => unclosed.agree agree, fun unclosed => unclosed.agree agree.symm⟩

end Agreement

/-- The reader goes by the grammar in which a plus sign may stand for the first of the four digits
of a code point. Texts in which none stands behind `\u` are read by the grammar of four digits. -/
theorem readAt_readsBy (line column : Nat) (text : List Char) :
    ReadsBy SignedDigits line column text ∧
      (¬['\\', 'u', '+'] <:+: text → ReadsBy FourDigits line column text) := by
  refine ⟨readsBy_signedDigits line column text, fun unsigned => ?_⟩
  refine (readsBy_signedDigits line column text).agree fun field c inside => ?_
  refine ⟨fun signed => signed.resolve_right ?_, .inl⟩
  rintro ⟨digits, rfl, -⟩
  exact unsigned ((List.prefix_append ['\\', 'u', '+'] digits).isInfix.trans inside)

theorem readAt_readsBy_accented :
    ¬['\\', 'u', '+'] <:+: "\"caf\\u00E9\\n\": x".toList ∧
      readAt 1 1 "\"caf\\u00E9\\n\": x".toList = .ok ("café\n".toList, ": x".toList) ∧
        ReadsBy FourDigits 1 1 "\"caf\\u00E9\\n\": x".toList := by
  have unsigned : ¬['\\', 'u', '+'] <:+: "\"caf\\u00E9\\n\": x".toList := by decide
  exact ⟨unsigned, by decide +kernel, (readAt_readsBy 1 1 _).2 unsigned⟩

theorem not_spells_plus (rest value : List Char) :
    ¬Spells FourDigits '"' ('\\' :: 'u' :: '+' :: rest) value := by
  intro spells
  generalize same : '\\' :: 'u' :: '+' :: rest = text at spells
  cases spells with
  | nil => cases same
  | cons first _ =>
    cases first with
    | itself _ plain =>
      cases same
      exact plain rfl rfl
    | letter means =>
      cases same
      exact absurd means (by simp [letters])
    | @digits field c means =>
      rcases means with ⟨length, number⟩
      match field, length with
      | digit :: digits, _ =>
        cases same
        rw [← hexNumber?_eq_some_iff, hexNumber?_plus] at number
        cases number

def signed : List Char :=
  ['"', '\\', 'u', '+', '0', '4', '1', '"']

/-- By the grammar of four digits the escape is refused and no scalar stands here, and the reader
takes one. -/
theorem readAt_signed :
    readAt 1 1 signed = .ok (['A'], []) ∧
      Refused FourDigits signed 1 ['\\', 'u', '+', '0', '4', '1'] ∧
        ∀ value rest, ¬Complete FourDigits signed value rest := by
  refine ⟨rfl, ⟨[], [], _, rfl, .nil, .digits ?_, rfl⟩, ?_⟩
  · rintro c ⟨-, number⟩
    rw [← hexNumber?_eq_some_iff] at number
    cases number
  · rintro value rest ⟨mark, inner, -, same, spells, -⟩
    -- the mark is the first character, so nothing closes the scalar before the plus sign
    rcases inner with _ | ⟨first, _ | ⟨second, _ | ⟨third, inner⟩⟩⟩
    · cases same
    · cases same
    · cases same
    · obtain ⟨quote, behind⟩ := List.cons.inj same
      obtain ⟨slash, behind⟩ := List.cons.inj behind
      obtain ⟨letter, behind⟩ := List.cons.inj behind
      obtain ⟨plus, -⟩ := List.cons.inj behind
      subst quote slash letter plus
      exact not_spells_plus inner value spells

end ParticleSim.Outline.Quoted
