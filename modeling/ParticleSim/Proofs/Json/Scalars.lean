import ParticleSim.Proofs.Json.Numbers
import ParticleSim.Proofs.Json.Strings

namespace ParticleSim.Json

/-! Blanks. -/

theorem skipBlanks_append {blanks : List Char} (blank : ∀ c ∈ blanks, isBlank c = true)
    (rest : List Char) : skipBlanks (blanks ++ rest) = skipBlanks rest :=
  List.dropWhile_append_of_pos blank

theorem skipBlanks_cons {c : Char} (shown : isBlank c = false) (rest : List Char) :
    skipBlanks (c :: rest) = c :: rest :=
  List.dropWhile_cons_of_neg (by rw [shown]; exact Bool.false_ne_true)

theorem skipBlanks_before {blanks : List Char} (blank : ∀ c ∈ blanks, isBlank c = true) {c : Char}
    (shown : isBlank c = false) (rest : List Char) :
    skipBlanks (blanks ++ c :: rest) = c :: rest :=
  (skipBlanks_append blank _).trans (skipBlanks_cons shown rest)

theorem readValue?_skipBlanks (floats : Floats) (budget : Nat) (text : List Char) :
    readValue? floats budget (skipBlanks text) = readValue? floats budget text := by
  have once : skipBlanks (skipBlanks text) = skipBlanks text := List.dropWhile_idempotent ..
  rw [readValue?.eq_def, readValue?.eq_def]
  dsimp only
  rw [once]

/-! Numbers. -/

theorem head_of_readNumber? {text rest : List Char} {parts : NumberParts}
    (found : readNumber? text = some (parts, rest)) :
    ∃ c others, text = c :: others ∧ (isDigit c = true ∨ c = '-') := by
  cases text with
  | nil => cases found
  | cons c others =>
    refine ⟨c, others, rfl, ?_⟩
    by_contra neither
    rw [not_or, Bool.not_eq_true] at neither
    rw [readNumber?.eq_def] at found
    split at found
    next negative digits same =>
      split at same
      · next minus => exact neither.2 (List.cons_eq_cons.mp minus).1
      · cases same
        rw [List.takeWhile_cons_of_neg (by rw [neither.1]; exact Bool.false_ne_true)] at found
        cases found

theorem readNumber?_append {text rest : List Char} {parts : NumberParts} (closes : Closes rest)
    (found : readNumber? text = some (parts, [])) :
    readNumber? (text ++ rest) = some (parts, rest) := by
  rcases head_of_readNumber? found with ⟨c, others, rfl, digit | rfl⟩
  · rw [readNumber?_digit digit] at found
    rw [List.cons_append, readNumber?_digit digit]
    exact readUnsigned?_append closes found
  · rw [readNumber?_minus] at found
    rw [List.cons_append, readNumber?_minus]
    exact readUnsigned?_append closes found

theorem readValue?_number {text rest : List Char} {parts : NumberParts}
    (found : readNumber? text = some (parts, rest)) (floats : Floats) (budget : Nat) :
    readValue? floats budget text =
      (parts.toNumber? floats).map fun value => (.number value, rest) := by
  rcases head_of_readNumber? found with ⟨c, others, rfl, starts⟩
  have other : ∀ d, isDigit d = false → d ≠ '-' → c ≠ d := by
    rintro d noDigit noMinus rfl
    rcases starts with digit | same
    · rw [noDigit] at digit
      cases digit
    · exact noMinus same
  have shown : isBlank c = false := by
    simp [isBlank, other ' ' rfl (by decide), other '\n' rfl (by decide),
      other '\t' rfl (by decide), other '\r' rfl (by decide)]
  rw [readValue?.eq_def]
  dsimp only
  rw [skipBlanks_cons shown]
  split
  · next same => exact absurd (List.cons_eq_cons.mp same).1 (other '[' rfl (by decide))
  · next same => exact absurd (List.cons_eq_cons.mp same).1 (other '{' rfl (by decide))
  · next same => exact absurd (List.cons_eq_cons.mp same).1 (other '"' rfl (by decide))
  · next same => exact absurd (List.cons_eq_cons.mp same).1 (other 'n' rfl (by decide))
  · next same => exact absurd (List.cons_eq_cons.mp same).1 (other 't' rfl (by decide))
  · next same => exact absurd (List.cons_eq_cons.mp same).1 (other 'f' rfl (by decide))
  · rw [found, Option.bind_eq_bind, Option.bind_some, Option.map_eq_bind]
    rfl

def Floats.number? (floats : Floats) (text : List Char) : Option Number := do
  let (parts, rest) ← readNumber? text
  guard rest.isEmpty
  parts.toNumber? floats

def Floats.Inverts (floats : Floats) (x : Float) : Prop :=
  floats.number? (floats.write x) = some (.float x)

theorem Floats.number?_eq_some {floats : Floats} {text : List Char} {number : Number} :
    floats.number? text = some number ↔
      ∃ parts, readNumber? text = some (parts, []) ∧ parts.toNumber? floats = some number := by
  simp only [Floats.number?, Option.bind_eq_bind, Option.bind_eq_some_iff]
  constructor
  · rintro ⟨⟨parts, rest⟩, found, _, whole, value⟩
    cases rest with
    | nil => exact ⟨parts, found, value⟩
    | cons c rest => cases whole
  · rintro ⟨parts, found, value⟩
    exact ⟨(parts, []), found, (), rfl, value⟩

/-! Scalars. -/

/-- In front of what closes a value, the text is read as the value. -/
def Reads (floats : Floats) (budget : Nat) (text : List Char) (value : Value) : Prop :=
  ∀ rest, Closes rest → readValue? floats budget (text ++ rest) = some (value, rest)

section Reads

variable {floats : Floats} {budget : Nat} {text : List Char} {value : Value}

theorem Reads.behind {blanks : List Char} (blank : ∀ c ∈ blanks, isBlank c = true)
    (reads : Reads floats budget text value) : Reads floats budget (blanks ++ text) value := by
  intro rest closes
  rw [← readValue?_skipBlanks, List.append_assoc, skipBlanks_append blank, readValue?_skipBlanks,
    reads rest closes]

theorem Reads.ofText? (reads : Reads floats maxDepth text value) :
    Value.ofText? floats (String.ofList text) = some value := by
  have whole := reads [] closes_nil
  rw [List.append_nil] at whole
  rw [Value.ofText?, String.toList_ofList, whole]
  rfl

theorem readValue?_quote (floats : Floats) (budget : Nat) (rest : List Char) :
    readValue? floats budget ('"' :: rest) =
      (readString? rest).map fun (value, rest) => (.string (String.ofList value), rest) := by
  rw [readValue?.eq_def]
  rfl

theorem reads_string (s : String) : Reads floats budget (stringText s) (.string s) := by
  intro rest _
  rw [stringText_append, readValue?_quote, readString?_encode, Option.map_some]
  dsimp only
  rw [String.ofList_toList]

theorem reads_null : Reads floats budget "null".toList .null := by
  intro rest _
  have letters : "null".toList = ['n', 'u', 'l', 'l'] := by decide
  rw [letters, readValue?.eq_def]
  rfl

theorem reads_bool (b : Bool) : Reads floats budget (boolText b) (.bool b) := by
  intro rest _
  have yes : "true".toList = ['t', 'r', 'u', 'e'] := by decide
  have no : "false".toList = ['f', 'a', 'l', 's', 'e'] := by decide
  cases b
  · rw [boolText, if_neg Bool.false_ne_true, no, readValue?.eq_def]
    rfl
  · rw [boolText, if_pos rfl, yes, readValue?.eq_def]
    rfl

theorem reads_number {parts : NumberParts} {number : Number}
    (reads : ∀ rest, Closes rest → readNumber? (text ++ rest) = some (parts, rest))
    (value : parts.toNumber? floats = some number) :
    Reads floats budget text (.number number) := by
  intro rest closes
  rw [readValue?_number (reads rest closes), value]
  rfl

theorem reads_integer (n : Int64) :
    Reads floats budget (intText n.toInt) (.number (.ofInt64 n)) :=
  reads_number (fun _ closes => readNumber?_intText n.toInt closes)
    (toNumber?_integerParts floats n)

theorem intText_natCast (n : Nat) : intText n = Decimal.digitsOf n := by
  rw [intText, if_neg (Int.natCast_nonneg n).not_gt, Int.natAbs_natCast]

theorem reads_natural (n : UInt64) :
    Reads floats budget (Decimal.digitsOf n.toNat) (.number (.natural n)) := by
  rw [← intText_natCast]
  exact reads_number (fun _ closes => readNumber?_intText n.toNat closes)
    (toNumber?_natural floats n)

def floatValue (x : Float) : Value :=
  if x.isFinite then .number (.float x) else .null

theorem reads_float {x : Float} (inverts : x.isFinite = true → floats.Inverts x) :
    Reads floats budget (floats.text x) (floatValue x) := by
  rw [Floats.text, floatValue]
  split
  · next finite =>
    rcases Floats.number?_eq_some.mp (inverts finite) with ⟨parts, found, value⟩
    exact reads_number (fun _ closes => readNumber?_append closes found) value
  · exact reads_null

end Reads

end ParticleSim.Json
