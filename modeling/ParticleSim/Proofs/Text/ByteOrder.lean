import Mathlib.Tactic
/-!
The order of texts. Texts are ordered by their characters, which is the order of their UTF-8 bytes:
the bytes of a character are a numeral, and its first byte also tells how many there are.
-/
namespace ParticleSim

def utf8 (text : String) : List UInt8 := text.toUTF8.data.toList

def Precedes (bytes others : List UInt8) : Prop :=
  ∀ rest more, bytes ++ rest < others ++ more

/-- A number in digits of six bits. The first byte is marked, and takes all that the digits after it
leave. -/
def numeral (mark : Nat) : Nat → Nat → List UInt8
  | 0, n => [.ofNat (n + mark)]
  | digits + 1, n => numeral mark digits (n / 64) ++ [.ofNat (n % 64 + 0x80)]

section Numerals

variable {mark mark' digits digits' m n : Nat} {bytes others : List UInt8}

theorem Precedes.append (precedes : Precedes bytes others) (rest more : List UInt8) :
    Precedes (bytes ++ rest) (others ++ more) := by
  intro last final
  rw [List.append_assoc, List.append_assoc]
  exact precedes _ _

theorem precedes_cons (less : m < n) (byte : n < 256) (rest more : List UInt8) :
    Precedes (.ofNat m :: rest) (.ofNat n :: more) := by
  have first : UInt8.ofNat m < UInt8.ofNat n := by
    rw [UInt8.lt_iff_toNat_lt, UInt8.toNat_ofNat', UInt8.toNat_ofNat']
    omega
  exact fun _ _ => List.cons_lt_cons_iff.mpr (.inl first)

theorem numeral_eq_cons (mark digits n : Nat) :
    ∃ rest, numeral mark digits n = .ofNat (n / 64 ^ digits + mark) :: rest := by
  induction digits generalizing n with
  | zero => exact ⟨[], by rw [numeral, Nat.pow_zero, Nat.div_one]⟩
  | succ digits ih =>
    rcases ih (n / 64) with ⟨rest, same⟩
    rw [Nat.div_div_eq_div_mul, ← Nat.pow_succ'] at same
    exact ⟨rest ++ [.ofNat (n % 64 + 0x80)], by rw [numeral, same, List.cons_append]⟩

/-- Numerals may be told apart by their first byte, whatever their lengths. -/
theorem numeral_precedes_of_first (less : m / 64 ^ digits + mark < n / 64 ^ digits' + mark')
    (byte : n / 64 ^ digits' + mark' < 256) :
    Precedes (numeral mark digits m) (numeral mark' digits' n) := by
  rcases numeral_eq_cons mark digits m with ⟨rest, left⟩
  rcases numeral_eq_cons mark' digits' n with ⟨more, right⟩
  rw [left, right]
  exact precedes_cons less byte rest more

theorem numeral_precedes (less : m < n) (byte : n / 64 ^ digits + mark < 256) :
    Precedes (numeral mark digits m) (numeral mark digits n) := by
  induction digits generalizing m n with
  | zero =>
    rw [Nat.pow_zero, Nat.div_one] at byte
    exact precedes_cons (Nat.add_lt_add_right less mark) byte [] []
  | succ digits ih =>
    rw [Nat.pow_succ', ← Nat.div_div_eq_div_mul] at byte
    rw [numeral, numeral]
    rcases Nat.lt_or_eq_of_le (Nat.div_le_div_right (c := 64) (Nat.le_of_lt less)) with above | same
    · exact (ih above byte).append _ _
    · intro rest more
      rw [same, List.append_assoc, List.append_assoc]
      exact List.append_left_lt (precedes_cons (by omega) (by omega) [] [] rest more)

end Numerals

def layout (n : Nat) : Nat × Nat :=
  if n ≤ 0x7F then (0, 0)
  else if n ≤ 0x7FF then (0xC0, 1)
  else if n ≤ 0xFFFF then (0xE0, 2)
  else (0xF0, 3)

theorem first_eq (n : Nat) : n / 64 ^ (layout n).2 + (layout n).1 =
    if n ≤ 0x7F then n
    else if n ≤ 0x7FF then n / 64 + 0xC0
    else if n ≤ 0xFFFF then n / 4096 + 0xE0
    else n / 262144 + 0xF0 := by
  rw [layout]
  split_ifs
  · exact Nat.div_one n
  · rfl
  · rfl
  · rfl

theorem first_lt {m n : Nat} (less : m < n) (apart : layout m ≠ layout n) :
    m / 64 ^ (layout m).2 + (layout m).1 < n / 64 ^ (layout n).2 + (layout n).1 := by
  rw [first_eq, first_eq]
  unfold layout at apart
  split_ifs at apart ⊢ <;> first | omega | exact absurd rfl apart

theorem toNat_lt (c : Char) : c.toNat < 0x110000 := by
  rcases c.valid with low | high
  · exact Nat.lt_trans low (by decide)
  · exact high.2

theorem utf8EncodeChar_eq (c : Char) :
    String.utf8EncodeChar c = numeral (layout c.toNat).1 (layout c.toNat).2 c.toNat := by
  have bound := toNat_lt c
  have value : c.val.toNat = c.toNat := rfl
  rw [String.utf8EncodeChar, layout, value]
  split_ifs
  · rfl
  · rw [Nat.mod_eq_of_lt (a := c.toNat / 64) (by omega)]
    rfl
  · rw [Nat.mod_eq_of_lt (a := c.toNat / 4096) (by omega)]
    simp only [numeral, Nat.div_div_eq_div_mul]
    rfl
  · rw [Nat.mod_eq_of_lt (a := c.toNat / 262144) (by omega)]
    simp only [numeral, Nat.div_div_eq_div_mul]
    rfl

theorem utf8EncodeChar_precedes {c d : Char} (less : c < d) :
    Precedes (String.utf8EncodeChar c) (String.utf8EncodeChar d) := by
  replace less : c.toNat < d.toNat := less
  have byte : d.toNat / 64 ^ (layout d.toNat).2 + (layout d.toNat).1 < 256 := by
    have bound := toNat_lt d
    rw [first_eq]
    split_ifs <;> omega
  rw [utf8EncodeChar_eq, utf8EncodeChar_eq]
  by_cases same : layout c.toNat = layout d.toNat
  · rw [same]
    exact numeral_precedes less byte
  · exact numeral_precedes_of_first (first_lt less same) byte

theorem flatMap_utf8EncodeChar_lt {first second : List Char} (less : first < second) :
    first.flatMap String.utf8EncodeChar < second.flatMap String.utf8EncodeChar := by
  induction less with
  | nil =>
    rw [List.flatMap_cons]
    cases same : String.utf8EncodeChar _ with
    | nil => exact absurd same String.utf8EncodeChar_ne_nil
    | cons byte bytes => exact List.nil_lt_cons ..
  | rel less =>
    rw [List.flatMap_cons, List.flatMap_cons]
    exact utf8EncodeChar_precedes less _ _
  | cons _ ih =>
    rw [List.flatMap_cons, List.flatMap_cons]
    exact List.append_left_lt ih

theorem utf8_eq (text : String) : utf8 text = text.toList.flatMap String.utf8EncodeChar := by
  rw [utf8, String.toUTF8_eq_toByteArray, ← String.utf8Encode_toList, List.utf8Encode,
    List.toList_data_toByteArray]

/-- The order of texts is the order of their bytes. -/
theorem lt_iff_utf8 {first second : String} : first < second ↔ utf8 first < utf8 second := by
  have keeps {first second : String} (less : first < second) : utf8 first < utf8 second := by
    rw [utf8_eq, utf8_eq]
    exact flatMap_utf8EncodeChar_lt less
  refine ⟨keeps, fun bytes => ?_⟩
  by_contra notLess
  by_cases same : second = first
  · rw [same] at bytes
    exact List.lt_irrefl _ bytes
  · have less : second < first := Std.lt_of_le_of_ne (String.not_lt.mp notLess) same
    exact List.lt_asymm bytes (keeps less)

end ParticleSim
