import ParticleSim.Proofs.Json.Scalars
import ParticleSim.Proofs.Tree.Equality

namespace ParticleSim

namespace Node

variable {α : Type} (format : Json.Serializer α)

theorem serializeItems_eq (items : List Node) :
    serializeItems format items = items.map (serialize format) := by
  induction items with
  | nil => rfl
  | cons item rest ih => rw [serializeItems, ih, List.map_cons]

theorem serializeFields_eq (fields : List (String × Node)) : serializeFields format fields =
    fields.map fun entry => (entry.1, entry.2.serialize format) := by
  induction fields with
  | nil => rfl
  | cons entry rest ih => rw [serializeFields, ih, List.map_cons]

theorem serialize_sequence (items : List Node) :
    (sequence items).serialize format = format.sequence (items.map (serialize format)) := by
  rw [serialize, serializeItems_eq]

theorem serialize_mapping (fields : List (String × Node)) : (mapping fields).serialize format =
    format.mapping (fields.map fun entry => (entry.1, entry.2.serialize format)) := by
  rw [serialize, serializeFields_eq]

end Node

namespace Json

theorem joined_cons (text other : List Char) (others : List (List Char)) :
    joined (text :: other :: others) = text ++ ',' :: joined (other :: others) := rfl

def memberText (gap : List Char) (member : String × List Char) : List Char :=
  stringText member.1 ++ ':' :: (gap ++ member.2)

def ReadsMember (floats : Floats) (budget : Nat) (text : List Char) (member : String × Value) :
    Prop :=
  ∃ blanks value, (∀ c ∈ blanks, isBlank c = true) ∧
    text = blanks ++ (stringText member.1 ++ ':' :: value) ∧ Reads floats budget value member.2

section Collections

variable {floats : Floats} {budget bound : Nat} {texts : List (List Char)} {blanks rest : List Char}
  (blank : ∀ c ∈ blanks, isBlank c = true)
include blank

theorem readElements?_joined {values : List Value}
    (each : List.Forall₂ (Reads floats budget) texts values) (filled : values ≠ [])
    (enough : values.length ≤ bound) (closes : Closes (blanks ++ ']' :: rest)) :
    readElements? (readValue? floats budget) bound (joined texts ++ (blanks ++ ']' :: rest)) =
      some (values, rest) := by
  have closed : skipBlanks (blanks ++ ']' :: rest) = ']' :: rest := skipBlanks_before blank rfl rest
  induction each generalizing bound with
  | nil => exact absurd rfl filled
  | @cons text value texts values first each ih =>
    rw [List.length_cons] at enough
    obtain ⟨bound, rfl⟩ : ∃ n, bound = n + 1 := ⟨bound - 1, by omega⟩
    rw [readElements?]
    cases each with
    | nil =>
      rw [joined, first _ closes]
      simp only [Option.bind_eq_bind, Option.bind_some, closed, Option.pure_def]
    | @cons text' value' texts' values' first' each' =>
      have later := ih (List.cons_ne_nil _ _) (Nat.le_of_succ_le_succ enough)
      have comma : skipBlanks (',' :: (joined (text' :: texts') ++ (blanks ++ ']' :: rest))) =
          ',' :: (joined (text' :: texts') ++ (blanks ++ ']' :: rest)) := rfl
      rw [joined_cons, List.append_assoc, List.cons_append, first _ (closes_cons (by decide) _)]
      simp only [Option.bind_eq_bind, Option.bind_some, comma, later, Option.pure_def]

omit blank in
/-- One member is read, and what stands behind it decides how the reader goes on. -/
theorem readMembers?_member {text behind : List Char} {member : String × Value}
    (reads : ReadsMember floats budget text member) (closes : Closes behind)
    (known : Fields Value) :
    readMembers? (readValue? floats budget) (bound + 1) known (text ++ behind) =
      match skipBlanks behind with
      | ',' :: rest =>
        readMembers? (readValue? floats budget) bound (known.insertSorted member.1 member.2) rest
      | '}' :: rest => some (known.insertSorted member.1 member.2, rest)
      | _ => none := by
  rcases reads with ⟨blanks, value, blank, rfl, reads⟩
  have colon : skipBlanks (':' :: (value ++ behind)) = ':' :: (value ++ behind) := rfl
  have quoted : skipBlanks (blanks ++ (stringText member.1 ++ ':' :: value) ++ behind) =
      '"' :: (member.1.toList.flatMap encodeChar ++ '"' :: ':' :: (value ++ behind)) := by
    rw [List.append_assoc, List.append_assoc, stringText_append]
    exact skipBlanks_before blank rfl _
  rw [readMembers?, quoted]
  simp only [readString?_encode, Option.bind_eq_bind, Option.bind_some, colon, reads behind closes]
  rw [String.ofList_toList]
  rfl

theorem readMembers?_joined {members : List (String × Value)}
    (each : List.Forall₂ (ReadsMember floats budget) texts members) (filled : members ≠ [])
    (enough : members.length ≤ bound) (closes : Closes (blanks ++ '}' :: rest))
    (known : Fields Value) :
    readMembers? (readValue? floats budget) bound known (joined texts ++ (blanks ++ '}' :: rest)) =
      some (members.foldl (fun known member => known.insertSorted member.1 member.2) known,
        rest) := by
  have closed : skipBlanks (blanks ++ '}' :: rest) = '}' :: rest := skipBlanks_before blank rfl rest
  induction each generalizing bound known with
  | nil => exact absurd rfl filled
  | @cons text member texts members first each ih =>
    rw [List.length_cons] at enough
    obtain ⟨bound, rfl⟩ : ∃ n, bound = n + 1 := ⟨bound - 1, by omega⟩
    cases each with
    | nil =>
      rw [joined, readMembers?_member first closes, closed]
      rfl
    | @cons text' member' texts' members' first' each' =>
      have later := ih (List.cons_ne_nil _ _) (Nat.le_of_succ_le_succ enough)
      have comma : skipBlanks (',' :: (joined (text' :: texts') ++ (blanks ++ '}' :: rest))) =
          ',' :: (joined (text' :: texts') ++ (blanks ++ '}' :: rest)) := rfl
      rw [joined_cons, List.append_assoc, List.cons_append,
        readMembers?_member first (closes_cons (by decide) _), comma]
      exact later _

end Collections

def Opens (text : List Char) : Prop :=
  ∃ c rest, text = c :: rest ∧ isBlank c = false ∧ c ≠ ']'

theorem Opens.append {text : List Char} (opens : Opens text) (more : List Char) :
    Opens (text ++ more) := by
  rcases opens with ⟨c, rest, rfl, marks⟩
  exact ⟨c, rest ++ more, rfl, marks⟩

theorem Opens.skipBlanks {text : List Char} (opens : Opens text) : skipBlanks text = text := by
  rcases opens with ⟨c, rest, rfl, shown, -⟩
  exact skipBlanks_cons shown rest

theorem opens_of_readNumber? {text rest : List Char} {parts : NumberParts}
    (found : readNumber? text = some (parts, rest)) : Opens text := by
  have marks : ∀ c, isBlank c = true ∨ c = ']' → isDigit c = false ∧ c ≠ '-' := by
    intro c mark
    simp only [isBlank, Bool.or_eq_true, beq_iff_eq] at mark
    rcases mark with ((((rfl | rfl) | rfl) | rfl) | rfl) <;> decide
  rcases head_of_readNumber? found with ⟨c, others, rfl, starts⟩
  refine ⟨c, others, rfl, ?_⟩
  by_contra mark
  rw [not_and_or, Bool.not_eq_false, not_not] at mark
  rcases starts with digit | rfl
  · rw [(marks c mark).1] at digit
    cases digit
  · exact (marks '-' mark).2 rfl

structure Writes (floats : Floats) (budget : Nat) (text : List Char) (value : Value) : Prop where
  opens : Opens text
  reads : Reads floats budget text value

theorem length_le_joined (texts : List (List Char)) (blanks : List Char) (close : Char)
    (rest : List Char) : texts.length ≤ (joined texts ++ (blanks ++ close :: rest)).length := by
  induction texts with
  | nil => exact Nat.zero_le _
  | cons text texts ih =>
    cases texts with
    | nil =>
      simp only [List.length_append, List.length_cons, List.length_nil]
      omega
    | cons other others =>
      rw [joined_cons]
      simp only [List.length_cons, List.length_append] at ih ⊢
      omega

theorem joined_behind (blanks text : List Char) (texts : List (List Char)) :
    joined ((blanks ++ text) :: texts) = blanks ++ joined (text :: texts) := by
  cases texts with
  | nil => rfl
  | cons other others => rw [joined_cons, joined_cons, List.append_assoc]

theorem Opens.joined {text : List Char} (opens : Opens text) (texts : List (List Char)) :
    Opens (joined (text :: texts)) := by
  cases texts with
  | nil => exact opens
  | cons other others => exact opens.append _

theorem readValue?_bracket (floats : Floats) (budget : Nat) (text : List Char) :
    readValue? floats (budget + 1) ('[' :: text) =
      match skipBlanks text with
      | ']' :: rest => some (.array [], rest)
      | rest =>
        (readElements? (readValue? floats budget) rest.length rest).map
          fun (elements, rest) => (.array elements, rest) := by
  rw [readValue?.eq_def]
  rfl

theorem readValue?_brace (floats : Floats) (budget : Nat) (text : List Char) :
    readValue? floats (budget + 1) ('{' :: text) =
      match skipBlanks text with
      | '}' :: rest => some (.object [], rest)
      | rest =>
        (readMembers? (readValue? floats budget) rest.length [] rest).map
          fun (members, rest) => (.object members, rest) := by
  rw [readValue?.eq_def]
  rfl

theorem readValue?_elements {text body : List Char} (skipped : skipBlanks text = body)
    (opens : Opens body) (floats : Floats) (budget : Nat) :
    readValue? floats (budget + 1) ('[' :: text) =
      (readElements? (readValue? floats budget) body.length body).map
        fun (elements, rest) => (.array elements, rest) := by
  rcases opens with ⟨c, rest, rfl, -, other⟩
  rw [readValue?_bracket, skipped]
  split
  · next same => exact absurd (List.cons_eq_cons.mp same).1 other
  · rfl

theorem readValue?_members {text body : List Char} (skipped : skipBlanks text = body)
    (opens : body.head? = some '"') (floats : Floats) (budget : Nat) :
    readValue? floats (budget + 1) ('{' :: text) =
      (readMembers? (readValue? floats budget) body.length [] body).map
        fun (members, rest) => (.object members, rest) := by
  rw [readValue?_brace, skipped]
  split
  · cases opens
  · rfl

section Between

variable {floats : Floats} {budget : Nat} {lead blanks : List Char}
  (leading : ∀ c ∈ lead, isBlank c = true) (blank : ∀ c ∈ blanks, isBlank c = true)
include leading blank

theorem reads_elements {texts : List (List Char)} {values : List Value} (filled : texts ≠ [])
    (closes : ∀ rest, Closes (blanks ++ ']' :: rest))
    (each : List.Forall₂ (Writes floats budget) texts values) :
    Reads floats (budget + 1) ('[' :: (joined (texts.map (lead ++ ·)) ++ (blanks ++ [']'])))
      (.array values) := by
  intro rest _
  cases each with
  | nil => exact absurd rfl filled
  | @cons text value texts values first each =>
    obtain ⟨shown, same⟩ : ∃ shown, shown = text :: texts.map (lead ++ ·) := ⟨_, rfl⟩
    have elements : List.Forall₂ (Reads floats budget) shown (value :: values) := by
      rw [same]
      exact .cons first.reads (List.forall₂_map_left_iff.mpr
        (each.imp fun _ _ writes => writes.reads.behind leading))
    have opened : Opens (joined shown ++ (blanks ++ ']' :: rest)) := by
      rw [same]
      exact (first.opens.joined _).append _
    have skipped := (skipBlanks_append leading _).trans opened.skipBlanks
    have enough := length_le_joined shown blanks ']' rest
    rw [elements.length_eq] at enough
    have whole : joined ((text :: texts).map (lead ++ ·)) ++ (blanks ++ [']']) ++ rest =
        lead ++ (joined shown ++ (blanks ++ ']' :: rest)) := by
      rw [same, List.map_cons, joined_behind]
      simp only [List.append_assoc, List.cons_append, List.nil_append]
    rw [List.cons_append, whole, readValue?_elements skipped opened,
      readElements?_joined blank elements (List.cons_ne_nil _ _) enough (closes rest)]
    rfl

/-- An object is read if its values are, with blanks in front of them and of its keys or without. -/
theorem reads_members {texts : List (String × List Char)} {members : List (String × Value)}
    {gap : List Char} (filled : texts ≠ []) (gapping : ∀ c ∈ gap, isBlank c = true)
    (closes : ∀ rest, Closes (blanks ++ '}' :: rest))
    (each : List.Forall₂ (Fields.Matches (Writes floats budget)) texts members) :
    Reads floats (budget + 1)
      ('{' :: (joined (texts.map (lead ++ memberText gap ·)) ++ (blanks ++ ['}'])))
      (.object (Fields.sorted members)) := by
  have reads : ∀ blanks : List Char, (∀ c ∈ blanks, isBlank c = true) →
      ∀ text member, Fields.Matches (Writes floats budget) text member →
        ReadsMember floats budget (blanks ++ memberText gap text) member := by
    rintro blanks blank ⟨key, text⟩ member ⟨same, writes⟩
    cases same
    exact ⟨blanks, _, blank, rfl, writes.reads.behind gapping⟩
  intro rest _
  cases each with
  | nil => exact absurd rfl filled
  | @cons text member texts members first each =>
    obtain ⟨shown, same⟩ : ∃ shown, shown = memberText gap text ::
      texts.map (lead ++ memberText gap ·) := ⟨_, rfl⟩
    have each : List.Forall₂ (ReadsMember floats budget) shown (member :: members) := by
      rw [same]
      have others := each.imp fun _ _ matching => reads lead leading _ _ matching
      exact .cons (reads [] (List.forall_mem_nil _) text member first)
        (List.forall₂_map_left_iff.mpr others)
    have opened : (joined shown ++ (blanks ++ '}' :: rest)).head? = some '"' := by
      rw [same]
      cases texts <;> rfl
    have skipped : skipBlanks (lead ++ (joined shown ++ (blanks ++ '}' :: rest))) =
        joined shown ++ (blanks ++ '}' :: rest) := by
      rcases List.head?_eq_some_iff.mp opened with ⟨behind, start⟩
      rw [start]
      exact skipBlanks_before leading rfl behind
    have enough := length_le_joined shown blanks '}' rest
    rw [each.length_eq] at enough
    have whole : joined ((text :: texts).map (lead ++ memberText gap ·)) ++ (blanks ++ ['}']) ++
        rest = lead ++ (joined shown ++ (blanks ++ '}' :: rest)) := by
      rw [same, List.map_cons, joined_behind]
      simp only [List.append_assoc, List.cons_append, List.nil_append]
    rw [List.cons_append, whole, readValue?_members skipped opened,
      readMembers?_joined blank each (List.cons_ne_nil _ _) enough (closes rest)]
    rfl

end Between

section Texts

variable {floats : Floats} {budget : Nat} {texts : List (List Char)} {values : List Value}
  {named : List (String × List Char)} {members : List (String × Value)}

theorem writes_empty_array : Writes floats (budget + 1) ['[', ']'] (.array []) where
  opens := ⟨'[', _, rfl, rfl, by decide⟩
  reads rest _ := readValue?_bracket floats budget (']' :: rest)

theorem writes_empty_object : Writes floats (budget + 1) ['{', '}'] (.object []) where
  opens := ⟨'{', _, rfl, rfl, by decide⟩
  reads rest _ := readValue?_brace floats budget ('}' :: rest)

theorem writes_arrayText (each : List.Forall₂ (Writes floats budget) texts values) :
    Writes floats (budget + 1) (arrayText texts) (.array values) := by
  by_cases empty : texts = []
  · subst empty
    cases each
    exact writes_empty_array
  · have reads := reads_elements (List.forall_mem_nil _) (List.forall_mem_nil _) empty
      (fun rest => closes_cons (by decide) rest) each
    simp only [List.nil_append, List.map_id'] at reads
    exact ⟨⟨'[', _, rfl, rfl, by decide⟩, reads⟩

theorem objectText_eq (named : List (String × List Char)) :
    objectText named = '{' :: joined (named.map (memberText [])) ++ ['}'] := rfl

theorem writes_objectText
    (each : List.Forall₂ (Fields.Matches (Writes floats budget)) named members) :
    Writes floats (budget + 1) (objectText named) (.object (Fields.sorted members)) := by
  by_cases empty : named = []
  · subst empty
    cases each
    exact writes_empty_object
  · have reads := reads_members (List.forall_mem_nil _) (List.forall_mem_nil _) empty
      (List.forall_mem_nil _) (fun rest => closes_cons (by decide) rest) each
    rw [objectText_eq]
    exact ⟨⟨'{', _, rfl, rfl, by decide⟩, reads⟩

theorem isBlank_lineBreak (level : Nat) : ∀ c ∈ lineBreak level, isBlank c = true := by
  intro c member
  rcases List.mem_cons.mp member with rfl | space
  · rfl
  · rw [List.eq_of_mem_replicate space]
    rfl

theorem closes_lineBreak (level : Nat) (rest : List Char) : Closes (lineBreak level ++ rest) :=
  closes_cons (by decide) _

theorem writes_spread_array (each : List.Forall₂ (Writes floats budget) texts values)
    (level : Nat) : Writes floats (budget + 1) (spread '[' ']' level texts) (.array values) := by
  by_cases empty : texts = []
  · subst empty
    cases each
    exact writes_empty_array
  · have reads := reads_elements (isBlank_lineBreak (level + 1)) (isBlank_lineBreak level) empty
      (fun rest => closes_lineBreak level _) each
    rw [spread, if_neg (by simpa using empty), List.cons_append, List.cons_append,
      List.append_assoc]
    exact ⟨⟨'[', _, rfl, rfl, by decide⟩, reads⟩

theorem writes_spread_object
    (each : List.Forall₂ (Fields.Matches (Writes floats budget)) named members) (level : Nat) :
    Writes floats (budget + 1) (spread '{' '}' level (named.map (memberText [' '])))
      (.object (Fields.sorted members)) := by
  by_cases empty : named = []
  · subst empty
    cases each
    exact writes_empty_object
  · have reads := reads_members (isBlank_lineBreak (level + 1)) (isBlank_lineBreak level) empty
      (List.forall_mem_singleton.mpr (show isBlank ' ' = true from rfl))
      (fun rest => closes_lineBreak level _) each
    rw [spread, List.isEmpty_map, if_neg (by simpa using empty), List.map_map, List.cons_append,
      List.cons_append, List.append_assoc]
    exact ⟨⟨'{', _, rfl, rfl, by decide⟩, reads⟩

end Texts

/-! Whole trees. -/

def valueFormat : Serializer Value where
  null := .null
  bool := .bool
  integer n := .number (.ofInt64 n)
  float := floatValue
  string := .string
  sequence := .array
  mapping members := .object (Fields.sorted members)

def FloatInverts (floats : Floats) : Node → Prop
  | .scalar (.float x) => x.isFinite = true → floats.Inverts x
  | _ => True

section Trees

variable {floats : Floats} {budget : Nat}

theorem writes_bool (b : Bool) : Writes floats budget (boolText b) (.bool b) where
  opens := by
    cases b
    · exact ⟨'f', ['a', 'l', 's', 'e'], by decide⟩
    · exact ⟨'t', ['r', 'u', 'e'], by decide⟩
  reads := reads_bool b

theorem writes_null : Writes floats budget "null".toList .null :=
  ⟨⟨'n', ['u', 'l', 'l'], by decide⟩, reads_null⟩

theorem writes_integer (n : Int64) :
    Writes floats budget (intText n.toInt) (.number (.ofInt64 n)) where
  opens := by
    have found := readNumber?_intText n.toInt closes_nil
    rw [List.append_nil] at found
    exact opens_of_readNumber? found
  reads := reads_integer n

theorem writes_natural (n : UInt64) :
    Writes floats budget (Decimal.digitsOf n.toNat) (.number (.natural n)) where
  opens := by
    have found := readNumber?_intText n.toNat closes_nil
    rw [List.append_nil, intText_natCast] at found
    exact opens_of_readNumber? found
  reads := reads_natural n

theorem writes_float {x : Float} (inverts : x.isFinite = true → floats.Inverts x) :
    Writes floats budget (floats.text x) (floatValue x) := by
  refine ⟨?_, reads_float inverts⟩
  rw [Floats.text]
  split
  · next finite =>
    rcases Floats.number?_eq_some.mp (inverts finite) with ⟨parts, found, -⟩
    exact opens_of_readNumber? found
  · have null : Writes floats budget "null".toList .null := writes_null
    exact null.opens

theorem writes_string (s : String) : Writes floats budget (stringText s) (.string s) :=
  ⟨⟨'"', _, stringText.eq_1 s, rfl, by decide⟩, reads_string s⟩

/-- The compact text of a tree is read as far as collections may nest. -/
theorem writes_compact {node : Node} (inverts : node.All (FloatInverts floats))
    (shallow : node.depth ≤ budget) :
    Writes floats budget (node.serialize (compactFormat floats)) (node.serialize valueFormat) := by
  induction node using Node.induction generalizing budget with
  | scalar value =>
    cases value with
    | null => exact writes_null
    | bool b => exact writes_bool b
    | integer n => exact writes_integer n
    | float x => exact writes_float inverts
    | string s => exact writes_string s
  | sequence items ih =>
    rcases Node.depth_sequence_le_iff.mp shallow with ⟨budget, rfl, inside⟩
    rw [Node.serialize_sequence, Node.serialize_sequence]
    apply writes_arrayText
    rw [List.forall₂_map_left_iff, List.forall₂_map_right_iff, List.forall₂_same]
    exact fun item member =>
      ih item member (Node.allItems_iff.mp inverts.2 item member) (inside item member)
  | mapping fields ih =>
    rcases Node.depth_mapping_le_iff.mp shallow with ⟨budget, rfl, inside⟩
    rw [Node.serialize_mapping, Node.serialize_mapping]
    apply writes_objectText
    rw [List.forall₂_map_left_iff, List.forall₂_map_right_iff, List.forall₂_same]
    exact fun entry member => ⟨rfl,
      ih entry member (Node.allFields_iff.mp inverts.2 entry member) (inside entry member)⟩

theorem writes_pretty {node : Node} (inverts : node.All (FloatInverts floats))
    (shallow : node.depth ≤ budget) (level : Nat) :
    Writes floats budget (node.serialize (prettyFormat floats) level)
      (node.serialize valueFormat) := by
  induction node using Node.induction generalizing budget level with
  | scalar value =>
    cases value with
    | null => exact writes_null
    | bool b => exact writes_bool b
    | integer n => exact writes_integer n
    | float x => exact writes_float inverts
    | string s => exact writes_string s
  | sequence items ih =>
    rcases Node.depth_sequence_le_iff.mp shallow with ⟨budget, rfl, inside⟩
    rw [Node.serialize_sequence, Node.serialize_sequence]
    refine writes_spread_array ?_ level
    rw [List.map_map, List.forall₂_map_left_iff, List.forall₂_map_right_iff, List.forall₂_same]
    exact fun item member =>
      ih item member (Node.allItems_iff.mp inverts.2 item member) (inside item member) (level + 1)
  | mapping fields ih =>
    rcases Node.depth_mapping_le_iff.mp shallow with ⟨budget, rfl, inside⟩
    rw [Node.serialize_mapping, Node.serialize_mapping]
    have each : List.Forall₂ (Fields.Matches (Writes floats budget))
        (fields.map fun entry => (entry.1, entry.2.serialize (prettyFormat floats) (level + 1)))
        (fields.map fun entry => (entry.1, entry.2.serialize valueFormat)) := by
      rw [List.forall₂_map_left_iff, List.forall₂_map_right_iff, List.forall₂_same]
      exact fun entry member => ⟨rfl, ih entry member
        (Node.allFields_iff.mp inverts.2 entry member) (inside entry member) (level + 1)⟩
    have whole := writes_spread_object each level
    rw [List.map_map] at whole
    change Writes floats _ (spread '{' '}' level (List.map _ (List.map _ fields))) _
    rw [List.map_map]
    exact whole

end Trees

end Json
end ParticleSim
