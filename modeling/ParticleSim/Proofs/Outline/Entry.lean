import ParticleSim.Proofs.Outline.Source
import ParticleSim.Proofs.Tree.Shape
/-!
Reading a value and a key from one line. `Reads` says at once what a reader does with enough nesting
left and with too little, so that one induction over a tree settles both.
-/
namespace ParticleSim.Outline

/-- With nesting for `depth` levels left the value is read; with less, the reader says so. -/
structure Reads {α : Type} (depth budget : Nat) (value : α) (result : Except ParseError α) :
    Prop where
  enough : depth ≤ budget → result = .ok value
  tooDeep : budget < depth → ∃ line column, result = .error ⟨line, column, .tooDeep⟩

namespace Reads

variable {α β : Type} {depth depth' budget : Nat} {value : α} {result : Except ParseError α}

theorem ok (budget : Nat) (value : α) : Reads 0 budget value (.ok value) :=
  ⟨fun _ => rfl, fun impossible => absurd impossible (Nat.not_lt_zero budget)⟩

theorem map (reads : Reads depth budget value result) (f : α → β) :
    Reads depth budget (f value) (result.map f) := by
  constructor
  · intro enough
    rw [reads.enough enough]
    rfl
  · intro short
    obtain ⟨line, column, failed⟩ := reads.tooDeep short
    exact ⟨line, column, by rw [failed]; rfl⟩

theorem andThen (reads : Reads depth budget value result) {next : α → Except ParseError β}
    {value' : β} (last : next value = .ok value') :
    Reads depth budget value' (result >>= next) := by
  constructor
  · intro enough
    rw [reads.enough enough]
    exact last
  · intro short
    obtain ⟨line, column, failed⟩ := reads.tooDeep short
    exact ⟨line, column, by rw [failed]; rfl⟩

/-- One reader after the other needs the greater depth of both. -/
theorem bind (first : Reads depth budget value result) {next : α → Except ParseError β}
    {value' : β} (second : Reads depth' budget value' (next value)) :
    Reads (max depth depth') budget value' (result >>= next) := by
  constructor
  · intro enough
    rw [first.enough (le_trans (Nat.le_max_left ..) enough)]
    exact second.enough (le_trans (Nat.le_max_right ..) enough)
  · intro short
    by_cases enough : depth ≤ budget
    · rw [first.enough enough]
      exact second.tooDeep (by omega)
    · obtain ⟨line, column, failed⟩ := first.tooDeep (by omega)
      exact ⟨line, column, by rw [failed]; rfl⟩

theorem enter (result : Nat → Except ParseError α)
    (inside : ∀ budget, Reads depth budget value (result (budget + 1)))
    (outside : ∃ line column, result 0 = .error ⟨line, column, .tooDeep⟩) (budget : Nat) :
    Reads (depth + 1) budget value (result budget) := by
  cases budget with
  | zero => exact ⟨fun enough => absurd enough (by omega), fun _ => outside⟩
  | succ budget =>
    exact ⟨fun enough => (inside budget).enough (by omega),
      fun short => (inside budget).tooDeep (by omega)⟩

end Reads

/-! A value on the line of its key or dash. -/

theorem skipSpaces_inlineText (node : Node) : skipSpaces (inlineText node) = inlineText node := by
  obtain ⟨c, rest, same, noSpace, -⟩ := (Token.value node).first
  rw [same]
  exact skipSpaces_cons noSpace rest

theorem readInline_scalar (line column budget : Nat) (value : Scalar) :
    readInline line column budget (scalarText value) = .ok (.scalar value) := by
  cases quoted : isQuoted value with
  | false => rw [(bare_scalarText quoted).readInline_eq, resolve_scalarText quoted]
  | true =>
    obtain ⟨s, rfl, form⟩ := quoted_scalarText quoted
    rw [form, readInline_encode, String.ofList_toList]
    rfl

theorem readInline_reads (line column budget : Nat) {node : Node} (inline : isBlock node = false) :
    Reads node.depth budget node (readInline line column budget (inlineText node)) := by
  cases node with
  | scalar value =>
    rw [inlineText, readInline_scalar]
    exact .ok budget (Node.scalar value)
  | sequence items =>
    cases items with
    | cons item rest => cases inline
    | nil =>
      exact Reads.enter (fun budget => readInline line column budget ['[', ']'])
        (fun budget => .ok budget (Node.sequence [])) ⟨line, _, rfl⟩ budget
  | mapping fields =>
    cases fields with
    | cons field rest => cases inline
    | nil =>
      exact Reads.enter (fun budget => readInline line column budget ['{', '}'])
        (fun budget => .ok budget (Node.mapping [])) ⟨line, _, rfl⟩ budget

theorem isItem_inlineText (node : Node) : isItem (inlineText node) = false := by
  cases node with
  | scalar value =>
    rw [inlineText]
    cases quoted : isQuoted value with
    | false => exact isItem_of_tight (bare_scalarText quoted).noDash
    | true =>
      obtain ⟨s, -, form⟩ := quoted_scalarText quoted
      rw [form]
      rfl
  | sequence items => rfl
  | mapping fields => rfl

theorem splitKey_inlineText (node : Node) : splitKey (inlineText node) = none := by
  cases node with
  | scalar value =>
    rw [inlineText]
    cases quoted : isQuoted value with
    | false => exact (bare_scalarText quoted).splitKey_none
    | true =>
      obtain ⟨s, -, form⟩ := quoted_scalarText quoted
      rw [form]
      exact splitKey_encode s.toList
  | sequence items => rfl
  | mapping fields => rfl

/-! Lines of keys. -/

theorem entry?_key (number indent : Nat) (name : String) (after : List Char)
    (ends : endsKey after = true) :
    ∃ column, Line.entry? ⟨number, indent, keyText name ++ ':' :: after⟩ =
      .ok (some ⟨name, skipSpaces after, column⟩) := by
  have split : splitKey (keyText name ++ ':' :: after) = some (keyText name, after) := by
    rw [keyText]
    split
    · exact splitKey_encode_key name.toList ends
    · next safe => exact (bare_of_not_hazardous (Bool.not_eq_true _ ▸ safe)).splitKey_key ends
  have read : ∀ line, readKey line (keyText name) = .ok name := by
    intro line
    rw [keyText]
    split
    · rw [readKey_encode, String.ofList_toList]
    · next safe =>
      rw [(bare_of_not_hazardous (Bool.not_eq_true _ ▸ safe)).readKey_eq, String.ofList_toList]
  rw [Line.entry?, split]
  dsimp only
  rw [read]
  exact ⟨_, rfl⟩

theorem isItem_keyText (name : String) (after : List Char) :
    isItem (keyText name ++ ':' :: after) = false := by
  rw [keyText]
  split
  · rfl
  · next safe =>
    have bare := bare_of_not_hazardous (Bool.not_eq_true _ ▸ safe)
    obtain ⟨c, rest, same, -⟩ := bare.first
    refine isItem_append ?_ bare.noDash (':' :: after)
    rw [same]
    exact List.cons_ne_nil c rest

theorem afterDash_dash (number indent : Nat) {text : List Char} (token : Token text) :
    (Line.mk number indent ('-' :: ' ' :: text)).afterDash = ⟨number, indent + 2, text⟩ := by
  obtain ⟨c, rest, rfl, noSpace, -⟩ := token.first
  rw [Line.afterDash]
  dsimp only
  rw [List.drop_succ_cons, List.drop_zero, skipSpaces_space, skipSpaces_cons noSpace]
  congr 1
  simp only [List.length_cons]
  omega

end ParticleSim.Outline
