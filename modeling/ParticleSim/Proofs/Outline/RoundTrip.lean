import ParticleSim.Proofs.Outline.Entry
import ParticleSim.Proofs.Outline.Position
/-!
Reading the lines of a written tree gives the tree back, or refuses it for its depth. The blocks are
followed by induction over the tree; the lines behind a block stand further left and end it.
-/
namespace ParticleSim.Outline

/-! The lines that the writer makes of a value. -/

def valueLines (indent : Nat) (node : Node) : List OutputLine :=
  if isBlock node then blockLines indent node else [(indent, inlineText node)]

theorem itemLines_cons (indent : Nat) (item : Node) (rest : List Node) :
    itemLines indent (item :: rest) =
      withDash indent (valueLines (indent + 2) item) ++ itemLines indent rest := by
  rw [itemLines, valueLines]
  split
  · rfl
  · rfl

mutual

theorem blockLines_cons (indent : Nat) :
    ∀ {node : Node}, isBlock node = true →
      ∃ text more, blockLines indent node = (indent, text) :: more
  | .sequence (item :: rest), _ => by
    rw [blockLines]
    exact itemLines_head indent item rest
  | .mapping ((key, value) :: rest), _ => by
    rw [blockLines]
    exact fieldLines_head indent key value rest

theorem itemLines_head (indent : Nat) (item : Node) (rest : List Node) :
    ∃ text more, itemLines indent (item :: rest) = (indent, text) :: more := by
  rw [itemLines]
  split
  · next block =>
    obtain ⟨text, more, same⟩ := blockLines_cons (indent + 2) block
    rw [same]
    exact ⟨_, _, rfl⟩
  · exact ⟨_, _, rfl⟩

theorem fieldLines_head (indent : Nat) (key : String) (value : Node) (rest : List (String × Node)) :
    ∃ text more, fieldLines indent ((key, value) :: rest) = (indent, text) :: more := by
  rw [fieldLines]
  split
  · exact ⟨_, _, rfl⟩
  · exact ⟨_, _, rfl⟩

end

theorem valueLines_cons (indent : Nat) (node : Node) :
    ∃ text more, valueLines indent node = (indent, text) :: more ∧ LineText text := by
  have all : AllLines (valueLines indent node) := by
    rw [valueLines]
    split
    · exact allLines_block indent node
    · intro line member
      rw [List.mem_singleton.mp member]
      exact LineText.value node
  have head : ∃ text more, valueLines indent node = (indent, text) :: more := by
    rw [valueLines]
    split
    · next block => exact blockLines_cons indent block
    · exact ⟨_, _, rfl⟩
  obtain ⟨text, more, same⟩ := head
  rw [same] at all
  exact ⟨text, more, same, all _ (List.mem_cons_self ..)⟩

theorem length_le_itemLines (indent : Nat) (items : List Node) :
    items.length ≤ (itemLines indent items).length := by
  induction items with
  | nil => exact Nat.le_refl 0
  | cons item rest ih =>
    obtain ⟨text, more, same, -⟩ := valueLines_cons (indent + 2) item
    rw [itemLines_cons, same, withDash, List.length_append, List.length_cons, List.length_cons]
    omega

theorem length_le_fieldLines (indent : Nat) (fields : List (String × Node)) :
    fields.length ≤ (fieldLines indent fields).length := by
  induction fields with
  | nil => exact Nat.le_refl 0
  | cons field rest ih =>
    obtain ⟨key, value⟩ := field
    rw [fieldLines]
    split
    · simp only [List.length_append, List.length_cons]
      omega
    · simp only [List.length_append, List.length_cons, List.length_nil]
      omega

def Line.output (line : Line) : OutputLine := (line.indent, line.text)

/-- The lines that follow a block at an indentation stand further left. -/
def Ends (indent : Nat) (rest : List Line) : Prop :=
  ∀ next ∈ rest.head?, next.indent < indent

theorem Ends.nil (indent : Nat) : Ends indent [] := by simp [Ends]

theorem Ends.deeper {indent : Nat} {rest : List Line} (ends : Ends indent rest) :
    Ends (indent + 2) rest := fun next head => lt_trans (ends next head) (by omega)

theorem ends_items {indent : Nat} {items : List Node} {lines rest : List Line}
    (same : lines.map Line.output = itemLines indent items) (ends : Ends indent rest) :
    Ends (indent + 2) (lines ++ rest) := by
  cases items with
  | nil =>
    rw [itemLines, List.map_eq_nil_iff] at same
    rw [same]
    exact ends.deeper
  | cons item more =>
    obtain ⟨text, further, shape⟩ := itemLines_head indent item more
    rw [shape] at same
    obtain ⟨line, others, rfl, first, -⟩ := List.map_eq_cons_iff.mp same
    intro next head
    cases head
    rw [show line.indent = indent from congrArg Prod.fst first]
    omega

theorem ends_fields {indent : Nat} {fields : List (String × Node)} {lines rest : List Line}
    (same : lines.map Line.output = fieldLines indent fields) (ends : Ends indent rest) :
    Ends (indent + 2) (lines ++ rest) := by
  cases fields with
  | nil =>
    rw [fieldLines, List.map_eq_nil_iff] at same
    rw [same]
    exact ends.deeper
  | cons field more =>
    obtain ⟨text, further, shape⟩ := fieldLines_head indent field.1 field.2 more
    rw [shape] at same
    obtain ⟨line, others, rfl, first, -⟩ := List.map_eq_cons_iff.mp same
    intro next head
    cases head
    rw [show line.indent = indent from congrArg Prod.fst first]
    omega

theorem readItems_end {indent : Nat} {rest : List Line} (ends : Ends indent rest)
    (budget bound : Nat) :
    Reads 0 budget (([] : List Node), rest) (readItems (readBlock budget) indent bound rest) := by
  cases bound with
  | zero => exact .ok budget ([], rest)
  | succ bound =>
    cases rest with
    | nil => exact .ok budget ([], [])
    | cons next rest =>
      rw [readItems, if_pos (ends next rfl)]
      exact .ok budget ([], next :: rest)

theorem readEntries_end {indent : Nat} {rest : List Line} (ends : Ends indent rest)
    (budget bound : Nat) (fields : Fields Node) :
    Reads 0 budget (fields, rest)
      (readEntries (readBlock budget) budget indent bound fields rest) := by
  cases bound with
  | zero => exact .ok budget (fields, rest)
  | succ bound =>
    cases rest with
    | nil => exact .ok budget (fields, [])
    | cons next rest =>
      rw [readEntries, if_pos (ends next rfl)]
      exact .ok budget (fields, next :: rest)

theorem readBlock_inline (number indent budget : Nat) {node : Node} (inline : isBlock node = false)
    (rest : List Line) :
    Reads node.depth budget (node, rest)
      (readBlock budget (⟨number, indent, inlineText node⟩ :: rest)) := by
  have noEntry : Line.entry? ⟨number, indent, inlineText node⟩ = .ok none := by
    rw [Line.entry?, splitKey_inlineText]
  have read := readInline_reads number (indent + 1) budget inline
  cases budget with
  | zero =>
    rw [readBlock, isItem_inlineText, if_neg Bool.false_ne_true, noEntry]
    exact read.andThen rfl
  | succ budget =>
    rw [readBlock, isItem_inlineText, if_neg Bool.false_ne_true, noEntry]
    exact read.andThen rfl

/-! What the readers do at one line. -/

theorem output_numbered (number : Nat) (lines : List OutputLine) :
    (numbered number lines).map Line.output = lines := by
  induction lines generalizing number with
  | nil => rfl
  | cons line rest ih => rw [numbered, List.map_cons, ih]; rfl

theorem readNested_deeper {reader : List Line → Except ParseError (Node × List Line)}
    {parent : Nat} {sameLevel : Bool} {next : Line} {rest : List Line}
    (deeper : parent < next.indent) :
    readNested reader parent sameLevel (next :: rest) = reader (next :: rest) := by
  rw [readNested, decide_eq_true deeper, Bool.true_or, if_pos rfl]

section Steps

variable {depth depth' budget bound indent number : Nat} {rest between inner : List Line}

theorem readBlock_sequence {line : Line} {more : List Line} {items : List Node}
    (item : isItem line.text = true)
    (inside : ∀ budget, Reads depth budget (items, rest)
      (readItems (readBlock budget) line.indent (line :: more).length (line :: more)))
    (budget : Nat) :
    Reads (depth + 1) budget (Node.sequence items, rest) (readBlock budget (line :: more)) := by
  refine Reads.enter (fun budget => readBlock budget (line :: more)) ?_ ?_ budget
  · intro budget
    rw [readBlock, if_pos item]
    exact (inside budget).map fun read => (Node.sequence read.1, read.2)
  · rw [readBlock, if_pos item]
    exact ⟨_, _, rfl⟩

theorem readBlock_mapping {line : Line} {more : List Line} {fields : Fields Node} {entry : Entry}
    (noItem : isItem line.text = false) (written : line.entry? = .ok (some entry))
    (inside : ∀ budget, Reads depth budget (fields, rest)
      (readEntries (readBlock budget) budget line.indent (line :: more).length [] (line :: more)))
    (budget : Nat) :
    Reads (depth + 1) budget (Node.mapping fields, rest) (readBlock budget (line :: more)) := by
  refine Reads.enter (fun budget => readBlock budget (line :: more)) ?_ ?_ budget
  · intro budget
    rw [readBlock, noItem, if_neg Bool.false_ne_true, written]
    exact (inside budget).map fun read => (Node.mapping read.1, read.2)
  · rw [readBlock, noItem, if_neg Bool.false_ne_true, written]
    exact ⟨_, _, rfl⟩

theorem readItems_step {text : List Char} {item : Node} {items : List Node} (token : Token text)
    (read : Reads depth budget (item, between)
      (readBlock budget (⟨number, indent + 2, text⟩ :: inner)))
    (following : Reads depth' budget (items, rest)
      (readItems (readBlock budget) indent bound between)) :
    Reads (max depth depth') budget (item :: items, rest) (readItems (readBlock budget) indent
      (bound + 1) (⟨number, indent, '-' :: ' ' :: text⟩ :: inner)) := by
  obtain ⟨c, more, same, -⟩ := token.first
  have nonempty : text.isEmpty = false := by rw [same]; rfl
  have dash : isItem (Line.mk number indent ('-' :: ' ' :: text)).text = true := rfl
  rw [readItems_item dash, afterDash_dash number indent token, nonempty, if_neg Bool.false_ne_true]
  exact read.bind (following.andThen rfl)

theorem readEntries_step {line : Line} {entry : Entry} {value : Node} {done fields : Fields Node}
    (noItem : isItem line.text = false) (written : line.entry? = .ok (some entry))
    (fresh : entry.key ∉ done.keys)
    (read : Reads depth budget (value, between)
      (if entry.value.isEmpty then readNested (readBlock budget) line.indent true inner
        else (readInline line.number entry.column budget entry.value).map (·, inner)))
    (following : Reads depth' budget (fields, rest)
      (readEntries (readBlock budget) budget line.indent bound (done ++ [(entry.key, value)])
        between)) :
    Reads (max depth depth') budget (fields, rest)
      (readEntries (readBlock budget) budget line.indent (bound + 1) done (line :: inner)) := by
  rw [readEntries_entry noItem written (Fields.contains_eq_false_iff.mpr fresh)]
  rw [← Fields.insert_new fresh] at following
  exact read.bind following

end Steps

theorem Line.of_output {line : Line} {indent : Nat} {text : List Char}
    (same : line.output = (indent, text)) : ∃ number, line = ⟨number, indent, text⟩ := by
  obtain ⟨number, indent', text'⟩ := line
  cases same
  exact ⟨number, rfl⟩

theorem output_cons {lines : List Line} {indent : Nat} {text : List Char} {more : List OutputLine}
    (same : lines.map Line.output = (indent, text) :: more) :
    ∃ number others, lines = ⟨number, indent, text⟩ :: others ∧
      others.map Line.output = more := by
  obtain ⟨line, others, rfl, first, following⟩ := List.map_eq_cons_iff.mp same
  obtain ⟨number, rfl⟩ := Line.of_output first
  exact ⟨number, others, rfl, following⟩

-- The induction is on the tree. `rest` are the lines of the values around it, and `Ends` says that
-- the first of them is not as far in, so that the reader stops there.
mutual

/-- A value on lines of its own is read back, up to the lines that follow it. -/
theorem readBlock_reads : ∀ {node : Node}, node.UniqueKeys →
    ∀ {indent : Nat} {lines rest : List Line},
    lines.map Line.output = valueLines indent node → Ends indent rest → ∀ budget,
      Reads node.depth budget (node, rest) (readBlock budget (lines ++ rest))
  | .scalar value, _, indent, lines, rest, same, _, budget => by
    obtain ⟨number, others, rfl, none⟩ := output_cons same
    rw [List.map_eq_nil_iff.mp none]
    exact readBlock_inline number indent budget rfl rest
  | .sequence [], _, indent, lines, rest, same, _, budget => by
    obtain ⟨number, others, rfl, none⟩ := output_cons same
    rw [List.map_eq_nil_iff.mp none]
    exact readBlock_inline number indent budget rfl rest
  | .mapping [], _, indent, lines, rest, same, _, budget => by
    obtain ⟨number, others, rfl, none⟩ := output_cons same
    rw [List.map_eq_nil_iff.mp none]
    exact readBlock_inline number indent budget rfl rest
  | .sequence (item :: more), unique, indent, lines, rest, same, ends, budget => by
    have items : lines.map Line.output = itemLines indent (item :: more) := same
    -- the reader takes no more items than there are lines, which is enough for all of them
    have count : (item :: more).length ≤ (lines ++ rest).length := by
      have fewer := length_le_itemLines indent (item :: more)
      rw [← items, List.length_map] at fewer
      rw [List.length_append]
      omega
    have inside := fun budget => readItems_reads unique.2 items ends budget count
    obtain ⟨text, further, shape, -⟩ := valueLines_cons (indent + 2) item
    rw [itemLines_cons, shape, withDash, List.cons_append] at items
    obtain ⟨number, others, rfl, -⟩ := output_cons items
    exact readBlock_sequence rfl inside budget
  | .mapping ((key, value) :: more), unique, indent, lines, rest, same, ends, budget => by
    have fields : lines.map Line.output = fieldLines indent ((key, value) :: more) := same
    have count : ((key, value) :: more).length ≤ (lines ++ rest).length := by
      have fewer := length_le_fieldLines indent ((key, value) :: more)
      rw [← fields, List.length_map] at fewer
      rw [List.length_append]
      omega
    have distinct : (Fields.keys ([] ++ (key, value) :: more)).Nodup := unique.1
    have inside := fun budget => readEntries_reads unique.2 distinct fields ends budget count
    have first : ∃ number after others, endsKey after = true ∧
        lines = ⟨number, indent, keyText key ++ ':' :: after⟩ :: others := by
      rw [fieldLines] at fields
      split at fields
      · obtain ⟨number, others, rfl, -⟩ := output_cons fields
        exact ⟨number, [], others, rfl, rfl⟩
      · obtain ⟨number, others, rfl, -⟩ := output_cons fields
        exact ⟨number, _, others, rfl, rfl⟩
    obtain ⟨number, after, others, stops, rfl⟩ := first
    obtain ⟨column, written⟩ := entry?_key number indent key _ stops
    exact readBlock_mapping (isItem_keyText key after) written inside budget

theorem readItems_reads : ∀ {items : List Node}, Node.AllItems Node.DistinctKeys items →
    ∀ {indent : Nat} {lines rest : List Line},
    lines.map Line.output = itemLines indent items → Ends indent rest →
    ∀ (budget : Nat) {bound : Nat}, items.length ≤ bound →
      Reads (Node.depthItems items) budget (items, rest)
        (readItems (readBlock budget) indent bound (lines ++ rest))
  | [], _, indent, lines, rest, same, ends, budget, bound, _ => by
    rw [itemLines, List.map_eq_nil_iff] at same
    rw [same, List.nil_append]
    exact readItems_end ends budget bound
  | item :: more, unique, indent, lines, rest, same, ends, budget, bound, enough => by
    obtain ⟨bound, rfl⟩ : ∃ fewer, bound = fewer + 1 :=
      ⟨bound - 1, by rw [List.length_cons] at enough; omega⟩
    rw [List.length_cons] at enough
    obtain ⟨text, further, shape, first⟩ := valueLines_cons (indent + 2) item
    rw [itemLines_cons, shape, withDash, List.cons_append] at same
    obtain ⟨number, others, rfl, others_same⟩ := output_cons same
    obtain ⟨inner, outer, rfl, inner_same, outer_same⟩ := List.map_eq_append_iff.mp others_same
    -- behind the dash stands the first line of the item, as if it were two columns further in
    have value : (⟨number, indent + 2, text⟩ :: inner : List Line).map Line.output =
        valueLines (indent + 2) item := by
      rw [shape, List.map_cons, inner_same]
      rfl
    have read := readBlock_reads unique.1 value (ends_items outer_same ends) budget
    have following := readItems_reads unique.2 outer_same ends budget
      (show more.length ≤ bound by omega)
    rw [List.cons_append, List.append_assoc]
    exact readItems_step first.toToken read following

theorem readEntries_reads : ∀ {fields : List (String × Node)},
    Node.AllFields Node.DistinctKeys fields → ∀ {done : Fields Node},
    (Fields.keys (done ++ fields)).Nodup → ∀ {indent : Nat} {lines rest : List Line},
    lines.map Line.output = fieldLines indent fields → Ends indent rest →
    ∀ (budget : Nat) {bound : Nat}, fields.length ≤ bound →
      Reads (Node.depthFields fields) budget (done ++ fields, rest)
        (readEntries (readBlock budget) budget indent bound done (lines ++ rest))
  | [], _, done, _, indent, lines, rest, same, ends, budget, bound, _ => by
    rw [fieldLines, List.map_eq_nil_iff] at same
    rw [same, List.nil_append, List.append_nil]
    exact readEntries_end ends budget bound done
  | (key, value) :: more, unique, done, distinct, indent, lines, rest, same, ends, budget, bound,
      enough => by
    obtain ⟨bound, rfl⟩ : ∃ fewer, bound = fewer + 1 :=
      ⟨bound - 1, by rw [List.length_cons] at enough; omega⟩
    rw [List.length_cons] at enough
    have fresh : key ∉ Fields.keys done := by
      intro member
      rw [Fields.keys, List.map_append, List.map_cons, List.nodup_append] at distinct
      exact distinct.2.2 key member key (List.mem_cons_self ..) rfl
    have joined : done ++ (key, value) :: more = (done ++ [(key, value)]) ++ more := by
      rw [List.append_assoc, List.singleton_append]
    rw [joined] at distinct ⊢
    rw [fieldLines] at same
    split at same
    · next block =>
      rw [List.cons_append] at same
      obtain ⟨number, others, rfl, others_same⟩ := output_cons same
      obtain ⟨inner, outer, rfl, inner_same, outer_same⟩ := List.map_eq_append_iff.mp others_same
      have following := readEntries_reads unique.2 distinct outer_same ends budget
        (show more.length ≤ bound by omega)
      have nested : inner.map Line.output = valueLines (indent + 2) value := by
        rw [valueLines, if_pos block, inner_same]
      have read := readBlock_reads unique.1 nested (ends_fields outer_same ends) budget
      obtain ⟨column, written⟩ := entry?_key number indent key [] rfl
      rw [List.cons_append, List.append_assoc inner outer rest]
      refine readEntries_step (isItem_keyText key []) written fresh ?_ following
      obtain ⟨text, further, shape, -⟩ := valueLines_cons (indent + 2) value
      rw [shape] at nested
      obtain ⟨number', others', rfl, -⟩ := output_cons nested
      dsimp only
      rw [if_pos (show (skipSpaces []).isEmpty = true from rfl), List.cons_append,
        readNested_deeper (by simp)]
      exact read
    · next inline =>
      rw [List.singleton_append] at same
      obtain ⟨number, outer, rfl, outer_same⟩ := output_cons same
      have following := readEntries_reads unique.2 distinct outer_same ends budget
        (show more.length ≤ bound by omega)
      have noBlock : isBlock value = false := Bool.not_eq_true _ ▸ inline
      obtain ⟨column, written⟩ := entry?_key number indent key
        (' ' :: inlineText value) rfl
      rw [skipSpaces_space, skipSpaces_inlineText] at written
      refine readEntries_step (isItem_keyText key _) written fresh ?_ following
      obtain ⟨c, others, shape, -⟩ := (Token.value value).first
      rw [if_neg (by rw [shape]; exact Bool.false_ne_true)]
      exact (readInline_reads number column budget noBlock).map fun read => (read, outer ++ rest)

end

/-- What the writer makes of a tree with unique keys is read back, as deep as readers follow. -/
theorem reads_emit {tree : Node} (unique : tree.UniqueKeys) :
    Reads tree.depth maxDepth tree (parse (emit tree)) := by
  have lines : Line.ofText (emit tree).toList = .ok (numbered 1 (documentLines tree)) := by
    rw [emit, String.toList_ofList]
    exact ofText_characters (allLines_document tree)
  have same : (numbered 1 (documentLines tree)).map Line.output = valueLines 0 tree :=
    output_numbered 1 (documentLines tree)
  have read := readBlock_reads unique same (Ends.nil 0) maxDepth
  rw [List.append_nil] at read
  obtain ⟨text, more, shape, -⟩ := valueLines_cons 0 tree
  rw [shape] at same
  obtain ⟨number, others, first, -⟩ := output_cons same
  rw [first] at lines read
  rw [parse, lines]
  exact read.andThen rfl

/-- What the writer makes of a tree is read back as the tree if its collections nest at most as deep
as readers follow, and else it is refused for its depth. -/
theorem parse_emit (tree : Node) (unique : tree.UniqueKeys) :
    (tree.depth ≤ 128 → parse (emit tree) = .ok tree) ∧
      (128 < tree.depth → ∃ line column, parse (emit tree) = .error ⟨line, column, .tooDeep⟩) := by
  have parsed := reads_emit unique
  exact ⟨parsed.enough, parsed.tooDeep⟩

def misleading : Node :=
  .mapping [("", .sequence [.sequence [], .ofFloat (-0.0), .ofFloat Binary64.nan]),
    ("- a: #\uFEFF", .mapping [("---", .ofString "1e3"), ("\\\"'\n", .ofString " true")]),
    ("b", .sequence [.sequence [.mapping [("~", .ofString "null"), ("c", .null)]]])]

def nested : Nat → Node
  | 0 => .sequence []
  | levels + 1 => .sequence [nested levels]

theorem uniqueKeys_nested (levels : Nat) : (nested levels).UniqueKeys := by
  induction levels with
  | zero => exact ⟨trivial, trivial⟩
  | succ levels ih => exact ⟨trivial, ih, trivial⟩

theorem depth_nested (levels : Nat) : (nested levels).depth = levels + 1 := by
  induction levels with
  | zero => rfl
  | succ levels ih => rw [nested, Node.depth, Node.depthItems, Node.depthItems, ih, Nat.max_zero]

theorem parse_emit_misleading_and_nested :
    misleading.UniqueKeys ∧ parse (emit misleading) = .ok misleading ∧
      parse (emit (nested 127)) = .ok (nested 127) ∧
      ∃ line column, parse (emit (nested 128)) = .error ⟨line, column, .tooDeep⟩ := by
  have unique : misleading.UniqueKeys := by
    simp [misleading, Node.UniqueKeys, Node.All, Node.AllItems, Node.AllFields, Node.DistinctKeys,
      Fields.keys, Node.ofFloat, Node.ofString, Node.null]
  refine ⟨unique, (parse_emit misleading unique).1 (by decide), ?_, ?_⟩
  · exact (parse_emit _ (uniqueKeys_nested 127)).1 (by rw [depth_nested])
  · exact (parse_emit _ (uniqueKeys_nested 128)).2 (by rw [depth_nested]; decide)

/-- A tree that was read is in the form that writing and reading keep: its keys are unique, its
collections nest no deeper than readers follow, and written it is read as itself. -/
theorem parse_canonical (text : String) (tree : Node) (accepted : parse text = .ok tree) :
    tree.UniqueKeys ∧ tree.depth ≤ 128 ∧
      ∃ again, parse (emit tree) = .ok again ∧ again = tree ∧ emit again = emit tree := by
  have meets := parse_meets text
  rw [accepted] at meets
  exact ⟨meets.unique, meets.shallow, tree, (reads_emit meets.unique).enough meets.shallow, rfl,
    rfl⟩

def mixed : String := "b: [x, \x7bc: ~\x7d]\na:\n- - y # z\n"

theorem parse_canonical_mixed :
    ∃ tree, parse mixed = .ok tree ∧ emit tree = "b:\n  - x\n  - c: null\na:\n  - - y\n" ∧
      tree.UniqueKeys ∧ tree.depth ≤ 128 ∧
      ∃ again, parse (emit tree) = .ok again ∧ again = tree ∧ emit again = emit tree := by
  have written : (parse mixed).toOption.map emit =
      some "b:\n  - x\n  - c: null\na:\n  - - y\n" := by decide +kernel
  cases accepted : parse mixed with
  | error e =>
    rw [accepted] at written
    cases written
  | ok tree =>
    rw [accepted] at written
    exact ⟨tree, rfl, Option.some.inj written, parse_canonical mixed tree accepted⟩

end ParticleSim.Outline
