import ParticleSim.Proofs.Outline.OneLine
import ParticleSim.Proofs.Outline.Position
import ParticleSim.Proofs.Outline.SourceRelocation
/-!
A quoted key and a quoted value, as a line of a block mapping and as a flow mapping on a line. The
block line writes the entry whatever the texts are. The flow mapping writes the same entry if its
key is not empty and the search for comments gets through it, for which a space behind the colon is
enough: only behind a space does the search see that a quoted scalar opens there.
-/
namespace ParticleSim.Outline

/-! Quoted scalars in front of other text, and cut off. -/

theorem Quoted.readAt_encode_append (line column : Nat) (text rest : List Char) :
    readAt line column (encode text ++ rest) = .ok (text, rest) := by
  rw [readAt, encode, List.cons_append, List.cons_append, List.append_assoc, List.singleton_append,
    read, readDouble_encode]
  rfl

theorem Quoted.endDouble_append {text : List Char} {n : Nat} (ends : endDouble text = some n)
    (rest : List Char) : endDouble (text ++ rest) = some n := by
  fun_induction endDouble text generalizing n with
  | case1 => cases ends
  | case2 => cases ends
  | case3 letter text ih =>
    obtain ⟨m, behind, rfl⟩ := Option.map_eq_some_iff.mp ends
    simp [endDouble_escape, ih behind]
  | case4 text =>
    rw [List.cons_append, endDouble.eq_def]
    exact ends
  | case5 c text noEscape noClose ih =>
    obtain ⟨m, behind, rfl⟩ := Option.map_eq_some_iff.mp ends
    simp [endDouble_inert ⟨noClose, noEscape⟩, ih behind]

theorem Quoted.endDouble_cut {text body rest : List Char} (same : encode text = '"' :: body ++ rest)
    (cut : rest ≠ []) : endDouble body = none := by
  have whole : endDouble (body ++ rest) = some (body ++ rest).length := by
    have ends := endDouble_encode text []
    rw [encode, List.cons_append, List.cons_append, List.cons.injEq] at same
    rw [same.2] at ends
    rw [ends, ← same.2]
    simp
  cases ends : endDouble body with
  | none => rfl
  | some n =>
    have shorter := endDouble_le ends
    have behind := List.length_pos_iff.mpr cut
    rw [endDouble_append ends, Option.some.injEq, List.length_append] at whole
    omega

theorem Quoted.readAt_unclosed {body : List Char} (never : endDouble body = none)
    (line column : Nat) : ∃ e, readAt line column ('"' :: body) = .error e := by
  have meets := read_meets ('"' :: body)
  rw [readAt]
  cases read : Quoted.read ('"' :: body) with
  | error flaw => exact ⟨_, rfl⟩
  | ok found =>
    rw [read] at meets
    obtain ⟨written, -, measured, -⟩ := meets
    rw [length?, never] at measured
    cases measured

/-! A flow mapping with one entry. -/

namespace Flow

variable (span : Span) (budget : Nat) {key gap : List Char}

theorem readKey_encode (key rest : List Char) : readKey span (Quoted.encode key ++ rest) =
    if key = [] then span.fail (Quoted.encode key ++ rest) (.unexpected .emptyKey)
    else .ok (String.ofList key, rest) := by
  have read := Quoted.readAt_encode_append span.line (span.column (Quoted.encode key ++ rest)) key
    rest
  obtain ⟨inner, shape⟩ := Quoted.encode_head key
  rw [shape, List.cons_append] at read ⊢
  simp [readKey.eq_def, Quoted.isQuote, read, bind, Except.bind, pure, Except.pure]

def quotedEntry (key gap body : List Char) : List Char :=
  Quoted.encode key ++ ':' :: (gap ++ '"' :: body)

theorem readEntryValue_quoted (blank : Blank gap)
    (readValue : List Char → Except ParseError (Node × List Char)) (opened body : List Char) :
    readEntryValue span readValue opened (gap ++ '"' :: body) = readValue ('"' :: body) := by
  rw [readEntryValue, skipSpaces_blank blank, skipSpaces_cons (by decide)]
  rfl

section Entries

variable {readValue : List Char → Except ParseError (Node × List Char)} (opened : List Char)
  {body : List Char} (bound : Nat)

theorem readEntries_quoted (filled : key ≠ []) (blank : Blank gap) {node : Node} {rest : List Char}
    (read : readValue ('"' :: body) = .ok (node, '}' :: rest)) :
    readEntries span readValue opened (bound + 1) [] (quotedEntry key gap body) =
      .ok ([(String.ofList key, node)], rest) := by
  have first := readKey_encode span key (':' :: (gap ++ '"' :: body))
  have colon : skipSpaces (':' :: (gap ++ '"' :: body)) = ':' :: (gap ++ '"' :: body) :=
    skipSpaces_cons (by decide) _
  have brace : skipSpaces ('}' :: rest) = '}' :: rest := skipSpaces_cons (by decide) rest
  obtain ⟨inner, shape⟩ := Quoted.encode_head key
  rw [if_neg filled, shape, List.cons_append] at first
  rw [quotedEntry, shape, List.cons_append, readEntries, skipSpaces_cons (by decide)]
  simp [first, colon, readEntryValue_quoted span blank, read, brace, bind, Except.bind, pure,
    Except.pure, Fields.contains, Fields.get?, Fields.insert]

theorem readEntries_quoted_error (blank : Blank gap)
    (bad : key = [] ∨ ∃ e, readValue ('"' :: body) = .error e) : ∃ e,
    readEntries span readValue opened (bound + 1) [] (quotedEntry key gap body) = .error e := by
  have first := readKey_encode span key (':' :: (gap ++ '"' :: body))
  have colon : skipSpaces (':' :: (gap ++ '"' :: body)) = ':' :: (gap ++ '"' :: body) :=
    skipSpaces_cons (by decide) _
  obtain ⟨inner, shape⟩ := Quoted.encode_head key
  rw [shape, List.cons_append] at first
  rw [quotedEntry, shape, List.cons_append, readEntries, skipSpaces_cons (by decide)]
  by_cases empty : key = []
  · simp [first, empty, bind, Except.bind, Span.fail]
  · obtain ⟨e, fault⟩ := bad.resolve_left empty
    simp [first, empty, colon, readEntryValue_quoted span blank, fault, bind, Except.bind]

end Entries

theorem readValue_quotedEntry (filled : key ≠ []) (blank : Blank gap) {body : List Char}
    {node : Node} (read : readValue span budget ('"' :: body) = .ok (node, ['}'])) :
    readValue span (budget + 1) ('{' :: quotedEntry key gap body) =
      .ok (.mapping [(String.ofList key, node)], []) := by
  rw [readValue_mapping, readEntries_quoted span _ _ filled blank read]
  rfl

theorem readValue_quotedEntry_error (blank : Blank gap) {body : List Char}
    (bad : key = [] ∨ ∃ e, readValue span budget ('"' :: body) = .error e) :
    ∃ e, readValue span (budget + 1) ('{' :: quotedEntry key gap body) = .error e := by
  obtain ⟨e, fails⟩ := readEntries_quoted_error span ('{' :: quotedEntry key gap body)
    (quotedEntry key gap body).length blank bad
  rw [readValue_mapping, fails]
  exact ⟨e, rfl⟩

theorem readValue_quote (body : List Char) : readValue span budget ('"' :: body) =
    (Quoted.readAt span.line (span.column ('"' :: body)) ('"' :: body)).map
      fun (value, rest) => (.ofString (String.ofList value), rest) := by
  rw [readValue.eq_def]
  dsimp only
  rw [skipSpaces_cons (by decide)]
  rfl

end Flow

theorem readDocument_brace {number : Nat} {rest : List Char} {node : Node}
    (read : Flow.readValue ⟨number, 1 + (rest.length + 1)⟩ maxDepth ('{' :: rest) =
      .ok (node, [])) :
    readDocument [⟨number, 0, '{' :: rest⟩] = .ok node := by
  rw [readDocument_value rfl rfl, readInline]
  simp [read, bind, Except.bind, skipSpaces, pure, Except.pure]

theorem readDocument_brace_error {number : Nat} {rest : List Char} {e : ParseError}
    (fault : Flow.readValue ⟨number, 1 + (rest.length + 1)⟩ maxDepth ('{' :: rest) = .error e) :
    readDocument [⟨number, 0, '{' :: rest⟩] = .error e := by
  rw [readDocument_value rfl rfl, readInline]
  simp [fault, bind, Except.bind]

/-! The two lines. -/

def blockEntry (key value : String) : List Char :=
  Quoted.encode key.toList ++ ':' :: ' ' :: Quoted.encode value.toList

def flowFront (key : String) : List Char :=
  '{' :: Quoted.encode key.toList ++ [':']

def flowEntry (key value : String) (gap : Nat) : List Char :=
  flowFront key ++ List.replicate gap ' ' ++ Quoted.encode value.toList ++ ['}']

section Lines

variable (key value : String) (gap : Nat)

theorem getLast?_flowFront : (flowFront key).getLast? = some ':' := by
  rw [flowFront, List.getLast?_concat]

theorem Outside.flowFront (rest : List Char) : Outside (flowFront key) rest := by
  have brace : Outside ['{'] (Quoted.encode key.toList ++ ':' :: rest) :=
    (Outside.start ('{' :: _)).ordinary (by decide)
  have scalar : Outside ('{' :: Quoted.encode key.toList) (':' :: rest) :=
    brace.encode (.inl (by simp))
  exact scalar.ordinary (by decide)

theorem outside_flowEntry : Outside (flowEntry key value (gap + 1)) [] := by
  have blank := blank_replicate (gap + 1)
  have spaces := (Outside.flowFront key
    (List.replicate (gap + 1) ' ' ++ (Quoted.encode value.toList ++ ['}']))).blank blank
  have opens : OpensBehind (flowFront key ++ List.replicate (gap + 1) ' ') := by
    have front : trimEnd (flowFront key) = flowFront key :=
      trimEnd_of_last (by simp [getLast?_flowFront])
    refine .inr ⟨by simp [List.replicate_succ'], ?_⟩
    rw [trimEnd_append blank, front, getLast?_flowFront]
    simp
  exact (spaces.encode opens).ordinary (by decide)

theorem oneLine_flowEntry : OneLine (flowEntry key value gap) := by
  have visible : ∀ text, '\n' ∉ Quoted.encode text :=
    fun text member => nomatch Quoted.not_control_encode text '\n' member
  constructor
  · simp [flowEntry, Outline.flowFront, visible, List.mem_replicate]
  · exact ⟨'{', _, rfl, by decide, by decide⟩
  · simp [flowEntry]

theorem flowFront_append (gap body : List Char) : flowFront key ++ gap ++ '"' :: body =
    '{' :: Flow.quotedEntry key.toList gap body := by
  simp [flowFront, Flow.quotedEntry]

theorem flowEntry_append : ∃ inner, Quoted.encode value.toList = '"' :: inner ∧
    flowEntry key value gap =
      flowFront key ++ List.replicate gap ' ' ++ '"' :: (inner ++ ['}']) := by
  obtain ⟨inner, shape⟩ := Quoted.encode_head value.toList
  exact ⟨inner, shape, by rw [flowEntry, shape, List.append_assoc, List.cons_append]⟩

theorem readDocument_flowEntry (filled : key ≠ "") :
    readDocument [⟨1, 0, flowEntry key value gap⟩] = .ok (.mapping [(key, .ofString value)]) := by
  have filled : key.toList ≠ [] := by simpa using filled
  have blank := blank_replicate gap
  obtain ⟨inner, shape, line⟩ := flowEntry_append key value gap
  rw [line, flowFront_append]
  apply readDocument_brace
  generalize (⟨1, _⟩ : Flow.Span) = span
  have scalar : Flow.readValue span 127 ('"' :: (inner ++ ['}'])) =
      .ok (.ofString value, ['}']) := by
    have read := Quoted.readAt_encode_append span.line (span.column ('"' :: (inner ++ ['}'])))
      value.toList ['}']
    rw [shape, List.cons_append] at read
    rw [Flow.readValue_quote, read]
    simp [Except.map]
  have read := Flow.readValue_quotedEntry span 127 filled blank scalar
  rwa [String.ofList_toList] at read

/-- Cut off within its value the flow mapping cannot be read, and with an empty key neither. -/
theorem readDocument_flow_error {gap body : List Char} (blank : Blank gap)
    (bad : key = "" ∨ Quoted.endDouble body = none) :
    ∃ e, readDocument [⟨1, 0, flowFront key ++ gap ++ '"' :: body⟩] = .error e := by
  rw [flowFront_append]
  have unread : ∀ span, key.toList = [] ∨
      ∃ e, Flow.readValue span 127 ('"' :: body) = .error e := by
    intro span
    rcases bad with rfl | never
    · exact .inl rfl
    · obtain ⟨e, fault⟩ := Quoted.readAt_unclosed never span.line (span.column ('"' :: body))
      rw [Flow.readValue_quote, fault]
      exact .inr ⟨e, rfl⟩
  obtain ⟨e, fails⟩ := Flow.readValue_quotedEntry_error _ 127 blank (unread _)
  exact ⟨e, readDocument_brace_error fails⟩

/-- A comment in the line starts within the value. -/
theorem exists_cut {gap middle rest : List Char} (blank : Blank gap)
    (same : gap ++ (Quoted.encode value.toList ++ ['}']) = middle ++ '#' :: rest) :
    ∃ body more, middle = gap ++ '"' :: body ∧ Quoted.encode value.toList = '"' :: body ++ more ∧
      more ≠ [] := by
  obtain ⟨inner, shape⟩ := Quoted.encode_head value.toList
  rw [shape] at same ⊢
  rcases List.append_eq_append_iff.mp same with ⟨more, rfl, behind⟩ | ⟨more, rfl, behind⟩
  · cases more with
    | nil => cases behind
    | cons c body =>
      rw [List.cons_append, List.cons_append, List.cons.injEq] at behind
      obtain ⟨rfl, later⟩ := behind
      rcases List.append_eq_append_iff.mp later with ⟨more, rfl, last⟩ | ⟨more, rfl, last⟩
      · rcases List.append_eq_singleton_iff.mp last.symm with ⟨-, brace⟩ | ⟨-, brace⟩
        · cases brace
        · cases brace
      · refine ⟨body, more, rfl, rfl, ?_⟩
        rintro rfl
        cases last
  · have hash : '#' ∈ middle ++ more := by
      cases more <;> cases behind
      simp
    exact absurd (blank _ hash) (by decide)

theorem parse_comment {front rest : List Char}
    (same : flowEntry key value gap = front ++ '#' :: rest) (behind : flowFront key <+: front)
    (reached : Outside front ('#' :: rest)) (starts : CommentsBehind front) :
    ∃ e, parse (String.ofList (flowEntry key value gap)) = .error e := by
  obtain ⟨middle, rfl⟩ := behind
  have blank := blank_replicate gap
  have within : List.replicate gap ' ' ++ (Quoted.encode value.toList ++ ['}']) =
      middle ++ '#' :: rest := by
    simpa [flowEntry] using same
  obtain ⟨body, more, rfl, shape, left⟩ := exists_cut value blank within
  obtain ⟨kept, spaces, rfl, trimmed⟩ := exists_trimEnd_append (c := '"') (by decide)
    (flowFront key ++ List.replicate gap ' ') body
  have never : Quoted.endDouble kept = none := by
    rw [List.cons_append, List.append_assoc] at shape
    exact Quoted.endDouble_cut shape (by simp [left])
  have search := reached.comment starts 1 1
  rw [← same] at search
  have read := (oneLine_flowEntry key value gap).parse_kept search
  rw [← List.append_assoc, trimmed] at read
  rw [read (by simp) (by simp [flowFront])]
  exact readDocument_flow_error key blank (.inr never)

/-- The search gets through the line, or the line is not read. -/
theorem flowEntry_outcome : Outside (flowEntry key value gap) [] ∨
    ∃ e, parse (String.ofList (flowEntry key value gap)) = .error e := by
  have one := oneLine_flowEntry key value gap
  have line : flowEntry key value gap =
      flowFront key ++ (List.replicate gap ' ' ++ (Quoted.encode value.toList ++ ['}'])) := by
    simp [flowEntry]
  have reached := Outside.flowFront key
    (List.replicate gap ' ' ++ (Quoted.encode value.toList ++ ['}']))
  rcases reached.end_or_stopped with whole | ⟨middle, last, same, reached, stopped⟩
  · rw [← line] at whole
    exact .inl whole
  · rw [same, ← List.append_assoc] at line
    cases stopped with
    | tab rest =>
      have visible : '\t' ∉ flowEntry key value gap := by
        have quoted : ∀ text, '\t' ∉ Quoted.encode text :=
          fun text member => nomatch Quoted.not_control_encode text '\t' member
        simp [flowEntry, flowFront, quoted, List.mem_replicate]
      exact absurd (by simp [line]) visible
    | comment rest starts =>
      exact .inr (parse_comment key value gap line (List.prefix_append ..) reached starts)
    | dangling opens quote never =>
      have fault := reached.dangling opens quote never 1 1
      rw [← line] at fault
      exact .inr ⟨_, one.parse_error fault⟩

theorem parse_blockEntry : parse (String.ofList (blockEntry key value)) =
    .ok (.mapping [(key, .ofString value)]) := by
  have token : Token (blockEntry key value) :=
    (Token.encode key.toList).entry (Token.encode value.toList)
  have whole : Outside (blockEntry key value) [] :=
    (outside_nil_iff _ 1 1).mpr (token.kept.withoutComment_eq 1 1)
  have skipped : skipSpaces (' ' :: Quoted.encode value.toList) = Quoted.encode value.toList := by
    obtain ⟨inner, shape⟩ := Quoted.encode_head value.toList
    rw [shape]
    rfl
  have written : ∃ column, Line.entry? ⟨1, 0, blockEntry key value⟩ =
      .ok (some ⟨key, Quoted.encode value.toList, column⟩) := by
    rw [Line.entry?, blockEntry, splitKey_encode_key _ rfl]
    simp [readKey_encode, bind, Except.bind, pure, Except.pure, skipped]
  obtain ⟨column, written⟩ := written
  apply token.oneLine.parse_entry whole rfl written
  · simp [Quoted.encode]
  · rw [readInline_encode, String.ofList_toList]

end Lines

/-- A quoted key and a quoted value write the same entry on a line of a block mapping and in a flow
mapping on a line, the flow mapping unless its key is empty or the search for comments does not get
through it. It does get through behind a space. -/
theorem parse_flowEntry_iff (key value : String) :
    parse (String.ofList (blockEntry key value)) = .ok (.mapping [(key, .ofString value)]) ∧
    ∀ gap, (∀ tree, parse (String.ofList (flowEntry key value gap)) = .ok tree ↔
        tree = .mapping [(key, .ofString value)] ∧ key ≠ "" ∧
          Outside (flowEntry key value gap) []) ∧
      Outside (flowEntry key value (gap + 1)) [] := by
  refine ⟨parse_blockEntry key value, fun gap => ⟨fun tree => ?_, outside_flowEntry key value gap⟩⟩
  have document : Outside (flowEntry key value gap) [] →
      parse (String.ofList (flowEntry key value gap)) =
        readDocument [⟨1, 0, flowEntry key value gap⟩] := by
    intro whole
    exact (oneLine_flowEntry key value gap).parse_whole whole (by simp [flowEntry, flowFront])
  -- what is no entry is not read at all
  have unless_fails : (key ≠ "" ∧ Outside (flowEntry key value gap) []) ∨
      ∃ e, parse (String.ofList (flowEntry key value gap)) = .error e := by
    rcases flowEntry_outcome key value gap with whole | fails
    · by_cases empty : key = ""
      · obtain ⟨inner, -, line⟩ := flowEntry_append key value gap
        rw [document whole, line]
        exact .inr (readDocument_flow_error key (blank_replicate gap) (.inl empty))
      · exact .inl ⟨empty, whole⟩
    · exact .inr fails
  constructor
  · intro read
    rcases unless_fails with ⟨filled, whole⟩ | ⟨e, fails⟩
    · rw [document whole, readDocument_flowEntry key value gap filled] at read
      exact ⟨(Except.ok.inj read).symm, filled, whole⟩
    · rw [fails] at read
      cases read
  · rintro ⟨rfl, filled, whole⟩
    rw [document whole]
    exact readDocument_flowEntry key value gap filled

/-- Right behind the colon a quote is not seen to open, and `#` behind a space cuts the value off.
An empty key is refused in a flow mapping alone. The block lines write both entries. -/
theorem parse_flowEntry_hash :
    parse (String.ofList (blockEntry "k" "a #b")) = .ok (.mapping [("k", .ofString "a #b")]) ∧
      parse (String.ofList (flowEntry "k" "a #b" 0)) = .error ⟨1, 6, .unterminatedQuote⟩ ∧
    parse (String.ofList (blockEntry "" "s")) = .ok (.mapping [("", .ofString "s")]) ∧
      parse (String.ofList (flowEntry "" "s" 1)) = .error ⟨1, 2, .unexpected .emptyKey⟩ := by
  refine ⟨parse_blockEntry .., eq_error_of_fault? ?_, parse_blockEntry .., eq_error_of_fault? ?_⟩
  · decide +kernel
  · decide +kernel

end ParticleSim.Outline
