import ParticleSim.Proofs.Outline.Position
import ParticleSim.Proofs.Outline.SourceRelocation
/-!
Layout that carries no meaning. Ends of lines, comments, lines that hold nothing and a common
indentation change neither the tree that a text writes nor its fault, apart from the place.
-/
namespace ParticleSim.Outline

/-! Editing the lines of a text. -/

def markOf (text : List Char) : List Char :=
  if text.head? = some '\uFEFF' then ['\uFEFF'] else []

/-- The text with its lines edited; a byte order mark stays in front of them. -/
def editLines (edit : List (List Char) → List (List Char)) (text : String) : String :=
  String.ofList (markOf text.toList ++ ['\n'].intercalate (edit (sourceLines text)))

theorem dropMark_of_head {text : List Char} (other : text.head? ≠ some '\uFEFF') :
    dropMark text = text := by
  rw [dropMark.eq_def]
  split
  · exact absurd rfl other
  · rfl

theorem dropMark_cases (text : List Char) :
    text = '\uFEFF' :: dropMark text ∧ markOf text = ['\uFEFF'] ∨
      dropMark text = text ∧ text.head? ≠ some '\uFEFF' ∧ markOf text = [] := by
  by_cases mark : text.head? = some '\uFEFF'
  · obtain ⟨rest, rfl⟩ := List.head?_eq_some_iff.mp mark
    exact .inl ⟨rfl, if_pos rfl⟩
  · exact .inr ⟨dropMark_of_head mark, mark, if_neg mark⟩

theorem splitLines_eq (text : List Char) : splitLines text = text.splitOn '\n' := by
  induction text with
  | nil => rfl
  | cons c rest ih =>
    have step : (c :: rest).splitOn '\n' = if c = '\n' then [] :: rest.splitOn '\n' else
        (rest.splitOn '\n').modifyHead (c :: ·) := by
      rw [List.splitOn, List.splitOnP_cons_eq_if_modifyHead]
      simp only [beq_iff_eq]
      rfl
    rw [splitLines, ih, step]
    split
    · rfl
    · cases lines : rest.splitOn '\n' with
      | nil => exact absurd lines (List.splitOnP_ne_nil _ _)
      | cons line more => rfl

theorem intercalate_splitLines (text : List Char) :
    ['\n'].intercalate (splitLines text) = text := by
  rw [splitLines_eq]
  exact List.intercalate_splitOn '\n'

theorem splitLines_intercalate {lines : List (List Char)} (nonempty : lines ≠ [])
    (whole : ∀ line ∈ lines, '\n' ∉ line) :
    splitLines (['\n'].intercalate lines) = lines := by
  rw [splitLines_eq]
  exact List.splitOn_intercalate '\n' whole nonempty

theorem mem_splitLines {text line : List Char} (member : line ∈ splitLines text) :
    ∀ c ∈ line, c ∈ text ∧ c ≠ '\n' := by
  induction text generalizing line with
  | nil => simp_all [splitLines]
  | cons c rest ih =>
    have behind : ∀ {line}, line ∈ splitLines rest → ∀ d ∈ line, d ∈ c :: rest ∧ d ≠ '\n' :=
      fun member d inside => ⟨List.mem_cons_of_mem c (ih member d inside).1, (ih member d inside).2⟩
    rw [splitLines] at member
    split at member
    · rcases List.mem_cons.mp member with rfl | member
      · simp
      · exact behind member
    · next other =>
      split at member
      · rw [List.mem_singleton.mp member]
        exact List.forall_mem_singleton.mpr ⟨List.mem_cons_self .., other⟩
      · next first more lines =>
        rw [lines] at behind
        rcases List.mem_cons.mp member with rfl | member
        · exact List.forall_mem_cons.mpr
            ⟨⟨List.mem_cons_self .., other⟩, behind (List.mem_cons_self ..)⟩
        · exact behind (List.mem_cons_of_mem _ member)

/-- Only a line feed stands between the first line and what is joined to it. -/
theorem head?_intercalate {c : Char} (other : c ≠ '\n') (line : List Char)
    (rest : List (List Char)) :
    (['\n'].intercalate (line :: rest)).head? = some c ↔ line.head? = some c := by
  cases rest with
  | nil => rw [List.intercalate_singleton]
  | cons next more =>
    rw [List.intercalate_cons_cons, List.append_assoc]
    cases line with
    | nil =>
      have feed : '\n' ≠ c := other.symm
      simp [feed]
    | cons d line => rfl

/-- The edited lines are the lines of the edited text, if they are lines and no byte order mark is
put in front of them. -/
theorem sourceLines_editLines {edit : List (List Char) → List (List Char)} {text : String}
    {line first : List Char} {rest more : List (List Char)}
    (lines : sourceLines text = line :: rest) (edited : edit (line :: rest) = first :: more)
    (head : first.head? = some '\uFEFF' → line.head? = some '\uFEFF')
    (whole : ∀ other ∈ edit (sourceLines text), '\n' ∉ other) :
    sourceLines (editLines edit text) = edit (sourceLines text) := by
  have joined : ['\n'].intercalate (line :: rest) = dropMark text.toList := by
    rw [← lines, sourceLines, intercalate_splitLines]
  have dropped : dropMark (editLines edit text).toList = ['\n'].intercalate (first :: more) := by
    rw [editLines, String.toList_ofList, lines, edited]
    rcases dropMark_cases text.toList with ⟨-, mark⟩ | ⟨same, free, mark⟩
    · rw [mark]
      rfl
    · rw [mark, List.nil_append]
      apply dropMark_of_head
      rw [same] at joined
      rw [← joined] at free
      have noFeed : '\uFEFF' ≠ '\n' := by decide
      exact mt (fun start => (head?_intercalate noFeed line rest).mpr
        (head ((head?_intercalate noFeed first more).mp start))) free
  rw [lines, edited] at whole ⊢
  rw [sourceLines, dropped]
  exact splitLines_intercalate (List.cons_ne_nil _ _) whole

theorem sourceLines_cons (text : String) : ∃ line rest, sourceLines text = line :: rest := by
  cases lines : sourceLines text with
  | nil =>
    rw [sourceLines, splitLines_eq] at lines
    exact absurd lines (List.splitOnP_ne_nil _ _)
  | cons line rest => exact ⟨line, rest, rfl⟩

theorem mem_sourceLines {text : String} {line : List Char} (member : line ∈ sourceLines text) :
    '\n' ∉ line ∧ ('\r' ∉ text.toList → '\r' ∉ line) := by
  have inside := mem_splitLines member
  refine ⟨fun feed => (inside '\n' feed).2 rfl, fun without return_ => without ?_⟩
  rcases dropMark_cases text.toList with ⟨same, -⟩ | ⟨same, -, -⟩
  · rw [same]
    exact List.mem_cons_of_mem _ (inside '\r' return_).1
  · rw [← same]
    exact (inside '\r' return_).1

/-! What is read of a text is what is read of its lines. -/

theorem parse_of_same {text other : String}
    (same : contentLines true 1 (sourceLines other) = contentLines true 1 (sourceLines text)) :
    parse other = parse text := by
  change contentLines true 1 (sourceLines other) >>= readDocument = _
  rw [same]
  rfl

theorem parse_of_moves {shift : Shift} {text other : String}
    (moves : Moves shift (List.map (Line.move shift)) (contentLines true 1 (sourceLines text))
      (contentLines true 1 (sourceLines other))) :
    parse other = (parse text).mapError (ParseError.move shift) :=
  (moves.bind fun lines _ => readDocument_moves lines).eq

/-! Carriage returns. -/

def feed (c : Char) : List Char :=
  if c = '\n' then ['\r', '\n'] else [c]

def withReturns (text : String) : String :=
  String.ofList (text.toList.flatMap feed)

theorem dropMark_feed (text : List Char) :
    dropMark (text.flatMap feed) = (dropMark text).flatMap feed := by
  rcases dropMark_cases text with ⟨same, -⟩ | ⟨same, other, -⟩
  · conv_lhs => rw [same]
    rfl
  · rw [same]
    apply dropMark_of_head
    cases text with
    | nil => simp
    | cons c rest =>
      rw [List.flatMap_cons, feed]
      split
      · exact (by decide : some '\r' ≠ some '\uFEFF')
      · exact other

theorem splitLines_feed (text : List Char) :
    List.Forall₂ (fun source other => other = source ∨ other = source ++ ['\r'])
      (splitLines text) (splitLines (text.flatMap feed)) := by
  induction text with
  | nil => exact .cons (.inl rfl) .nil
  | cons c rest ih =>
    rw [List.flatMap_cons, feed]
    split
    · next line =>
      rw [line]
      exact .cons (.inr rfl) ih
    · next other =>
      rw [List.singleton_append, splitLines, splitLines, if_neg other, if_neg other]
      generalize splitLines rest = sources at ih ⊢
      generalize splitLines (rest.flatMap feed) = others at ih ⊢
      cases ih with
      | nil => exact .cons (.inl rfl) .nil
      | cons first more =>
        exact .cons (first.imp (congrArg (c :: ·)) (congrArg (c :: ·))) more

theorem getElem?_map_of_forall₂ {α β : Type} {R : α → α → Prop} {first second : List α}
    (rel : List.Forall₂ R first second) {f : α → β}
    (same : ∀ a ∈ first, ∀ b, R a b → f b = f a) (i : Nat) :
    second[i]?.map f = first[i]?.map f := by
  induction rel generalizing i with
  | nil => rfl
  | cons head tail ih =>
    cases i with
    | zero => exact congrArg some (same _ (List.mem_cons_self ..) _ head)
    | succ i => exact ih (fun a member => same a (List.mem_cons_of_mem _ member)) i

theorem parse_withReturns {text : String} (without : '\r' ∉ text.toList) :
    parse (withReturns text) = parse text := by
  apply parse_of_same
  have lines : sourceLines (withReturns text) =
      splitLines ((dropMark text.toList).flatMap feed) := by
    rw [sourceLines, withReturns, String.toList_ofList, dropMark_feed]
  rw [lines]
  refine contentLines_congr (fun i => ?_) true
  refine getElem?_map_of_forall₂ (splitLines_feed (dropMark text.toList)) ?_ i
  rintro source member other (rfl | rfl)
  · rfl
  · exact ofSource?_return _ ((mem_sourceLines member).2 without)

/-! Lines that hold nothing. -/

theorem Blank.head {gap : List Char} (blank : Blank gap) (rest : List Char) {c : Char}
    (other : c ≠ ' ') (head : (gap ++ rest).head? = some c) : rest.head? = some c := by
  cases gap with
  | nil => exact head
  | cons d gap =>
    have same : d = c := Option.some.inj head
    exact absurd (same ▸ blank d (List.mem_cons_self ..)) other

theorem Idle.head {idle : List Char} (empty : Idle idle) : idle.head? ≠ some '\uFEFF' := by
  intro mark
  cases empty with
  | blank blank =>
    rw [← List.append_nil idle] at mark
    cases blank.head [] (by decide) mark
  | comment blank comment => cases blank.head _ (by decide) mark

theorem parse_insert {text : String} {k : Nat} (inside : k ≤ (sourceLines text).length)
    {idle : List Char} (empty : Idle idle) (whole : '\n' ∉ idle) :
    parse (editLines (·.insertIdx k idle) text) =
      (parse text).mapError fun e => if e.line ≤ k then e else { e with line := e.line + 1 } := by
  have lines : sourceLines (editLines (·.insertIdx k idle) text) =
      (sourceLines text).insertIdx k idle := by
    obtain ⟨line, rest, lines⟩ := sourceLines_cons text
    have whole : ∀ other ∈ (sourceLines text).insertIdx k idle, '\n' ∉ other := by
      intro other member
      rcases (List.mem_insertIdx inside).mp member with rfl | member
      · exact whole
      · exact (mem_sourceLines member).1
    cases k with
    | zero => exact sourceLines_editLines lines rfl (fun mark => absurd mark empty.head) whole
    | succ k => exact sourceLines_editLines lines rfl id whole
  have moves : ParseError.move (later (1 + k)) =
      fun e => if e.line ≤ k then e else { e with line := e.line + 1 } := by
    funext e
    split
    · next before =>
      rw [ParseError.move, later_of_lt (Nat.lt_one_add_iff.mpr before)]
      rfl
    · next behind =>
      rw [ParseError.move, later_of_le (by omega)]
      rfl
  rw [← moves]
  apply parse_of_moves
  rw [lines]
  exact contentLines_insert true 1 k inside empty

/-! Comments. -/

theorem parse_append {text : String} (without : '\r' ∉ text.toList) {k : Nat} {source : List Char}
    (found : (sourceLines text)[k]? = some source) {content : Option Line}
    (accepted : Line.ofSource? (k + 1) source = .ok content) {idle : List Char} (end_ : Idle idle)
    (whole : '\n' ∉ idle) :
    parse (editLines (·.modify k (· ++ ' ' :: idle)) text) = parse text := by
  have lines : sourceLines (editLines (·.modify k (· ++ ' ' :: idle)) text) =
      (sourceLines text).modify k (· ++ ' ' :: idle) := by
    obtain ⟨line, rest, lines⟩ := sourceLines_cons text
    have whole : ∀ other ∈ (sourceLines text).modify k (· ++ ' ' :: idle), '\n' ∉ other := by
      intro other member
      obtain ⟨i, at_⟩ := List.mem_iff_getElem?.mp member
      rw [List.getElem?_modify] at at_
      obtain ⟨source, found, rfl⟩ := Option.map_eq_some_iff.mp at_
      have same := (mem_sourceLines (List.mem_of_getElem? found)).1
      split
      · simpa [same] using whole
      · exact same
    cases k with
    | zero =>
      refine sourceLines_editLines lines rfl (fun mark => ?_) whole
      cases line with
      | nil => cases mark
      | cons c line => exact mark
    | succ k => exact sourceLines_editLines lines rfl id whole
  have noReturn : '\r' ∉ source := (mem_sourceLines (List.mem_of_getElem? found)).2 without
  apply parse_of_same
  rw [lines]
  refine contentLines_congr (fun i => ?_) true
  rw [List.getElem?_modify]
  by_cases same : k = i
  · subst same
    rw [found, Nat.add_comm 1 k]
    simp only [if_true, Option.map_eq_map, Option.map_some]
    rw [ofSource?_append noReturn accepted end_]
  · simp only [if_neg same, Option.map_eq_map, Option.map_id']

/-! Indentation. -/

/-- No line of the text is a marker that may stand before a document. -/
def NoMarker (text : String) : Prop :=
  ∀ source ∈ sourceLines text, ∀ number line,
    Line.ofSource? number source = .ok (some line) → line.isMarker = false

theorem parse_indent {text : String} (noMarker : NoMarker text) (n : Nat) :
    parse (editLines (·.map (List.replicate n ' ' ++ ·)) text) =
      (parse text).mapError fun e => { e with column := e.column + n } := by
  have lines : sourceLines (editLines (·.map (List.replicate n ' ' ++ ·)) text) =
      (sourceLines text).map (List.replicate n ' ' ++ ·) := by
    obtain ⟨line, rest, lines⟩ := sourceLines_cons text
    refine sourceLines_editLines lines rfl ((blank_replicate n).head line (by decide)) ?_
    intro other member
    obtain ⟨source, inside, rfl⟩ := List.mem_map.mp member
    simpa using (mem_sourceLines inside).1
  have still : ∀ source ∈ sourceLines text, ∀ number line,
      Line.ofSource? number source = .ok (some line) →
        (line.move ⟨id, n⟩).isMarker = line.isMarker := by
    intro source member number line read
    have other := noMarker source member number line read
    rw [other]
    rw [Line.isMarker, Bool.and_eq_false_iff, beq_eq_false_iff_ne] at other ⊢
    exact other.imp_left fun indent => by
      rw [Line.move_indent]
      omega
  have moves := contentLines_moves ⟨id, n⟩ true 1 (sourceLines text) (fun _ _ => rfl) still
  dsimp only [id] at moves
  rw [← lines] at moves
  exact parse_of_moves moves

/-- Layout without meaning. Carriage returns in front of line feeds change nothing; a line that
holds nothing moves the faults behind it one line down; spaces and comments behind a line that is
accepted change nothing; and spaces in front of all lines move faults to the right. -/
theorem parse_layout (text : String) (without : '\r' ∉ text.toList) :
    parse (withReturns text) = parse text ∧
    (∀ k idle, k ≤ (sourceLines text).length → Idle idle → '\n' ∉ idle →
      parse (editLines (·.insertIdx k idle) text) =
        (parse text).mapError fun e => if e.line ≤ k then e else { e with line := e.line + 1 }) ∧
    (∀ k source content idle, (sourceLines text)[k]? = some source →
      Line.ofSource? (k + 1) source = .ok content → Idle idle → '\n' ∉ idle →
      parse (editLines (·.modify k (· ++ ' ' :: idle)) text) = parse text) ∧
    (NoMarker text → ∀ n, parse (editLines (·.map (List.replicate n ' ' ++ ·)) text) =
      (parse text).mapError fun e => { e with column := e.column + n }) :=
  ⟨parse_withReturns without,
    fun _ _ inside empty whole => parse_insert inside empty whole,
    fun _ _ _ _ found accepted end_ whole => parse_append without found accepted end_ whole,
    fun noMarker n => parse_indent noMarker n⟩

def unclosed : String := "a: 1\nb: [2\n"

theorem sourceLines_unclosed :
    sourceLines unclosed = [['a', ':', ' ', '1'], ['b', ':', ' ', '[', '2'], []] := by
  decide +kernel

theorem noMarker_unclosed : NoMarker unclosed := by
  intro source member number line read
  rw [sourceLines_unclosed] at member
  simp only [List.mem_cons, List.not_mem_nil, or_false] at member
  rcases member with rfl | rfl | rfl
  · cases read
    rfl
  · cases read
    rfl
  · cases read

theorem parse_unclosed : parse unclosed = .error ⟨2, 4, .unclosedFlow ']'⟩ :=
  eq_error_of_fault? (by decide +kernel)

theorem parse_layout_unclosed :
    parse "a: 1\r\nb: [2\r\n" = .error ⟨2, 4, .unclosedFlow ']'⟩ ∧
      parse "a: 1\n  # c\nb: [2\n" = .error ⟨3, 4, .unclosedFlow ']'⟩ ∧
      parse "a: 1 # c\nb: [2\n" = .error ⟨2, 4, .unclosedFlow ']'⟩ ∧
      parse "  a: 1\n  b: [2\n  " = .error ⟨2, 6, .unclosedFlow ']'⟩ := by
  have without : '\r' ∉ unclosed.toList := by decide +kernel
  have comment : Idle [' ', ' ', '#', ' ', 'c'] := Idle.comment (blank_replicate 2) [' ', 'c']
  have ending : Idle ['#', ' ', 'c'] := Idle.comment (blank_replicate 0) [' ', 'c']
  have accepted : Line.ofSource? 1 ['a', ':', ' ', '1'] = .ok (some ⟨1, 0, ['a', ':', ' ', '1']⟩) :=
    rfl
  obtain ⟨returns, inserted, appended, indented⟩ := parse_layout unclosed without
  have inserted := inserted 1 _ (by rw [sourceLines_unclosed]; decide) comment (by decide)
  have appended := appended 0 _ _ _ (by rw [sourceLines_unclosed]; rfl) accepted ending (by decide)
  have indented := indented noMarker_unclosed 2
  rw [parse_unclosed] at returns inserted appended indented
  refine ⟨?_, ?_, ?_, ?_⟩
  · rw [← returns]
    exact congrArg parse (by decide +kernel)
  · refine Eq.trans (congrArg parse ?_) inserted
    decide +kernel
  · rw [← appended]
    exact congrArg parse (by decide +kernel)
  · refine Eq.trans (congrArg parse ?_) indented
    decide +kernel

end ParticleSim.Outline
