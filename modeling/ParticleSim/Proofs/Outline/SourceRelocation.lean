import ParticleSim.Proofs.Outline.Relocation
import ParticleSim.Proofs.Outline.SourceReading

namespace ParticleSim.Outline

variable {shift : Shift}

/-! Lines further in. -/

def Scan.move (shift : Shift) : Scan → Scan
  | .plain previous significant => .plain previous significant
  | .quoted mark opened => .quoted mark (opened + shift.right)

theorem Scan.after_move (previous significant : Option Char) (column : Nat) (c : Char) :
    Scan.after previous significant (column + shift.right) c =
      (Scan.after previous significant column c).move shift := by
  rw [Scan.after, Scan.after]
  split
  · rfl
  · rfl

theorem withoutComment_moves (number : Nat) (scan : Scan) (column : Nat) (text : List Char) :
    Moves shift id (withoutComment number scan column text)
      (withoutComment (shift.renumber number) (scan.move shift) (column + shift.right) text) := by
  fun_induction withoutComment number scan column text with
  | case1 => rfl
  | case2 mark opened => rfl
  | case3 previous significant column rest => rfl
  | case4 previous significant column c rest noTab comment =>
    rw [withoutComment.eq_def (shift.renumber number)]
    dsimp only [Scan.move]
    rw [if_neg noTab, if_pos comment]
    rfl
  | case5 previous significant column c rest noTab noComment scan ih =>
    rw [withoutComment.eq_def (shift.renumber number)]
    dsimp only [Scan.move]
    rw [if_neg noTab, if_neg noComment, Scan.after_move, Nat.add_right_comm]
    exact ih.map fun _ => rfl
  | case6 mark opened column c escape =>
    rw [withoutComment.eq_def (shift.renumber number)]
    dsimp only [Scan.move]
    rw [if_pos escape]
    rfl
  | case7 mark opened column c escape letter rest ih =>
    rw [withoutComment.eq_def (shift.renumber number)]
    dsimp only [Scan.move]
    rw [if_pos escape, Nat.add_right_comm]
    exact ih.map fun _ => rfl
  | case8 opened column mark noEscape =>
    rw [withoutComment.eq_def (shift.renumber number)]
    dsimp only [Scan.move]
    rw [if_neg noEscape, if_pos rfl]
    rfl
  | case9 opened column mark d rest noEscape doubled ih =>
    rw [withoutComment.eq_def (shift.renumber number)]
    dsimp only [Scan.move]
    rw [if_neg noEscape, if_pos rfl, if_pos doubled, Nat.add_right_comm]
    exact ih.map fun _ => rfl
  | case10 opened column mark d rest noEscape single ih =>
    rw [withoutComment.eq_def (shift.renumber number)]
    dsimp only [Scan.move]
    rw [if_neg noEscape, if_pos rfl, if_neg single, Nat.add_right_comm]
    exact ih.map fun _ => rfl
  | case11 mark opened column c rest noEscape other ih =>
    rw [withoutComment.eq_def (shift.renumber number)]
    dsimp only [Scan.move]
    rw [if_neg noEscape, if_neg other, Nat.add_right_comm]
    exact ih.map fun _ => rfl

theorem skipSpaces_blank {gap : List Char} (blank : Blank gap) (text : List Char) :
    skipSpaces (gap ++ text) = skipSpaces text :=
  List.dropWhile_append_of_pos fun c member => beq_iff_eq.mpr (blank c member)

theorem dropReturn_append (front : List Char) {back : List Char} (nonempty : back ≠ []) :
    dropReturn (front ++ back) = front ++ dropReturn back := by
  rw [dropReturn, dropReturn, List.getLast?_append_of_ne_nil _ nonempty]
  split
  · exact List.dropLast_append_of_ne_nil nonempty
  · rfl

theorem dropReturn_blank {gap : List Char} (blank : Blank gap) : dropReturn gap = gap := by
  rw [dropReturn, if_neg]
  intro last
  exact absurd (blank '\r' (List.mem_of_getLast? last)) (by decide)

theorem dropReturn_indent {gap : List Char} (blank : Blank gap) (source : List Char) :
    dropReturn (gap ++ source) = gap ++ dropReturn source := by
  cases source with
  | nil =>
    rw [List.append_nil, dropReturn_blank blank]
    exact (List.append_nil gap).symm
  | cons c rest => exact dropReturn_append gap (List.cons_ne_nil c rest)

theorem ofSource?_moves (number : Nat) (source : List Char) :
    Moves shift (Option.map (Line.move shift)) (Line.ofSource? number source)
      (Line.ofSource? (shift.renumber number) (List.replicate shift.right ' ' ++ source)) := by
  have blank : Blank (List.replicate shift.right ' ') := blank_replicate _
  have inside := (skipSpaces_suffix (dropReturn source)).length_le
  have indent : shift.right + (dropReturn source).length - (skipSpaces (dropReturn source)).length =
      (dropReturn source).length - (skipSpaces (dropReturn source)).length + shift.right := by
    omega
  rw [Line.ofSource?, Line.ofSource?]
  dsimp only
  rw [dropReturn_indent blank, skipSpaces_blank blank, List.length_append, List.length_replicate,
    indent, Nat.add_right_comm]
  refine (withoutComment_moves number (.plain none none) _ _).map fun kept => ?_
  dsimp only [id]
  split
  · rfl
  · rfl

/-- Lines that all stand as much further in keep their content, if none of them becomes a marker or
ceases to be one. -/
theorem contentLines_moves (shift : Shift) (first : Bool) (number : Nat)
    (sources : List (List Char))
    (step : ∀ n, number ≤ n → shift.renumber (n + 1) = shift.renumber n + 1)
    (marker : ∀ source ∈ sources, ∀ number line, Line.ofSource? number source = .ok (some line) →
      (line.move shift).isMarker = line.isMarker) :
    Moves shift (List.map (Line.move shift)) (contentLines first number sources)
      (contentLines first (shift.renumber number)
        (sources.map (List.replicate shift.right ' ' ++ ·))) := by
  induction sources generalizing first number with
  | nil => rfl
  | cons source rest ih =>
    have following : ∀ flag, Moves shift (List.map (Line.move shift))
        (contentLines flag (number + 1) rest)
        (contentLines flag (shift.renumber number + 1)
          (rest.map (List.replicate shift.right ' ' ++ ·))) := by
      intro flag
      rw [← step number (Nat.le_refl _)]
      exact ih flag (number + 1) (fun n le => step n (Nat.le_of_succ_le le))
        fun source member => marker source (List.mem_cons_of_mem _ member)
    rw [List.map_cons, contentLines, contentLines]
    refine (ofSource?_moves number source).bind fun found read => ?_
    cases found with
    | none => exact following first
    | some line =>
      dsimp only [Option.map_some]
      rw [marker source (List.mem_cons_self ..) number line read]
      split
      · exact following first
      · exact (following false).bind fun _ _ => rfl

/-! Lines with another end. -/

theorem dropReturn_of_notMem {source : List Char} (without : '\r' ∉ source) :
    dropReturn source = source := by
  rw [dropReturn, if_neg]
  intro last
  exact without (List.mem_of_getLast? last)

theorem ofSource?_return (number : Nat) {source : List Char} (without : '\r' ∉ source) :
    Line.ofSource? number (source ++ ['\r']) = Line.ofSource? number source := by
  have same : dropReturn (source ++ ['\r']) = dropReturn source := by
    rw [dropReturn_of_notMem without, dropReturn_append source (List.cons_ne_nil _ _)]
    exact List.append_nil source
  rw [Line.ofSource?, Line.ofSource?, same]

inductive Idle : List Char → Prop where
  | blank {gap : List Char} (blank : Blank gap) : Idle gap
  | comment {gap : List Char} (blank : Blank gap) (comment : List Char) :
      Idle (gap ++ '#' :: comment)

theorem Blank.idle {gap idle : List Char} (blank : Blank gap) (end_ : Idle idle) :
    Idle (gap ++ idle) := by
  cases end_ with
  | blank more => exact .blank (blank.append more)
  | comment more comment =>
    rw [← List.append_assoc]
    exact .comment (blank.append more) comment

theorem Idle.dropReturn {idle : List Char} (end_ : Idle idle) : Idle (dropReturn idle) := by
  cases end_ with
  | blank blank =>
    rw [dropReturn_blank blank]
    exact .blank blank
  | comment blank comment =>
    rw [dropReturn_append _ (List.cons_ne_nil _ _)]
    cases comment with
    | nil => exact .comment blank []
    | cons c rest =>
      rw [← List.singleton_append, dropReturn_append _ (List.cons_ne_nil _ _)]
      exact .comment blank _

theorem Idle.skipSpaces {idle : List Char} (end_ : Idle idle) :
    skipSpaces idle = [] ∨ ∃ comment, skipSpaces idle = '#' :: comment := by
  cases end_ with
  | blank blank =>
    left
    rw [← List.append_nil idle, skipSpaces_blank blank]
    rfl
  | comment blank comment =>
    right
    exact ⟨comment, skipSpaces_blank blank _⟩

theorem ofSource?_idle (number : Nat) {idle : List Char} (end_ : Idle idle) :
    Line.ofSource? number idle = .ok none := by
  rw [Line.ofSource?]
  dsimp only
  rcases end_.dropReturn.skipSpaces with none | ⟨comment, left⟩
  · rw [none]
    rfl
  · rw [left]
    rfl

theorem withoutComment_space (number : Nat) (previous significant : Option Char) (column : Nat)
    (rest : List Char) :
    withoutComment number (.plain previous significant) column (' ' :: rest) =
      (withoutComment number (.plain (some ' ') significant) (column + 1) rest).map (' ' :: ·) := by
  rw [withoutComment.eq_def]
  rfl

theorem withoutComment_idle (number : Nat) (significant : Option Char) (column : Nat)
    {idle : List Char} (end_ : Idle idle) : ∃ gap, Blank gap ∧
      withoutComment number (.plain (some ' ') significant) column idle = .ok gap := by
  have tail : ∀ gap rest, Blank gap → (∀ column,
      withoutComment number (.plain (some ' ') significant) column rest = .ok []) →
      ∀ column, withoutComment number (.plain (some ' ') significant) column (gap ++ rest) =
        .ok gap := by
    intro gap rest blank last
    induction gap with
    | nil => exact last
    | cons c gap ih =>
      intro column
      obtain rfl : c = ' ' := blank c (List.mem_cons_self ..)
      rw [List.cons_append, withoutComment_space,
        ih (fun d member => blank d (List.mem_cons_of_mem _ member))]
      rfl
  cases end_ with
  | blank blank =>
    refine ⟨idle, blank, ?_⟩
    have kept := tail idle [] blank (fun _ => rfl) column
    rwa [List.append_nil] at kept
  | @comment gap blank comment =>
    refine ⟨gap, blank, tail gap ('#' :: comment) blank (fun column => ?_) column⟩
    rw [withoutComment.eq_def]
    rfl

/-- What is kept in the first reading is kept in the second, with spaces behind it. -/
def Keeps (result result' : Except ParseError (List Char)) : Prop :=
  ∀ kept, result = .ok kept → ∃ gap, Blank gap ∧ result' = .ok (kept ++ gap)

theorem Keeps.failed (e : ParseError) (result' : Except ParseError (List Char)) :
    Keeps (.error e) result' := by
  intro kept accepted
  cases accepted

theorem Keeps.map {result result' : Except ParseError (List Char)} (keeps : Keeps result result')
    (front : List Char) : Keeps (result.map (front ++ ·)) (result'.map (front ++ ·)) := by
  intro kept accepted
  cases result with
  | error e => cases accepted
  | ok inner =>
    cases accepted
    obtain ⟨gap, blank, same⟩ := keeps inner rfl
    refine ⟨gap, blank, ?_⟩
    rw [same, List.append_assoc]
    rfl

/-- A text that is kept is kept in front of a space and a comment as well. -/
theorem withoutComment_append {idle : List Char} (end_ : Idle idle) (number : Nat) (scan : Scan)
    (column : Nat) (content : List Char) :
    Keeps (withoutComment number scan column content)
      (withoutComment number scan column (content ++ ' ' :: idle)) := by
  have plain : ∀ previous significant column, Keeps (.ok [])
      (withoutComment number (.plain previous significant) column (' ' :: idle)) := by
    rintro previous significant column kept ⟨⟩
    obtain ⟨gap, blank, same⟩ := withoutComment_idle number significant (column + 1) end_
    refine ⟨' ' :: gap, List.forall_mem_cons.mpr ⟨rfl, blank⟩, ?_⟩
    rw [withoutComment_space, same]
    rfl
  fun_induction withoutComment number scan column content with
  | case1 previous significant column => exact plain previous significant column
  | case2 | case3 | case6 => exact Keeps.failed _ _
  | case4 previous significant column c rest noTab comment =>
    rintro kept ⟨⟩
    refine ⟨[], List.forall_mem_nil _, ?_⟩
    rw [List.cons_append, withoutComment.eq_def]
    dsimp only
    rw [if_neg noTab, if_pos comment]
    rfl
  | case5 previous significant column c rest noTab noComment scan ih =>
    rw [List.cons_append, withoutComment.eq_def number _ _ (c :: _)]
    dsimp only
    rw [if_neg noTab, if_neg noComment]
    exact ih.map [c]
  | case7 mark opened column c escape letter rest ih =>
    rw [List.cons_append, List.cons_append, withoutComment.eq_def number _ _ (c :: _)]
    dsimp only
    rw [if_pos escape]
    exact ih.map [c, letter]
  | case8 opened column mark noEscape =>
    -- the space behind the closing mark is none that doubles it
    have single : ¬(decide (mark = '\'') && decide (' ' = '\'')) = true := by simp
    rw [List.singleton_append, withoutComment.eq_def]
    dsimp only
    rw [if_neg noEscape, if_pos rfl, if_neg single]
    exact (plain (some mark) (some mark) (column + 1)).map [mark]
  | case9 opened column mark d rest noEscape doubled ih =>
    rw [List.cons_append, List.cons_append, withoutComment.eq_def number _ _ (mark :: _)]
    dsimp only
    rw [if_neg noEscape, if_pos rfl, if_pos doubled]
    exact ih.map [mark, d]
  | case10 opened column mark d rest noEscape single ih =>
    rw [List.cons_append, List.cons_append, withoutComment.eq_def number _ _ (mark :: _)]
    dsimp only
    rw [if_neg noEscape, if_pos rfl, if_neg single, ← List.cons_append]
    exact ih.map [mark]
  | case11 mark opened column c rest noEscape other ih =>
    rw [List.cons_append, withoutComment.eq_def number _ _ (c :: _)]
    dsimp only
    rw [if_neg noEscape, if_neg other]
    exact ih.map [c]

theorem trimEnd_append {gap : List Char} (blank : Blank gap) (text : List Char) :
    trimEnd (text ++ gap) = trimEnd text := by
  have turned : Blank gap.reverse := fun c member => blank c (List.mem_reverse.mp member)
  have skipped := skipSpaces_blank turned text.reverse
  rw [skipSpaces, skipSpaces] at skipped
  rw [trimEnd, trimEnd, List.reverse_append, skipped]

/-- A line that is accepted holds the same content in front of a space and a comment. -/
theorem ofSource?_append {number : Nat} {source : List Char} (without : '\r' ∉ source)
    {found : Option Line} (accepted : Line.ofSource? number source = .ok found) {idle : List Char}
    (end_ : Idle idle) :
    Line.ofSource? number (source ++ ' ' :: idle) = Line.ofSource? number source := by
  have space : Blank [' '] := List.forall_mem_singleton.mpr rfl
  obtain ⟨gap, blank, same⟩ := exists_blank_skipSpaces source
  cases content : skipSpaces source with
  | nil =>
    -- nothing stood in front of the comment, and nothing stands there now
    rw [content, List.append_nil] at same
    subst same
    have whole : Idle (source ++ ' ' :: idle) := blank.idle (space.idle end_)
    rw [ofSource?_idle number (.blank blank), ofSource?_idle number whole]
  | cons c rest =>
    have last : dropReturn (source ++ ' ' :: idle) = source ++ ' ' :: dropReturn idle := by
      rw [dropReturn_append source (List.cons_ne_nil _ _), ← List.singleton_append,
        dropReturn_indent space]
      rfl
    have skipped : skipSpaces (source ++ ' ' :: dropReturn idle) =
        skipSpaces source ++ ' ' :: dropReturn idle := by
      have behind : skipSpaces (skipSpaces source ++ ' ' :: dropReturn idle) =
          skipSpaces source ++ ' ' :: dropReturn idle := by
        rw [content]
        exact skipSpaces_cons (ne_space_of_skipSpaces content) _
      conv_lhs => rw [same]
      rw [List.append_assoc, skipSpaces_blank blank, behind]
    have indent : (source ++ ' ' :: dropReturn idle).length -
        (skipSpaces source ++ ' ' :: dropReturn idle).length =
          source.length - (skipSpaces source).length := by
      rw [List.length_append, List.length_append, Nat.add_sub_add_right]
    rw [Line.ofSource?, Line.ofSource?] at *
    dsimp only at accepted ⊢
    rw [dropReturn_of_notMem without] at accepted
    rw [last, dropReturn_of_notMem without, skipped, indent]
    have keeps := withoutComment_append end_.dropReturn number (.plain none none)
      (source.length - (skipSpaces source).length + 1) (skipSpaces source)
    cases read : withoutComment number (.plain none none)
        (source.length - (skipSpaces source).length + 1) (skipSpaces source) with
    | error e =>
      rw [read] at accepted
      cases accepted
    | ok kept =>
      obtain ⟨more, blank, read'⟩ := keeps kept read
      rw [read']
      dsimp only [Except.map]
      rw [trimEnd_append blank]

theorem contentLines_congr {number : Nat} {sources others : List (List Char)}
    (same : ∀ i, sources[i]?.map (Line.ofSource? (number + i)) =
      others[i]?.map (Line.ofSource? (number + i))) (first : Bool) :
    contentLines first number sources = contentLines first number others := by
  induction sources generalizing first number others with
  | nil =>
    cases others with
    | nil => rfl
    | cons other more => cases same 0
  | cons source rest ih =>
    cases others with
    | nil => cases same 0
    | cons other more =>
      have head : Line.ofSource? number source = Line.ofSource? number other :=
        Option.some.inj (same 0)
      have tail : ∀ flag, contentLines flag (number + 1) rest =
          contentLines flag (number + 1) more := by
        refine ih fun i => ?_
        rw [Nat.add_assoc, Nat.add_comm 1 i]
        exact same (i + 1)
      rw [contentLines, contentLines, head]
      simp only [tail]

/-! Lines that hold nothing, between the others. -/

def later (number : Nat) : Shift :=
  ⟨fun n => if n < number then n else n + 1, 0⟩

theorem later_of_lt {number n : Nat} (before : n < number) : (later number).renumber n = n :=
  if_pos before

theorem later_of_le {number n : Nat} (behind : number ≤ n) :
    (later number).renumber n = n + 1 :=
  if_neg (Nat.not_lt.mpr behind)

theorem isMarker_later (place : Nat) (line : Line) :
    (line.move (later place)).isMarker = line.isMarker := rfl

/-- A line in front of the one that grows stays where it is. -/
theorem ofSource?_stays {number place : Nat} (before : number < place) (source : List Char) :
    Moves (later place) (Option.map (Line.move (later place))) (Line.ofSource? number source)
      (Line.ofSource? number source) := by
  have meets := ofSource?_meets number source
  rw [Moves]
  cases read : Line.ofSource? number source with
  | error e =>
    rw [read] at meets
    have same : e.move (later place) = e := by
      rw [ParseError.move, meets.1, later_of_lt before, ← meets.1]
      rfl
    exact congrArg Except.error same.symm
  | ok found =>
    rw [read] at meets
    cases found with
    | none => rfl
    | some line =>
      have same : line.move (later place) = line := by
        rw [Line.move, (meets line rfl).1, later_of_lt before, ← (meets line rfl).1]
        rfl
      exact congrArg (fun line => Except.ok (some line)) same.symm

theorem contentLines_insert (first : Bool) (number k : Nat) {sources : List (List Char)}
    (inside : k ≤ sources.length) {idle : List Char} (empty : Idle idle) :
    Moves (later (number + k)) (List.map (Line.move (later (number + k))))
      (contentLines first number sources)
      (contentLines first number (sources.insertIdx k idle)) := by
  induction k generalizing first number sources with
  | zero =>
    have moves := contentLines_moves (later number) first number sources
      (fun n behind => by rw [later_of_le behind, later_of_le (Nat.le_succ_of_le behind)])
      (fun _ _ _ line _ => isMarker_later number line)
    have same : sources.map (List.replicate (later number).right ' ' ++ ·) = sources :=
      List.map_id sources
    rw [same, later_of_le (Nat.le_refl number)] at moves
    rw [List.insertIdx_zero, contentLines, ofSource?_idle number empty]
    exact moves
  | succ k ih =>
    cases sources with
    | nil => cases inside
    | cons source rest =>
      have following := fun flag => ih flag (number + 1) (Nat.le_of_succ_le_succ inside)
      rw [Nat.add_right_comm number 1 k] at following
      rw [List.insertIdx_succ_cons, contentLines, contentLines]
      refine (ofSource?_stays (Nat.lt_add_of_pos_right (Nat.succ_pos k)) source).bind
        fun found _ => ?_
      cases found with
      | none => exact following first
      | some line =>
        dsimp only [Option.map_some]
        rw [isMarker_later]
        split
        · exact following first
        · exact (following false).bind fun _ _ => rfl

end ParticleSim.Outline
