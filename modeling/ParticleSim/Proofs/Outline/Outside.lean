import ParticleSim.Proofs.Outline.SourceReading
import ParticleSim.Proofs.Outline.Source
/-!
How far the search for comments gets in a line. Outside of quoted scalars it goes by what stands in
front of a place: a quote behind certain characters opens a quoted scalar there, whatever the line
means by it. A line is kept whole exactly if its end is reached outside of quoted scalars.
-/
namespace ParticleSim.Outline

/-- Behind these texts the search takes a quote for the start of a quoted scalar: at the start of
the line, right behind an opening bracket or a comma, and behind spaces behind further marks. -/
def OpensBehind (front : List Char) : Prop :=
  (∀ c ∈ front.getLast?, c ∈ ['[', '{', ',']) ∨
    front.getLast? = some ' ' ∧ ∀ c ∈ (trimEnd front).getLast?, c ∈ [':', '-', '?', ',', '[', '{']

def CommentsBehind (front : List Char) : Prop :=
  ∀ c ∈ front.getLast?, c = ' '

/-- The search gets to the place between the two parts of a line, outside of quoted scalars. What
follows is at hand at every step, since a quote is closed only if no other one follows it. -/
inductive Outside : List Char → List Char → Prop where
  | start (line : List Char) : Outside [] line
  | char {front rest : List Char} {c : Char} (reached : Outside front (c :: rest))
    (noTab : c ≠ '\t') (noComment : c = '#' → ¬CommentsBehind front)
    (noQuote : Quoted.isQuote c = true → ¬OpensBehind front) : Outside (front ++ [c]) rest
  | quoted {front scalar rest : List Char} (reached : Outside front (scalar ++ rest))
    (opens : OpensBehind front)
    (closed : Quoted.length? (scalar ++ rest) = some scalar.length) : Outside (front ++ scalar) rest

/-- The search goes no further: it meets a tab, a comment, or the start of a quoted scalar that is
never closed. -/
inductive Stopped (front : List Char) : List Char → Prop where
  | tab (rest : List Char) : Stopped front ('\t' :: rest)
  | comment (rest : List Char) (starts : CommentsBehind front) : Stopped front ('#' :: rest)
  | dangling {rest : List Char} (opens : OpensBehind front)
    (quote : ∃ c ∈ rest.head?, Quoted.isQuote c = true) (never : Quoted.length? rest = none) :
    Stopped front rest

/-! The state of the search outside of quoted scalars. -/

def Scan.behind (front : List Char) : Scan :=
  .plain front.getLast? (trimEnd front).getLast?

theorem opensQuote_iff (front : List Char) :
    opensQuote front.getLast? (trimEnd front).getLast? = true ↔ OpensBehind front := by
  rw [opensQuote.eq_def, OpensBehind]
  cases front.getLast? with
  | none => simp
  | some c =>
    by_cases space : c = ' '
    · subst space
      cases (trimEnd front).getLast? <;> simp
    · simp [space]

theorem trimEnd_concat_space (front : List Char) : trimEnd (front ++ [' ']) = trimEnd front := by
  simp [trimEnd, isSpace]

theorem trimEnd_concat {c : Char} (other : c ≠ ' ') (front : List Char) :
    trimEnd (front ++ [c]) = front ++ [c] :=
  trimEnd_of_last (by simpa using other)

theorem Scan.behind_concat (front : List Char) (c : Char) : Scan.behind (front ++ [c]) =
    .plain (some c) (if c = ' ' then (trimEnd front).getLast? else some c) := by
  rw [Scan.behind]
  by_cases space : c = ' '
  · subst space
    simp [trimEnd_concat_space]
  · simp [trimEnd_concat space, space]

theorem Scan.behind_quote (front : List Char) {mark : Char} (quote : Quoted.isQuote mark = true) :
    Scan.behind (front ++ [mark]) = .plain (some mark) (some mark) := by
  have other : mark ≠ ' ' := by
    rintro rfl
    cases quote
  rw [Scan.behind_concat, if_neg other]

/-! One step of the search. -/

section Steps

variable {front : List Char} {c : Char} (number column : Nat) (rest : List Char)

theorem withoutComment_char (noTab : c ≠ '\t') (noComment : c = '#' → ¬CommentsBehind front)
    (noQuote : Quoted.isQuote c = true → ¬OpensBehind front) :
    withoutComment number (.behind front) column (c :: rest) =
      (withoutComment number (.behind (front ++ [c])) (column + 1) rest).map (c :: ·) := by
  have plain : Scan.after front.getLast? (trimEnd front).getLast? column c =
      .behind (front ++ [c]) := by
    rw [Scan.after, Scan.behind_concat, if_neg]
    rw [Bool.and_eq_true, opensQuote_iff]
    exact fun opens => noQuote opens.1 opens.2
  have goes : ¬(c = '#' && (front.getLast? == none || front.getLast? == some ' ')) = true := by
    simp only [Bool.and_eq_true, decide_eq_true_eq, Bool.or_eq_true, beq_iff_eq]
    rintro ⟨hash, none | space⟩
    · exact noComment hash (by simp [CommentsBehind, none])
    · exact noComment hash (by simp [CommentsBehind, space])
  rw [Scan.behind, withoutComment.eq_def]
  dsimp only
  rw [if_neg noTab, if_neg goes, plain]

theorem withoutComment_comment (starts : CommentsBehind front) :
    withoutComment number (.behind front) column ('#' :: rest) = .ok [] := by
  have hash : ('#' = '#' && (front.getLast? == none || front.getLast? == some ' ')) = true := by
    cases last : front.getLast? with
    | none => rfl
    | some c =>
      rw [starts c last]
      rfl
  rw [Scan.behind, withoutComment.eq_def]
  dsimp only
  rw [if_neg (by decide), if_pos hash]

theorem withoutComment_tab :
    withoutComment number (.behind front) column ('\t' :: rest) =
      .error ⟨number, column, .tab⟩ := by
  rw [Scan.behind, withoutComment.eq_def]
  rfl

theorem withoutComment_mark (quote : Quoted.isQuote c = true) (opens : OpensBehind front) :
    withoutComment number (.behind front) column (c :: rest) =
      (withoutComment number (.quoted c column) (column + 1) rest).map (c :: ·) := by
  have after : Scan.after front.getLast? (trimEnd front).getLast? column c = .quoted c column := by
    rw [Scan.after, if_pos]
    rw [Bool.and_eq_true, opensQuote_iff]
    exact ⟨quote, opens⟩
  have noTab : c ≠ '\t' := by
    rintro rfl
    cases quote
  have noHash : c ≠ '#' := by
    rintro rfl
    cases quote
  rw [Scan.behind, withoutComment.eq_def]
  dsimp only
  rw [if_neg noTab, if_neg (by simp [noHash]), after]

end Steps

/-! Within a quoted scalar the search finds the end that is measured. -/

def resume (number : Nat) (mark : Char) (opened column : Nat) (text : List Char) :
    Option Nat → Except ParseError (List Char)
  | none => .error ⟨number, opened, .unterminatedQuote⟩
  | some n =>
    (withoutComment number (.plain (some mark) (some mark)) (column + n) (text.drop n)).map
      (text.take n ++ ·)

theorem resume_append (number : Nat) (mark : Char) (opened column : Nat) (form text : List Char)
    (length : Option Nat) :
    resume number mark opened column (form ++ text) (length.map (· + form.length)) =
      (resume number mark opened (column + form.length) text length).map (form ++ ·) := by
  cases length with
  | none => rfl
  | some n =>
    have column_eq : column + (n + form.length) = column + form.length + n := by omega
    rw [Option.map_some, resume, resume, column_eq, Nat.add_comm n,
      List.drop_length_add_append, List.take_length_add_append]
    cases withoutComment number _ _ (text.drop n) <;> simp [Except.map]

theorem resume_close (number : Nat) (mark : Char) (opened column : Nat) (rest : List Char) :
    resume number mark opened column (mark :: rest) (some 1) =
      (withoutComment number (.plain (some mark) (some mark)) (column + 1) rest).map (mark :: ·) :=
  rfl

theorem withoutComment_double (number opened column : Nat) (text : List Char) :
    withoutComment number (.quoted '"' opened) column text =
      resume number '"' opened column text (Quoted.endDouble text) := by
  fun_induction Quoted.endDouble text generalizing column with
  | case1 => rw [withoutComment.eq_def]; rfl
  | case2 => rw [withoutComment.eq_def]; rfl
  | case3 letter rest ih =>
    calc withoutComment number (.quoted '"' opened) column ('\\' :: letter :: rest)
        = (withoutComment number (.quoted '"' opened) (column + 2) rest).map
            (['\\', letter] ++ ·) := by
          rw [withoutComment.eq_def]
          rfl
      _ = _ := by
          rw [ih]
          exact (resume_append number '"' opened column ['\\', letter] rest _).symm
  | case4 rest =>
    rw [resume_close, withoutComment.eq_def]
    cases rest <;> rfl
  | case5 c rest noEscape noClose ih =>
    calc withoutComment number (.quoted '"' opened) column (c :: rest)
        = (withoutComment number (.quoted '"' opened) (column + 1) rest).map ([c] ++ ·) := by
          rw [withoutComment.eq_def]
          simp [noEscape, noClose]
      _ = _ := by
          rw [ih]
          exact (resume_append number '"' opened column [c] rest _).symm

theorem withoutComment_single (number opened column : Nat) (text : List Char) :
    withoutComment number (.quoted '\'' opened) column text =
      resume number '\'' opened column text (Quoted.endSingle text) := by
  fun_induction Quoted.endSingle text generalizing column with
  | case1 => rw [withoutComment.eq_def]; rfl
  | case2 rest ih =>
    calc withoutComment number (.quoted '\'' opened) column ('\'' :: '\'' :: rest)
        = (withoutComment number (.quoted '\'' opened) (column + 2) rest).map
            (['\'', '\''] ++ ·) := by
          rw [withoutComment.eq_def]
          rfl
      _ = _ := by
          rw [ih]
          exact (resume_append number '\'' opened column ['\'', '\''] rest _).symm
  | case3 rest alone =>
    rw [resume_close, withoutComment.eq_def]
    cases rest with
    | nil => rfl
    | cons d rest =>
      have other : d ≠ '\'' := by
        rintro rfl
        exact alone rest rfl
      simp [other]
  | case4 c rest noClose ih =>
    calc withoutComment number (.quoted '\'' opened) column (c :: rest)
        = (withoutComment number (.quoted '\'' opened) (column + 1) rest).map ([c] ++ ·) := by
          rw [withoutComment.eq_def]
          simp [noClose]
      _ = _ := by
          rw [ih]
          exact (resume_append number '\'' opened column [c] rest _).symm

theorem withoutComment_quoted {mark : Char} (quote : Quoted.isQuote mark = true)
    (number opened column : Nat) (text : List Char) :
    withoutComment number (.quoted mark opened) column text =
      resume number mark opened column text ((Quoted.length? (mark :: text)).map (· - 1)) := by
  rcases Quoted.eq_of_isQuote quote with rfl | rfl
  · rw [withoutComment_double, Quoted.length?]
    cases Quoted.endDouble text <;> rfl
  · rw [withoutComment_single, Quoted.length?]
    cases Quoted.endSingle text <;> rfl

theorem Quoted.endDouble_le {text : List Char} {n : Nat} (ends : endDouble text = some n) :
    n ≤ text.length := by
  fun_induction endDouble text generalizing n with
  | case1 => cases ends
  | case2 => cases ends
  | case3 letter rest ih =>
    rcases Option.map_eq_some_iff.mp ends with ⟨m, behind, rfl⟩
    simpa using ih behind
  | case4 rest =>
    cases ends
    simp
  | case5 c rest noEscape noClose ih =>
    rcases Option.map_eq_some_iff.mp ends with ⟨m, behind, rfl⟩
    simpa using ih behind

theorem Quoted.endSingle_le {text : List Char} {n : Nat} (ends : endSingle text = some n) :
    n ≤ text.length := by
  fun_induction endSingle text generalizing n with
  | case1 => cases ends
  | case2 rest ih =>
    rcases Option.map_eq_some_iff.mp ends with ⟨m, behind, rfl⟩
    simpa using ih behind
  | case3 rest alone =>
    cases ends
    simp
  | case4 c rest noClose ih =>
    rcases Option.map_eq_some_iff.mp ends with ⟨m, behind, rfl⟩
    simpa using ih behind

theorem Quoted.length?_le {text : List Char} {n : Nat} (measured : length? text = some n) :
    n ≤ text.length := by
  rw [length?.eq_def] at measured
  split at measured
  · rcases Option.map_eq_some_iff.mp measured with ⟨m, ends, rfl⟩
    simpa using endDouble_le ends
  · rcases Option.map_eq_some_iff.mp measured with ⟨m, ends, rfl⟩
    simpa using endSingle_le ends
  · cases measured

theorem Quoted.exists_body {scalar rest : List Char}
    (closed : length? (scalar ++ rest) = some scalar.length) :
    ∃ mark body, isQuote mark = true ∧ scalar = mark :: (body ++ [mark]) := by
  cases scalar with
  | nil =>
    rcases length?_endsWith closed with ⟨mark, -, -, body, same⟩
    simp at same
  | cons mark inner =>
    rw [List.cons_append, List.length_cons, length?.eq_def] at closed
    split at closed
    · next same =>
      cases same
      rcases Option.map_eq_some_iff.mp closed with ⟨n, ends, count⟩
      rcases (endDouble_endsWith ends).2 with ⟨body, same⟩
      rw [show n = inner.length by omega, List.take_left] at same
      exact ⟨'"', body, rfl, by rw [same]⟩
    · next same =>
      cases same
      rcases Option.map_eq_some_iff.mp closed with ⟨n, ends, count⟩
      rcases (endSingle_endsWith ends).2 with ⟨body, same⟩
      rw [show n = inner.length by omega, List.take_left] at same
      exact ⟨'\'', body, rfl, by rw [same]⟩
    · cases closed

theorem withoutComment_scalar {front scalar rest : List Char} (number column : Nat)
    (opens : OpensBehind front) (closed : Quoted.length? (scalar ++ rest) = some scalar.length) :
    withoutComment number (.behind front) column (scalar ++ rest) =
      (withoutComment number (.behind (front ++ scalar)) (column + scalar.length) rest).map
        (scalar ++ ·) := by
  rcases Quoted.exists_body closed with ⟨mark, body, quote, rfl⟩
  have state : Scan.behind (front ++ mark :: (body ++ [mark])) =
      .plain (some mark) (some mark) := by
    have whole := Scan.behind_quote (front ++ mark :: body) quote
    rwa [List.append_assoc, List.cons_append] at whole
  have measured : (Quoted.length? (mark :: (body ++ [mark] ++ rest))).map (· - 1) =
      some (body ++ [mark]).length := by
    rw [List.cons_append] at closed
    rw [closed]
    rfl
  rw [List.cons_append, withoutComment_mark number column _ quote opens,
    withoutComment_quoted quote, measured, resume, List.drop_left, List.take_left, state,
    List.length_cons, Nat.add_right_comm, Nat.add_assoc]
  cases withoutComment number _ _ rest <;> rfl

/-! The whole search. -/

section Search

variable {front rest : List Char}

/-- What is searched is copied, and the search goes on behind it. -/
theorem Outside.withoutComment_eq (reached : Outside front rest) (number column : Nat) :
    withoutComment number (.plain none none) column (front ++ rest) =
      (withoutComment number (.behind front) (column + front.length) rest).map (front ++ ·) := by
  -- one more piece is copied behind what is copied already
  have further : ∀ {front piece rest : List Char},
      withoutComment number (.plain none none) column (front ++ (piece ++ rest)) =
        (withoutComment number (.behind front) (column + front.length) (piece ++ rest)).map
          (front ++ ·) →
      withoutComment number (.behind front) (column + front.length) (piece ++ rest) =
        (withoutComment number (.behind (front ++ piece)) (column + front.length + piece.length)
          rest).map (piece ++ ·) →
      withoutComment number (.plain none none) column (front ++ piece ++ rest) =
        (withoutComment number (.behind (front ++ piece)) (column + (front ++ piece).length)
          rest).map (front ++ piece ++ ·) := by
    intro front piece rest before step
    rw [List.append_assoc, before, step, List.length_append, Nat.add_assoc]
    cases withoutComment number _ _ rest <;> simp [Except.map]
  induction reached with
  | start line =>
    rw [List.nil_append, List.length_nil, Nat.add_zero]
    exact (congrFun Except.map_id _).symm
  | char reached noTab noComment noQuote ih =>
    exact further ih (withoutComment_char number _ _ noTab noComment noQuote)
  | quoted reached opens closed ih =>
    exact further ih (withoutComment_scalar number _ opens closed)

/-- From every place that is reached the search gets to the end of the line, or it is stopped. -/
theorem Outside.end_or_stopped (reached : Outside front rest) : Outside (front ++ rest) [] ∨
    ∃ middle last, rest = middle ++ last ∧ Outside (front ++ middle) last ∧
      Stopped (front ++ middle) last := by
  induction length : rest.length using Nat.strong_induction_on generalizing front rest with
  | _ n ih =>
    -- behind a first piece the rest is shorter
    have further : ∀ {piece last}, rest = piece ++ last → piece ≠ [] →
        Outside (front ++ piece) last → Outside (front ++ rest) [] ∨
          ∃ middle last, rest = middle ++ last ∧ Outside (front ++ middle) last ∧
            Stopped (front ++ middle) last := by
      rintro piece last rfl nonempty reached
      have shorter : last.length < n := by
        have some := List.length_pos_iff.mpr nonempty
        rw [List.length_append] at length
        omega
      rcases ih last.length shorter reached rfl with whole | ⟨middle, behind, rfl, reached, stopped⟩
      · rw [List.append_assoc] at whole
        exact .inl whole
      · rw [List.append_assoc] at reached stopped
        exact .inr ⟨piece ++ middle, behind, (List.append_assoc ..).symm, reached, stopped⟩
    have here : Stopped front rest → ∃ middle last, rest = middle ++ last ∧
        Outside (front ++ middle) last ∧ Stopped (front ++ middle) last := by
      intro stopped
      exact ⟨[], rest, rfl, by simpa using reached, by simpa using stopped⟩
    cases rest with
    | nil => exact .inl (by simpa using reached)
    | cons c rest =>
      by_cases tab : c = '\t'
      · subst tab
        exact .inr (here (.tab rest))
      · by_cases comment : c = '#' ∧ CommentsBehind front
        · rcases comment with ⟨rfl, starts⟩
          exact .inr (here (.comment rest starts))
        · by_cases opens : Quoted.isQuote c = true ∧ OpensBehind front
          · cases measured : Quoted.length? (c :: rest) with
            | none => exact .inr (here (.dangling opens.2 ⟨c, rfl, opens.1⟩ measured))
            | some m =>
              have parts : c :: rest = (c :: rest).take m ++ (c :: rest).drop m :=
                (List.take_append_drop ..).symm
              have count : ((c :: rest).take m).length = m :=
                List.length_take_of_le (Quoted.length?_le measured)
              have closed : Quoted.length? ((c :: rest).take m ++ (c :: rest).drop m) =
                  some ((c :: rest).take m).length := by
                rw [← parts, count, measured]
              have nonempty : (c :: rest).take m ≠ [] := by
                rcases Quoted.exists_body closed with ⟨mark, body, -, same⟩
                simp [same]
              exact further parts nonempty (.quoted (parts ▸ reached) opens.2 closed)
          · have step : Outside (front ++ [c]) rest :=
              .char reached tab (fun hash starts => comment ⟨hash, starts⟩)
                fun quote behind => opens ⟨quote, behind⟩
            exact further (show c :: rest = [c] ++ rest from rfl) (by simp) step

theorem Outside.comment (reached : Outside front ('#' :: rest)) (starts : CommentsBehind front)
    (number column : Nat) :
    withoutComment number (.plain none none) column (front ++ '#' :: rest) = .ok front := by
  rw [reached.withoutComment_eq, withoutComment_comment number _ rest starts]
  exact congrArg Except.ok (List.append_nil front)

theorem Outside.tab (reached : Outside front ('\t' :: rest)) (number column : Nat) :
    withoutComment number (.plain none none) column (front ++ '\t' :: rest) =
      .error ⟨number, column + front.length, .tab⟩ := by
  rw [reached.withoutComment_eq, withoutComment_tab]
  rfl

/-- A quote that is taken for the start of a quoted scalar is a fault if the scalar never ends. -/
theorem Outside.dangling (reached : Outside front rest) (opens : OpensBehind front)
    (quote : ∃ c ∈ rest.head?, Quoted.isQuote c = true) (never : Quoted.length? rest = none)
    (number column : Nat) : withoutComment number (.plain none none) column (front ++ rest) =
      .error ⟨number, column + front.length, .unterminatedQuote⟩ := by
  rcases quote with ⟨mark, first, quote⟩
  rcases List.head?_eq_some_iff.mp first with ⟨body, rfl⟩
  rw [reached.withoutComment_eq, withoutComment_mark number _ body quote opens,
    withoutComment_quoted quote, never]
  rfl

/-- A line is kept as a whole exactly if the search gets to its end outside of quoted scalars. -/
theorem outside_nil_iff (line : List Char) (number column : Nat) :
    Outside line [] ↔ withoutComment number (.plain none none) column line = .ok line := by
  constructor
  · intro whole
    have copied := whole.withoutComment_eq number column
    rw [List.append_nil, Scan.behind, withoutComment] at copied
    rw [copied]
    exact congrArg Except.ok (List.append_nil line)
  · intro kept
    rcases (Outside.start line).end_or_stopped with whole | ⟨front, rest, rfl, reached, stopped⟩
    · exact whole
    · rw [List.nil_append] at reached stopped
      cases stopped with
      | tab rest =>
        rw [reached.tab] at kept
        cases kept
      | comment rest starts =>
        rw [reached.comment starts] at kept
        simp at kept
      | dangling opens quote never =>
        rw [reached.dangling opens quote never] at kept
        cases kept

end Search

/-! Pieces that the search gets through. -/

section Pieces

variable {front rest : List Char}

theorem Outside.ordinary {c : Char} (reached : Outside front (c :: rest))
    (other : c ∉ ['\t', '#', '"', '\'']) : Outside (front ++ [c]) rest := by
  simp only [List.mem_cons, List.not_mem_nil, or_false, not_or] at other
  apply reached.char other.1
  · exact fun hash => absurd hash other.2.1
  · intro quote
    simp [Quoted.isQuote, other] at quote

theorem Outside.blank {gap : List Char} (reached : Outside front (gap ++ rest))
    (blank : Blank gap) : Outside (front ++ gap) rest := by
  induction gap generalizing front with
  | nil => simpa using reached
  | cons c gap ih =>
    obtain ⟨space, others⟩ := List.forall_mem_cons.mp blank
    subst space
    simpa using ih (reached.ordinary (by decide)) others

theorem Outside.encode {text : List Char} (reached : Outside front (Quoted.encode text ++ rest))
    (opens : OpensBehind front) : Outside (front ++ Quoted.encode text) rest :=
  .quoted reached opens (Quoted.length?_encode text rest)

theorem Outside.unquoted {text : List Char} (reached : Outside front (text ++ rest))
    (clean : ∀ c ∈ text, needsQuotes c = false) (noComment : hasPair ' ' '#' text = false)
    (first : text.head? = some '#' → ¬CommentsBehind front) : Outside (front ++ text) rest := by
  induction text generalizing front with
  | nil => simpa using reached
  | cons c text ih =>
    have cleanC := clean c (List.mem_cons_self ..)
    have noTab : c ≠ '\t' := Quoted.ne_of_clean cleanC rfl
    have noQuote : Quoted.isQuote c = true → ¬OpensBehind front := by
      intro quote
      rcases Quoted.eq_of_isQuote quote with rfl | rfl <;> cases cleanC
    have step : Outside (front ++ [c]) (text ++ rest) :=
      .char reached noTab (fun hash => first (by simp [hash])) noQuote
    have next : text.head? = some '#' → ¬CommentsBehind (front ++ [c]) := by
      intro hash starts
      have space : c = ' ' := starts c (by simp)
      rcases List.head?_eq_some_iff.mp hash with ⟨more, rfl⟩
      subst space
      cases noComment
    have later : hasPair ' ' '#' text = false := by
      cases text with
      | nil => rfl
      | cons d more => exact (Bool.or_eq_false_iff.mp noComment).2
    have passed := ih step (fun d member => clean d (List.mem_cons_of_mem c member)) later next
    simpa using passed

theorem Outside.keyText (key : String) (rest : List Char) :
    Outside (keyText key) rest := by
  have reached := Outside.start (Outline.keyText key ++ rest)
  rw [Outline.keyText] at reached ⊢
  split at reached
  · next hazard =>
    rw [if_pos hazard]
    exact reached.encode (.inl (by simp))
  · next safe =>
    rw [if_neg safe]
    have bare := bare_of_not_hazardous (Bool.not_eq_true _ ▸ safe)
    refine reached.unquoted bare.clean bare.noComment fun hash => ?_
    rcases bare.first with ⟨c, text, same, other⟩
    rw [same] at hash
    cases hash
    exact absurd (by decide) other

theorem Outside.colon (reached : Outside front (':' :: ' ' :: rest)) :
    Outside (front ++ [':', ' ']) rest ∧ OpensBehind (front ++ [':', ' ']) := by
  have space : Outside (front ++ [':'] ++ [' ']) rest :=
    (reached.ordinary (by decide)).ordinary (by decide)
  have last : trimEnd (front ++ [':'] ++ [' ']) = front ++ [':'] := by
    rw [trimEnd_concat_space, trimEnd_concat (by decide)]
  rw [List.append_assoc] at space last
  refine ⟨space, .inr ⟨by simp, ?_⟩⟩
  rw [List.singleton_append] at last
  rw [last]
  simp

end Pieces

end ParticleSim.Outline
