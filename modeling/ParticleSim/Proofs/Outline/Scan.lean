import ParticleSim.Proofs.Outline.Quoted

namespace ParticleSim.Outline

open Quoted

/-- From one state of the search to another, a text is copied, whatever follows it. -/
def Passes (number : Nat) (start : Scan) (text : List Char) (stop : Scan) : Prop :=
  ∀ column, ∃ next, ∀ rest, withoutComment number start column (text ++ rest) =
    (withoutComment number stop next rest).map (text ++ ·)

namespace Passes

variable {number : Nat} {start middle stop : Scan} {front back : List Char}

theorem nil (number : Nat) (start : Scan) : Passes number start [] start := by
  intro column
  refine ⟨column, fun rest => ?_⟩
  rw [List.nil_append]
  cases withoutComment number start column rest with
  | ok text => rfl
  | error e => rfl

theorem append (first : Passes number start front middle)
    (second : Passes number middle back stop) :
    Passes number start (front ++ back) stop := by
  intro column
  obtain ⟨between, first⟩ := first column
  obtain ⟨next, second⟩ := second between
  refine ⟨next, fun rest => ?_⟩
  rw [List.append_assoc, first, second]
  cases withoutComment number stop next rest with
  | ok text => exact congrArg Except.ok (List.append_assoc front back text).symm
  | error e => rfl

/-- A character of plain text that starts neither a comment nor a quoted scalar. -/
theorem char {c : Char} {previous significant : Option Char} (noTab : c ≠ '\t')
    (noQuote : isQuote c = false)
    (noComment : c = '#' → previous ≠ none ∧ previous ≠ some ' ') :
    Passes number (.plain previous significant) [c]
      (.plain (some c) (if c = ' ' then significant else some c)) := by
  intro column
  refine ⟨column + 1, fun rest => ?_⟩
  have noHash : ¬(c = '#' && (previous == none || previous == some ' ')) = true := by
    rw [Bool.and_eq_true, decide_eq_true_eq, Bool.or_eq_true, beq_iff_eq, beq_iff_eq]
    intro given
    rcases given with ⟨hash, missing | space⟩
    · exact (noComment hash).1 missing
    · exact (noComment hash).2 space
  rw [List.singleton_append, withoutComment.eq_def]
  dsimp only
  rw [if_neg noTab, if_neg noHash, Scan.after, noQuote, Bool.false_and, if_neg Bool.false_ne_true]
  rfl

theorem mark {c : Char} {previous significant : Option Char} (noTab : c ≠ '\t')
    (noQuote : isQuote c = false) (noHash : c ≠ '#') :
    Passes number (.plain previous significant) [c]
      (.plain (some c) (if c = ' ' then significant else some c)) :=
  char noTab noQuote fun hash => absurd hash noHash

theorem inside {c : Char} (quote : c ≠ '"') (backslash : c ≠ '\\') (opened : Nat) :
    Passes number (.quoted '"' opened) [c] (.quoted '"' opened) := by
  intro column
  refine ⟨column + 1, fun rest => ?_⟩
  have noEscape : (decide ('"' = '"') && decide (c = '\\')) = false := by
    rw [decide_eq_false backslash, Bool.and_false]
  rw [List.singleton_append, withoutComment.eq_def]
  dsimp only
  rw [noEscape, if_neg Bool.false_ne_true, if_neg quote]
  rfl

theorem escape (letter : Char) (opened : Nat) :
    Passes number (.quoted '"' opened) ['\\', letter] (.quoted '"' opened) := by
  intro column
  refine ⟨column + 2, fun rest => ?_⟩
  rw [List.cons_append, List.singleton_append, withoutComment.eq_def]
  rfl

theorem close (opened : Nat) :
    Passes number (.quoted '"' opened) ['"'] (.plain (some '"') (some '"')) := by
  intro column
  refine ⟨column + 1, fun rest => ?_⟩
  rw [List.singleton_append, withoutComment.eq_def]
  cases rest with
  | nil => rfl
  | cons d rest => rfl

theorem written {c : Char} {form : List Char} (is : Written c form) (opened : Nat) :
    Passes number (.quoted '"' opened) form (.quoted '"' opened) := by
  cases is with
  | itself quote backslash => exact inside quote backslash opened
  | letter l => exact escape l opened
  | digits p q r s means clean =>
    simp only [List.mem_cons, List.not_mem_nil, or_false, forall_eq_or_imp, forall_eq] at clean
    obtain ⟨cleanP, cleanQ, cleanR, cleanS⟩ := clean
    have digit : ∀ {d : Char}, needsQuotes d = false →
        Passes number (.quoted '"' opened) [d] (.quoted '"' opened) := fun clean =>
      inside (ne_of_clean clean rfl) (ne_of_clean clean rfl) opened
    exact (escape 'u' opened).append ((digit cleanP).append ((digit cleanQ).append
      ((digit cleanR).append (digit cleanS))))

theorem characters (text : List Char) (opened : Nat) :
    Passes number (.quoted '"' opened) (text.flatMap encodeChar) (.quoted '"' opened) := by
  induction text with
  | nil => exact nil number _
  | cons c text ih =>
    rw [List.flatMap_cons]
    exact (written (Quoted.written c) opened).append ih

theorem encode (text : List Char) {previous significant : Option Char}
    (opens : opensQuote previous significant = true) :
    Passes number (.plain previous significant) (Quoted.encode text)
      (.plain (some '"') (some '"')) := by
  intro column
  have copied : Passes number (.quoted '"' column) (text.flatMap encodeChar ++ ['"'])
      (.plain (some '"') (some '"')) := (characters text column).append (close column)
  obtain ⟨next, body⟩ := copied (column + 1)
  refine ⟨next, fun rest => ?_⟩
  rw [Quoted.encode, List.cons_append, List.cons_append, withoutComment.eq_def]
  dsimp only
  rw [if_neg (by decide), if_neg (by simp), Scan.after, opens, if_pos (by rfl), body]
  cases withoutComment number (.plain (some '"') (some '"')) next rest with
  | ok text => rfl
  | error e => rfl

theorem plain {text : List Char} (clean : ∀ c ∈ text, needsQuotes c = false)
    (noComment : hasPair ' ' '#' text = false) {previous significant : Option Char}
    (first : text.head? = some '#' → previous ≠ none ∧ previous ≠ some ' ') :
    ∃ previous' significant', Passes number (.plain previous significant) text
      (.plain previous' significant') := by
  induction text generalizing previous significant with
  | nil => exact ⟨previous, significant, nil number _⟩
  | cons c rest ih =>
    have cleanC := clean c (List.mem_cons_self ..)
    have noTab := ne_of_clean (d := '\t') cleanC rfl
    have noQuote : isQuote c = false := by
      rw [isQuote, Bool.or_eq_false_iff, beq_eq_false_iff_ne, beq_eq_false_iff_ne]
      exact ⟨ne_of_clean cleanC rfl, ne_of_clean cleanC rfl⟩
    have step : Passes number (.plain previous significant) [c]
        (.plain (some c) (if c = ' ' then significant else some c)) :=
      char noTab noQuote (fun hash => first (congrArg some hash))
    have cleanRest : ∀ d ∈ rest, needsQuotes d = false := fun d member =>
      clean d (List.mem_cons_of_mem _ member)
    have further : hasPair ' ' '#' rest = false := by
      cases rest with
      | nil => rfl
      | cons d rest => exact (Bool.or_eq_false_iff.mp noComment).2
    have next : rest.head? = some '#' → some c ≠ none ∧ some c ≠ some ' ' := by
      intro hash
      refine ⟨Option.some_ne_none _, ?_⟩
      intro space
      cases rest with
      | nil => cases hash
      | cons d rest =>
        cases hash
        cases space
        cases noComment
    obtain ⟨previous', significant', following⟩ := ih cleanRest further next
    exact ⟨previous', significant', step.append following⟩

end Passes

def Kept (text : List Char) : Prop :=
  ∀ number previous significant, opensQuote previous significant = true →
    ∃ previous' significant', Passes number (.plain previous significant) text
      (.plain previous' significant')

namespace Kept

theorem bare {text : List Char} (bare : Bare text) : Kept text := by
  intro number previous significant _
  apply Passes.plain bare.clean bare.noComment
  intro hash
  obtain ⟨c, rest, rfl, other⟩ := bare.first
  cases hash
  exact absurd (by decide) other

theorem encode (text : List Char) : Kept (Quoted.encode text) := by
  intro number previous significant opens
  exact ⟨_, _, Passes.encode text opens⟩

theorem marks {a b : Char} (first : a ≠ '\t' ∧ isQuote a = false ∧ a ≠ '#')
    (second : b ≠ '\t' ∧ isQuote b = false ∧ b ≠ '#') : Kept [a, b] := by
  intro number previous significant _
  exact ⟨_, _, (Passes.mark first.1 first.2.1 first.2.2).append
    (Passes.mark second.1 second.2.1 second.2.2)⟩

theorem colon {text : List Char} (kept : Kept text) : Kept (text ++ [':']) := by
  intro number previous significant opens
  obtain ⟨previous', significant', front⟩ := kept number previous significant opens
  exact ⟨_, _, front.append (Passes.mark (by decide) rfl (by decide))⟩

theorem entry {text value : List Char} (kept : Kept text) (keptValue : Kept value) :
    Kept (text ++ ':' :: ' ' :: value) := by
  intro number previous significant opens
  obtain ⟨previous', significant', front⟩ := kept number previous significant opens
  have colon : Passes number (.plain previous' significant') [':'] (.plain (some ':') (some ':')) :=
    Passes.mark (by decide) rfl (by decide)
  have space : Passes number (.plain (some ':') (some ':')) [' '] (.plain (some ' ') (some ':')) :=
    Passes.mark (by decide) rfl (by decide)
  -- behind the colon and the space a quote may open again
  obtain ⟨previous'', significant'', back⟩ := keptValue number (some ' ') (some ':') rfl
  exact ⟨_, _, front.append (colon.append (space.append back))⟩

theorem dash {text : List Char} (kept : Kept text) : Kept ('-' :: ' ' :: text) := by
  intro number previous significant _
  have dash : Passes number (.plain previous significant) ['-'] (.plain (some '-') (some '-')) :=
    Passes.mark (by decide) rfl (by decide)
  have space : Passes number (.plain (some '-') (some '-')) [' '] (.plain (some ' ') (some '-')) :=
    Passes.mark (by decide) rfl (by decide)
  obtain ⟨previous', significant', back⟩ := kept number (some ' ') (some '-') rfl
  exact ⟨_, _, dash.append (space.append back)⟩

theorem withoutComment_eq {text : List Char} (kept : Kept text) (number column : Nat) :
    withoutComment number (.plain none none) column text = .ok text := by
  obtain ⟨previous, significant, passes⟩ := kept number none none rfl
  obtain ⟨next, copy⟩ := passes column
  have whole := copy []
  rw [List.append_nil] at whole
  rw [whole, withoutComment]
  exact congrArg Except.ok (List.append_nil text)

end Kept

end ParticleSim.Outline
