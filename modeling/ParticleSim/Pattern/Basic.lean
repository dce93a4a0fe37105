import ParticleSim.Text.CharClass
/-!
Patterns over text: sets of characters, places between characters, and their combination. Matching
computes all positions where matches that start at given positions may end, so that it needs no
backtracking and always finishes.
-/
namespace ParticleSim

inductive CharSet where
  | range (first last : Char)
  | digit
  | space
  | word
  | empty
  | complement (set : CharSet)
  | union (left right : CharSet)
  | intersection (left right : CharSet)
  /-- The characters that differ from a member in case only. -/
  | anyCase (set : CharSet)
  deriving Repr

namespace CharSet

def single (c : Char) : CharSet := .range c c

def contains : CharSet → Char → Bool
  | .range first last, c => first ≤ c && c ≤ last
  | .digit, c => CharClass.isDecimalDigit c
  | .space, c => CharClass.isSpace c
  | .word, c => CharClass.isWord c
  | .empty, _ => false
  | .complement set, c => !set.contains c
  | .union left right, c => left.contains c || right.contains c
  | .intersection left right, c => left.contains c && right.contains c
  | .anyCase set, c => (CharClass.caseVariants c).any set.contains

end CharSet

inductive Place where
  | textStart
  | textStop
  | lineStart
  | lineStop
  | wordBoundary
  | noWordBoundary
  | wordStart
  | wordStop
  | wordStartHalf
  | wordStopHalf
  deriving DecidableEq, Repr

inductive Expression where
  | empty
  | one (set : CharSet)
  | place (condition : Place)
  | sequence (first second : Expression)
  | choice (left right : Expression)
  /-- At least `least` and, if given, at most `most` matches in a row. -/
  | repeated (body : Expression) (least : Nat) (most : Option Nat)
  deriving Repr

def wordSides (text : List Char) (position : Nat) : Bool × Bool :=
  let isWordAt (i : Nat) : Bool := (text[i]?).any CharClass.isWord
  (position != 0 && isWordAt (position - 1), isWordAt position)

def Place.holds (text : List Char) (position : Nat) : Place → Bool
  | .textStart => position == 0
  | .textStop => position == text.length
  | .lineStart => position == 0 || text[position - 1]? == some '\n'
  | .lineStop => position == text.length || text[position]? == some '\n'
  | .wordBoundary => (wordSides text position).1 != (wordSides text position).2
  | .noWordBoundary => (wordSides text position).1 == (wordSides text position).2
  | .wordStart => !(wordSides text position).1 && (wordSides text position).2
  | .wordStop => (wordSides text position).1 && !(wordSides text position).2
  | .wordStartHalf => !(wordSides text position).1
  | .wordStopHalf => !(wordSides text position).2

def insertPosition (position : Nat) : List Nat → List Nat
  | [] => [position]
  | first :: rest =>
    if position < first then position :: first :: rest
    else if position = first then first :: rest
    else first :: insertPosition position rest

def unitePositions (left right : List Nat) : List Nat :=
  left.foldr insertPosition right

/-- Apply a step on positions `count` times; positions that the step keeps are kept for good. -/
def repeatStep (step : List Nat → List Nat) : Nat → List Nat → List Nat
  | 0, positions => positions
  | count + 1, positions =>
    let next := step positions
    if next = positions then positions else repeatStep step count next

/-- All positions that at most `count` steps reach from `latest`, added to those reached before. -/
def reach (step : List Nat → List Nat) : Nat → List Nat → List Nat → List Nat
  | 0, _, reached => reached
  | count + 1, latest, reached =>
    let next := (step latest).filter (!reached.contains ·)
    if next.isEmpty then reached else reach step count next (unitePositions next reached)

/-- The positions where matches may end that start at given positions. A text of `n` characters has
`n + 1` positions, so that many steps reach all that an unbounded repetition can reach. -/
def Expression.stops (text : List Char) : Expression → List Nat → List Nat
  | .empty, starts => starts
  | .one set, starts => (starts.filter fun i => (text[i]?).any set.contains).map (· + 1)
  | .place condition, starts => starts.filter fun i => condition.holds text i
  | .sequence first second, starts => second.stops text (first.stops text starts)
  | .choice left right, starts => unitePositions (left.stops text starts) (right.stops text starts)
  | .repeated body least most, starts =>
    let count := match most with
      | some most => most - least
      | none => text.length + 1
    let needed := repeatStep (body.stops text) least starts
    reach (body.stops text) count needed needed

structure Pattern where
  source : String
  expression : Expression
  deriving Repr

def Pattern.isMatch (pattern : Pattern) (text : String) : Bool :=
  let characters := text.toList
  !(pattern.expression.stops characters (List.range (characters.length + 1))).isEmpty

end ParticleSim
