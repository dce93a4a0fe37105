import ParticleSim.Number.Literal
import ParticleSim.Pattern.Basic
/-!
Reading the source of a pattern. Groups that are still open wait on a stack; the characters that are
left bound the count of steps.
-/
namespace ParticleSim.Pattern

structure Flags where
  ignoreCase : Bool := false
  multiLine : Bool := false
  dotAll : Bool := false
  deriving Repr

inductive Atom where
  | literal (c : Char)
  | set (set : CharSet)
  | place (condition : Place)

def isAsciiLetter (c : Char) : Bool :=
  ('a' ≤ c && c ≤ 'z') || ('A' ≤ c && c ≤ 'Z')

/-- A character that a backslash makes literal: punctuation and blanks of ASCII. The angle brackets
are taken for places. -/
def isEscapable (c : Char) : Bool :=
  c.toNat < 0x80 && !isDigit c && !isAsciiLetter c && c != '<' && c != '>'

def readHexDigits? (count : Nat) (text : List Char) : Option (Atom × List Char) := do
  guard ((text.take count).length == count)
  let c ← (← hexNumber? (text.take count)) |> char?
  return (.literal c, text.drop count)

def readHex? (count : Nat) : List Char → Option (Atom × List Char)
  | '{' :: rest => do
    let digits := rest.takeWhile (· != '}')
    guard (!digits.isEmpty && digits.length < rest.length)
    let c ← (← hexNumber? digits) |> char?
    return (.literal c, rest.drop (digits.length + 1))
  | rest => readHexDigits? count rest

def readBoundary? (rest : List Char) : Option (Atom × List Char) :=
  match rest with
  | '{' :: named =>
    let name := named.takeWhile fun c => isAsciiLetter c || c == '-'
    if name.isEmpty then some (.place .wordBoundary, rest)
    else
      match named.drop name.length with
      | '}' :: rest =>
        if name == "start".toList then some (.place .wordStart, rest)
        else if name == "end".toList then some (.place .wordStop, rest)
        else if name == "start-half".toList then some (.place .wordStartHalf, rest)
        else if name == "end-half".toList then some (.place .wordStopHalf, rest)
        else none
      | _ => none
  | rest => some (.place .wordBoundary, rest)

def readEscape? : List Char → Option (Atom × List Char)
  | [] => none
  | c :: rest =>
    if isEscapable c then some (.literal c, rest)
    else
      match c with
      | 'd' => some (.set .digit, rest)
      | 'D' => some (.set (.complement .digit), rest)
      | 's' => some (.set .space, rest)
      | 'S' => some (.set (.complement .space), rest)
      | 'w' => some (.set .word, rest)
      | 'W' => some (.set (.complement .word), rest)
      | 'x' => readHex? 2 rest
      | 'u' => readHex? 4 rest
      | 'U' => readHex? 8 rest
      | 'a' => some (.literal '\x07', rest)
      | 'f' => some (.literal '\x0C', rest)
      | 't' => some (.literal '\t', rest)
      | 'n' => some (.literal '\n', rest)
      | 'r' => some (.literal '\r', rest)
      | 'v' => some (.literal '\x0B', rest)
      | 'A' => some (.place .textStart, rest)
      | 'z' => some (.place .textStop, rest)
      | 'b' => readBoundary? rest
      | 'B' => some (.place .noWordBoundary, rest)
      | '<' => some (.place .wordStart, rest)
      | '>' => some (.place .wordStop, rest)
      | _ => none

/-! ## Classes -/

def ranges (pairs : List (Char × Char)) : CharSet :=
  pairs.foldr (fun (first, last) set => .union (.range first last) set) .empty

def namedClass? (name : String) : Option CharSet :=
  match name with
  | "alnum" => some (ranges [('0', '9'), ('A', 'Z'), ('a', 'z')])
  | "alpha" => some (ranges [('A', 'Z'), ('a', 'z')])
  | "ascii" => some (ranges [('\x00', '\x7F')])
  | "blank" => some (ranges [('\t', '\t'), (' ', ' ')])
  | "cntrl" => some (ranges [('\x00', '\x1F'), ('\x7F', '\x7F')])
  | "digit" => some (ranges [('0', '9')])
  | "graph" => some (ranges [('!', '~')])
  | "lower" => some (ranges [('a', 'z')])
  | "print" => some (ranges [(' ', '~')])
  | "punct" => some (ranges [('!', '/'), (':', '@'), ('[', '\x60'), ('{', '~')])
  | "space" => some (ranges [('\t', '\r'), (' ', ' ')])
  | "upper" => some (ranges [('A', 'Z')])
  | "word" => some (ranges [('0', '9'), ('A', 'Z'), ('_', '_'), ('a', 'z')])
  | "xdigit" => some (ranges [('0', '9'), ('A', 'F'), ('a', 'f')])
  | _ => none

def readNamedClass? : List Char → Option (CharSet × List Char)
  | ':' :: rest => do
    let (negated, rest) := match rest with
      | '^' :: rest => (true, rest)
      | rest => (false, rest)
    let name := rest.takeWhile (· != ':')
    match rest.drop name.length with
    | ':' :: ']' :: rest =>
      let set ← namedClass? (String.ofList name)
      return (if negated then .complement set else set, rest)
    | _ => none
  | _ => none

def readMember? : List Char → Option (Atom × List Char)
  | [] => none
  | '\\' :: rest => readEscape? rest
  | c :: rest => some (.literal c, rest)

/-- A member or a range of members. A dash before the closing bracket or another dash is a
member. -/
def readRange? (text : List Char) : Option (CharSet × List Char) := do
  let (first, rest) ← readMember? text
  let isRange := match rest with
    | '-' :: c :: _ => c != ']' && c != '-'
    | '-' :: [] => true
    | _ => false
  if isRange then
    let (last, rest) ← readMember? (rest.drop 1)
    match first, last with
    | .literal first, .literal last =>
      if first ≤ last then return (.range first last, rest) else none
    | _, _ => none
  else
    match first with
    | .literal c => return (.single c, rest)
    | .set set => return (set, rest)
    | .place _ => none

abbrev Joining := CharSet → CharSet

def Flags.fold (flags : Flags) (set : CharSet) : CharSet :=
  if flags.ignoreCase then .anyCase set else set

mutual

def readMembers? (flags : Flags) (negated : Bool) :
    Nat → Joining → CharSet → List Char → Option (CharSet × List Char)
  | 0, _, _, _ => none
  | bound + 1, join, set, text =>
    let left := join (flags.fold set)
    match text with
    | [] => none
    | ']' :: rest => some (if negated then .complement left else left, rest)
    | '[' :: rest => do
      let (inner, rest) ←
        match readNamedClass? rest with
        | some found => some found
        | none => openClass? flags bound rest
      readMembers? flags negated bound join (.union set inner) rest
    | '&' :: '&' :: rest => readMembers? flags negated bound (.intersection left) .empty rest
    | '-' :: '-' :: rest =>
      let subtract (right : CharSet) : CharSet := .intersection left (.complement right)
      readMembers? flags negated bound subtract .empty rest
    | '~' :: '~' :: rest =>
      let differ (right : CharSet) : CharSet :=
        .union (.intersection left (.complement right)) (.intersection (.complement left) right)
      readMembers? flags negated bound differ .empty rest
    | text => do
      let (member, rest) ← readRange? text
      readMembers? flags negated bound join (.union set member) rest

/-- A class behind its opening bracket. Dashes at its start, or else a closing bracket, are
members. -/
def openClass? (flags : Flags) : Nat → List Char → Option (CharSet × List Char)
  | 0, _ => none
  | bound + 1, text =>
    let (negated, text) := match text with
      | '^' :: rest => (true, rest)
      | rest => (false, rest)
    let dashes := text.takeWhile (· == '-')
    match dashes, text.drop dashes.length with
    | [], ']' :: rest => readMembers? flags negated bound id (.single ']') rest
    | [], rest => readMembers? flags negated bound id .empty rest
    | _ :: _, rest => readMembers? flags negated bound id (.single '-') rest

end

def readClass? (flags : Flags) (text : List Char) : Option (CharSet × List Char) :=
  openClass? flags (2 * text.length + 2) text

/-! ## Expressions -/

structure Parts where
  choices : List Expression := []
  items : List (Option Expression) := []

def Parts.row (parts : Parts) : Expression :=
  match parts.items.filterMap id with
  | [] => .empty
  | last :: before => before.foldl (fun row item => .sequence item row) last

def Parts.whole (parts : Parts) : Expression :=
  parts.choices.foldl (fun whole choice => .choice choice whole) parts.row

def Parts.push (parts : Parts) (item : Expression) : Parts :=
  { parts with items := some item :: parts.items }

structure OpenGroup where
  outer : Parts
  flags : Flags

structure State where
  flags : Flags := {}
  parts : Parts := {}
  stack : List OpenGroup := []
  names : List (List Char) := []

def State.literal (state : State) (c : Char) : Expression :=
  .one (if state.flags.ignoreCase then .anyCase (.single c) else .single c)

def State.atom (state : State) : Atom → Expression
  | .literal c => state.literal c
  | .set set => .one set
  | .place condition => .place condition

def State.push (state : State) (item : Expression) : State :=
  { state with parts := state.parts.push item }

def State.repeatLast? (state : State) (least : Nat) (most : Option Nat) : Option State :=
  match state.parts.items with
  | some item :: rest =>
    let items := some (.repeated item least most) :: rest
    some { state with parts := { state.parts with items := items } }
  | _ => none

/-- Drop the mark that makes a repetition prefer fewer matches; it does not change what matches. -/
def dropLazy : List Char → List Char
  | '?' :: rest => rest
  | rest => rest

def readCount? (text : List Char) : Option (Nat × List Char) :=
  let text := text.dropWhile CharClass.isSpace
  let digits := text.takeWhile isDigit
  if digits.isEmpty || UInt32.size ≤ ofDigits digits then none
  else some (ofDigits digits, (text.drop digits.length).dropWhile CharClass.isSpace)

def readBounds? (text : List Char) : Option ((Nat × Option Nat) × List Char) := do
  let (least, rest) ← readCount? text
  match rest with
  | '}' :: rest => return ((least, some least), rest)
  | ',' :: '}' :: rest => return ((least, none), rest)
  | ',' :: rest =>
    let (most, rest) ← readCount? rest
    match rest with
    | '}' :: rest => if least ≤ most then return ((least, some most), rest) else none
    | _ => none
  | _ => none

/-- Switch a flag on or off. The greed of repetitions and the set of characters do not change what
matches. -/
def Flags.switch? (flags : Flags) (on : Bool) : Char → Option Flags
  | 'i' => some { flags with ignoreCase := on }
  | 'm' => some { flags with multiLine := on }
  | 's' => some { flags with dotAll := on }
  | 'U' => some flags
  | 'u' => if on then some flags else none
  | _ => none

def readFlags? (flags : Flags) :
    Bool → List Char → List Char → Option (Flags × Char × List Char)
  | _, _, [] => none
  | on, seen, c :: rest =>
    if c = ':' || c = ')' then
      if seen.head? = some '-' || (c == ')' && seen.isEmpty) then none else some (flags, c, rest)
    else if c = '-' then if on then readFlags? flags false (c :: seen) rest else none
    else if seen.contains c then none
    else do readFlags? (← flags.switch? on c) on (c :: seen) rest

def isNameStart (c : Char) : Bool :=
  c == '_' || Unicode.alphabetic.contains c.toNat

def isNameChar (c : Char) : Bool :=
  c == '_' || c == '.' || c == '[' || c == ']' || CharClass.isAlphanumeric c

def readName? (text : List Char) : Option (List Char × List Char) :=
  let name := text.takeWhile (· != '>')
  if name.length < text.length && name.head?.any isNameStart && name.all isNameChar then
    some (name, text.drop (name.length + 1))
  else none

def State.openGroup (state : State) (inner : Flags) : State :=
  { state with
    flags := inner, parts := {}, stack := ⟨state.parts, state.flags⟩ :: state.stack }

def State.openNamed? (state : State) (text : List Char) : Option (State × List Char) := do
  let (name, rest) ← readName? text
  guard (!state.names.contains name)
  return ({ state with names := name :: state.names }.openGroup state.flags, rest)

def State.readGroup? (state : State) : List Char → Option (State × List Char)
  | '?' :: 'P' :: '<' :: rest => state.openNamed? rest
  | '?' :: '<' :: rest =>
    match rest with
    | '=' :: _ => none
    | '!' :: _ => none
    | rest => state.openNamed? rest
  | '?' :: rest => do
    let (flags, stop, rest) ← readFlags? state.flags true [] rest
    if stop = ':' then return (state.openGroup flags, rest)
    else
      let parts := { state.parts with items := none :: state.parts.items }
      return ({ state with flags := flags, parts := parts }, rest)
  | rest => some (state.openGroup state.flags, rest)

def State.closeGroup? (state : State) : Option State :=
  match state.stack with
  | [] => none
  | group :: stack =>
    some { state with
      flags := group.flags, parts := group.outer.push state.parts.whole, stack := stack }

def State.nextChoice (state : State) : State :=
  { state with parts := { choices := state.parts.row :: state.parts.choices, items := [] } }

def State.step? (state : State) (c : Char) (rest : List Char) : Option (State × List Char) :=
  match c with
  | '(' => state.readGroup? rest
  | ')' => state.closeGroup?.map (·, rest)
  | '|' => some (state.nextChoice, rest)
  | '[' => (readClass? state.flags rest).map fun (set, rest) => (state.push (.one set), rest)
  | '?' => (state.repeatLast? 0 (some 1)).map (·, dropLazy rest)
  | '*' => (state.repeatLast? 0 none).map (·, dropLazy rest)
  | '+' => (state.repeatLast? 1 none).map (·, dropLazy rest)
  | '{' => do
    let ((least, most), rest) ← readBounds? rest
    let state ← state.repeatLast? least most
    return (state, dropLazy rest)
  | '\\' => (readEscape? rest).map fun (atom, rest) => (state.push (state.atom atom), rest)
  | '.' =>
    let all := CharSet.complement .empty
    let set := if state.flags.dotAll then all else .complement (.single '\n')
    some (state.push (.one set), rest)
  | '^' =>
    let start := if state.flags.multiLine then Place.lineStart else .textStart
    some (state.push (.place start), rest)
  | '$' =>
    let stop := if state.flags.multiLine then Place.lineStop else .textStop
    some (state.push (.place stop), rest)
  | c => some (state.push (state.literal c), rest)

def readExpression? : Nat → State → List Char → Option Expression
  | _, state, [] => if state.stack.isEmpty then some state.parts.whole else none
  | 0, _, _ :: _ => none
  | bound + 1, state, c :: rest => do
    let (state, rest) ← state.step? c rest
    readExpression? bound state rest

def ofSource? (source : String) : Option Pattern :=
  (readExpression? source.toList.length {} source.toList).map (⟨source, ·⟩)

end ParticleSim.Pattern
