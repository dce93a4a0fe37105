import ParticleSim.Outline.Quoted
/-!
The lines of an outline. Comments, blank lines and trailing spaces are dropped; what remains of a
line is its number, its indentation and its text. A line may be an item of a sequence or an entry of
a mapping.
-/
namespace ParticleSim.Outline

structure Line where
  number : Nat
  indent : Nat
  text : List Char
  deriving DecidableEq, Repr

def isSpace (c : Char) : Bool :=
  c == ' '

def skipSpaces (text : List Char) : List Char :=
  text.dropWhile isSpace

def trimEnd (text : List Char) : List Char :=
  (text.reverse.dropWhile isSpace).reverse

def splitLines : List Char → List (List Char)
  | [] => [[]]
  | c :: rest =>
    if c = '\n' then [] :: splitLines rest
    else
      match splitLines rest with
      | [] => [[c]]
      | line :: lines => (c :: line) :: lines

def dropReturn (line : List Char) : List Char :=
  if line.getLast? = some '\r' then line.dropLast else line

/-- Where the search for a comment stands: in plain text, with the character before and the last one
that is no space, or inside a quoted scalar, with its mark and the column where it opened. -/
inductive Scan where
  | plain (previous significant : Option Char)
  | quoted (mark : Char) (opened : Nat)
  deriving DecidableEq, Repr

/-- A quoted scalar opens only where a scalar may start. -/
def opensQuote (previous significant : Option Char) : Bool :=
  match previous with
  | none => true
  | some c =>
    if c = ' ' then
      match significant with
      | none => true
      | some c => c ∈ [':', '-', '?', ',', '[', '{']
    else c ∈ ['[', '{', ',']

def Scan.after (previous significant : Option Char) (column : Nat) (c : Char) : Scan :=
  if Quoted.isQuote c && opensQuote previous significant then .quoted c column
  else .plain (some c) (if c = ' ' then significant else some c)

/-- The text of a line up to its comment. A comment starts with `#` at the start of the text or
behind a space, outside quoted scalars. -/
def withoutComment (line : Nat) : Scan → Nat → List Char → Except ParseError (List Char)
  | .plain _ _, _, [] => .ok []
  | .quoted _ opened, _, [] => .error ⟨line, opened, .unterminatedQuote⟩
  | .plain previous significant, column, c :: rest =>
    if c = '\t' then .error ⟨line, column, .tab⟩
    else if c = '#' && (previous == none || previous == some ' ') then .ok []
    else
      let scan := Scan.after previous significant column c
      (withoutComment line scan (column + 1) rest).map (c :: ·)
  | .quoted mark opened, column, c :: rest =>
    if mark = '"' && c = '\\' then
      match rest with
      | [] => .error ⟨line, opened, .unterminatedQuote⟩
      | escaped :: rest =>
        (withoutComment line (.quoted mark opened) (column + 2) rest).map (c :: escaped :: ·)
    else if c = mark then
      match rest with
      | [] => .ok [c]
      | d :: rest' =>
        if mark = '\'' && d = '\'' then
          (withoutComment line (.quoted mark opened) (column + 2) rest').map (c :: d :: ·)
        else
          (withoutComment line (.plain (some c) (some c)) (column + 1) (d :: rest')).map (c :: ·)
    else (withoutComment line (.quoted mark opened) (column + 1) rest).map (c :: ·)

def Line.ofSource? (number : Nat) (source : List Char) : Except ParseError (Option Line) :=
  let source := dropReturn source
  let content := skipSpaces source
  let indent := source.length - content.length
  (withoutComment number (.plain none none) (indent + 1) content).map fun content =>
    let text := trimEnd content
    if text.isEmpty then none else some ⟨number, indent, text⟩

def Line.isMarker (line : Line) : Bool :=
  line.indent == 0 && line.text == ['-', '-', '-']

/-- The lines with content, counted from `number`; a marker is dropped while none came before. -/
def contentLines (first : Bool) (number : Nat) :
    List (List Char) → Except ParseError (List Line)
  | [] => .ok []
  | source :: rest => do
    match ← Line.ofSource? number source with
    | none => contentLines first (number + 1) rest
    | some line =>
      if first && line.isMarker then contentLines first (number + 1) rest
      else
        let lines ← contentLines false (number + 1) rest
        return line :: lines

def dropMark : List Char → List Char
  | '\uFEFF' :: rest => rest
  | text => text

def Line.ofText (text : List Char) : Except ParseError (List Line) :=
  contentLines true 1 (splitLines (dropMark text))

def isItem : List Char → Bool
  | ['-'] => true
  | '-' :: ' ' :: _ => true
  | _ => false

structure Entry where
  key : String
  value : List Char
  column : Nat
  deriving DecidableEq, Repr

def endsKey : List Char → Bool
  | [] => true
  | c :: _ => isSpace c

def splitAtColon : List Char → Option (List Char × List Char)
  | [] => none
  | c :: rest =>
    if c = ':' && endsKey rest then some ([], rest)
    else (splitAtColon rest).map fun (key, value) => (c :: key, value)

/-- The texts before and behind the colon of an entry; a flow collection is no key. -/
def splitKey (text : List Char) : Option (List Char × List Char) :=
  match text with
  | [] => none
  | c :: _ =>
    if c = '[' || c = '{' then none
    else if Quoted.isQuote c then
      (Quoted.length? text).bind fun length =>
        match skipSpaces (text.drop length) with
        | ':' :: value => if endsKey value then some (text.take length, value) else none
        | _ => none
    else splitAtColon text

def readKey (line : Line) (text : List Char) : Except ParseError String :=
  match trimEnd text with
  | [] => .error ⟨line.number, line.indent + 1, .unexpected .emptyKey⟩
  | c :: rest =>
    if Quoted.isQuote c then do
      let (key, after) ← Quoted.readAt line.number (line.indent + 1) (c :: rest)
      if after.isEmpty then return String.ofList key
      else
        let column := line.indent + 1 + (rest.length + 1 - after.length)
        throw ⟨line.number, column, .unexpected .afterQuotedKey⟩
    else .ok (String.ofList (c :: rest))

def Line.entry? (line : Line) : Except ParseError (Option Entry) :=
  match splitKey line.text with
  | none => .ok none
  | some (before, after) => do
    let key ← readKey line before
    let value := skipSpaces after
    return some ⟨key, value, line.indent + (line.text.length - value.length) + 1⟩

end ParticleSim.Outline
