import ParticleSim.Outline.Flow
/-!
Reading an outline. Block structure is carried by indentation: lines `key: value` form mappings and
lines `- item` form sequences. The nesting that is left bounds the recursion into blocks; the lines
that are left bound the count of entries.
-/
namespace ParticleSim.Outline

def colonSpace? : List Char → Option Nat
  | ':' :: ' ' :: _ => some 0
  | _ :: rest => (colonSpace? rest).map (· + 1)
  | [] => none

def readInline (line column budget : Nat) (text : List Char) : Except ParseError Node :=
  let surprise (column : Nat) (content : Surprise) : Except ParseError Node :=
    .error ⟨line, column, .unexpected content⟩
  match text with
  | [] => .ok (.scalar (Plain.resolve []))
  | c :: rest =>
    if c = '[' || c = '{' then do
      let span : Flow.Span := ⟨line, column + (rest.length + 1)⟩
      let (node, after) ← Flow.readValue span budget (c :: rest)
      match skipSpaces after with
      | [] => return node
      | after => surprise (span.column after) .afterFlow
    else if Quoted.isQuote c then do
      let (value, after) ← Quoted.readAt line column (c :: rest)
      if (skipSpaces after).isEmpty then return .ofString (String.ofList value)
      else surprise (column + (rest.length + 1 - after.length)) .afterQuoted
    else if c = '|' || c = '>' then surprise column .blockScalar
    else if c = '&' || c = '*' || c = '!' then surprise column .anchor
    else if c = '%' || c = '@' || c = '\x60' then surprise column (.reserved c)
    else
      match colonSpace? (c :: rest) with
      | some offset => surprise (column + offset) .secondEntry
      | none => .ok (.scalar (Plain.resolve (c :: rest)))

def Line.fail {α : Type} (line : Line) (fault : Fault) : Except ParseError α :=
  .error ⟨line.number, line.indent + 1, fault⟩

/-- The value of a key or item with nothing behind it: the block of the lines indented deeper, a
sequence at the level of its key, or null. -/
def readNested (readBlock : List Line → Except ParseError (Node × List Line)) (parent : Nat)
    (sameLevel : Bool) (lines : List Line) : Except ParseError (Node × List Line) :=
  match lines with
  | [] => .ok (.null, [])
  | next :: rest =>
    if parent < next.indent || (sameLevel && next.indent == parent && isItem next.text) then
      readBlock (next :: rest)
    else .ok (.null, next :: rest)

/-- What stands behind the dash of an item, as a line of its own at its deeper indentation. -/
def Line.afterDash (line : Line) : Line :=
  let text := skipSpaces (line.text.drop 1)
  ⟨line.number, line.indent + (line.text.length - text.length), text⟩

def readItems (readBlock : List Line → Except ParseError (Node × List Line)) (indent : Nat) :
    Nat → List Line → Except ParseError (List Node × List Line)
  | 0, lines => .ok ([], lines)
  | _ + 1, [] => .ok ([], [])
  | bound + 1, line :: rest =>
    if line.indent < indent then .ok ([], line :: rest)
    else if indent < line.indent then line.fail .badIndentation
    else if !isItem line.text then .ok ([], line :: rest)
    else do
      let inner := line.afterDash
      let (item, rest) ←
        if inner.text.isEmpty then readNested readBlock indent false rest
        else readBlock (inner :: rest)
      let (items, rest) ← readItems readBlock indent bound rest
      return (item :: items, rest)

def readEntries (readBlock : List Line → Except ParseError (Node × List Line))
    (budget indent : Nat) :
    Nat → Fields Node → List Line → Except ParseError (Fields Node × List Line)
  | 0, fields, lines => .ok (fields, lines)
  | _ + 1, fields, [] => .ok (fields, [])
  | bound + 1, fields, line :: rest =>
    if line.indent < indent then .ok (fields, line :: rest)
    else if indent < line.indent then line.fail .badIndentation
    else if isItem line.text then line.fail (.unexpected .itemInMapping)
    else do
      match ← line.entry? with
      | none => line.fail (.unexpected .notAnEntry)
      | some entry =>
        if fields.contains entry.key then line.fail (.duplicateKey entry.key)
        else
          let (value, rest) ←
            if entry.value.isEmpty then readNested readBlock indent true rest
            else (readInline line.number entry.column budget entry.value).map (·, rest)
          readEntries readBlock budget indent bound (fields.insert entry.key value) rest

def readBlock : Nat → List Line → Except ParseError (Node × List Line)
  | _, [] => .ok (.null, [])
  | budget, line :: rest =>
    if isItem line.text then
      match budget with
      | 0 => line.fail .tooDeep
      | budget + 1 =>
        (readItems (readBlock budget) line.indent (rest.length + 1) (line :: rest)).map
          fun (items, rest) => (.sequence items, rest)
    else do
      match ← line.entry? with
      | none =>
        let node ← readInline line.number (line.indent + 1) budget line.text
        return (node, rest)
      | some _ =>
        match budget with
        | 0 => line.fail .tooDeep
        | budget + 1 =>
          let lines := line :: rest
          (readEntries (readBlock budget) budget line.indent lines.length [] lines).map
            fun (fields, rest) => (.mapping fields, rest)

def readDocument (lines : List Line) : Except ParseError Node :=
  match lines with
  | [] => .ok .null
  | first :: rest => do
    let (node, after) ← readBlock maxDepth (first :: rest)
    match after with
    | [] => return node
    | line :: _ =>
      if line.indent = first.indent then line.fail (.unexpected .afterDocument)
      else line.fail .badIndentation

def parse (text : String) : Except ParseError Node := do
  let lines ← Line.ofText text.toList
  readDocument lines

end ParticleSim.Outline
