import ParticleSim.Outline.Line
import ParticleSim.Outline.Plain

namespace ParticleSim.Outline.Flow

structure Span where
  line : Nat
  stop : Nat

def Span.column (span : Span) (rest : List Char) : Nat :=
  span.stop - rest.length

def Span.fail {α : Type} (span : Span) (rest : List Char) (fault : Fault) : Except ParseError α :=
  .error ⟨span.line, span.column rest, fault⟩

def isBreak (c : Char) : Bool :=
  c == ',' || c == '[' || c == ']' || c == '{' || c == '}'

def readPlain (isKey : Bool) (text : List Char) : List Char × List Char :=
  let stops (c : Char) : Bool := isBreak c || (isKey && c == ':')
  (trimEnd (text.takeWhile (!stops ·)), text.dropWhile (!stops ·))

/-- The items up to the closing bracket, and what follows it. `opened` is the text from the opening
bracket on. -/
def readItems (span : Span) (readValue : List Char → Except ParseError (Node × List Char))
    (opened : List Char) : Nat → List Char → Except ParseError (List Node × List Char)
  | 0, _ => span.fail opened (.unclosedFlow ']')
  | bound + 1, text =>
    match skipSpaces text with
    | [] => span.fail opened (.unclosedFlow ']')
    | ']' :: rest => .ok ([], rest)
    | c :: rest => do
      let (item, rest) ← readValue (c :: rest)
      match skipSpaces rest with
      | [] => span.fail opened (.unclosedFlow ']')
      | ',' :: rest =>
        let (items, rest) ← readItems span readValue opened bound rest
        return (item :: items, rest)
      | ']' :: rest => return ([item], rest)
      | c :: rest => span.fail (c :: rest) (.unexpected (.inFlowSequence c))

def readKey (span : Span) (text : List Char) : Except ParseError (String × List Char) := do
  let (key, rest) ←
    match text with
    | [] => pure ([], [])
    | c :: rest =>
      if Quoted.isQuote c then Quoted.readAt span.line (span.column text) (c :: rest)
      else pure (readPlain true (c :: rest))
  if key.isEmpty then span.fail text (.unexpected .emptyKey)
  else return (String.ofList key, rest)

def readEntryValue (span : Span) (readValue : List Char → Except ParseError (Node × List Char))
    (opened text : List Char) : Except ParseError (Node × List Char) :=
  match skipSpaces text with
  | [] => span.fail opened (.unclosedFlow '}')
  | c :: rest =>
    if c = ',' || c = '}' then .ok (.null, c :: rest) else readValue (c :: rest)

def readEntries (span : Span) (readValue : List Char → Except ParseError (Node × List Char))
    (opened : List Char) :
    Nat → Fields Node → List Char → Except ParseError (Fields Node × List Char)
  | 0, _, _ => span.fail opened (.unclosedFlow '}')
  | bound + 1, fields, text =>
    match skipSpaces text with
    | [] => span.fail opened (.unclosedFlow '}')
    | '}' :: rest => .ok (fields, rest)
    | c :: rest => do
      let start := c :: rest
      let (key, rest) ← readKey span start
      match skipSpaces rest with
      | [] => span.fail opened (.unclosedFlow '}')
      | ':' :: rest =>
        let (value, rest) ← readEntryValue span readValue opened rest
        if fields.contains key then span.fail start (.duplicateKey key)
        else
          let fields := fields.insert key value
          match skipSpaces rest with
          | [] => span.fail opened (.unclosedFlow '}')
          | ',' :: rest => readEntries span readValue opened bound fields rest
          | '}' :: rest => return (fields, rest)
          | c :: rest => span.fail (c :: rest) (.unexpected (.inFlowMapping c))
      | c :: rest => span.fail (c :: rest) (.unexpected .missingColon)

def readValue (span : Span) : Nat → List Char → Except ParseError (Node × List Char)
  | budget, text =>
    match skipSpaces text with
    | [] => span.fail [] (.unexpected .missingValue)
    | '[' :: rest =>
      match budget with
      | 0 => span.fail ('[' :: rest) .tooDeep
      | budget + 1 =>
        (readItems span (readValue span budget) ('[' :: rest) (rest.length + 1) rest).map
          fun (items, rest) => (.sequence items, rest)
    | '{' :: rest =>
      match budget with
      | 0 => span.fail ('{' :: rest) .tooDeep
      | budget + 1 =>
        (readEntries span (readValue span budget) ('{' :: rest) (rest.length + 1) [] rest).map
          fun (fields, rest) => (.mapping fields, rest)
    | c :: rest =>
      if Quoted.isQuote c then
        (Quoted.readAt span.line (span.column (c :: rest)) (c :: rest)).map
          fun (value, rest) => (.ofString (String.ofList value), rest)
      else if c = ',' || c = ']' || c = '}' then span.fail (c :: rest) (.unexpected .missingValue)
      else
        let (value, rest) := readPlain false (c :: rest)
        .ok (.scalar (Plain.resolve value), rest)

end ParticleSim.Outline.Flow
