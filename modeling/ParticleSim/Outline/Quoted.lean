import ParticleSim.Number.Literal
import ParticleSim.Outline.Error
import ParticleSim.Text.Escaped

namespace ParticleSim.Outline.Quoted

inductive Flaw where
  | unterminated
  | badEscape (offset : Nat) (sequence : List Char)
  deriving DecidableEq, Repr

def isQuote (c : Char) : Bool :=
  c == '"' || c == '\''

def escape? : Char → Option Char
  | 'n' => some '\n'
  | 't' => some '\t'
  | 'r' => some '\r'
  | '0' => some '\x00'
  | '"' => some '"'
  | '\\' => some '\\'
  | '/' => some '/'
  | _ => none

/-- The character that the four places of a `\u` escape name. A plus sign may take the first. -/
def scalarValue? (a b c d : Char) : Option Char :=
  let digits := if a = '+' then [b, c, d] else [a, b, c, d]
  (hexNumber? digits).bind char?

def push (c : Char) : List Char × List Char → List Char × List Char
  | (value, rest) => (c :: value, rest)

def readDouble : Nat → List Char → Except Flaw (List Char × List Char)
  | _, [] => .error .unterminated
  | offset, c :: rest =>
    if c = '"' then .ok ([], rest)
    else if c = '\\' then
      match rest with
      | [] => .error .unterminated
      | 'u' :: a :: b :: c :: d :: rest =>
        match scalarValue? a b c d with
        | some decoded => (readDouble (offset + 6) rest).map (push decoded)
        | none => .error (.badEscape offset ['\\', 'u', a, b, c, d])
      | 'u' :: short => .error (.badEscape offset ('\\' :: 'u' :: short))
      | letter :: rest =>
        match escape? letter with
        | some decoded => (readDouble (offset + 2) rest).map (push decoded)
        | none => .error (.badEscape offset ['\\', letter])
    else (readDouble (offset + 1) rest).map (push c)

def readSingle : List Char → Except Flaw (List Char × List Char)
  | [] => .error .unterminated
  | c :: rest =>
    if c = '\'' then
      match rest with
      | '\'' :: rest => (readSingle rest).map (push '\'')
      | rest => .ok ([], rest)
    else (readSingle rest).map (push c)

def read : List Char → Except Flaw (List Char × List Char)
  | '"' :: rest => readDouble 1 rest
  | '\'' :: rest => readSingle rest
  | _ => .error .unterminated

def endDouble : List Char → Option Nat
  | [] => none
  | c :: rest =>
    if c = '\\' then
      match rest with
      | [] => none
      | _ :: rest => (endDouble rest).map (· + 2)
    else if c = '"' then some 1
    else (endDouble rest).map (· + 1)

def endSingle : List Char → Option Nat
  | [] => none
  | c :: rest =>
    if c = '\'' then
      match rest with
      | '\'' :: rest => (endSingle rest).map (· + 2)
      | _ => some 1
    else (endSingle rest).map (· + 1)

/-- The length of the quoted scalar at the start of a text, whatever its escapes mean. -/
def length? : List Char → Option Nat
  | '"' :: rest => (endDouble rest).map (· + 1)
  | '\'' :: rest => (endSingle rest).map (· + 1)
  | _ => none

def Flaw.toError (line column : Nat) : Flaw → ParseError
  | .unterminated => ⟨line, column, .unterminatedQuote⟩
  | .badEscape offset sequence => ⟨line, column + offset, .invalidEscape (String.ofList sequence)⟩

def readAt (line column : Nat) (text : List Char) :
    Except ParseError (List Char × List Char) :=
  (read text).mapError (Flaw.toError line column)

def encodeChar (c : Char) : List Char :=
  if c = '"' then ['\\', '"']
  else if c = '\\' then ['\\', '\\']
  else if c = '\n' then ['\\', 'n']
  else if c = '\t' then ['\\', 't']
  else if c = '\r' then ['\\', 'r']
  else if c = '\x00' then ['\\', '0']
  else if CharClass.isControl c then Escaped.fourDigits c
  else [c]

def encode (text : List Char) : List Char :=
  '"' :: text.flatMap encodeChar ++ ['"']

end ParticleSim.Outline.Quoted
