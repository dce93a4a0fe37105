namespace ParticleSim.Outline

inductive Surprise where
  | afterDocument
  | itemInMapping
  | notAnEntry
  | emptyKey
  | afterQuotedKey
  | afterFlow
  | afterQuoted
  | blockScalar
  | anchor
  | reserved (indicator : Char)
  | secondEntry
  | missingValue
  | inFlowSequence (found : Char)
  | inFlowMapping (found : Char)
  | missingColon
  deriving DecidableEq, Repr

inductive Fault where
  | tab
  | duplicateKey (key : String)
  | unterminatedQuote
  | invalidEscape (sequence : String)
  | badIndentation
  | unexpected (content : Surprise)
  | unclosedFlow (closer : Char)
  | tooDeep
  deriving DecidableEq, Repr

/-- Collections nest at most this deep, block and flow levels together. -/
def maxDepth : Nat := 128

def ticked (c : Char) : String :=
  String.ofList ['\x60', c, '\x60']

def Surprise.message : Surprise → String
  | .afterDocument => "content after the end of the document"
  | .itemInMapping => "sequence item where a mapping key was expected"
  | .notAnEntry => "expected \x60key: value\x60"
  | .emptyKey => "empty mapping key"
  | .afterQuotedKey => "text after quoted key"
  | .afterFlow => "text after flow collection"
  | .afterQuoted => "text after quoted scalar"
  | .blockScalar => "block scalars are not supported"
  | .anchor => "anchors, aliases and tags are not supported"
  | .reserved c => "reserved indicator " ++ ticked c
  | .secondEntry => "mapping value on the same line as another key"
  | .missingValue => "expected a value"
  | .inFlowSequence c => ticked c ++ " in flow sequence"
  | .inFlowMapping c => ticked c ++ " in flow mapping"
  | .missingColon => "expected \x60:\x60 after flow mapping key"

def Fault.message : Fault → String
  | .tab => "tab characters are not allowed outside quoted scalars"
  | .duplicateKey key => "duplicate key \x60" ++ key ++ "\x60"
  | .unterminatedQuote => "unterminated quoted scalar"
  | .invalidEscape sequence => "invalid escape sequence \x60" ++ sequence ++ "\x60"
  | .badIndentation => "inconsistent indentation"
  | .unexpected content => "unexpected content: " ++ content.message
  | .unclosedFlow closer => "unclosed flow collection, expected " ++ ticked closer
  | .tooDeep => "collections nest deeper than " ++ toString maxDepth ++ " levels"

structure ParseError where
  line : Nat
  column : Nat
  fault : Fault
  deriving DecidableEq, Repr

def ParseError.message (e : ParseError) : String :=
  "line " ++ toString e.line ++ ", column " ++ toString e.column ++ ": " ++ e.fault.message

end ParticleSim.Outline
