import ParticleSim.Outline.Block
import ParticleSim.Proofs.Outline.Outcome

namespace ParticleSim.Outline

inductive KeyForm (key : String) : List Char → Prop where
  | plain {c : Char} {rest : List Char} (same : key.toList = c :: rest)
      (noQuote : Quoted.isQuote c = false) : KeyForm key (c :: rest)
  | quoted {written : List Char} (read : Quoted.read written = .ok (key.toList, [])) :
      KeyForm key written

def StartsEntry (key : String) (text : List Char) : Prop :=
  ∃ written gap rest, KeyForm key written ∧ Blank gap ∧ text = written ++ gap ++ ':' :: rest

def OpensFlow (closer : Char) (text : List Char) : Prop :=
  closer = ']' ∧ text.head? = some '[' ∨ closer = '}' ∧ text.head? = some '{'

def Unclosed (closer : Char) (text : List Char) : Prop :=
  OpensFlow closer text ∧ ∃ span budget, Flow.readValue span budget text =
    .error ⟨span.line, span.column text, .unclosedFlow closer⟩

def StartsContent (before text : List Char) : Prop :=
  Blank before ∧ ∃ c rest, text = c :: rest ∧ c ≠ ' '

inductive Dashes : List Char → Prop where
  | nil : Dashes []
  | space {rest : List Char} (behind : Dashes rest) : Dashes (' ' :: rest)
  | dash {rest : List Char} (behind : Dashes rest) : Dashes ('-' :: ' ' :: rest)

theorem Dashes.blank {gap rest : List Char} (blank : Blank gap) (behind : Dashes rest) :
    Dashes (gap ++ rest) := by
  induction gap with
  | nil => exact behind
  | cons c gap ih =>
    have space : c = ' ' := blank c (List.mem_cons_self ..)
    rw [space]
    exact .space (ih fun d member => blank d (List.mem_cons_of_mem _ member))

def StartsItem (before text : List Char) : Prop :=
  Dashes before ∧ ∃ c rest, text = c :: rest ∧ c ≠ ' '

/-- What a fault says of the text before and behind its place. -/
def Fault.Marks (before text : List Char) : Fault → Prop
  | .tab => text.head? = some '\t'
  | .duplicateKey key => StartsEntry key text
  | .unterminatedQuote => (∃ c ∈ text.head?, Quoted.isQuote c = true) ∧ Quoted.length? text = none
  | .invalidEscape sequence => sequence.toList <+: text ∧ sequence.toList.head? = some '\\'
  | .badIndentation => StartsContent before text
  | .unexpected _ => True
  | .unclosedFlow closer => Unclosed closer text
  | .tooDeep => StartsItem before text ∨ text.head? = some '[' ∨ text.head? = some '{'

def Fault.Points (text : List Char) (fault : Fault) : Prop :=
  ∀ before, fault.Marks before text

end ParticleSim.Outline
