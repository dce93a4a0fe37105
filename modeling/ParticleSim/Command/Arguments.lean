import ParticleSim.Number.Literal
import ParticleSim.Tree.Fields

namespace ParticleSim

structure RunRequest where
  file : String
  steps : Nat
  /-- The length of a step; a tick where it is not given. -/
  dt : Option Float
  config : Option String
  /-- States are written as JSON. -/
  json : Bool
  energy : Bool
  deriving DecidableEq, Repr

inductive Command where
  /-- Print the version. -/
  | info
  /-- Print the tree of a scenario. -/
  | parse (file : String)
  /-- Check a scenario against a schema. -/
  | validate (file : String) (schema : Option String)
  /-- Step a scenario. -/
  | run (request : RunRequest)
  deriving DecidableEq, Repr

structure OptionSpec where
  name : String
  short : Option Char
  takesValue : Bool
  deriving DecidableEq, Repr

inductive Argument where
  | operand
  /-- All arguments after it are operands. -/
  | separator
  | given (name value : String)
  /-- The value is the next argument. -/
  | awaiting (name : String)
  | unknown
  deriving DecidableEq, Repr

namespace Argument

def ofLong (options : List OptionSpec) (word : List Char) : Argument :=
  let name := String.ofList (word.takeWhile (· != '='))
  match options.find? (·.name == name), word.dropWhile (· != '=') with
  | some option, _ :: value =>
    if option.takesValue then .given option.name (String.ofList value) else .unknown
  | some option, [] => if option.takesValue then .awaiting option.name else .given option.name ""
  | none, _ => .unknown

def ofShort (options : List OptionSpec) (letter : Char) (attached : List Char) : Argument :=
  match options.find? (·.short == some letter) with
  | some option =>
    match option.takesValue, attached with
    | true, [] => .awaiting option.name
    | true, '=' :: value => .given option.name (String.ofList value)
    | true, value => .given option.name (String.ofList value)
    | false, [] => .given option.name ""
    | false, _ => .unknown
  | none => .unknown

def ofText (options : List OptionSpec) (text : String) : Argument :=
  match text.toList with
  | ['-', '-'] => .separator
  | '-' :: '-' :: word => ofLong options word
  | '-' :: letter :: attached => ofShort options letter attached
  | _ => .operand

end Argument

structure Arguments where
  operands : List String
  options : Fields String
  deriving DecidableEq, Repr

namespace Arguments

def addOperand (operand : String) (arguments : Arguments) : Arguments :=
  { arguments with operands := operand :: arguments.operands }

def addOption? (name value : String) (arguments : Arguments) : Option Arguments :=
  if arguments.options.contains name then none
  else some { arguments with options := (name, value) :: arguments.options }

/-- A value that stands alone may be a dash, but not start with one. -/
def isValue (text : String) : Bool :=
  text == "-" || text.toList.head? != some '-'

def ofList? (options : List OptionSpec) : List String → Option Arguments
  | [] => some ⟨[], []⟩
  | argument :: rest =>
    match Argument.ofText options argument with
    | .operand => (ofList? options rest).map (addOperand argument)
    | .separator => some ⟨rest, []⟩
    | .given name value => (ofList? options rest).bind (addOption? name value)
    | .awaiting name =>
      match rest with
      | value :: rest =>
        if isValue value then (ofList? options rest).bind (addOption? name value) else none
      | [] => none
    | .unknown => none

def path? (text : String) : Option String :=
  if text.isEmpty then none else some text

def file? (arguments : Arguments) : Option String :=
  match arguments.operands with
  | [file] => path? file
  | _ => none

def value? {α : Type} (read? : String → Option α) (name : String) (arguments : Arguments) :
    Option (Option α) :=
  match arguments.options.get? name with
  | none => some none
  | some value => (read? value).map some

end Arguments

namespace Command

def validateOptions : List OptionSpec :=
  [⟨"schema", some 's', true⟩]

def runOptions : List OptionSpec :=
  [⟨"steps", some 'n', true⟩, ⟨"dt", none, true⟩, ⟨"config", some 'c', true⟩,
    ⟨"json", none, false⟩, ⟨"energy", none, false⟩]

def defaultSteps : Nat := 60

def infoOf? (arguments : List String) : Option Command := do
  let arguments ← Arguments.ofList? [] arguments
  if arguments.operands.isEmpty then some .info else none

def parseOf? (arguments : List String) : Option Command := do
  let arguments ← Arguments.ofList? [] arguments
  return .parse (← arguments.file?)

def validateOf? (arguments : List String) : Option Command := do
  let arguments ← Arguments.ofList? validateOptions arguments
  let schema ← arguments.value? Arguments.path? "schema"
  return .validate (← arguments.file?) schema

def runOf? (arguments : List String) : Option Command := do
  let arguments ← Arguments.ofList? runOptions arguments
  let steps ← arguments.value? (fun text => nat? (UInt64.size - 1) text.toList) "steps"
  let dt ← arguments.value? (fun text => number? text.toList) "dt"
  let config ← arguments.value? Arguments.path? "config"
  return .run
    { file := ← arguments.file?
      steps := steps.getD defaultSteps
      dt := dt
      config := config
      json := arguments.options.contains "json"
      energy := arguments.options.contains "energy" }

def ofWords? : List String → Option Command
  | "info" :: arguments => infoOf? arguments
  | "parse" :: arguments => parseOf? arguments
  | "validate" :: arguments => validateOf? arguments
  | "run" :: arguments => runOf? arguments
  | _ => none

def ofArguments? : List String → Option Command
  | "-v" :: words => ofWords? words
  | "--verbose" :: words => ofWords? words
  | words => ofWords? words

end Command
end ParticleSim
