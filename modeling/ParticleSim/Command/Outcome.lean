import ParticleSim.Command.Arguments
import ParticleSim.Command.Failure
import ParticleSim.Schema.Compile
import ParticleSim.Schema.Scenario
import ParticleSim.Session.Basic
import ParticleSim.Settings.Reader
import ParticleSim.View.Text
import ParticleSim.World.Record
/-!
What a command prints. Files are a lookup by name, so that the outcome of a command is a function of
its arguments and of the files. Log lines, which share the standard output with what is printed, are
no part of the outcome.
-/
namespace ParticleSim

inductive FileError where
  | notUtf8
  | system (reason : String) (code : Nat)
  deriving DecidableEq, Repr

namespace FileError

def missing : FileError := .system "No such file or directory" 2
def directory : FileError := .system "Is a directory" 21
def notDirectory : FileError := .system "Not a directory" 20

def message : FileError → String
  | .notUtf8 => "stream did not contain valid UTF-8"
  | .system reason code => reason ++ " (os error " ++ toString code ++ ")"

end FileError

def decode (bytes : ByteArray) : Except FileError String :=
  match String.fromUTF8? bytes with
  | some text => .ok text
  | none => .error .notUtf8

abbrev Files := String → Except FileError String

/-- The texts that were printed one after the other, and the failure that ended the command. -/
structure Outcome where
  printed : List String
  failure : Option Failure := none
  deriving DecidableEq, Repr

namespace Outcome

/-- The standard output if `log i` was logged just before the text number `i`, or at the end. -/
def standardOutput (outcome : Outcome) (log : Nat → String) : String :=
  String.join (outcome.printed.zipIdx.map fun (text, i) => log i ++ text) ++
    log outcome.printed.length

def exitCode (outcome : Outcome) : Nat :=
  if outcome.failure.isSome then 1 else 0

def errorOutput (outcome : Outcome) : String :=
  match outcome.failure with
  | some failure => failure.text
  | none => ""

def ofExcept : Except Failure Outcome → Outcome
  | .ok outcome => outcome
  | .error failure => ⟨[], some failure⟩

end Outcome

namespace Command

def usageExitCode : Nat := 2

def infoLines : List String :=
  ["physim v0.1.0", "common: physim-common v0.1.0", "document: physim-document v0.1.0",
    "schema: physim-schema v0.1.0", "kernel: physim-kernel v0.1.0", "render: physim-render v0.1.0"]

def readFile (files : Files) (file : String) : Except Failure String :=
  (files file).mapError fun e => ⟨"reading " ++ file, [e.message]⟩

def readScenario (files : Files) (file : String) : Except Failure Node := do
  let text ← readFile files file
  (Outline.parse text).mapError fun e => ⟨"cannot open scenario " ++ file, [e.message]⟩

def readSchema (files : Files) : Option String → Except Failure SchemaDocument
  | none => .ok ScenarioSchema.document
  | some file => do
    let text ← readFile files file
    (SchemaDocument.ofJson text).mapError fun e => ⟨"compiling schema " ++ file, [e.message]⟩

/-- A file error is wrapped once more, and so comes twice. -/
def readSettings (files : Files) : Option String → Except Failure Settings
  | none => .ok {}
  | some file => do
    let context := "loading config " ++ file
    let text ← (files file).mapError fun e => ⟨context, ["IO error: " ++ e.message, e.message]⟩
    (Settings.ofText text).mapError fun e => ⟨context, [e.message]⟩

def loadCauses (error : LoadError) : List String :=
  error.message ::
    match error with
    | .settings fault => [fault.message]
    | .parse inner => [inner.message]
    | .invalid _ => []
    | .build inner => [inner.message]

def readSession (files : Files) (file : String) (settings : Settings) : Except Failure Session := do
  let text ← readFile files file
  (Session.load text ScenarioSchema.document settings).mapError fun e =>
    ⟨"loading " ++ file, loadCauses e⟩

def parseOutcome (files : Files) (file : String) : Except Failure Outcome := do
  let tree ← readScenario files file
  return ⟨[Json.pretty tree ++ "\n"], none⟩

def violationLine (tree : Node) (violation : Violation) : String :=
  match tree.at? violation.path with
  | some found => violation.text ++ " (found " ++ Json.compact found ++ ")\n"
  | none => violation.text ++ "\n"

def validateOutcome (files : Files) (file : String) (schema : Option String) :
    Except Failure Outcome := do
  let schema ← readSchema files schema
  let tree ← readScenario files file
  let violations := schema.validate tree
  if violations.isEmpty then return ⟨[file ++ ": OK\n"], none⟩
  else
    let failure := ⟨file ++ ": " ++ toString violations.length ++ " violation(s)", []⟩
    return ⟨violations.map (violationLine tree), some failure⟩

def runStep (dt : Option Float) (session : Session) : Session × Except StepError State :=
  match dt with
  | some dt => session.stepBy dt
  | none => session.tick

/-- The states of a run from the present one on, and the error that ended it early. -/
def runStates (step : Session → Session × Except StepError State) :
    Nat → Session → List State × Option StepError
  | 0, session => ([session.state], none)
  | count + 1, session =>
    match step session with
    | (_, .error e) => ([session.state], some e)
    | (next, .ok _) =>
      let (states, error) := runStates step count next
      (session.state :: states, error)

def stateText (request : RunRequest) (world : World) (state : State) : String :=
  if request.json then state.record ++ "\n"
  else (View.ofWorld world).text world state request.energy

def runOutcome (files : Files) (request : RunRequest) : Except Failure Outcome := do
  let settings ← readSettings files request.config
  let session ← readSession files request.file settings
  let (states, error) := runStates (runStep request.dt) request.steps session
  return ⟨states.map (stateText request session.world), error.map fun e => ⟨e.message, []⟩⟩

def outcome (files : Files) : Command → Outcome
  | .info => ⟨infoLines.map (· ++ "\n"), none⟩
  | .parse file => .ofExcept (parseOutcome files file)
  | .validate file schema => .ofExcept (validateOutcome files file schema)
  | .run request => .ofExcept (runOutcome files request)

def paths : Command → List String
  | .info => []
  | .parse file => [file]
  | .validate file schema => file :: schema.toList
  | .run request => request.file :: request.config.toList

end Command
end ParticleSim
