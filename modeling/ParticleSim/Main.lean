import ParticleSim.Command.Outcome

namespace ParticleSim

def fileError : IO.Error → FileError
  | .noFileOrDirectory .. => .missing
  | .inappropriateType .. => .directory
  | .permissionDenied .. => .system "Permission denied" 13
  | e => .system (toString e) 5

def readText (path : String) : IO (Except FileError String) := do
  try
    return decode (← IO.FS.readBinFile path)
  catch e => return .error (fileError e)

def lookup (texts : List (String × Except FileError String)) : Files := fun path =>
  match texts.find? (·.1 == path) with
  | some (_, text) => text
  | none => .error .missing

def usageText : String :=
  "Usage: physim [-v] <info | parse FILE | validate FILE [-s SCHEMA] | " ++
    "run FILE [-n STEPS] [--dt SECONDS] [-c CONFIG] [--json] [--energy]>\n"

end ParticleSim

open ParticleSim in
def main (arguments : List String) : IO UInt32 := do
  match Command.ofArguments? arguments with
  | none =>
    IO.eprint usageText
    return Command.usageExitCode.toUInt32
  | some command =>
    let texts ← command.paths.mapM fun path => return (path, ← readText path)
    let outcome := command.outcome (lookup texts)
    IO.print (outcome.standardOutput fun _ => "")
    IO.eprint outcome.errorOutput
    return outcome.exitCode.toUInt32
