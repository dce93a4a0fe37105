import ParticleSim.Outline.Block
import ParticleSim.Schema.Check
import ParticleSim.Settings.Basic
import ParticleSim.World.Build
/-!
Sessions: a scenario that was read, checked and built, with its state, the states before it and the
time that waits to be stepped. A session goes back to its start by building its tree again.
-/
namespace ParticleSim

structure Session where
  tree : Node
  world : World
  settings : Settings
  state : State
  /-- Earlier states, the oldest first. -/
  history : List State
  /-- Time that was handed in and not yet stepped. -/
  accumulator : Float

inductive LoadError where
  | settings (fault : SettingsFault)
  | parse (error : Outline.ParseError)
  | invalid (violations : List Violation)
  | build (error : BuildError)

def LoadError.message : LoadError → String
  | .settings fault => "invalid engine configuration: " ++ fault.message
  | .parse error => "cannot open scenario: " ++ error.message
  | .invalid violations => "scenario does not match its schema:\n" ++ reportText violations
  | .build error => "scenario is not physically valid: " ++ error.message

namespace Session

def start (tree : Node) (settings : Settings) : Except BuildError Session := do
  let world ← World.ofNode tree
  return ⟨tree, world, settings, world.initialState settings.tuning, [], 0.0⟩

def load (text : String) (schema : SchemaDocument) (settings : Settings) :
    Except LoadError Session := do
  if let some fault := settings.fault? then throw (.settings fault)
  let tree ← (Outline.parse text).mapError .parse
  let violations := schema.validate tree
  if !violations.isEmpty then throw (.invalid violations)
  (start tree settings).mapError .build

def reset (session : Session) : Except BuildError Session :=
  start session.tree session.settings

def lastItems {α : Type} (count : Nat) (items : List α) : List α :=
  items.drop (items.length - count)

/-- One step of any length; the state before it goes into the history. -/
def stepBy (session : Session) (dt : Float) : Session × Except StepError State :=
  match session.world.step session.settings.tuning session.state dt with
  | .error e => (session, .error e)
  | .ok next =>
    let previous := session.state
    let session := { session with state := next }
    let limit := session.settings.pacing.historyLength
    let session := { session with history := lastItems limit (session.history ++ [previous]) }
    (session, .ok session.state)

def tick (session : Session) : Session × Except StepError State :=
  session.stepBy session.settings.pacing.tickLength

/-- Take ticks while there is time for one and the budget lasts, and count them. A failed tick ends
this; those before it stay taken. -/
def drain : Nat → Session → Nat → Session × Except StepError Nat
  | 0, session, taken => (session, .ok taken)
  | budget + 1, session, taken =>
    let dt := session.settings.pacing.tickLength
    if dt ≤ session.accumulator then
      match session.tick with
      | (session, .error e) => (session, .error e)
      | (session, .ok _) =>
        drain budget { session with accumulator := session.accumulator - dt } (taken + 1)
    else (session, .ok taken)

def dropBacklog (session : Session) : Session :=
  if session.settings.pacing.tickLength ≤ session.accumulator then
    { session with accumulator := 0.0 }
  else session

/-- Hand in elapsed time and take the ticks that it makes, at most so many as the settings allow;
the backlog beyond them is dropped. The count of ticks is returned. -/
def advance (session : Session) (elapsed : Float) : Session × Except StepError Nat :=
  if !(elapsed.isFinite && 0.0 ≤ elapsed) then (session, .error (.invalidTimestep elapsed))
  else
    let session := { session with accumulator := session.accumulator + elapsed }
    match drain session.settings.pacing.maxSubsteps session 0 with
    | (session, .error e) => (session, .error e)
    | (session, .ok taken) => (session.dropBacklog, .ok taken)

end Session
end ParticleSim
