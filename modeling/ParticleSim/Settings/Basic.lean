import ParticleSim.World.Motion

namespace ParticleSim

structure Pacing where
  /-- Ticks in a second. -/
  tickRate : Float := 60.0
  /-- The most earlier states that are kept. -/
  historyLength : Nat := 120
  /-- The most ticks that one advance takes. -/
  maxSubsteps : Nat := 8
  deriving DecidableEq, Repr

def Pacing.tickLength (pacing : Pacing) : Float :=
  1.0 / pacing.tickRate

structure Settings where
  tuning : Tuning := {}
  pacing : Pacing := {}
  deriving DecidableEq, Repr

inductive SettingsFault where
  | notPositive (field : String) (value : Float)
  | zero (field : String)
  deriving DecidableEq, Repr

def SettingsFault.message : SettingsFault → String
  | .notPositive field value =>
    "invalid " ++ field ++ ": must be positive and finite, got " ++ messageNumber value
  | .zero field => "invalid " ++ field ++ ": must be at least 1"

namespace Settings

def magnitudeFault? (field : String) (value : Float) : Option SettingsFault :=
  if value.isFinite && 0.0 < value then none else some (.notPositive field value)

def countFault? (field : String) (value : Nat) : Option SettingsFault :=
  if value = 0 then some (.zero field) else none

def fault? (settings : Settings) : Option SettingsFault :=
  [magnitudeFault? "stepper.stability_ceiling" settings.tuning.stabilityCeiling,
    magnitudeFault? "stepper.min_distance" settings.tuning.minDistance,
    magnitudeFault? "session.tick_rate_hz" settings.pacing.tickRate,
    countFault? "session.history_len" settings.pacing.historyLength,
    countFault? "session.max_substeps" settings.pacing.maxSubsteps].findSome? id

end Settings
end ParticleSim
