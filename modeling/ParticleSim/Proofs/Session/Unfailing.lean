import ParticleSim.Proofs.Number.Reciprocal
import ParticleSim.Proofs.Session.Calls
/-!
When a session never fails. Its settings were checked, but the check is on the rate of its ticks,
and a step is taken or refused by the length of one: the reciprocal of the rate, which is infinite
for the slowest rates.
-/
namespace ParticleSim

namespace Settings

theorem magnitudeFault?_eq_none_iff {field : String} {value : Float} :
    magnitudeFault? field value = none ↔ Magnitude (0.0 < ·) value := by
  rw [magnitudeFault?, ite_eq_left_iff, Bool.and_eq_true, decide_eq_true_eq, Magnitude]
  constructor
  · intro unfaulty
    by_contra refused
    cases unfaulty refused
  · intro accepted refused
    exact absurd accepted refused

theorem magnitude_tickRate {settings : Settings} (sound : settings.fault? = none) :
    Magnitude (0.0 < ·) settings.pacing.tickRate := by
  rw [fault?, List.findSome?_eq_none_iff] at sound
  have rate : magnitudeFault? "session.tick_rate_hz" settings.pacing.tickRate = none :=
    sound _ (.tail _ (.tail _ (.head _)))
  exact magnitudeFault?_eq_none_iff.mp rate

/-- Of what makes a tick's length acceptable, sound settings leave out only that it is finite. -/
theorem magnitude_tickLength_iff {settings : Settings} (sound : settings.fault? = none) :
    Magnitude (0.0 < ·) settings.pacing.tickLength ↔
      settings.pacing.tickLength.isFinite = true := by
  have rate := magnitude_tickRate sound
  exact and_iff_left (Binary64.reciprocal_pos rate.1 rate.2)

end Settings

namespace Session

/-- The calls that leave the length of a step to the settings; time that is handed in is finite and
not negative. -/
def Call.Regular : Call → Prop
  | .tick => True
  | .stepBy _ => False
  | .advance elapsed => Magnitude (0.0 ≤ ·) elapsed
  | .reset => True

def Answer.Failed : Answer → Prop
  | .notStepped _ => True
  | .notBuilt _ => True
  | _ => False

section Unfailing

variable {first session : Session} {steps : List Float}

theorem Follows.call_not_failed (follows : first.Follows session steps)
    (distinct : first.world.ids.Nodup) (started : start first.tree first.settings = .ok first)
    (accepted : Magnitude (0.0 < ·) first.settings.pacing.tickLength) {call : Call}
    (regular : call.Regular) : ¬(session.call call).2.Failed := by
  cases call with
  | tick =>
    rcases follows.exists_stepBy distinct accepted with ⟨next, state, stepped⟩
    rw [Session.call, tick, follows.settings, stepped]
    exact id
  | stepBy dt => exact regular.elim
  | advance elapsed =>
    rcases follows.advance_accepted distinct accepted regular with ⟨next, count, advanced, -⟩
    rw [Session.call, advanced]
    exact id
  | reset =>
    rw [Session.call, reset, follows.tree, follows.settings, started]
    exact id

theorem Follows.drive_not_failed (follows : first.Follows session steps)
    (distinct : first.world.ids.Nodup) (started : start first.tree first.settings = .ok first)
    (accepted : Magnitude (0.0 < ·) first.settings.pacing.tickLength) {calls : List Call}
    (regular : ∀ call ∈ calls, call.Regular) :
    ∀ answer ∈ (session.drive calls).2, ¬answer.Failed := by
  induction calls generalizing session steps with
  | nil =>
    intro answer member
    cases member
  | cons call rest ih =>
    rw [List.forall_mem_cons] at regular
    intro answer member
    rcases List.mem_cons.mp member with rfl | later
    · exact follows.call_not_failed distinct started accepted regular.1
    · exact ih (follows.call distinct started call) regular.2 answer later

theorem stepBy_of_refused {dt : Float} (refused : ¬Magnitude (0.0 < ·) dt) :
    session.stepBy dt = (session, .error (.invalidTimestep dt)) :=
  stepBy_eq_error.mpr ⟨World.step_of_refused refused, rfl⟩

theorem magnitude_of_tick (unfailing : ∀ answer ∈ (session.drive [.tick]).2, ¬answer.Failed) :
    Magnitude (0.0 < ·) session.settings.pacing.tickLength := by
  rcases ticked : session.tick with ⟨next, e | state⟩
  · have fails : (session.drive [.tick]).2 = [.notStepped e] := by
      rw [drive, call, ticked]
      rfl
    rw [fails] at unfailing
    exact absurd trivial (unfailing _ (List.mem_singleton_self _))
  · exact magnitude_of_stepBy ticked

end Unfailing

/-- Regular calls of a loaded session never fail, however many there are, exactly if a tick of its
settings has a finite length. -/
theorem drive_not_failed_iff (text : String) (schema : SchemaDocument) (settings : Settings)
    (first : Session) (loaded : load text schema settings = .ok first) :
    (∀ calls : List Call, (∀ call ∈ calls, call.Regular) →
      ∀ answer ∈ (first.drive calls).2, ¬answer.Failed) ↔
        settings.pacing.tickLength.isFinite = true := by
  have sound := (load_eq_ok.mp loaded).1
  rcases start_of_load loaded with ⟨started, rfl, distinct⟩
  rw [← Settings.magnitude_tickLength_iff sound]
  constructor
  · intro unfailing
    exact magnitude_of_tick (unfailing [.tick] (List.forall_mem_singleton.mpr trivial))
  · intro accepted calls regular
    exact (follows_start started).drive_not_failed distinct started accepted regular

theorem drive_not_failed_iff_falling :
    ∃ first, load fallingText ScenarioSchema.document {} = .ok first ∧
      ((∀ calls : List Call, (∀ call ∈ calls, call.Regular) →
        ∀ answer ∈ (first.drive calls).2, ¬answer.Failed) ↔
          ({} : Settings).pacing.tickLength.isFinite = true) := by
  rcases exists_load_falling with ⟨first, loaded⟩
  exact ⟨first, loaded, drive_not_failed_iff _ _ _ first loaded⟩

theorem exists_load_of_load {text : String} {schema : SchemaDocument} {settings others : Settings}
    {first : Session} (loaded : load text schema settings = .ok first)
    (sound : others.fault? = none) : ∃ other, load text schema others = .ok other := by
  rcases load_eq_ok.mp loaded with ⟨-, tree, parsed, valid, started⟩
  rcases start_eq_ok.mp started with ⟨world, built, -⟩
  exact ⟨_, load_eq_ok.mpr ⟨sound, tree, parsed, valid, start_eq_ok.mpr ⟨world, built, rfl⟩⟩⟩

/-- A rate that is accepted, although its reciprocal is too large for a number. -/
def slowSettings : Settings := { pacing := { tickRate := 1e-310 } }

/-- With settings that are accepted, the first tick of a loaded session can fail. -/
theorem tick_fails_slow : slowSettings.fault? = none ∧
    ∃ first, load fallingText ScenarioSchema.document slowSettings = .ok first ∧
      (first.drive [.tick]).2 = [.notStepped (.invalidTimestep Binary64.infinity)] := by
  have sound : slowSettings.fault? = none := by decide +kernel
  rcases exists_load_falling with ⟨usual, usually⟩
  rcases exists_load_of_load usually sound with ⟨first, loaded⟩
  refine ⟨sound, first, loaded, ?_⟩
  have length : first.settings.pacing.tickLength = Binary64.infinity := by
    rw [(start_of_load loaded).2.1]
    decide +kernel
  have infinite : ¬Binary64.infinity.isFinite = true := by decide +kernel
  have fails : first.tick = (first, .error (.invalidTimestep Binary64.infinity)) := by
    rw [tick, length]
    exact stepBy_of_refused fun accepted => infinite accepted.1
  rw [drive, call, fails]
  rfl

end Session
end ParticleSim
