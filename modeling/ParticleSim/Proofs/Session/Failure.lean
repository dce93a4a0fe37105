import ParticleSim.Proofs.Session.Unfailing
/-!
Failed calls. A step is refused before anything of the session changes, and elapsed time before it
is added to the waiting time. What makes a call fail is the time that it names, whatever was called
before; so a failed call can be left out of any sequence of calls, and only its own answer is
missing then.
-/
namespace ParticleSim.Session

/-- The calls that take one step or none, and elapsed time that cannot be handed in. -/
def Call.Atomic : Call → Prop
  | .tick => True
  | .stepBy _ => True
  | .advance elapsed => ¬Magnitude (0.0 ≤ ·) elapsed
  | .reset => False

section Sequences

variable (session : Session) (calls later : List Call)

theorem drive_cons (call : Call) : session.drive (call :: later) =
    (((session.call call).1.drive later).1,
      (session.call call).2 :: ((session.call call).1.drive later).2) := rfl

theorem drive_append : session.drive (calls ++ later) =
    (((session.drive calls).1.drive later).1,
      (session.drive calls).2 ++ ((session.drive calls).1.drive later).2) := by
  induction calls generalizing session with
  | nil => rfl
  | cons call rest ih => rw [List.cons_append, drive_cons, ih, drive_cons, List.cons_append]

theorem length_drive : (session.drive calls).2.length = calls.length := by
  induction calls generalizing session with
  | nil => rfl
  | cons call rest ih => rw [drive_cons, List.length_cons, ih, List.length_cons]

/-- A call after which the session is the same as before can be left out. -/
theorem drive_of_untouched {call : Call}
    (untouched : ((session.drive calls).1.call call).1 = (session.drive calls).1) :
    (session.drive (calls ++ call :: later)).1 = (session.drive (calls ++ later)).1 ∧
      (session.drive (calls ++ call :: later)).2.eraseIdx calls.length =
        (session.drive (calls ++ later)).2 := by
  rw [drive_append, drive_append, drive_cons, untouched]
  refine ⟨rfl, ?_⟩
  dsimp only
  rw [← length_drive session calls, List.eraseIdx_append_of_length_le (Nat.le_refl _),
    Nat.sub_self, List.eraseIdx_cons_zero]

end Sequences

section Failures

variable {first session : Session} {steps : List Float} {dt elapsed : Float}

theorem Follows.stepBy_failed_iff (follows : first.Follows session steps)
    (distinct : first.world.ids.Nodup) :
    (session.call (.stepBy dt)).2.Failed ↔ ¬Magnitude (0.0 < ·) dt := by
  by_cases accepted : Magnitude (0.0 < ·) dt
  · rcases follows.exists_stepBy distinct accepted with ⟨next, state, stepped⟩
    rw [Session.call, stepped]
    exact iff_of_false id (not_not_intro accepted)
  · rw [Session.call, stepBy_of_refused accepted]
    exact iff_of_true trivial accepted

theorem advance_of_refused (refused : ¬Magnitude (0.0 ≤ ·) elapsed) :
    session.advance elapsed = (session, .error (.invalidTimestep elapsed)) := by
  rw [advance, if_pos (refused_iff.mpr refused)]

theorem call_of_failed {call : Call} (atomic : call.Atomic)
    (failed : (session.call call).2.Failed) : (session.call call).1 = session := by
  have kept : ∀ dt, (session.call (.stepBy dt)).2.Failed →
      (session.call (.stepBy dt)).1 = session := by
    intro dt failed
    rw [Session.call] at failed ⊢
    rcases stepped : session.stepBy dt with ⟨next, e | state⟩
    · exact (stepBy_eq_error.mp stepped).2
    · rw [stepped] at failed
      exact failed.elim
  cases call with
  | tick => exact kept session.settings.pacing.tickLength failed
  | stepBy dt => exact kept dt failed
  | advance elapsed => rw [call, advance_of_refused atomic]
  | reset => exact atomic.elim

end Failures

/-- How the next call after others can fail, and what becomes of a failure. -/
structure Refuses (first : Session) (calls : List Call) (tickLength : Float) : Prop where
  tick : ((first.drive calls).1.call .tick).2.Failed ↔ ¬Magnitude (0.0 < ·) tickLength
  stepBy : ∀ dt, ((first.drive calls).1.call (.stepBy dt)).2.Failed ↔ ¬Magnitude (0.0 < ·) dt
  advance : ∀ elapsed, ¬Magnitude (0.0 ≤ ·) elapsed →
    ((first.drive calls).1.call (.advance elapsed)).2 = .notStepped (.invalidTimestep elapsed)
  /-- With an accepted tick length there is no other way to fail. -/
  advance_only : Magnitude (0.0 < ·) tickLength → ∀ elapsed,
    ((first.drive calls).1.call (.advance elapsed)).2.Failed → ¬Magnitude (0.0 ≤ ·) elapsed
  /-- A failed call leaves the world, the state, the history and the waiting time as they were. -/
  untouched : ∀ call, call.Atomic → ((first.drive calls).1.call call).2.Failed →
    ((first.drive calls).1.call call).1 = (first.drive calls).1
  /-- Whatever is called later ends as if the failed call had not been made, with the same answers
  to all others. -/
  forgotten : ∀ call, call.Atomic → ((first.drive calls).1.call call).2.Failed → ∀ later,
    (first.drive (calls ++ call :: later)).1 = (first.drive (calls ++ later)).1 ∧
      (first.drive (calls ++ call :: later)).2.eraseIdx calls.length =
        (first.drive (calls ++ later)).2

/-- Failed calls change nothing: after any calls on a loaded session, a call that fails leaves the
session as it was and shows in no later answer. -/
theorem refuses_of_load (text : String) (schema : SchemaDocument) (settings : Settings)
    (first : Session) (loaded : load text schema settings = .ok first) (calls : List Call) :
    first.Refuses calls settings.pacing.tickLength := by
  rcases start_of_load loaded with ⟨started, rfl, distinct⟩
  have follows := (follows_start started).drive distinct started calls
  have untouched : ∀ call : Call, call.Atomic → ((first.drive calls).1.call call).2.Failed →
      ((first.drive calls).1.call call).1 = (first.drive calls).1 :=
    fun call atomic failed => call_of_failed atomic failed
  refine {
    tick := ?_
    stepBy := fun dt => follows.stepBy_failed_iff distinct
    advance := fun elapsed refused => ?_
    advance_only := fun accepted elapsed failed regular => ?_
    untouched := untouched
    forgotten := fun call atomic failed later =>
      drive_of_untouched first calls later (untouched call atomic failed) }
  · rw [call, tick, follows.settings]
    exact follows.stepBy_failed_iff distinct
  · rw [call, advance_of_refused refused]
  · have unfailing : ¬((first.drive calls).1.call (.advance elapsed)).2.Failed :=
      follows.call_not_failed distinct started accepted regular
    exact unfailing failed

theorem refuses_of_load_falling :
    ∃ first, load fallingText ScenarioSchema.document {} = .ok first ∧
      first.Refuses someCalls (Pacing.tickLength {}) ∧
      (first.drive (someCalls ++ [.stepBy 0, .tick])).1 =
        (first.drive (someCalls ++ [.tick])).1 := by
  rcases exists_load_falling with ⟨first, loaded⟩
  have refuses : first.Refuses someCalls (Pacing.tickLength {}) :=
    refuses_of_load _ _ _ first loaded someCalls
  have irregular : ¬Magnitude (0.0 < ·) (0 : Float) := by
    rw [Magnitude]
    decide +kernel
  have failed := (refuses.stepBy 0).mpr irregular
  exact ⟨first, loaded, refuses, (refuses.forgotten (.stepBy 0) trivial failed [.tick]).1⟩

end ParticleSim.Session
