import Mathlib.Order.Bounds.Defs
import ParticleSim.Proofs.Number.Sum
import ParticleSim.Proofs.Session.Unfailing
/-!
Elapsed time as ticks. Handing in time is the same as a number of ticks, which the time and the
budget determine; between two calls a session never has time waiting for another tick.
-/
namespace ParticleSim.Session

open Binary64

def ticked (session : Session) (count : Nat) : Session :=
  (session.drive (List.replicate count .tick)).1

theorem ticked_succ (session : Session) (count : Nat) :
    session.ticked (count + 1) = (session.call .tick).1.ticked count := rfl

theorem ticked_waiting (session : Session) (time : Float) (count : Nat) :
    ({ session with accumulator := time } : Session).ticked count =
      { session.ticked count with accumulator := time } := by
  induction count generalizing session with
  | zero => rfl
  | succ count ih =>
    have once : (({ session with accumulator := time } : Session).call .tick).1 =
        { (session.call .tick).1 with accumulator := time } := by
      rw [call, call, tick, tick, stepBy, stepBy]
      dsimp only
      cases session.world.step session.settings.tuning session.state
        session.settings.pacing.tickLength <;> rfl
    rw [ticked_succ, once, ih, ticked_succ]

/-- What handing in time does to a session: as many ticks as the time holds, unless the budget ends
before, and nothing else but that what is left of the time waits, less than a tick. -/
structure Advances (session : Session) (elapsed : Float) (next : Session) (count : Nat) :
    Prop where
  bounded : count ≤ session.settings.pacing.maxSubsteps
  /-- None of the ticks fails. -/
  unfailing : ∀ answer ∈ (session.drive (.replicate count .tick)).2, ¬answer.Failed
  ticks : next = { session.ticked count with accumulator := next.accumulator }
  least : IsLeast {k | k = session.settings.pacing.maxSubsteps ∨
    (· - session.settings.pacing.tickLength)^[k] (session.accumulator + elapsed) <
      session.settings.pacing.tickLength} count
  below : next.accumulator < session.settings.pacing.tickLength
  idle : next.advance 0.0 = ({ next with accumulator := next.accumulator + 0.0 }, .ok 0)

section Elapsed

variable {first session : Session} {steps : List Float} {elapsed : Float}

theorem isNaN_spent {dt time : Float} (finite : dt.isFinite = true) (number : time.isNaN = false)
    (count : Nat) : ((· - dt)^[count] time).isNaN = false := by
  induction count generalizing time with
  | zero => exact number
  | succ count ih => exact ih (isNaN_sub number finite)

/-- What is drained are ticks, and of the waiting time the length of a tick for each of them. -/
theorem Follows.drain_eq {dt : Float} (follows : first.Follows session steps)
    (distinct : first.world.ids.Nodup) (length : session.settings.pacing.tickLength = dt)
    (accepted : Magnitude (0.0 < ·) dt) (budget taken : Nat) :
    ∃ count ≤ budget, session.drain budget taken =
        ({ session.ticked count with accumulator := (· - dt)^[count] session.accumulator },
          .ok (taken + count)) ∧
      (count = budget ∨ ¬dt ≤ (· - dt)^[count] session.accumulator) ∧
      ∀ fewer < count, dt ≤ (· - dt)^[fewer] session.accumulator := by
  induction budget generalizing session steps taken with
  | zero => exact ⟨0, Nat.le_refl 0, rfl, .inl rfl, fun fewer less => absurd less (by omega)⟩
  | succ budget ih =>
    rw [Session.drain, length]
    split
    · next enough =>
      rcases follows.exists_stepBy distinct accepted with ⟨next, state, stepped⟩
      have kept : next.accumulator = session.accumulator ∧ next.settings = session.settings := by
        rcases stepBy_eq_ok.mp stepped with ⟨-, rfl⟩
        exact ⟨rfl, rfl⟩
      have ticked : session.tick = (next, .ok state) := by
        rw [tick, length, stepped]
      have called : (session.call .tick).1 = next := by
        rw [Session.call, ticked]
        rfl
      rcases ih ((follows.stepBy stepped).waiting (next.accumulator - dt))
        (by rw [kept.2, length]) (taken + 1) with ⟨count, within, drained, ends, before⟩
      rw [kept.1] at drained ends before
      refine ⟨count + 1, Nat.succ_le_succ within, ?_, ends.imp (congrArg (· + 1)) id, ?_⟩
      · rw [ticked]
        dsimp only
        rw [kept.1, drained, ticked_waiting, ticked_succ, called, Nat.add_assoc, Nat.add_comm 1]
        rfl
      · intro fewer less
        cases fewer with
        | zero => exact enough
        | succ fewer => exact before fewer (Nat.lt_of_succ_lt_succ less)
    · next short =>
      exact ⟨0, Nat.zero_le _, rfl, .inr short, fun fewer less => absurd less (by omega)⟩

theorem exists_dropBacklog (session : Session)
    (positive : 0.0 < session.settings.pacing.tickLength) {rest : Float}
    (number : rest.isNaN = false) : ∃ left < session.settings.pacing.tickLength,
      ({ session with accumulator := rest } : Session).dropBacklog =
        { session with accumulator := left } := by
  have numbers := isNaN_of_le (le_of_lt positive)
  rw [dropBacklog]
  split
  · exact ⟨0.0, positive, rfl⟩
  · next short => exact ⟨rest, (not_le_iff numbers.2 number).mp short, rfl⟩

theorem advance_of_drain {last : Session} {count : Nat} (regular : Magnitude (0.0 ≤ ·) elapsed)
    (drained : ({ session with accumulator := session.accumulator + elapsed } : Session).drain
      session.settings.pacing.maxSubsteps 0 = (last, .ok count)) :
    session.advance elapsed = (last.dropBacklog, .ok count) := by
  rw [advance, if_neg (refused_iff.not_left.mpr regular)]
  dsimp only
  rw [drained]

theorem advance_of_short (regular : Magnitude (0.0 ≤ ·) elapsed)
    (short : session.accumulator + elapsed < session.settings.pacing.tickLength) :
    session.advance elapsed =
      ({ session with accumulator := session.accumulator + elapsed }, .ok 0) := by
  have waits : ¬session.settings.pacing.tickLength ≤ session.accumulator + elapsed :=
    fun enough => not_lt_of_le enough short
  have drained : ({ session with accumulator := session.accumulator + elapsed } : Session).drain
      session.settings.pacing.maxSubsteps 0 =
        ({ session with accumulator := session.accumulator + elapsed }, .ok 0) := by
    cases session.settings.pacing.maxSubsteps with
    | zero => rfl
    | succ budget => rw [drain, if_neg waits]
  rw [advance_of_drain regular drained, dropBacklog, if_neg waits]

theorem advance_zero (below : session.accumulator < session.settings.pacing.tickLength) :
    session.advance 0.0 = ({ session with accumulator := session.accumulator + 0.0 }, .ok 0) := by
  have numbers := isNaN_of_le (le_of_lt below)
  have regular : Magnitude (0.0 ≤ ·) 0.0 := by
    constructor <;> decide +kernel
  exact advance_of_short regular
    ((lt_congr (add_zero_beq numbers.1) (beq_self numbers.2)).mpr below)

theorem Follows.advances (follows : first.Follows session steps)
    (distinct : first.world.ids.Nodup) (started : start first.tree first.settings = .ok first)
    (accepted : Magnitude (0.0 < ·) session.settings.pacing.tickLength)
    (number : session.accumulator.isNaN = false) (regular : Magnitude (0.0 ≤ ·) elapsed) :
    ∃ next count, session.advance elapsed = (next, .ok count) ∧
      session.Advances elapsed next count := by
  rcases (follows.waiting (session.accumulator + elapsed)).drain_eq distinct rfl accepted
    session.settings.pacing.maxSubsteps 0 with ⟨count, within, drained, ends, before⟩
  rw [Nat.zero_add, ticked_waiting] at drained
  dsimp only at drained ends before
  have numbers := isNaN_spent accepted.1 (isNaN_add number regular.1)
  have length : session.settings.pacing.tickLength.isNaN = false := (isFinite_iff.mp accepted.1).1
  have same : (session.ticked count).settings = session.settings :=
    (follows.drive distinct started _).settings.trans follows.settings.symm
  rcases exists_dropBacklog (session.ticked count) (same ▸ accepted.2) (numbers count) with
    ⟨left, below, dropped⟩
  refine ⟨{ session.ticked count with accumulator := left }, count, ?_, within, ?_, rfl,
    ⟨?_, ?_⟩, same ▸ below, advance_zero below⟩
  · rw [advance_of_drain regular drained, dropped]
  · apply follows.drive_not_failed distinct started (follows.settings ▸ accepted)
    intro call member
    rw [List.eq_of_mem_replicate member]
    trivial
  · exact ends.imp id (not_le_iff length (numbers count)).mp
  · intro other given
    by_contra fewer
    rw [Nat.not_le] at fewer
    rcases given with rfl | short
    · omega
    · exact not_lt_of_le (before other fewer) short

theorem accumulator_of_start (started : start first.tree first.settings = .ok first) :
    first.accumulator = 0.0 := by
  rcases start_eq_ok.mp started with ⟨world, -, same⟩
  rw [same]

theorem accumulator_stepBy (session : Session) (dt : Float) :
    (session.stepBy dt).1.accumulator = session.accumulator := by
  rw [stepBy]
  cases session.world.step session.settings.tuning session.state dt <;> rfl

/-- Between calls there is never time waiting for another tick. -/
theorem Follows.call_below (follows : first.Follows session steps)
    (distinct : first.world.ids.Nodup) (started : start first.tree first.settings = .ok first)
    (accepted : Magnitude (0.0 < ·) first.settings.pacing.tickLength)
    (below : session.accumulator < first.settings.pacing.tickLength) (call : Call) :
    (session.call call).1.accumulator < first.settings.pacing.tickLength := by
  have stepped (dt : Float) : (session.stepBy dt).1.accumulator <
      first.settings.pacing.tickLength := by
    rw [accumulator_stepBy]
    exact below
  cases call with
  | tick => exact stepped _
  | stepBy dt => exact stepped dt
  | advance elapsed =>
    rw [Session.call]
    by_cases regular : Magnitude (0.0 ≤ ·) elapsed
    · rw [← follows.settings] at accepted below ⊢
      rcases follows.advances distinct started accepted (isNaN_of_le (le_of_lt below)).1 regular
        with ⟨next, count, advanced, advances⟩
      rw [advanced]
      exact advances.below
    · rw [Session.advance, if_pos (refused_iff.mpr regular)]
      exact below
  | reset =>
    rw [Session.call, reset, follows.tree, follows.settings, started]
    rw [accumulator_of_start started]
    exact accepted.2

theorem Follows.drive_below (follows : first.Follows session steps)
    (distinct : first.world.ids.Nodup) (started : start first.tree first.settings = .ok first)
    (accepted : Magnitude (0.0 < ·) first.settings.pacing.tickLength)
    (below : session.accumulator < first.settings.pacing.tickLength) (calls : List Call) :
    (session.drive calls).1.accumulator < first.settings.pacing.tickLength := by
  induction calls generalizing session steps with
  | nil => exact below
  | cons call rest ih =>
    exact ih (follows.call distinct started call)
      (follows.call_below distinct started accepted below call)

end Elapsed

/-- After any calls, time that is handed in is spent in whole ticks and in nothing else, as many as
it holds and the settings allow, and leaves less than a tick waiting. -/
theorem advance_of_load (text : String) (schema : SchemaDocument) (settings : Settings)
    (first : Session) (loaded : load text schema settings = .ok first)
    (accepted : Magnitude (0.0 < ·) settings.pacing.tickLength) (calls : List Call)
    (elapsed : Float) (regular : Magnitude (0.0 ≤ ·) elapsed) :
    ∃ next count, (first.drive calls).1.advance elapsed = (next, .ok count) ∧
      (first.drive calls).1.Advances elapsed next count := by
  rcases start_of_load loaded with ⟨started, rfl, distinct⟩
  have follows := (follows_start started).drive distinct started calls
  have below : (first.drive calls).1.accumulator < first.settings.pacing.tickLength := by
    apply (follows_start started).drive_below distinct started accepted
    rw [accumulator_of_start started]
    exact accepted.2
  exact follows.advances distinct started (follows.settings ▸ accepted)
    (isNaN_of_le (le_of_lt below)).1 regular

theorem advance_of_load_falling :
    ∃ first, load fallingText ScenarioSchema.document {} = .ok first ∧
      Magnitude (0.0 < ·) (Pacing.tickLength {}) ∧ Magnitude (0.0 ≤ ·) 0.1 ∧
        ∃ next count, (first.drive someCalls).1.advance 0.1 = (next, .ok count) ∧
          (first.drive someCalls).1.Advances 0.1 next count := by
  have accepted : Magnitude (0.0 < ·) (Pacing.tickLength {}) := by
    constructor <;> decide +kernel
  have regular : Magnitude (0.0 ≤ ·) 0.1 := by
    constructor <;> decide +kernel
  rcases exists_load_falling with ⟨first, loaded⟩
  exact ⟨first, loaded, accepted, regular,
    advance_of_load _ _ _ first loaded accepted someCalls 0.1 regular⟩

end ParticleSim.Session
