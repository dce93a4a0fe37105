import ParticleSim.Proofs.World.Stepping
import ParticleSim.Schema.Scenario
import ParticleSim.Session.Basic
/-!
Sessions under any sequence of calls. A session follows a run of its world: its state is the last of
the run, its history the states just before, and nothing that was loaded ever changes.
-/
namespace ParticleSim.Session

inductive Call where
  | tick
  | stepBy (dt : Float)
  | advance (elapsed : Float)
  | reset

inductive Answer where
  | state (state : State)
  | ticks (count : Nat)
  | restarted
  | notStepped (error : StepError)
  | notBuilt (error : BuildError)

def Answer.ofStep : Except StepError State → Answer
  | .ok next => .state next
  | .error e => .notStepped e

def call (session : Session) : Call → Session × Answer
  | .tick => session.tick.map id .ofStep
  | .stepBy dt => (session.stepBy dt).map id .ofStep
  | .advance elapsed =>
    match session.advance elapsed with
    | (next, .ok count) => (next, .ticks count)
    | (next, .error e) => (next, .notStepped e)
  | .reset =>
    match session.reset with
    | .ok next => (next, .restarted)
    | .error e => (session, .notBuilt e)

def drive : Session → List Call → Session × List Answer
  | session, [] => (session, [])
  | session, call :: rest =>
    let (next, answer) := session.call call
    let (last, answers) := next.drive rest
    (last, answer :: answers)

/-- The lengths of the steps since the start or the last reset, according to the answers. A call
that failed took no step. -/
def Call.record (tickLength : Float) (steps : List Float) : Call × Answer → List Float
  | (.tick, .state _) => steps ++ [tickLength]
  | (.stepBy dt, .state _) => steps ++ [dt]
  | (.advance _, .ticks count) => steps ++ List.replicate count tickLength
  | (.reset, .restarted) => []
  | _ => steps

def stepsTaken (tickLength : Float) (calls : List Call) (answers : List Answer) : List Float :=
  (calls.zip answers).foldl (Call.record tickLength) []

section Inversion

variable {tree : Node} {settings : Settings} {session next : Session} {state : State} {dt : Float}

theorem start_eq_ok : start tree settings = .ok session ↔ ∃ world, World.ofNode tree = .ok world ∧
    session = ⟨tree, world, settings, world.initialState settings.tuning, [], 0.0⟩ := by
  rw [start, World.bind_eq_ok]
  refine exists_congr fun world => and_congr Iff.rfl ?_
  rw [World.pure_eq_ok, eq_comm]

theorem mapError_eq_ok {ε ε' α : Type} {wrap : ε → ε'} {result : Except ε α} {value : α} :
    result.mapError wrap = .ok value ↔ result = .ok value := by
  cases result <;> simp [Except.mapError]

/-- What loading takes: sound settings, and a text whose tree the schema lets pass and that can be
built. -/
theorem load_eq_ok {text : String} {schema : SchemaDocument} :
    load text schema settings = .ok session ↔ settings.fault? = none ∧
      ∃ tree, Outline.parse text = .ok tree ∧ schema.validate tree = [] ∧
        start tree settings = .ok session := by
  rw [load]
  cases settings.fault? with
  | some fault =>
    constructor
    · intro impossible
      cases impossible
    · intro given
      cases given.1
  | none =>
    rw [and_iff_right rfl]
    refine World.bind_eq_ok.trans (exists_congr fun tree => and_congr mapError_eq_ok ?_)
    rw [World.guard_eq_ok, mapError_eq_ok, Bool.not_eq_false', List.isEmpty_iff]

theorem stepBy_eq_ok : session.stepBy dt = (next, .ok state) ↔
    session.world.step session.settings.tuning session.state dt = .ok state ∧
      next = { session with
        state := state
        history := lastItems session.settings.pacing.historyLength
          (session.history ++ [session.state]) } := by
  rw [stepBy]
  cases session.world.step session.settings.tuning session.state dt with
  | error e => simp only [Prod.mk.injEq, reduceCtorEq, and_false, false_and]
  | ok other =>
    simp only [Prod.mk.injEq, Except.ok.injEq, and_comm, eq_comm (b := next)]
    refine and_congr_right fun same => ?_
    cases same
    rfl

theorem stepBy_eq_error {e : StepError} : session.stepBy dt = (next, .error e) ↔
    session.world.step session.settings.tuning session.state dt = .error e ∧ next = session := by
  rw [stepBy]
  cases session.world.step session.settings.tuning session.state dt with
  | error other => simp only [Prod.mk.injEq, Except.error.injEq, and_comm, eq_comm (b := next)]
  | ok other => simp only [Prod.mk.injEq, reduceCtorEq, and_false, false_and]

end Inversion

theorem lastItems_lastItems {α : Type} (count : Nat) (items : List α) (item : α) :
    lastItems count (lastItems count items ++ [item]) = lastItems count (items ++ [item]) := by
  have front : lastItems count items ++ [item] =
      (items ++ [item]).drop (items.length - count) := by
    rw [lastItems, List.drop_append_of_le_length (Nat.sub_le ..)]
  rw [front, lastItems, lastItems, List.drop_drop, List.length_drop, List.length_append,
    List.length_singleton]
  congr 1
  omega

/-- The session goes on from the first one by the steps: what was loaded is still there, and state
and history are those of a run. -/
structure Follows (first session : Session) (steps : List Float) : Prop where
  tree : session.tree = first.tree
  world : session.world = first.world
  settings : session.settings = first.settings
  run : ∃ earlier, first.world.Run first.settings.tuning steps earlier session.state ∧
    session.history = lastItems first.settings.pacing.historyLength earlier

section Follows

variable {first session next : Session} {state : State} {steps : List Float} {dt : Float}

theorem state_of_start (started : start first.tree first.settings = .ok first) :
    first.state = first.world.initialState first.settings.tuning := by
  rcases start_eq_ok.mp started with ⟨world, -, same⟩
  rw [same]

theorem follows_start (started : start first.tree first.settings = .ok first) :
    first.Follows first [] := by
  rcases start_eq_ok.mp started with ⟨world, -, same⟩
  have empty : first.history = [] := by
    rw [same]
  refine ⟨rfl, rfl, rfl, [], ?_, ?_⟩
  · rw [state_of_start started]
    exact .start
  · rw [empty, lastItems, List.drop_nil]

theorem Follows.waiting (follows : first.Follows session steps) (accumulator : Float) :
    first.Follows { session with accumulator := accumulator } steps :=
  ⟨follows.tree, follows.world, follows.settings, follows.run⟩

theorem Follows.stepBy (follows : first.Follows session steps)
    (taken : session.stepBy dt = (next, .ok state)) : first.Follows next (steps ++ [dt]) := by
  rcases stepBy_eq_ok.mp taken with ⟨stepped, rfl⟩
  rcases follows.run with ⟨earlier, run, history⟩
  rw [follows.world, follows.settings] at stepped
  refine ⟨follows.tree, follows.world, follows.settings, earlier ++ [session.state],
    .step run stepped, ?_⟩
  dsimp only
  rw [follows.settings, history, lastItems_lastItems]

/-- Whether a step goes through depends on its length alone. -/
theorem Follows.exists_stepBy (follows : first.Follows session steps)
    (distinct : first.world.ids.Nodup) (accepted : Magnitude (0.0 < ·) dt) :
    ∃ next state, session.stepBy dt = (next, .ok state) := by
  rcases follows.run with ⟨earlier, run, -⟩
  have consistent := run.consistent distinct _ session.state
    (World.getElem?_concat_eq_some.mpr (.inr ⟨rfl, rfl⟩))
  have steps : ∃ state,
      session.world.step session.settings.tuning session.state dt = .ok state := by
    rw [follows.world]
    exact World.exists_step (fun id => consistent.ids.mem_iff) accepted
  rcases steps with ⟨state, stepped⟩
  exact ⟨_, state, stepBy_eq_ok.mpr ⟨stepped, rfl⟩⟩

theorem magnitude_of_stepBy (taken : session.stepBy dt = (next, .ok state)) :
    Magnitude (0.0 < ·) dt :=
  (World.step_eq_ok.mp (stepBy_eq_ok.mp taken).1).1

theorem Follows.drain (follows : first.Follows session steps) (distinct : first.world.ids.Nodup)
    (accepted : Magnitude (0.0 < ·) first.settings.pacing.tickLength) (budget taken : Nat) :
    ∃ next count, session.drain budget taken = (next, .ok (taken + count)) ∧
      first.Follows next (steps ++ List.replicate count first.settings.pacing.tickLength) := by
  induction budget generalizing session steps taken with
  | zero => exact ⟨session, 0, rfl, by rwa [List.replicate_zero, List.append_nil]⟩
  | succ budget ih =>
    rw [Session.drain]
    split
    · rw [tick, follows.settings]
      rcases follows.exists_stepBy distinct accepted with ⟨next, state, stepped⟩
      rcases ih ((follows.stepBy stepped).waiting _) (taken + 1) with ⟨last, count, drained, ends⟩
      refine ⟨last, count + 1, ?_, ?_⟩
      · rw [stepped]
        dsimp only
        rw [drained, Nat.add_assoc, Nat.add_comm 1]
      · rwa [List.append_assoc, List.singleton_append, ← List.replicate_succ] at ends
    · exact ⟨session, 0, rfl, by rwa [List.replicate_zero, List.append_nil]⟩

theorem drain_refused (refused : ¬Magnitude (0.0 < ·) session.settings.pacing.tickLength)
    (budget taken : Nat) : session.drain budget taken = (session, .ok taken) ∨
      ∃ e, session.drain budget taken = (session, .error e) := by
  cases budget with
  | zero => exact .inl rfl
  | succ budget =>
    rw [drain]
    split
    · rcases ticked : session.tick with ⟨next, e | state⟩
      · rw [(stepBy_eq_error.mp ticked).2]
        exact .inr ⟨e, rfl⟩
      · exact absurd (magnitude_of_stepBy ticked) refused
    · exact .inl rfl

theorem Follows.dropBacklog (follows : first.Follows session steps) :
    first.Follows session.dropBacklog steps := by
  rw [Session.dropBacklog]
  split
  · exact follows.waiting _
  · exact follows

/-- With an accepted tick length, time that may be handed in makes as many ticks as it makes. -/
theorem Follows.advance_accepted (follows : first.Follows session steps)
    (distinct : first.world.ids.Nodup)
    (accepted : Magnitude (0.0 < ·) first.settings.pacing.tickLength) {elapsed : Float}
    (regular : Magnitude (0.0 ≤ ·) elapsed) :
    ∃ next count, session.advance elapsed = (next, .ok count) ∧
      first.Follows next (steps ++ List.replicate count first.settings.pacing.tickLength) := by
  have more := follows.waiting (session.accumulator + elapsed)
  rcases more.drain distinct accepted session.settings.pacing.maxSubsteps 0 with
    ⟨next, count, drained, ends⟩
  rw [Nat.zero_add] at drained
  refine ⟨next.dropBacklog, count, ?_, ends.dropBacklog⟩
  rw [Session.advance, if_neg (refused_iff.not_left.mpr regular)]
  dsimp only
  rw [drained]

theorem Follows.advance (follows : first.Follows session steps) (distinct : first.world.ids.Nodup)
    (elapsed : Float) :
    (∃ next count, session.advance elapsed = (next, .ok count) ∧
      first.Follows next (steps ++ List.replicate count first.settings.pacing.tickLength)) ∨
    ∃ next e, session.advance elapsed = (next, .error e) ∧ first.Follows next steps := by
  by_cases regular : Magnitude (0.0 ≤ ·) elapsed
  · by_cases accepted : Magnitude (0.0 < ·) first.settings.pacing.tickLength
    · exact .inl (follows.advance_accepted distinct accepted regular)
    · have more := follows.waiting (session.accumulator + elapsed)
      rw [Session.advance, if_neg (refused_iff.not_left.mpr regular)]
      dsimp only
      rw [← more.settings] at accepted
      rcases drain_refused accepted session.settings.pacing.maxSubsteps 0 with
        drained | ⟨e, drained⟩
      · rw [drained]
        refine .inl ⟨_, 0, rfl, ?_⟩
        rw [List.replicate_zero, List.append_nil]
        exact more.dropBacklog
      · rw [drained]
        exact .inr ⟨_, e, rfl, more⟩
  · rw [Session.advance, if_pos (refused_iff.mpr regular)]
    exact .inr ⟨session, _, rfl, follows⟩

/-- One call keeps the session on a run, by the steps that its answer tells. -/
theorem Follows.call (follows : first.Follows session steps) (distinct : first.world.ids.Nodup)
    (started : start first.tree first.settings = .ok first) (call : Call) :
    first.Follows (session.call call).1
      (Call.record first.settings.pacing.tickLength steps (call, (session.call call).2)) := by
  cases call with
  | tick =>
    rw [Session.call, tick, follows.settings]
    rcases stepped : session.stepBy first.settings.pacing.tickLength with ⟨next, e | state⟩
    · rw [(stepBy_eq_error.mp stepped).2]
      exact follows
    · exact follows.stepBy stepped
  | stepBy dt =>
    rw [Session.call]
    rcases stepped : session.stepBy dt with ⟨next, e | state⟩
    · rw [(stepBy_eq_error.mp stepped).2]
      exact follows
    · exact follows.stepBy stepped
  | advance elapsed =>
    rw [Session.call]
    rcases follows.advance distinct elapsed with
      ⟨next, count, advanced, ends⟩ | ⟨next, e, advanced, stays⟩
    · rw [advanced]
      exact ends
    · rw [advanced]
      exact stays
  | reset =>
    rw [Session.call, reset, follows.tree, follows.settings, started]
    exact follows_start started

theorem Follows.drive (follows : first.Follows session steps) (distinct : first.world.ids.Nodup)
    (started : start first.tree first.settings = .ok first) (calls : List Call) :
    first.Follows (session.drive calls).1 ((calls.zip (session.drive calls).2).foldl
      (Call.record first.settings.pacing.tickLength) steps) := by
  induction calls generalizing session steps with
  | nil => exact follows
  | cons call rest ih => exact ih (follows.call distinct started call)

end Follows

theorem start_of_load {text : String} {schema : SchemaDocument} {settings : Settings}
    {first : Session} (loaded : load text schema settings = .ok first) :
    start first.tree first.settings = .ok first ∧ first.settings = settings ∧
      first.world.ids.Nodup := by
  rcases load_eq_ok.mp loaded with ⟨-, tree, -, -, started⟩
  rcases start_eq_ok.mp started with ⟨world, built, rfl⟩
  exact ⟨started, rfl, (World.sound_of_ofNode built).2.distinct⟩

/-- The session stands where the steps lead from the start of the world. Its history holds the
states just before, as many as the settings allow: without a gap, without a repetition, and numbered
up to the state itself. -/
structure Records (world : World) (settings : Settings) (steps : List Float) (session : Session) :
    Prop where
  run : ∃ earlier, world.Run settings.tuning steps earlier session.state ∧ session.history =
    earlier.drop (steps.length - min steps.length settings.pacing.historyLength)
  bounded : session.history.length = min steps.length settings.pacing.historyLength
  ticks : session.history.map State.tick =
    (List.range' (steps.length - session.history.length) session.history.length).map UInt64.ofNat
  last : session.state.tick = UInt64.ofNat steps.length

theorem Follows.records {first session : Session} {steps : List Float}
    (follows : first.Follows session steps) : session.Records first.world first.settings steps := by
  rcases follows.run with ⟨earlier, run, history⟩
  have length : earlier.length = steps.length := run.length
  have last : session.history =
      earlier.drop (steps.length - min steps.length first.settings.pacing.historyLength) := by
    rw [history, lastItems, length]
    congr 1
    omega
  have bounded : session.history.length = min steps.length first.settings.pacing.historyLength := by
    rw [last, List.length_drop, length]
    omega
  refine ⟨⟨earlier, run, last⟩, bounded, ?_, ?_⟩
  · rw [bounded, last, List.map_drop, run.ticks, List.range_eq_range', ← List.map_drop,
      List.drop_range', Nat.zero_add, Nat.mul_one]
    congr 2
    omega
  · exact run.tick _ _ (World.getElem?_concat_eq_some.mpr (.inr ⟨length.symm, rfl⟩))

def fallingText : String :=
  "bodies:\n  - id: ball\n    mass: 1\n    position:\n      x: 0\n      y: 10\nforces:\n" ++
    "  - kind: gravity\n    g:\n      x: 0\n      y: -9.81\n"

theorem exists_load_falling :
    ∃ first, load fallingText ScenarioSchema.document {} = .ok first := by
  have loads : (load fallingText ScenarioSchema.document {}).isOk = true := by
    decide +kernel
  cases loaded : load fallingText ScenarioSchema.document {} with
  | ok first => exact ⟨first, rfl⟩
  | error e =>
    rw [loaded] at loads
    cases loads

/-- After any calls, failed ones included, a loaded session stands where the steps lead that were
taken since the last reset, and its history holds the states just before. -/
theorem drive_of_load (text : String) (schema : SchemaDocument) (settings : Settings)
    (first : Session) (loaded : load text schema settings = .ok first) (calls : List Call) :
    (first.drive calls).1.Records first.world settings
      (stepsTaken settings.pacing.tickLength calls (first.drive calls).2) := by
  rcases start_of_load loaded with ⟨started, rfl, distinct⟩
  exact ((follows_start started).drive distinct started calls).records

def someCalls : List Call :=
  [.tick, .stepBy (-1), .advance 0.1, .reset, .stepBy 2, .advance Binary64.nan, .tick]

theorem drive_of_load_falling : ∃ first, load fallingText ScenarioSchema.document {} = .ok first ∧
    (first.drive someCalls).1.Records first.world {} (stepsTaken (Pacing.tickLength {}) someCalls
      (first.drive someCalls).2) := by
  rcases exists_load_falling with ⟨first, loaded⟩
  exact ⟨first, loaded, drive_of_load _ _ _ first loaded someCalls⟩

/-- After any calls a reset brings back the session that loading made, down to the waiting time, so
that nothing done before it shows in any call after it. -/
theorem reset_drive_of_load (text : String) (schema : SchemaDocument) (settings : Settings)
    (first : Session) (loaded : load text schema settings = .ok first) (calls : List Call) :
    ∃ again, (first.drive calls).1.reset = .ok again ∧ again.world = first.world ∧
      again.state = first.state ∧ again.history = first.history ∧
      again.accumulator = first.accumulator ∧
      ∀ later, again.drive later = first.drive later := by
  rcases start_of_load loaded with ⟨started, -, distinct⟩
  have follows := (follows_start started).drive distinct started calls
  refine ⟨first, ?_, rfl, rfl, rfl, rfl, fun _ => rfl⟩
  rw [reset, follows.tree, follows.settings, started]

theorem reset_drive_of_load_falling :
    ∃ first, load fallingText ScenarioSchema.document {} = .ok first ∧
      ∃ again, (first.drive someCalls).1.reset = .ok again ∧ again.world = first.world ∧
        again.state = first.state ∧ again.history = first.history ∧
        again.accumulator = first.accumulator ∧
        ∀ later, again.drive later = first.drive later := by
  rcases exists_load_falling with ⟨first, loaded⟩
  exact ⟨first, loaded, reset_drive_of_load _ _ _ first loaded someCalls⟩

end ParticleSim.Session
