import ParticleSim.Command.Outcome
import ParticleSim.Proofs.Number.Text
import ParticleSim.Proofs.Session.Calls
import ParticleSim.Proofs.View.Snapshot

namespace ParticleSim

theorem decode_eq_ok {bytes : ByteArray} {text : String} :
    decode bytes = .ok text ↔ bytes = text.toUTF8 := by
  rw [decode, String.fromUTF8?]
  constructor
  · intro decoded
    split at decoded
    · next other found =>
      rw [Option.dite_none_right_eq_some] at found
      rcases found with ⟨valid, found⟩
      cases found
      cases decoded
      rfl
    · cases decoded
  · rintro rfl
    rw [String.toUTF8_eq_toByteArray, dif_pos text.isValidUTF8]
    rfl

namespace Command

section Arguments

variable {arguments words : List String} {request : RunRequest}

theorem runOf?_of_ofWords? (asked : ofWords? words = some (.run request)) :
    ∃ arguments, runOf? arguments = some (.run request) := by
  unfold ofWords? at asked
  split at asked
  · simp [infoOf?, Option.bind_eq_some_iff] at asked
  · simp [parseOf?, Option.bind_eq_some_iff] at asked
  · simp [validateOf?, Option.bind_eq_some_iff] at asked
  · exact ⟨_, asked⟩
  · cases asked

theorem ofWords?_of_ofArguments? {command : Command}
    (asked : ofArguments? arguments = some command) : ∃ words, ofWords? words = some command := by
  unfold ofArguments? at asked
  split at asked <;> exact ⟨_, asked⟩

theorem nat?_le {limit n : Nat} {text : List Char} (reads : nat? limit text = some n) :
    n ≤ limit := by
  unfold nat? at reads
  rw [Option.ite_none_right_eq_some, Bool.and_eq_true, decide_eq_true_eq] at reads
  rcases reads with ⟨⟨-, bound⟩, same⟩
  cases same
  exact bound

theorem steps_lt (asked : ofArguments? arguments = some (.run request)) :
    request.steps < UInt64.size := by
  rcases ofWords?_of_ofArguments? asked with ⟨words, asked⟩
  rcases runOf?_of_ofWords? asked with ⟨arguments, asked⟩
  simp only [runOf?, Option.bind_eq_bind, Option.bind_eq_some_iff, Option.pure_def,
    Option.some.injEq, Command.run.injEq] at asked
  rcases asked with ⟨sorted, -, steps, reads, -, -, -, -, -, -, rfl⟩
  dsimp only
  rw [Arguments.value?] at reads
  split at reads
  · cases reads
    decide
  · rw [Option.map_eq_some_iff] at reads
    rcases reads with ⟨n, reads, rfl⟩
    exact Nat.lt_of_le_pred (by decide) (nat?_le reads)

theorem nat?_digitsOf {limit n : Nat} (bound : n ≤ limit) :
    nat? limit (Decimal.digitsOf n) = some n := by
  have digits : isDigits (Decimal.digitsOf n) = true :=
    isDigits_of_all (Decimal.digitsOf_ne_nil n) (Decimal.isDigit_digitsOf n)
  have unsigned : ∀ rest, Decimal.digitsOf n ≠ '+' :: rest := by
    intro rest same
    have sign := Decimal.isDigit_digitsOf n '+' (by rw [same]; exact List.mem_cons_self)
    exact absurd sign (by decide)
  unfold nat?
  split
  · next rest same => exact absurd same (unsigned rest)
  · dsimp only
    rw [Decimal.ofDigits_digitsOf, digits, decide_eq_true bound]
    rfl

theorem ofArguments?_run (file : String) (named : file ≠ "")
    (operand : file.toList.head? ≠ some '-') (n : Nat) (fits : n < UInt64.size) :
    ofArguments? ["run", file, "-n", String.ofList (Decimal.digitsOf n)] =
      some (.run ⟨file, n, none, none, false, false⟩) := by
  have first : Argument.ofText runOptions file = .operand := by
    unfold Argument.ofText
    split
    · next text => exact absurd (by rw [text]; rfl) operand
    · next text => exact absurd (by rw [text]; rfl) operand
    · next text => exact absurd (by rw [text]; rfl) operand
    · rfl
  have second : Argument.ofText runOptions "-n" = .awaiting "steps" := by decide +kernel
  have value : Arguments.isValue (String.ofList (Decimal.digitsOf n)) = true := by
    rw [Arguments.isValue, Bool.or_eq_true, String.toList_ofList, bne_iff_ne]
    refine .inr fun sign => ?_
    have member := List.mem_of_mem_head? (Option.mem_def.mpr sign)
    exact absurd (Decimal.isDigit_digitsOf n '-' member) (by decide)
  have sorted : Arguments.ofList? runOptions [file, "-n", String.ofList (Decimal.digitsOf n)] =
      some ⟨[file], [("steps", String.ofList (Decimal.digitsOf n))]⟩ := by
    simp [Arguments.ofList?, first, second, value, Arguments.addOption?, Arguments.addOperand,
      Fields.contains, Fields.get?]
  have steps : Arguments.value? (fun text => nat? (UInt64.size - 1) text.toList) "steps"
      ⟨[file], [("steps", String.ofList (Decimal.digitsOf n))]⟩ = some (some n) := by
    change (nat? (UInt64.size - 1) (String.ofList (Decimal.digitsOf n)).toList).map some = _
    rw [String.toList_ofList, nat?_digitsOf (Nat.le_sub_one_of_lt fits), Option.map_some]
  change runOf? [file, "-n", String.ofList (Decimal.digitsOf n)] = _
  rw [runOf?, sorted]
  simp only [Option.bind_eq_bind, Option.bind_some, steps]
  simp [Arguments.value?, Arguments.file?, Arguments.path?, Fields.contains, Fields.get?, named]

end Arguments

section Run

variable {first session : Session} {steps : List Float}

/-- A run takes all its steps from where the session stands, and returns each state on the way. -/
theorem runStates_of_follows (follows : first.Follows session steps)
    (distinct : first.world.ids.Nodup) {dt : Option Float} {length : Float}
    (given : dt.getD first.settings.pacing.tickLength = length)
    (accepted : Magnitude (0.0 < ·) length) (count : Nat) :
    ∃ later last, runStates (runStep dt) count session = (later ++ [last], none) ∧
      ∀ earlier, first.world.Run first.settings.tuning steps earlier session.state →
        first.world.Run first.settings.tuning (steps ++ List.replicate count length)
          (earlier ++ later) last := by
  induction count generalizing session steps with
  | zero =>
    refine ⟨[], session.state, rfl, fun earlier run => ?_⟩
    rwa [List.replicate_zero, List.append_nil, List.append_nil]
  | succ count ih =>
    have same : runStep dt session = session.stepBy length := by
      rw [← given, ← follows.settings]
      cases dt <;> rfl
    rcases follows.exists_stepBy distinct accepted with ⟨next, state, stepped⟩
    rcases ih (follows.stepBy stepped) with ⟨later, last, states, run⟩
    refine ⟨session.state :: later, last, ?_, fun earlier before => ?_⟩
    · rw [runStates, same, stepped]
      dsimp only
      rw [states]
      rfl
    · rcases Session.stepBy_eq_ok.mp stepped with ⟨taken, rfl⟩
      rw [follows.world, follows.settings] at taken
      have after := run (earlier ++ [session.state]) (.step before taken)
      rwa [List.append_assoc, List.append_assoc, List.singleton_append, List.singleton_append,
        ← List.replicate_succ] at after

end Run

/-- The text is a scenario of the world: it can be read, matches the schema of scenarios, and the
world is built from it. -/
def Describes (text : String) (world : World) : Prop :=
  ∃ tree, Outline.parse text = .ok tree ∧ ScenarioSchema.document.validate tree = [] ∧
    World.ofNode tree = .ok world

section Outcome

variable {files : Files} {request : RunRequest} {text : String} {world : World}

theorem readFile_eq_ok {file : String} : readFile files file = .ok text ↔ files file = .ok text :=
  Session.mapError_eq_ok

theorem readScenario_eq_ok {file : String} {tree : Node} : readScenario files file = .ok tree ↔
    ∃ text, files file = .ok text ∧ Outline.parse text = .ok tree := by
  rw [readScenario, World.bind_eq_ok]
  exact exists_congr fun text => and_congr readFile_eq_ok Session.mapError_eq_ok

theorem readSession_eq_ok {file : String} {settings : Settings} {session : Session} :
    readSession files file settings = .ok session ↔ ∃ text, files file = .ok text ∧
      Session.load text ScenarioSchema.document settings = .ok session := by
  rw [readSession, World.bind_eq_ok]
  exact exists_congr fun text => and_congr readFile_eq_ok Session.mapError_eq_ok

theorem runOutcome_eq_ok {result : Outcome} : runOutcome files request = .ok result ↔
    ∃ settings, readSettings files request.config = .ok settings ∧
      ∃ session, readSession files request.file settings = .ok session ∧
        result =
          ⟨(runStates (runStep request.dt) request.steps session).1.map
            (stateText request session.world),
          (runStates (runStep request.dt) request.steps session).2.map
            fun e => ⟨e.message, []⟩⟩ := by
  rw [runOutcome, World.bind_eq_ok]
  refine exists_congr fun settings => and_congr Iff.rfl (World.bind_eq_ok.trans ?_)
  refine exists_congr fun session => and_congr Iff.rfl ?_
  exact World.pure_eq_ok.trans eq_comm

theorem exitCode_ofExcept_eq_zero_iff {result : Except Failure Outcome} :
    (Outcome.ofExcept result).exitCode = 0 ↔ ∃ outcome, result = .ok outcome ∧
      outcome.failure = none := by
  rcases result with failure | ⟨output, failure⟩
  · constructor
    · intro impossible
      cases impossible
    · rintro ⟨outcome, impossible, -⟩
      cases impossible
  · cases failure <;> simp [Outcome.ofExcept, Outcome.exitCode]

theorem describes_of_load {settings : Settings} {first : Session}
    (loaded : Session.load text ScenarioSchema.document settings = .ok first) :
    Describes text first.world := by
  rcases Session.load_eq_ok.mp loaded with ⟨-, tree, parsed, valid, started⟩
  rcases Session.start_eq_ok.mp started with ⟨world, built, rfl⟩
  exact ⟨tree, parsed, valid, built⟩

theorem exists_load_of_describes (describes : Describes text world) :
    ∃ first, Session.load text ScenarioSchema.document {} = .ok first ∧ first.world = world := by
  rcases describes with ⟨tree, parsed, valid, built⟩
  have sound : ({} : Settings).fault? = none := by decide +kernel
  exact ⟨_, Session.load_eq_ok.mpr
    ⟨sound, tree, parsed, valid, Session.start_eq_ok.mpr ⟨world, built, rfl⟩⟩, rfl⟩

theorem runOutcome_of_load {first : Session} (content : files request.file = .ok text)
    (dt : request.dt = none) (config : request.config = none)
    (loaded : Session.load text ScenarioSchema.document {} = .ok first) : ∃ earlier last,
      first.world.Run {} (List.replicate request.steps (Pacing.tickLength {})) earlier last ∧
        runOutcome files request =
          .ok ⟨(earlier ++ [last]).map (stateText request first.world), none⟩ := by
  rcases Session.start_of_load loaded with ⟨started, settings, distinct⟩
  have follows := Session.follows_start started
  have length : request.dt.getD first.settings.pacing.tickLength = Pacing.tickLength {} := by
    rw [dt, settings]
    rfl
  have accepted : Magnitude (0.0 < ·) (Pacing.tickLength {}) := by
    constructor <;> decide +kernel
  rcases runStates_of_follows follows distinct length accepted request.steps with
    ⟨later, last, states, run⟩
  rw [Session.state_of_start started] at run
  have whole := run [] .start
  rw [settings, List.nil_append, List.nil_append] at whole
  refine ⟨later, last, whole, ?_⟩
  apply runOutcome_eq_ok.mpr
  rw [config]
  refine ⟨{}, rfl, first, readSession_eq_ok.mpr ⟨text, content, loaded⟩, ?_⟩
  rw [states]
  rfl

theorem describes_of_runOutcome {result : Outcome} (ran : runOutcome files request = .ok result) :
    ∃ text world, files request.file = .ok text ∧ Describes text world := by
  rcases runOutcome_eq_ok.mp ran with ⟨settings, -, session, reads, -⟩
  rcases readSession_eq_ok.mp reads with ⟨text, content, loaded⟩
  exact ⟨text, session.world, content, describes_of_load loaded⟩

theorem exitCode_parse (content : files request.file = .ok text)
    (describes : Describes text world) : (outcome files (.parse request.file)).exitCode = 0 := by
  rcases describes with ⟨tree, parsed, -, -⟩
  have reads := readScenario_eq_ok.mpr ⟨text, content, parsed⟩
  apply exitCode_ofExcept_eq_zero_iff.mpr
  rw [parseOutcome, reads]
  exact ⟨_, rfl, rfl⟩

theorem exitCode_validate (content : files request.file = .ok text)
    (describes : Describes text world) :
    (outcome files (.validate request.file none)).exitCode = 0 := by
  rcases describes with ⟨tree, parsed, valid, -⟩
  have reads := readScenario_eq_ok.mpr ⟨text, content, parsed⟩
  apply exitCode_ofExcept_eq_zero_iff.mpr
  rw [validateOutcome, readSchema, reads]
  change ∃ outcome,
    (if (ScenarioSchema.document.validate tree).isEmpty = true then _ else _) = _ ∧ _
  rw [valid]
  exact ⟨_, rfl, rfl⟩

end Outcome

/-- What is printed of a state: its record on a line of its own, or the lines that show it. -/
inductive Prints (request : RunRequest) (world : World) (state : State) : String → Prop where
  | record {line : String} (asked : request.json = true) (single : '\n' ∉ line.toList)
    (reads : Json.Value.ofText? Json.Floats.nearest line = some state.value) :
    Prints request world state (line ++ "\n")
  | lines {lines : List String} (plain : request.json = false)
    (shows : (View.ofWorld world).Shows world state request.energy lines) :
    Prints request world state (unlines lines)

theorem prints_stateText (request : RunRequest) (world : World) (state : State) :
    Prints request world state (stateText request world state) := by
  rw [stateText]
  cases asked : request.json with
  | true => exact .record asked state.newline_record state.ofText?_record
  | false =>
    rcases (View.ofWorld world).exists_text world state request.energy with ⟨lines, shows, written⟩
    rw [if_neg Bool.false_ne_true, written]
    exact .lines asked shows

theorem standardOutput_silent (result : Outcome) {log : Nat → String} (silent : ∀ i, log i = "") :
    result.standardOutput log = String.join result.printed := by
  simp only [Outcome.standardOutput, silent, String.empty_append, String.append_empty]
  exact congrArg String.join (List.zipIdx_map_fst 0 result.printed)

/-- Without a length of steps and without settings of its own, a run of a file ends well exactly if
the file is a scenario in UTF-8. It then prints the states of that run from the start on, numbered
from zero to the count of steps, and nothing otherwise; and what can be run can be printed and
checked, too. What is logged stands between these texts. -/
theorem outcome_run (arguments : List String) (request : RunRequest)
    (asked : ofArguments? arguments = some (.run request)) (dt : request.dt = none)
    (config : request.config = none) (files : Files) (bytes : ByteArray)
    (content : files request.file = decode bytes) :
    ((outcome files (.run request)).exitCode = 0 ↔
      ∃ text world, bytes = text.toUTF8 ∧ Describes text world) ∧
    (∀ text world, bytes = text.toUTF8 → Describes text world → ∃ earlier last snapshots,
      world.Run {} (List.replicate request.steps (Pacing.tickLength {})) earlier last ∧
      (earlier ++ [last]).map (fun state => state.tick.toNat) = List.range (request.steps + 1) ∧
      List.Forall₂ (Prints request world) (earlier ++ [last]) snapshots ∧
      (outcome files (.run request)).printed = snapshots ∧
      ∀ log : Nat → String, (∀ i, log i = "") →
        (outcome files (.run request)).standardOutput log = String.join snapshots) ∧
    ((outcome files (.run request)).exitCode ≠ 0 →
      (outcome files (.run request)).printed = [] ∧
      ∀ log, (outcome files (.run request)).standardOutput log = log 0) ∧
    ((outcome files (.run request)).exitCode = 0 →
      (outcome files (.parse request.file)).exitCode = 0 ∧
        (outcome files (.validate request.file none)).exitCode = 0) := by
  simp only [← decode_eq_ok, ← content]
  have whenever : (outcome files (.run request)).exitCode = 0 →
      ∃ text world, files request.file = .ok text ∧ Describes text world := by
    intro success
    rcases exitCode_ofExcept_eq_zero_iff.mp success with ⟨result, ran, -⟩
    exact describes_of_runOutcome ran
  have ends : ∀ text world, files request.file = .ok text → Describes text world →
      ∃ earlier last,
        world.Run {} (List.replicate request.steps (Pacing.tickLength {})) earlier last ∧
          runOutcome files request =
            .ok ⟨(earlier ++ [last]).map (stateText request world), none⟩ := by
    intro text world reads describes
    rcases exists_load_of_describes describes with ⟨first, loaded, rfl⟩
    exact runOutcome_of_load reads dt config loaded
  refine ⟨⟨whenever, ?_⟩, ?_, ?_, ?_⟩
  · rintro ⟨text, world, reads, describes⟩
    rcases ends text world reads describes with ⟨earlier, last, -, ran⟩
    exact exitCode_ofExcept_eq_zero_iff.mpr ⟨_, ran, rfl⟩
  · intro text world reads describes
    rcases ends text world reads describes with ⟨earlier, last, run, ran⟩
    have printed : (outcome files (.run request)).printed =
        (earlier ++ [last]).map (stateText request world) := by
      rw [outcome, ran]
      rfl
    refine ⟨earlier, last, _, run, ?_, ?_, printed, fun log silent => ?_⟩
    · have ticks := run.ticks_toNat
      rw [List.length_replicate] at ticks
      exact ticks (steps_lt asked)
    · exact List.forall₂_map_right_iff.mpr
        (List.forall₂_same.mpr fun state _ => prints_stateText request world state)
    · rw [standardOutput_silent _ silent, printed]
  · intro failure
    rw [outcome] at failure ⊢
    cases ran : runOutcome files request with
    | error e => exact ⟨rfl, fun log => String.empty_append⟩
    | ok result =>
      rcases describes_of_runOutcome ran with ⟨text, world, reads, describes⟩
      rcases ends text world reads describes with ⟨earlier, last, -, ended⟩
      exact absurd (exitCode_ofExcept_eq_zero_iff.mpr ⟨_, ended, rfl⟩) failure
  · intro success
    rcases whenever success with ⟨text, world, reads, describes⟩
    exact ⟨exitCode_parse reads describes, exitCode_validate reads describes⟩

def dropRequest : RunRequest := ⟨"drop.yaml", 2, none, none, false, false⟩

theorem outcome_run_falling :
    ofArguments? ["run", "drop.yaml", "-n", "2"] = some (.run dropRequest) ∧
      (outcome (fun _ => .ok Session.fallingText) (.run dropRequest)).exitCode = 0 ∧
      (outcome (fun _ => .ok Session.fallingText) (.run dropRequest)).printed.length = 3 := by
  have asked : ofArguments? ["run", "drop.yaml", "-n", "2"] = some (.run dropRequest) :=
    ofArguments?_run "drop.yaml" (by decide) (by decide) 2 (by decide)
  have content : .ok Session.fallingText = decode Session.fallingText.toUTF8 :=
    (decode_eq_ok.mpr rfl).symm
  rcases Session.exists_load_falling with ⟨first, loaded⟩
  have describes := describes_of_load loaded
  have run := outcome_run _ dropRequest asked rfl rfl (fun _ => .ok Session.fallingText) _ content
  refine ⟨asked, run.1.mpr ⟨_, first.world, rfl, describes⟩, ?_⟩
  rcases run.2.1 _ first.world rfl describes with
    ⟨earlier, last, snapshots, -, ticks, shown, printed, -⟩
  have count := congrArg List.length ticks
  rw [List.length_map, List.length_range] at count
  rw [printed, ← shown.length_eq, count]
  rfl

end Command
end ParticleSim
