import ParticleSim.Proofs.Json.ExactFloats
import ParticleSim.Proofs.Json.Trees
import ParticleSim.Proofs.Number.Fixed
import ParticleSim.Proofs.Outline.Scalar
import ParticleSim.View.Text
import ParticleSim.World.Record

namespace ParticleSim

open Json

def Vec.value (v : Vec) : Value :=
  .array [floatValue v.x, floatValue v.y]

def BodyState.value (body : BodyState) : Value :=
  .object [("acceleration", body.acceleration.value), ("position", body.position.value),
    ("velocity", body.velocity.value)]

/-- Everything in a state; only numbers that are not finite are lost. -/
def State.value (state : State) : Value :=
  .object
    [("bodies", .object (Fields.sorted (state.bodies.map fun (id, body) => (id, body.value)))),
      ("tick", .number (.natural state.tick)), ("time", floatValue state.time)]

section Value

variable {budget : Nat}

theorem writes_nearest (x : Float) : Writes Floats.nearest budget (floatText x) (floatValue x) :=
  writes_float Floats.nearest_inverts

theorem writes_member (key : String) {text : List Char} {value : Value}
    (writes : Writes Floats.nearest budget text value) :
    Fields.Matches (Writes Floats.nearest budget) (key, text) (key, value) :=
  ⟨rfl, writes⟩

theorem Vec.writes_record (v : Vec) : Writes Floats.nearest (budget + 1) v.record v.value :=
  writes_arrayText (.cons (writes_nearest v.x) (.cons (writes_nearest v.y) .nil))

theorem BodyState.writes_record (body : BodyState) :
    Writes Floats.nearest (budget + 2) body.record body.value := by
  have whole : Writes Floats.nearest (budget + 2) _ _ :=
    writes_objectText (.cons (writes_member "position" body.position.writes_record)
      (.cons (writes_member "velocity" body.velocity.writes_record)
        (.cons (writes_member "acceleration" body.acceleration.writes_record) .nil)))
  have members (position velocity acceleration : Value) : Fields.sorted [("position", position),
      ("velocity", velocity), ("acceleration", acceleration)] =
        [("acceleration", acceleration), ("position", position), ("velocity", velocity)] := by
    cbv
  rw [members] at whole
  exact whole

theorem writes_bodies (bodies : Fields BodyState) :
    Writes Floats.nearest (budget + 3)
      (objectText (bodies.map fun (id, body) => (id, body.record)))
      (.object (Fields.sorted (bodies.map fun (id, body) => (id, body.value)))) :=
  writes_objectText (List.forall₂_map_left_iff.mpr (List.forall₂_map_right_iff.mpr
    (List.forall₂_same.mpr fun entry _ => ⟨rfl, entry.2.writes_record⟩)))

/-- The record of a state is read as the state. -/
theorem State.ofText?_record (state : State) :
    Value.ofText? Floats.nearest state.record = some state.value := by
  have whole : Writes Floats.nearest maxDepth _ _ :=
    writes_objectText (.cons (writes_member "time" (writes_nearest state.time))
      (.cons (writes_member "tick" (writes_natural state.tick))
        (.cons (writes_member "bodies" (writes_bodies state.bodies)) .nil)))
  have members (time tick bodies : Value) : Fields.sorted [("time", time), ("tick", tick),
      ("bodies", bodies)] = [("bodies", bodies), ("tick", tick), ("time", time)] := by
    cbv
  rw [members] at whole
  exact whole.reads.ofText?

end Value

section Line

variable {texts : List (List Char)}

theorem newline_joined (each : ∀ text ∈ texts, '\n' ∉ text) : '\n' ∉ joined texts := by
  induction texts with
  | nil => exact List.not_mem_nil
  | cons text rest ih =>
    rw [List.forall_mem_cons] at each
    cases rest with
    | nil => exact each.1
    | cons other others =>
      rw [joined_cons, List.mem_append, List.mem_cons]
      rintro (member | same | member)
      · exact each.1 member
      · cases same
      · exact ih each.2 member

theorem newline_arrayText (each : ∀ text ∈ texts, '\n' ∉ text) : '\n' ∉ arrayText texts := by
  have inner := newline_joined each
  simp [arrayText, inner]

theorem newline_stringText (s : String) : '\n' ∉ stringText s := by
  simp [stringText, newline_of_written (written _)]

theorem newline_objectText {members : List (String × List Char)}
    (each : ∀ member ∈ members, '\n' ∉ member.2) : '\n' ∉ objectText members := by
  have inner : '\n' ∉ joined (members.map (memberText [])) := by
    refine newline_joined (List.forall_mem_map.mpr fun member inside => ?_)
    have value := each member inside
    have key := newline_stringText member.1
    simp [memberText, value, key]
  simp [objectText_eq, inner]

theorem newline_floatText (x : Float) : '\n' ∉ floatText x := by
  rw [floatText, Floats.text]
  split
  · next finite =>
    intro member
    have numeral := Outline.isNumeral_finiteText (Binary64.field_of_isFinite finite) _ member
    cases numeral
  · decide

theorem Vec.newline_record (v : Vec) : '\n' ∉ v.record := by
  apply newline_arrayText
  simp [newline_floatText]

theorem BodyState.newline_record (body : BodyState) : '\n' ∉ body.record := by
  apply newline_objectText
  simp [Vec.newline_record]

theorem State.newline_record (state : State) : '\n' ∉ state.record.toList := by
  have tick : '\n' ∉ Decimal.digitsOf state.tick.toNat := by
    intro member
    cases Decimal.isDigit_digitsOf _ _ member
  have bodies : '\n' ∉ objectText (state.bodies.map fun (id, body) => (id, body.record)) :=
    newline_objectText (List.forall_mem_map.mpr fun entry _ => entry.2.newline_record)
  rw [State.record, String.toList_ofList]
  apply newline_objectText
  simp [newline_floatText, tick, bodies]

end Line

/-! Text for people. -/

def Vec.Shown (places : Nat) (v : Vec) (text : String) : Prop :=
  ∃ x y, WritesRounded places v.x x ∧ WritesRounded places v.y y ∧
    text = "(" ++ x ++ ", " ++ y ++ ")"

namespace View

def ShowsBody (view : View) (entry : String × BodyState) (line : String) : Prop :=
  ∃ position velocity acceleration, entry.2.position.Shown 3 position ∧
    entry.2.velocity.Shown 3 velocity ∧ entry.2.acceleration.Shown 3 acceleration ∧
    line = "  [" ++ entry.1 ++ "] pos=" ++ position ++ " vel=" ++ velocity ++ " acc=" ++
      acceleration ++ if view.visible.contains entry.2.position then "" else " (off view)"

inductive ShowsEnergy (world : World) (state : State) : Bool → List String → Prop where
  | asked {kinetic potential total : String}
    (first : WritesRounded 4 (world.kineticEnergy state) kinetic)
    (second : WritesRounded 4 (world.potentialEnergy state) potential)
    (sum : WritesRounded 4 (world.totalEnergy state) total) : ShowsEnergy world state true
      ["Energy: kinetic=" ++ kinetic ++ " potential=" ++ potential ++ " total=" ++ total]
  | hidden : ShowsEnergy world state false []

/-- The lines for a state: the tick and the time, the name of the world if it has one, the count of
bodies, the view, the energy if it was asked for, and each body in the order of the ids. -/
inductive Shows (view : View) (world : World) (state : State) (withEnergy : Bool) :
    List String → Prop where
  | intro {time center extent : String} {energy bodies : List String}
    (clock : WritesRounded 3 state.time time) (middle : view.center.Shown 1 center)
    (size : view.extent.Shown 1 extent) (energies : ShowsEnergy world state withEnergy energy)
    (each : List.Forall₂ view.ShowsBody state.bodies bodies) :
    Shows view world state withEnergy
      (["=== Simulation State (tick=" ++ toString state.tick.toNat ++
          ", time=" ++ time ++ ") ==="] ++ (world.name.map ("Scenario: " ++ ·)).toList ++
        ["Bodies: " ++ toString state.bodies.length,
          "View: center=" ++ center ++ " extent=" ++ extent] ++ energy ++ bodies)

end View

section Text

variable (view : View) (world : World) (state : State)

theorem Vec.shown_fixed {places : Nat} (positive : 0 < places) (v : Vec) :
    v.Shown places (v.fixed places) :=
  ⟨_, _, writesRounded_fixed positive v.x, writesRounded_fixed positive v.y, rfl⟩

def unlines (lines : List String) : String :=
  String.join (lines.map (· ++ "\n"))

theorem unlines_append (lines others : List String) :
    unlines (lines ++ others) = unlines lines ++ unlines others := by
  rw [unlines, List.map_append, String.join_append, unlines, unlines]

theorem unlines_nil : unlines [] = "" := rfl

theorem unlines_cons (line : String) (rest : List String) :
    unlines (line :: rest) = line ++ "\n" ++ unlines rest := by
  rw [unlines, List.map_cons, String.join_cons, unlines]

namespace View

theorem exists_bodyText (entry : String × BodyState) :
    ∃ line, view.ShowsBody entry line ∧ view.bodyText entry.1 entry.2 = line ++ "\n" := by
  have shown := Vec.shown_fixed (show 0 < 3 by decide)
  refine ⟨_, ⟨_, _, _, shown _, shown _, shown _, rfl⟩, ?_⟩
  rw [bodyText]
  split <;> simp only [String.append_assoc] <;> rfl

theorem exists_energyText (withEnergy : Bool) : ∃ energy,
    ShowsEnergy world state withEnergy energy ∧
      (if withEnergy then energyText world state else "") = unlines energy := by
  cases withEnergy with
  | false => exact ⟨[], .hidden, rfl⟩
  | true =>
    have shown := writesRounded_fixed (show 0 < 4 by decide)
    refine ⟨_, .asked (shown (world.kineticEnergy state)) (shown (world.potentialEnergy state))
      (shown (world.totalEnergy state)), ?_⟩
    rw [unlines_cons, unlines_nil, String.append_empty]
    rfl

theorem exists_text (withEnergy : Bool) : ∃ lines, view.Shows world state withEnergy lines ∧
    view.text world state withEnergy = unlines lines := by
  rcases exists_energyText world state withEnergy with ⟨energy, energies, written⟩
  obtain ⟨bodies, each, texts⟩ : ∃ bodies, List.Forall₂ view.ShowsBody state.bodies bodies ∧
      String.join (state.bodies.map fun (id, body) => view.bodyText id body) = unlines bodies := by
    induction state.bodies with
    | nil => exact ⟨[], .nil, rfl⟩
    | cons entry rest ih =>
      rcases ih with ⟨lines, each, texts⟩
      rcases view.exists_bodyText entry with ⟨line, shows, text⟩
      refine ⟨line :: lines, .cons shows each, ?_⟩
      rw [List.map_cons, String.join_cons, texts]
      dsimp only
      rw [text, unlines_cons]
  have pair := Vec.shown_fixed (show 0 < 1 by decide)
  refine ⟨_, .intro (writesRounded_fixed (show 0 < 3 by decide) state.time) (pair view.center)
    (pair view.extent) energies each, ?_⟩
  unfold View.text
  rw [written, texts]
  have closed : ") ===\n" = ") ===" ++ "\n" := rfl
  cases world.name <;>
    simp only [closed, Option.map, Option.toList, unlines_append, unlines_cons, unlines_nil,
      String.append_assoc, String.append_empty]

end View

end Text

end ParticleSim
