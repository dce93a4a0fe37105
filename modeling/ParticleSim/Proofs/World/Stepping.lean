import Mathlib.Data.List.Induction
import ParticleSim.Proofs.Tree.Fields
import ParticleSim.Proofs.World.Reading
import ParticleSim.World.Motion

namespace ParticleSim

/-- The state of a body, which is that of a body at rest in the origin if it has none. -/
def State.body (state : State) (id : String) : BodyState :=
  (state.bodies.get? id).getD ⟨Vec.zero, Vec.zero, Vec.zero⟩

namespace World

variable {world : World} {tuning : Tuning}

def ids (world : World) : List String := world.bodies.map Body.id

def gather (world : World) (stateOf : Body → BodyState) : Fields BodyState :=
  Fields.sorted (world.bodies.map fun body => (body.id, stateOf body))

section Gather

variable (distinct : world.ids.Nodup) (stateOf : Body → BodyState)
include distinct

theorem gather_perm :
    (world.gather stateOf).Perm (world.bodies.map fun body => (body.id, stateOf body)) := by
  apply Fields.sorted_perm
  rw [Fields.keys, List.map_map]
  exact distinct

theorem keys_gather : (world.gather stateOf).keys.Perm world.ids := by
  have same := (gather_perm distinct stateOf).map Prod.fst
  rwa [List.map_map] at same

theorem get?_gather {body : Body} (member : body ∈ world.bodies) :
    (world.gather stateOf).get? body.id = some (stateOf body) :=
  Fields.get?_of_mem ((keys_gather distinct stateOf).symm.nodup distinct)
    ((gather_perm distinct stateOf).symm.subset (List.mem_map.mpr ⟨body, member, rfl⟩))

end Gather

section Steps

variable {state next : State} {dt : Float} {body : Body}

theorem body?_isNone_iff {id : String} : (world.body? id).isNone = true ↔ id ∉ world.ids := by
  simp only [body?, ids, Option.isNone_iff_eq_none, List.find?_eq_none, beq_iff_eq, List.mem_map,
    not_exists, not_and]

theorem stranger_eq_none_iff :
    (state.bodies.find? fun entry => (world.body? entry.1).isNone) = none ↔
      ∀ id ∈ state.bodies.keys, id ∈ world.ids := by
  simp only [List.find?_eq_none, body?_isNone_iff, not_not, Fields.keys, List.forall_mem_map]

theorem mapM_eq_ok_map {ε α β : Type} {read : α → Except ε β} (present : α → Prop) (value : α → β)
    (reads : ∀ item other, read item = .ok other ↔ present item ∧ other = value item)
    {items : List α} {values : List β} :
    items.mapM read = .ok values ↔ (∀ item ∈ items, present item) ∧ values = items.map value := by
  induction items generalizing values with
  | nil => rw [List.mapM_nil, pure_eq_ok]; simp [eq_comm]
  | cons item rest ih =>
    rw [List.mapM_cons]
    simp only [bind_eq_ok, pure_eq_ok, ih, reads, List.forall_mem_cons, List.map_cons]
    constructor
    · intro given
      rcases given with ⟨_, ⟨here, rfl⟩, _, ⟨there, rfl⟩, rfl⟩
      exact ⟨⟨here, there⟩, rfl⟩
    · intro given
      rcases given with ⟨⟨here, there⟩, rfl⟩
      exact ⟨_, ⟨here, rfl⟩, _, ⟨there, rfl⟩, rfl⟩

/-- All that a step does: it takes an accepted time from a state of the world's bodies, moves each
of them, and counts. -/
theorem step_eq_ok : world.step tuning state dt = .ok next ↔
    Magnitude (0.0 < ·) dt ∧ (∀ id, id ∈ state.bodies.keys ↔ id ∈ world.ids) ∧
      next = ⟨state.time + dt * world.timeScale, state.tick + 1, world.gather fun body =>
        world.advanceBody tuning (dt * world.timeScale) body (state.body body.id)⟩ := by
  rw [step, guard_eq_ok, Bool.not_eq_false', Bool.and_eq_true, decide_eq_true_eq]
  refine and_congr Iff.rfl ?_
  cases stranger : state.bodies.find? fun entry => (world.body? entry.1).isNone with
  | some entry =>
    constructor
    · intro impossible
      cases impossible
    · intro given
      rw [stranger_eq_none_iff.mpr fun id => (given.1 id).mp] at stranger
      cases stranger
  | none =>
    have known := stranger_eq_none_iff.mp stranger
    refine bind_eq_ok.trans ((exists_congr fun entries => and_congr (mapM_eq_ok_map
      (fun body => body.id ∈ state.bodies.keys)
      (fun body => (body.id,
        world.advanceBody tuning (dt * world.timeScale) body (state.body body.id))) ?_)
      (pure_eq_ok.trans eq_comm)).trans ?_)
    · intro body entry
      cases found : state.bodies.get? body.id with
      | none =>
        have absent := Fields.get?_eq_none_iff.mp found
        simp [throw, throwThe, MonadExceptOf.throw, absent]
      | some now =>
        have present : body.id ∈ state.bodies.keys :=
          List.mem_map_of_mem (Fields.mem_of_get? found)
        simp [pure, Except.pure, present, State.body, found, eq_comm]
    · constructor
      · intro given
        rcases given with ⟨_, ⟨present, rfl⟩, rfl⟩
        exact ⟨fun id => ⟨known id, fun member => List.forall_mem_map.mpr present id member⟩, rfl⟩
      · intro given
        rcases given with ⟨same, rfl⟩
        exact ⟨_, ⟨fun body member => (same _).mpr (List.mem_map_of_mem member), rfl⟩, rfl⟩

theorem step_of_refused (refused : ¬Magnitude (0.0 < ·) dt) :
    world.step tuning state dt = .error (.invalidTimestep dt) := by
  rw [step, if_pos (refused_iff.mpr refused)]
  rfl

theorem step_tick (taken : world.step tuning state dt = .ok next) :
    next.tick = state.tick + 1 := by
  rcases step_eq_ok.mp taken with ⟨-, -, rfl⟩
  rfl

theorem step_body (distinct : world.ids.Nodup) (taken : world.step tuning state dt = .ok next)
    (member : body ∈ world.bodies) : next.bodies.get? body.id =
      some (world.advanceBody tuning (dt * world.timeScale) body (state.body body.id)) := by
  rcases step_eq_ok.mp taken with ⟨-, -, rfl⟩
  exact get?_gather distinct _ member

theorem exists_step (same : ∀ id, id ∈ state.bodies.keys ↔ id ∈ world.ids)
    (accepted : Magnitude (0.0 < ·) dt) : ∃ next, world.step tuning state dt = .ok next :=
  ⟨_, step_eq_ok.mpr ⟨accepted, same, rfl⟩⟩

end Steps

/-- The timesteps are taken one after the other from the start, through earlier states to a last
one. -/
inductive Run (world : World) (tuning : Tuning) : List Float → List State → State → Prop where
  | start : Run world tuning [] [] (world.initialState tuning)
  | step {steps : List Float} {earlier : List State} {state next : State} {dt : Float}
      (run : Run world tuning steps earlier state) (taken : world.step tuning state dt = .ok next) :
      Run world tuning (steps ++ [dt]) (earlier ++ [state]) next

/-- What holds of a state at any time: it has the bodies of the world, the fixed ones where they
began, and the acceleration of each belongs to its place and velocity in this very state. -/
structure Consistent (world : World) (tuning : Tuning) (state : State) : Prop where
  ids : state.bodies.keys.Perm world.ids
  fixed : ∀ body ∈ world.bodies, body.kind = .fixed →
    state.bodies.get? body.id = some ⟨body.position, Vec.zero, Vec.zero⟩
  finite : ∀ body ∈ world.bodies, ∀ now ∈ state.bodies.get? body.id,
    now.acceleration.isFinite = true
  settled : ∀ body ∈ world.bodies, ∀ now ∈ state.bodies.get? body.id, now.acceleration =
    world.acceleration body now.position now.velocity tuning.minDistance

theorem isFinite_acceleration (body : Body) (position velocity : Vec) (minDistance : Float) :
    (world.acceleration body position velocity minDistance).isFinite = true := by
  have zero : Vec.zero.isFinite = true := by decide +kernel
  rw [acceleration]
  cases body.kind with
  | fixed => exact zero
  | particle =>
    dsimp only
    split
    · next finite => exact finite
    · exact zero

theorem settle_fixed {body : Body} (fixed : body.kind = .fixed) (position : Vec) :
    world.settle tuning body position Vec.zero = ⟨position, Vec.zero, Vec.zero⟩ := by
  rw [settle, acceleration, fixed]

/-- Whatever is done to the bodies, if they settle where they end up and the fixed ones stay, the
state is consistent. -/
theorem consistent_gather (distinct : world.ids.Nodup) (place : Body → Vec × Vec) {time : Float}
    {tick : UInt64} (stays : ∀ body ∈ world.bodies, body.kind = .fixed →
      place body = (body.position, Vec.zero)) : world.Consistent tuning
        ⟨time, tick, world.gather fun body =>
          world.settle tuning body (place body).1 (place body).2⟩ := by
  refine ⟨keys_gather distinct _, ?_, ?_, ?_⟩
  · intro body member fixed
    rw [get?_gather distinct _ member, stays body member fixed, settle_fixed fixed]
  · intro body member now found
    rw [get?_gather distinct _ member] at found
    cases found
    exact isFinite_acceleration ..
  · intro body member now found
    rw [get?_gather distinct _ member] at found
    cases found
    rfl

theorem consistent_initialState (distinct : world.ids.Nodup) :
    world.Consistent tuning (world.initialState tuning) := by
  refine consistent_gather distinct (fun body =>
    ((world.startOf tuning body).position, (world.startOf tuning body).velocity)) ?_
  intro body _ fixed
  rw [startOf, fixed]
  rfl

theorem Consistent.step (distinct : world.ids.Nodup) {state next : State} {dt : Float}
    (consistent : world.Consistent tuning state) (taken : world.step tuning state dt = .ok next) :
    world.Consistent tuning next := by
  rcases step_eq_ok.mp taken with ⟨-, -, rfl⟩
  refine consistent_gather distinct
    (fun body => world.move tuning (dt * world.timeScale) body (state.body body.id)) ?_
  intro body member fixed
  rw [move, fixed, State.body, consistent.fixed body member fixed]
  rfl

theorem Run.length {steps : List Float} {earlier : List State} {last : State}
    (run : world.Run tuning steps earlier last) : earlier.length = steps.length := by
  induction run with
  | start => rfl
  | step _ _ ih => rw [List.length_append, List.length_append, ih]; rfl

theorem getElem?_concat_eq_some {α : Type} {items : List α} {last item : α} {i : Nat} :
    (items ++ [last])[i]? = some item ↔ items[i]? = some item ∨ i = items.length ∧ last = item := by
  rcases Nat.lt_trichotomy i items.length with before | rfl | behind
  · rw [List.getElem?_append_left before, or_iff_left fun both => Nat.ne_of_lt before both.1]
  · simp
  · rw [List.getElem?_eq_none (by simpa using Nat.succ_le_of_lt behind),
      List.getElem?_eq_none (Nat.le_of_lt behind)]
    simp [Nat.ne_of_gt behind]

/-- A condition on the start that every step keeps, with the timesteps so far, holds of all states
that a run passes through. -/
theorem Run.along (condition : List Float → State → Prop)
    (start : condition [] (world.initialState tuning))
    (kept : ∀ steps state dt next, condition steps state →
      world.step tuning state dt = .ok next → condition (steps ++ [dt]) next)
    {steps : List Float} {earlier : List State} {last : State}
    (run : world.Run tuning steps earlier last) :
    ∀ (i : Nat) (state : State), (earlier ++ [last])[i]? = some state →
      condition (steps.take i) state := by
  induction run with
  | start =>
    intro i state found
    rcases getElem?_concat_eq_some.mp found with impossible | ⟨rfl, rfl⟩
    · cases impossible
    · exact start
  | @step steps earlier state next dt run taken ih =>
    intro i other found
    rcases getElem?_concat_eq_some.mp found with before | ⟨rfl, rfl⟩
    · have bound := (List.getElem?_eq_some_iff.mp before).1
      rw [List.length_append, run.length] at bound
      rw [List.take_append_of_le_length (Nat.le_of_lt_succ bound)]
      exact ih i other before
    · have here := ih earlier.length state (getElem?_concat_eq_some.mpr (.inr ⟨rfl, rfl⟩))
      rw [List.take_of_length_le (Nat.le_of_eq run.length.symm)] at here
      rw [List.take_of_length_le (by simp [run.length])]
      exact kept steps state dt next here taken

theorem Run.invariant (condition : Nat → State → Prop)
    (start : condition 0 (world.initialState tuning))
    (kept : ∀ i state dt next, condition i state → world.step tuning state dt = .ok next →
      condition (i + 1) next)
    {steps : List Float} {earlier : List State} {last : State}
    (run : world.Run tuning steps earlier last) :
    ∀ (i : Nat) (state : State), (earlier ++ [last])[i]? = some state → condition i state := by
  intro i state found
  have bound := (List.getElem?_eq_some_iff.mp found).1
  rw [List.length_append, run.length] at bound
  have held := run.along (fun steps state => condition steps.length state) start
    (fun steps state dt next here taken => by
      rw [List.length_append]
      exact kept steps.length state dt next here taken) i state found
  rwa [List.length_take, Nat.min_eq_left (Nat.le_of_lt_succ bound)] at held

theorem Run.tick {steps : List Float} {earlier : List State} {last : State}
    (run : world.Run tuning steps earlier last) :
    ∀ (i : Nat) (state : State), (earlier ++ [last])[i]? = some state →
      state.tick = UInt64.ofNat i := by
  refine run.invariant (fun i state => state.tick = UInt64.ofNat i) rfl ?_
  intro i state dt next same taken
  rw [step_tick taken, same, UInt64.ofNat_add]
  rfl

theorem Run.ticks {steps : List Float} {earlier : List State} {last : State}
    (run : world.Run tuning steps earlier last) :
    earlier.map State.tick = (List.range steps.length).map UInt64.ofNat := by
  apply List.ext_getElem
  · rw [List.length_map, List.length_map, List.length_range, run.length]
  · intro i left right
    rw [List.length_map] at left
    have found : (earlier ++ [last])[i]? = some earlier[i] := by
      rw [List.getElem?_append_left left, List.getElem?_eq_getElem left]
    rw [List.getElem_map, List.getElem_map, List.getElem_range, run.tick i _ found]

/-- As long as the counter does not overflow, the states are numbered from zero. -/
theorem Run.ticks_toNat {steps : List Float} {earlier : List State} {last : State}
    (run : world.Run tuning steps earlier last) (few : steps.length < UInt64.size) :
    (earlier ++ [last]).map (fun state => state.tick.toNat) = List.range (steps.length + 1) := by
  apply List.ext_getElem
  · rw [List.length_map, List.length_range, List.length_append, run.length, List.length_singleton]
  · intro i left right
    rw [List.length_map] at left
    rw [List.length_range] at right
    have small : i < UInt64.size := by omega
    rw [List.getElem_map, List.getElem_range, run.tick i _ (List.getElem?_eq_getElem left),
      UInt64.toNat_ofNat_of_lt' small]

theorem Run.consistent (distinct : world.ids.Nodup) {steps : List Float} {earlier : List State}
    {last : State} (run : world.Run tuning steps earlier last) :
    ∀ (i : Nat) (state : State), (earlier ++ [last])[i]? = some state →
      world.Consistent tuning state :=
  run.invariant (fun _ state => world.Consistent tuning state)
    (consistent_initialState distinct) fun _ _ _ _ consistent taken =>
      consistent.step distinct taken

theorem exists_run (distinct : world.ids.Nodup) (steps : List Float)
    (accepted : ∀ dt ∈ steps, Magnitude (0.0 < ·) dt) :
    ∃ earlier last, world.Run tuning steps earlier last := by
  induction steps using List.reverseRecOn with
  | nil => exact ⟨[], _, .start⟩
  | append_singleton steps dt ih =>
    rw [List.forall_mem_append, List.forall_mem_singleton] at accepted
    rcases ih accepted.1 with ⟨earlier, last, run⟩
    have consistent := run.consistent distinct _ last
      (getElem?_concat_eq_some.mpr (.inr ⟨rfl, rfl⟩))
    have continues : ∃ next, world.step tuning last dt = .ok next :=
      exists_step (fun id => consistent.ids.mem_iff) accepted.2
    rcases continues with ⟨next, taken⟩
    exact ⟨_, next, .step run taken⟩

/-- A world that is read from a document can be stepped by any accepted timesteps, and each state on
the way carries its number and is consistent. -/
theorem run_of_ofNode (node : Node) (world : World) (built : ofNode node = .ok world)
    (tuning : Tuning) (steps : List Float) (accepted : ∀ dt ∈ steps, dt.isFinite = true ∧ 0.0 < dt)
    (few : steps.length < UInt64.size) :
    ∃ earlier last, world.Run tuning steps earlier last ∧ earlier.length = steps.length ∧
      ∀ i state, (earlier ++ [last])[i]? = some state →
        state.tick.toNat = i ∧ world.Consistent tuning state := by
  have distinct : world.ids.Nodup := (sound_of_ofNode built).2.distinct
  rcases exists_run distinct steps accepted with ⟨earlier, last, run⟩
  refine ⟨earlier, last, run, run.length, fun i state found => ⟨?_, ?_⟩⟩
  · have bound := (List.getElem?_eq_some_iff.mp found).1
    rw [List.length_append, List.length_singleton, run.length] at bound
    have small : i < UInt64.size := by omega
    rw [run.tick i state found, UInt64.toNat_ofNat_of_lt' small]
  · exact run.consistent distinct i state found

end World

/-- A falling body, and a fixed one that was written outside the walls and with a velocity. -/
def Node.pinned : Node :=
  let point (x y : Int64) : Node := .mapping [("x", .ofInt64 x), ("y", .ofInt64 y)]
  .mapping
    [("bounds", .mapping
      [("min", point (-1) (-1)), ("max", point 1 1), ("policy", .ofString "clamp")]),
    ("bodies", .sequence
      [.mapping [("id", .ofString "pin"), ("kind", .ofString "fixed"), ("mass", .ofInt64 1),
          ("position", point 3 0), ("velocity", point 1 1)],
        .mapping [("id", .ofString "bob"), ("mass", .ofInt64 2), ("position", point 0 1)]]),
    ("forces", .sequence [.mapping [("kind", .ofString "gravity"), ("g", point 0 (-10))]])]

def World.pinned : World :=
  { name := none
    timeScale := 1
    bounds := some ⟨⟨⟨-1, -1⟩, ⟨1, 1⟩⟩, .clamp⟩
    bodies := [⟨"pin", .fixed, 1, ⟨3, 0⟩, ⟨1, 1⟩⟩, ⟨"bob", .particle, 2, ⟨0, 1⟩, Vec.zero⟩]
    forces := [.gravity ⟨0, -10⟩ .all] }

theorem World.run_of_ofNode_pinned :
    ofNode Node.pinned = .ok pinned ∧
      (∀ dt ∈ ([0.5, 2.0] : List Float), dt.isFinite = true ∧ 0.0 < dt) ∧
      ([0.5, 2.0] : List Float).length < UInt64.size ∧
      ∃ earlier last, pinned.Run {} [0.5, 2.0] earlier last ∧
        earlier.length = 2 ∧
        ∀ (i : Nat) (state : State), (earlier ++ [last])[i]? = some state →
          state.tick.toNat = i ∧ pinned.Consistent {} state := by
  have built : ofNode Node.pinned = .ok pinned := by
    rfl
  have accepted : ∀ dt ∈ ([0.5, 2.0] : List Float), dt.isFinite = true ∧ 0.0 < dt := by
    decide +kernel
  exact ⟨built, accepted, by decide, run_of_ofNode _ _ built {} _ accepted (by decide)⟩

end ParticleSim
