import Mathlib.Data.List.Perm.Basic
import ParticleSim.Proofs.World.Stepping
/-!
Bodies do not act on each other. What a body does follows from itself and from its surroundings,
which are the pace of time, the bounds and the forces; which other bodies there are, and in which
order the document lists them, makes no difference.
-/
namespace ParticleSim

/-- Both states hold the body, in the same place and with the same velocity and acceleration. -/
def State.AgreeOn (id : String) (first second : State) : Prop :=
  ∃ now, first.bodies.get? id = some now ∧ second.bodies.get? id = some now

theorem Targets.Sound.subset {ids others : List String} {targets : Targets}
    (sound : targets.Sound ids) (subset : ids ⊆ others) : targets.Sound others := by
  cases targets with
  | all => trivial
  | only targets => exact fun id member => subset (sound id member)

theorem Force.Sound.subset {ids others : List String} {force : Force} (sound : force.Sound ids)
    (subset : ids ⊆ others) : force.Sound others := by
  cases force with
  | gravity g targets => exact ⟨sound.1, sound.2.subset subset⟩
  | drag coefficient targets => exact ⟨sound.1, sound.2.subset subset⟩
  | spring anchor body stiffness restLength => exact ⟨sound.1, subset sound.2.1, sound.2.2⟩

namespace World

variable {first second : World} {tuning : Tuning}

/-- Everything but the bodies, as far as it acts on bodies. -/
structure SameSurroundings (first second : World) : Prop where
  timeScale : first.timeScale = second.timeScale
  bounds : first.bounds = second.bounds
  forces : first.forces = second.forces

namespace SameSurroundings

variable (same : first.SameSurroundings second)
include same

theorem acceleration (body : Body) (position velocity : Vec) (minDistance : Float) :
    first.acceleration body position velocity minDistance =
      second.acceleration body position velocity minDistance := by
  rw [World.acceleration, World.acceleration, netForce, netForce, same.forces]

theorem settle (body : Body) (position velocity : Vec) :
    first.settle tuning body position velocity = second.settle tuning body position velocity := by
  rw [World.settle, World.settle, same.acceleration]

theorem startOf (body : Body) : first.startOf tuning body = second.startOf tuning body := by
  rw [World.startOf, World.startOf, same.settle]

theorem move (h : Float) (body : Body) (now : BodyState) :
    first.move tuning h body now = second.move tuning h body now := by
  rw [World.move, World.move, same.acceleration, same.bounds]

theorem advanceBody (h : Float) (body : Body) (now : BodyState) :
    first.advanceBody tuning h body now = second.advanceBody tuning h body now := by
  simp only [World.advanceBody, same.move, same.settle]

end SameSurroundings

/-! Two runs side by side. -/

theorem Run.concat_inv {steps : List Float} {dt : Float} {states : List State} {last : State}
    (run : first.Run tuning (steps ++ [dt]) states last) :
    ∃ earlier state, states = earlier ++ [state] ∧ first.Run tuning steps earlier state ∧
      first.step tuning state dt = .ok last := by
  generalize same : steps ++ [dt] = all at run
  cases run with
  | start => exact absurd same (by simp)
  | step run taken =>
    rcases List.append_inj' same rfl with ⟨rfl, equal⟩
    cases equal
    exact ⟨_, _, rfl, run, taken⟩

/-- What relates the starts of two worlds and is kept when both take the same step relates their
runs state by state. -/
theorem Run.forall₂ (related : State → State → Prop)
    (start : related (first.initialState tuning) (second.initialState tuning))
    (kept : ∀ {state next other others dt}, related state other →
      first.step tuning state dt = .ok next → second.step tuning other dt = .ok others →
      related next others)
    {steps : List Float} {earlier : List State} {last : State}
    (run : first.Run tuning steps earlier last) :
    ∀ {earlier' last'}, second.Run tuning steps earlier' last' →
      List.Forall₂ related (earlier ++ [last]) (earlier' ++ [last']) := by
  induction run with
  | start =>
    intro earlier' last' run'
    generalize same : ([] : List Float) = all at run'
    cases run' with
    | start => exact .cons start .nil
    | step => exact absurd same (by simp)
  | @step steps earlier state next dt run taken ih =>
    intro earlier' last' run'
    rcases run'.concat_inv with ⟨before, other, rfl, run', taken'⟩
    have until_now := ih run'
    have here : related state other := by
      have turned := List.forall₂_reverse_iff.mpr until_now
      rw [List.reverse_concat, List.reverse_concat] at turned
      exact (List.forall₂_cons.mp turned).1
    exact List.rel_append until_now (.cons (kept here taken taken') .nil)

/-- A body of both worlds is in the same state after the same step, if it was before. -/
theorem agreeOn_step (same : first.SameSurroundings second) (distinct : first.ids.Nodup)
    (distinct' : second.ids.Nodup) {body : Body} (member : body ∈ first.bodies)
    (member' : body ∈ second.bodies) {state next other others : State} {dt : Float}
    (agree : state.AgreeOn body.id other) (taken : first.step tuning state dt = .ok next)
    (taken' : second.step tuning other dt = .ok others) : next.AgreeOn body.id others := by
  rcases agree with ⟨now, found, found'⟩
  refine ⟨_, step_body distinct taken member, ?_⟩
  rw [step_body distinct' taken' member', same.advanceBody, same.timeScale, State.body, State.body,
    found, found']

theorem agreeOn_start (same : first.SameSurroundings second) (distinct : first.ids.Nodup)
    (distinct' : second.ids.Nodup) {body : Body} (member : body ∈ first.bodies)
    (member' : body ∈ second.bodies) :
    (first.initialState tuning).AgreeOn body.id (second.initialState tuning) := by
  refine ⟨_, get?_gather distinct _ member, ?_⟩
  rw [same.startOf]
  exact get?_gather distinct' _ member'

/-! Documents that list the same bodies in another order. -/

theorem gather_eq_of_perm (distinct : first.ids.Nodup) (perm : first.bodies.Perm second.bodies)
    {stateOf other : Body → BodyState} (same : ∀ body, stateOf body = other body) :
    first.gather stateOf = second.gather other := by
  rw [show stateOf = other from funext same]
  refine Fields.sorted_eq_of_perm ?_ (perm.map _)
  rw [Fields.keys, List.map_map]
  exact distinct

theorem Run.eq_of_perm (same : first.SameSurroundings second) (distinct : first.ids.Nodup)
    (perm : first.bodies.Perm second.bodies) {steps : List Float} {earlier earlier' : List State}
    {last last' : State} (run : first.Run tuning steps earlier last)
    (run' : second.Run tuning steps earlier' last') : earlier ++ [last] = earlier' ++ [last'] := by
  rw [← List.forall₂_eq_eq_eq]
  refine run.forall₂ Eq ?_ ?_ run'
  · have start : first.gather (first.startOf tuning) = second.gather (second.startOf tuning) :=
      gather_eq_of_perm distinct perm same.startOf
    exact congrArg (State.mk 0.0 0) start
  · intro state next other others dt equal taken taken'
    subst equal
    rcases step_eq_ok.mp taken with ⟨-, -, rfl⟩
    rcases step_eq_ok.mp taken' with ⟨-, -, rfl⟩
    rw [same.timeScale, gather_eq_of_perm distinct perm fun body => same.advanceBody ..]

theorem Sound.permuted (sound : first.Sound) {bodies : List Body}
    (perm : first.bodies.Perm bodies) : Sound { first with bodies := bodies } where
  timeScale := sound.timeScale
  bounds := sound.bounds
  bodies := fun body member => sound.bodies body (perm.symm.subset member)
  distinct := (perm.map Body.id).nodup sound.distinct
  forces := fun force member =>
    (sound.forces force member).subset (perm.map Body.id).subset

theorem ofNode_permuted {fields : Fields Node} {items items' : List Node} {world : World}
    (found : fields.get? "bodies" = some (.sequence items)) (perm : items.Perm items')
    (built : ofNode (.mapping fields) = .ok world) :
    ∃ bodies, world.bodies.Perm bodies ∧
      ofNode (.mapping (fields.insert "bodies" (.sequence items'))) =
        .ok { world with bodies := bodies } := by
  rcases sound_of_ofNode built with ⟨⟨_, mapping, name, timeScale, bounds, ⟨_, found', _, sequence,
    all⟩, forces⟩, sound⟩
  cases mapping
  rw [found] at found'
  cases found'
  cases sequence
  rcases List.perm_comp_forall₂ perm.symm all with ⟨bodies, all, perm'⟩
  refine ⟨bodies, perm'.symm, ofNode_of_sound ?_ (sound.permuted perm'.symm)⟩
  refine ⟨_, rfl, ?_, ?_, ?_, ⟨.sequence items', ?_, items', rfl, all⟩, ?_⟩
  · rwa [Optional, Defaulted, Fields.get?_insert, if_neg (by decide)]
  · rwa [Defaulted, Fields.get?_insert, if_neg (by decide)]
  · rwa [Optional, Defaulted, Fields.get?_insert, if_neg (by decide)]
  · rw [Fields.get?_insert, if_pos rfl]
  · rwa [Defaulted, Fields.get?_insert, if_neg (by decide)]

/-- Two worlds that differ in their bodies alone take the same steps, and a body of both is in the
same state all along. Listing the bodies of a document in another order changes no state at all and
no hash of one. -/
theorem bodies_independent (tuning : Tuning) (steps : List Float)
    (accepted : ∀ dt ∈ steps, dt.isFinite = true ∧ 0.0 < dt) :
    (∀ (node other : Node) (first second : World), ofNode node = .ok first →
      ofNode other = .ok second → first.SameSurroundings second →
      (∃ earlier last, first.Run tuning steps earlier last) ∧
      (∃ earlier last, second.Run tuning steps earlier last) ∧
      ∀ earlier last earlier' last', first.Run tuning steps earlier last →
        second.Run tuning steps earlier' last' →
        ∀ body ∈ first.bodies, body ∈ second.bodies →
          List.Forall₂ (State.AgreeOn body.id) (earlier ++ [last]) (earlier' ++ [last'])) ∧
    ∀ (fields : Fields Node) (items items' : List Node) (world : World),
      fields.get? "bodies" = some (.sequence items) → items.Perm items' →
      ofNode (.mapping fields) = .ok world →
      ∃ permuted, ofNode (.mapping (fields.insert "bodies" (.sequence items'))) = .ok permuted ∧
        (∃ earlier last, permuted.Run tuning steps earlier last) ∧
        ∀ earlier last earlier' last', world.Run tuning steps earlier last →
          permuted.Run tuning steps earlier' last' →
          earlier ++ [last] = earlier' ++ [last'] ∧
            (earlier ++ [last]).map State.hash = (earlier' ++ [last']).map State.hash := by
  refine ⟨?_, ?_⟩
  · intro node other first second built built' same
    have distinct : first.ids.Nodup := (sound_of_ofNode built).2.distinct
    have distinct' : second.ids.Nodup := (sound_of_ofNode built').2.distinct
    refine ⟨exists_run distinct steps accepted, exists_run distinct' steps accepted, ?_⟩
    intro earlier last earlier' last' run run' body member member'
    exact run.forall₂ (State.AgreeOn body.id) (agreeOn_start same distinct distinct' member member')
      (agreeOn_step same distinct distinct' member member') run'
  · intro fields items items' world found perm built
    have distinct : world.ids.Nodup := (sound_of_ofNode built).2.distinct
    rcases ofNode_permuted found perm built with ⟨bodies, permuted, built'⟩
    refine ⟨_, built', exists_run (sound_of_ofNode built').2.distinct steps accepted, ?_⟩
    intro earlier last earlier' last' run run'
    have same : world.SameSurroundings { world with bodies := bodies } := ⟨rfl, rfl, rfl⟩
    have equal := run.eq_of_perm same distinct permuted run'
    exact ⟨equal, congrArg _ equal⟩

end World

def Node.bob : Node :=
  .mapping [("id", .ofString "bob"), ("mass", .ofInt64 2),
    ("position", .mapping [("x", .ofInt64 0), ("y", .ofInt64 1)])]

def Node.pin : Node :=
  .mapping [("id", .ofString "pin"), ("kind", .ofString "fixed"), ("mass", .ofInt64 1),
    ("position", .mapping [("x", .ofInt64 3), ("y", .ofInt64 0)])]

def Node.weighed (bodies : List Node) : Fields Node :=
  [("bodies", .sequence bodies),
    ("forces", .sequence [.mapping [("kind", .ofString "gravity"),
      ("g", .mapping [("x", .ofInt64 0), ("y", .ofInt64 (-10))])]])]

def Body.bob : Body := ⟨"bob", .particle, 2, ⟨0, 1⟩, Vec.zero⟩
def Body.pin : Body := ⟨"pin", .fixed, 1, ⟨3, 0⟩, Vec.zero⟩

def World.weighed (bodies : List Body) : World :=
  { name := none, timeScale := 1.0, bounds := none, bodies := bodies,
    forces := [.gravity ⟨0, -10⟩ .all] }

theorem World.bodies_independent_bob :
    (∀ dt ∈ ([0.5, 2.0] : List Float), dt.isFinite = true ∧ 0.0 < dt) ∧
      ofNode (.mapping (Node.weighed [Node.pin, Node.bob])) = .ok (weighed [Body.pin, Body.bob]) ∧
      ofNode (.mapping (Node.weighed [Node.bob])) = .ok (weighed [Body.bob]) ∧
      (∀ earlier last earlier' last',
        (weighed [Body.pin, Body.bob]).Run {} [0.5, 2.0] earlier last →
        (weighed [Body.bob]).Run {} [0.5, 2.0] earlier' last' →
        List.Forall₂ (State.AgreeOn "bob") (earlier ++ [last]) (earlier' ++ [last'])) ∧
      ∃ permuted, ofNode (.mapping (Node.weighed [Node.bob, Node.pin])) = .ok permuted ∧
        (∃ earlier last, permuted.Run {} [0.5, 2.0] earlier last) ∧
        ∀ earlier last earlier' last',
          (weighed [Body.pin, Body.bob]).Run {} [0.5, 2.0] earlier last →
          permuted.Run {} [0.5, 2.0] earlier' last' →
          earlier ++ [last] = earlier' ++ [last'] ∧
            (earlier ++ [last]).map State.hash = (earlier' ++ [last']).map State.hash := by
  have accepted : ∀ dt ∈ ([0.5, 2.0] : List Float), dt.isFinite = true ∧ 0.0 < dt := by
    decide +kernel
  have both : ofNode (.mapping (Node.weighed [Node.pin, Node.bob])) =
      .ok (weighed [Body.pin, Body.bob]) := by rfl
  have alone : ofNode (.mapping (Node.weighed [Node.bob])) = .ok (weighed [Body.bob]) := by rfl
  have independent := bodies_independent {} [0.5, 2.0] accepted
  refine ⟨accepted, both, alone, ?_, ?_⟩
  · intro earlier last earlier' last' run run'
    exact (independent.1 _ _ _ _ both alone ⟨rfl, rfl, rfl⟩).2.2 earlier last earlier' last' run
      run' Body.bob (by simp [weighed]) (by simp [weighed])
  · exact independent.2 (Node.weighed [Node.pin, Node.bob]) _ [Node.bob, Node.pin] _ rfl
      (.swap ..) both

end ParticleSim
