import ParticleSim.Proofs.World.Document
import ParticleSim.World.Build

namespace ParticleSim.World

section Combinators

variable {ε α β : Type}

theorem bind_eq_ok {result : Except ε α} {next : α → Except ε β} {value : β} :
    (result >>= next) = .ok value ↔ ∃ first, result = .ok first ∧ next first = .ok value := by
  cases result with
  | error e => simp [bind, Except.bind]
  | ok first => simp [bind, Except.bind]

theorem pure_eq_ok {value other : α} :
    (pure value : Except ε α) = .ok other ↔ value = other := by
  simp [pure, Except.pure]

theorem guard_eq_ok {fails : Bool} {fault : ε} {skipped : PUnit → Except ε α}
    {next : Except ε α} {value : α} :
    (if fails = true then throw fault >>= skipped else next) = .ok value ↔
      fails = false ∧ next = .ok value := by
  cases fails with
  | true =>
    constructor
    · intro impossible
      cases impossible
    · intro given
      rcases given with ⟨impossible, -⟩
      cases impossible
  | false => simp

theorem shape_eq_ok {expected : String} {view : Node → Option α} {node : Node} {path : Path}
    {value : α} : shape expected view node path = .ok value ↔ view node = some value := by
  rw [shape]
  cases view node <;> simp

/-- The reader succeeds with exactly the sound values that a node writes. -/
def Accepts (read : Read α) (writes : Node → α → Prop) (sound : α → Prop) : Prop :=
  ∀ node path value, read node path = .ok value ↔ writes node value ∧ sound value

variable {read : Read α} {writes : Node → α → Prop} {sound : α → Prop}
  (accepts : Accepts read writes sound) {fields : Fields Node} {path : Path} {key : String}
include accepts

theorem required_eq_ok {value : α} :
    required read fields path key = .ok value ↔ Required key writes fields value ∧ sound value := by
  rw [required, Required]
  cases fields.get? key with
  | none => simp
  | some node => simp [accepts node (path.key key) value]

theorem optional_eq_ok {value : Option α} :
    optional read fields path key = .ok value ↔
      Optional key writes fields value ∧ ∀ found ∈ value, sound found := by
  rw [optional, Optional, Defaulted]
  cases fields.get? key with
  | none =>
    constructor
    · intro same
      cases same
      exact ⟨rfl, by simp⟩
    · intro given
      rcases given with ⟨rfl, -⟩
      rfl
  | some node =>
    have same := accepts node (path.key key)
    dsimp only
    cases result : read node (path.key key) with
    | error e =>
      constructor
      · intro impossible
        cases impossible
      · intro given
        rcases given with ⟨⟨found, rfl, writes⟩, good⟩
        have succeeds := (same found).mpr ⟨writes, good found rfl⟩
        rw [result] at succeeds
        cases succeeds
    | ok first =>
      rcases (same first).mp result with ⟨writes, good⟩
      constructor
      · intro read
        cases read
        exact ⟨⟨first, rfl, writes⟩, by simpa using good⟩
      · intro given
        rcases given with ⟨⟨found, rfl, writes'⟩, good'⟩
        have succeeds := (same found).mpr ⟨writes', good' found rfl⟩
        rw [result] at succeeds
        cases succeeds
        rfl

theorem optional_getD_eq_ok {default value : α} (fine : sound default) :
    (∃ found, optional read fields path key = .ok found ∧ found.getD default = value) ↔
      Defaulted key default writes fields value ∧ sound value := by
  simp only [optional_eq_ok accepts, Optional, Defaulted]
  cases fields.get? key with
  | none =>
    constructor
    · intro given
      rcases given with ⟨_, ⟨rfl, -⟩, rfl⟩
      exact ⟨rfl, fine⟩
    · intro given
      rcases given with ⟨rfl, -⟩
      exact ⟨none, ⟨rfl, by simp⟩, rfl⟩
  | some node =>
    constructor
    · intro given
      rcases given with ⟨_, ⟨⟨found, rfl, writes⟩, good⟩, rfl⟩
      exact ⟨writes, good found rfl⟩
    · intro given
      rcases given with ⟨writes, good⟩
      exact ⟨some value, ⟨⟨value, rfl, writes⟩, by simpa using good⟩, rfl⟩

theorem mapM_eq_ok {items : List Node} {start : Nat} {values : List α} :
    (items.zipIdx start).mapM (fun (item, i) => read item (path.index i)) = .ok values ↔
      List.Forall₂ writes items values ∧ ∀ value ∈ values, sound value := by
  induction items generalizing start values with
  | nil =>
    rw [List.zipIdx_nil, List.mapM_nil, pure_eq_ok]
    constructor
    · intro equal
      subst equal
      exact ⟨.nil, by simp⟩
    · intro given
      rcases given with ⟨none, -⟩
      cases none
      rfl
  | cons item rest ih =>
    rw [List.zipIdx_cons, List.mapM_cons, bind_eq_ok]
    simp only [bind_eq_ok, pure_eq_ok, ih, accepts item _ _]
    constructor
    · intro given
      rcases given with ⟨first, ⟨writes, good⟩, others, ⟨all, allGood⟩, rfl⟩
      exact ⟨.cons writes all, List.forall_mem_cons.mpr ⟨good, allGood⟩⟩
    · intro given
      rcases given with ⟨all, allGood⟩
      cases all with
      | cons writes all =>
        rcases List.forall_mem_cons.mp allGood with ⟨good, allGood⟩
        exact ⟨_, ⟨writes, good⟩, _, ⟨all, allGood⟩, rfl⟩

end Combinators

/-! One lemma for each reader. -/

theorem accepts_string : Accepts string Node.WritesString fun _ => True := by
  intro node path value
  rw [string, shape_eq_ok, and_true]
  rfl

theorem accepts_numberThat (condition : Float → Bool) :
    Accepts (numberThat condition) Node.WritesNumber (Magnitude (condition · = true)) := by
  intro node path x
  rw [numberThat, bind_eq_ok]
  simp only [shape_eq_ok]
  constructor
  · intro given
    rcases given with ⟨first, writes, checked⟩
    split at checked
    · next passes =>
      rw [Bool.and_eq_true] at passes
      cases checked
      exact ⟨writes, passes⟩
    · cases checked
  · intro given
    rcases given with ⟨writes, finite, holds⟩
    refine ⟨x, writes, ?_⟩
    rw [finite, holds]
    rfl

theorem accepts_positive : Accepts positive Node.WritesNumber (Magnitude (0.0 < ·)) := by
  intro node path x
  rw [positive, accepts_numberThat]
  simp only [Magnitude, decide_eq_true_eq]

theorem accepts_nonNegative : Accepts nonNegative Node.WritesNumber (Magnitude (0.0 ≤ ·)) := by
  intro node path x
  rw [nonNegative, accepts_numberThat]
  simp only [Magnitude, decide_eq_true_eq]

theorem accepts_number : Accepts number Node.WritesNumber fun x => x.isFinite = true := by
  intro node path x
  rw [number, accepts_numberThat]
  simp only [Magnitude, and_true]

theorem accepts_vector : Accepts vector Node.WritesVec Vec.Sound := by
  intro node path v
  simp only [vector, bind_eq_ok, mapping, shape_eq_ok, required_eq_ok accepts_number, pure_eq_ok]
  constructor
  · intro given
    rcases given with ⟨fields, mapping, x, ⟨writesX, finiteX⟩, y, ⟨writesY, finiteY⟩, rfl⟩
    exact ⟨⟨fields, mapping, writesX, writesY⟩, finiteX, finiteY⟩
  · intro given
    rcases given with ⟨⟨fields, mapping, writesX, writesY⟩, finiteX, finiteY⟩
    exact ⟨fields, mapping, v.x, ⟨writesX, finiteX⟩, v.y, ⟨writesY, finiteY⟩, rfl⟩

theorem accepts_policy : Accepts policy Node.WritesPolicy fun _ => True := by
  intro node path value
  rw [policy, bind_eq_ok, Node.WritesPolicy]
  simp only [string, shape_eq_ok, and_true]
  constructor
  · intro given
    rcases given with ⟨name, string, chosen⟩
    split at chosen
    · next same => cases chosen; rw [string, same]; rfl
    · split at chosen
      · next same => cases chosen; rw [string, same]; rfl
      · cases chosen
  · intro string
    refine ⟨_, string, ?_⟩
    cases value <;> rfl

theorem accepts_bodyKind : Accepts bodyKind Node.WritesKind fun _ => True := by
  intro node path value
  rw [bodyKind, bind_eq_ok, Node.WritesKind]
  simp only [string, shape_eq_ok, and_true]
  constructor
  · intro given
    rcases given with ⟨name, string, chosen⟩
    split at chosen
    · next same => cases chosen; rw [string, same]; rfl
    · split at chosen
      · next same => cases chosen; rw [string, same]; rfl
      · cases chosen
  · intro string
    refine ⟨_, string, ?_⟩
    cases value <;> rfl

theorem accepts_readBounds : Accepts readBounds Node.WritesBounds Bounds.Sound := by
  intro node path bounds
  simp only [readBounds, bind_eq_ok, mapping, shape_eq_ok, required_eq_ok accepts_vector,
    guard_eq_ok, required_eq_ok accepts_policy, pure_eq_ok, Bool.not_eq_false', Bool.and_eq_true,
    decide_eq_true_eq]
  constructor
  · intro given
    rcases given with ⟨fields, mapping, low, ⟨min, minSound⟩, high, ⟨max, maxSound⟩, ⟨width,
      height⟩, policy, ⟨writes, -⟩, rfl⟩
    exact ⟨⟨fields, mapping, min, max, writes⟩, minSound, maxSound, width, height⟩
  · intro given
    rcases given with ⟨⟨fields, mapping, min, max, writes⟩, minSound, maxSound, width, height⟩
    exact ⟨fields, mapping, _, ⟨min, minSound⟩, _, ⟨max, maxSound⟩, ⟨width, height⟩, _,
      ⟨writes, trivial⟩, rfl⟩

theorem accepts_readBody : Accepts readBody Node.WritesBody Body.Sound := by
  have origin : Vec.zero.Sound := ⟨by decide +kernel, by decide +kernel⟩
  intro node path body
  have kinds : ∀ {fields : Fields Node} {kind : BodyKind},
      (∃ found, optional bodyKind fields path "kind" = .ok found ∧ found.getD .particle = kind) ↔
      Defaulted "kind" .particle Node.WritesKind fields kind ∧ True :=
    optional_getD_eq_ok accepts_bodyKind trivial
  have velocities : ∀ {fields : Fields Node} {velocity : Vec},
      (∃ found, optional vector fields path "velocity" = .ok found ∧
        found.getD Vec.zero = velocity) ↔
      Defaulted "velocity" Vec.zero Node.WritesVec fields velocity ∧ velocity.Sound :=
    optional_getD_eq_ok accepts_vector origin
  simp only [readBody, bind_eq_ok, mapping, shape_eq_ok, required_eq_ok accepts_string,
    required_eq_ok accepts_positive, required_eq_ok accepts_vector, pure_eq_ok]
  constructor
  · intro given
    rcases given with ⟨fields, mapping, id, ⟨writesId, -⟩, kind, readKind, mass, ⟨writesMass,
      massSound⟩, position, ⟨writesPosition, positionSound⟩, velocity, readVelocity, rfl⟩
    rcases kinds.mp ⟨kind, readKind, rfl⟩ with ⟨writesKind, -⟩
    rcases velocities.mp ⟨velocity, readVelocity, rfl⟩ with ⟨writesVelocity, velocitySound⟩
    exact ⟨⟨fields, mapping, writesId, writesKind, writesMass, writesPosition, writesVelocity⟩,
      massSound, positionSound, velocitySound⟩
  · intro given
    rcases given with ⟨⟨fields, mapping, writesId, writesKind, writesMass, writesPosition,
      writesVelocity⟩, massSound, positionSound, velocitySound⟩
    rcases kinds.mpr ⟨writesKind, trivial⟩ with ⟨kind, readKind, sameKind⟩
    rcases velocities.mpr ⟨writesVelocity, velocitySound⟩ with
      ⟨velocity, readVelocity, sameVelocity⟩
    refine ⟨fields, mapping, _, ⟨writesId, trivial⟩, kind, readKind, _, ⟨writesMass, massSound⟩, _,
      ⟨writesPosition, positionSound⟩, velocity, readVelocity, ?_⟩
    rw [sameKind, sameVelocity]

theorem fresh_iff {earlier : List Body} {id : String} :
    earlier.any (·.id == id) = false ↔ id ∉ earlier.map Body.id := by
  simp only [List.any_eq_false, beq_iff_eq, List.mem_map, not_exists, not_and]

theorem readBodies_eq_ok {path : Path} {earlier bodies : List Body} {items : List Node} :
    readBodies path earlier items = .ok bodies ↔ ∃ more, bodies = earlier ++ more ∧
      List.Forall₂ Node.WritesBody items more ∧ (∀ body ∈ more, body.Sound) ∧
      (∀ body ∈ more, body.id ∉ earlier.map Body.id) ∧ (more.map Body.id).Nodup := by
  induction items generalizing earlier with
  | nil =>
    rw [readBodies]
    constructor
    · intro same
      cases same
      exact ⟨[], by simp⟩
    · intro given
      rcases given with ⟨more, rfl, none, -⟩
      cases none
      rw [List.append_nil]
  | cons item rest ih =>
    simp only [readBodies, bind_eq_ok, guard_eq_ok, ih, accepts_readBody item _ _,
      fresh_iff]
    constructor
    · intro given
      rcases given with ⟨body, ⟨writes, sound⟩, new, more, rfl, all, allSound, apart, distinct⟩
      simp only [List.map_append, List.mem_append, not_or, List.map_cons, List.map_nil,
        List.mem_singleton] at apart
      refine ⟨body :: more, by simp, .cons writes all, List.forall_mem_cons.mpr ⟨sound, allSound⟩,
        List.forall_mem_cons.mpr ⟨new, fun other member => (apart other member).1⟩, ?_⟩
      rw [List.map_cons, List.nodup_cons]
      refine ⟨?_, distinct⟩
      intro member
      rcases List.mem_map.mp member with ⟨other, inside, same⟩
      exact (apart other inside).2 same
    · intro given
      rcases given with ⟨_, rfl, all, allSound, apart, distinct⟩
      cases all with
      | @cons _ body _ more writes all =>
        rcases List.forall_mem_cons.mp allSound with ⟨sound, allSound⟩
        rcases List.forall_mem_cons.mp apart with ⟨new, apart⟩
        rw [List.map_cons, List.nodup_cons] at distinct
        refine ⟨body, ⟨writes, sound⟩, new, more, by simp, all, allSound, ?_, distinct.2⟩
        intro other member
        rw [List.map_append, List.mem_append, not_or]
        refine ⟨apart other member, ?_⟩
        intro same
        rw [List.map_singleton, List.mem_singleton] at same
        exact distinct.1 (List.mem_map.mpr ⟨other, member, same⟩)

theorem accepts_bodyReference (ids : List String) :
    Accepts (bodyReference ids) Node.WritesString (· ∈ ids) := by
  intro node path id
  rw [bodyReference, bind_eq_ok]
  simp only [string, shape_eq_ok]
  constructor
  · intro given
    rcases given with ⟨found, writes, checked⟩
    split at checked
    · next known =>
      cases checked
      exact ⟨writes, List.contains_iff_mem.mp known⟩
    · cases checked
  · intro given
    rcases given with ⟨writes, known⟩
    exact ⟨id, writes, if_pos (List.contains_iff_mem.mpr known)⟩

theorem accepts_readTargets (ids : List String) :
    Accepts (readTargets ids) Node.WritesTargets (Targets.Sound ids) := by
  intro node path targets
  simp only [readTargets, bind_eq_ok, sequence, shape_eq_ok, mapM_eq_ok (accepts_bodyReference ids),
    pure_eq_ok]
  constructor
  · intro given
    rcases given with ⟨items, sequence, found, ⟨all, known⟩, rfl⟩
    exact ⟨⟨found, rfl, items, sequence, all⟩, known⟩
  · intro given
    rcases given with ⟨⟨found, rfl, items, sequence, all⟩, known⟩
    exact ⟨items, sequence, found, ⟨all, known⟩, rfl⟩

theorem accepts_readForce (ids : List String) :
    Accepts (readForce ids) Node.WritesForce (Force.Sound ids) := by
  intro node path force
  have targets : ∀ {fields : Fields Node} {targets : Targets},
      (∃ found, optional (readTargets ids) fields path "targets" = .ok found ∧
        found.getD .all = targets) ↔
      Defaulted "targets" .all Node.WritesTargets fields targets ∧ targets.Sound ids :=
    optional_getD_eq_ok (accepts_readTargets ids) trivial
  have restLength : ∀ {fields : Fields Node} {length : Float},
      (∃ found, optional nonNegative fields path "restLength" = .ok found ∧
        found.getD 0.0 = length) ↔
      Defaulted "restLength" 0.0 Node.WritesNumber fields length ∧ Magnitude (0.0 ≤ ·) length :=
    optional_getD_eq_ok accepts_nonNegative ⟨by decide +kernel, by decide +kernel⟩
  simp only [readForce, bind_eq_ok, mapping, shape_eq_ok, required_eq_ok accepts_string]
  constructor
  · intro given
    rcases given with ⟨fields, mapping, kind, ⟨writesKind, -⟩, read⟩
    split at read
    · next same =>
      subst same
      simp only [bind_eq_ok, required_eq_ok accepts_vector, pure_eq_ok, targets] at read
      rcases read with ⟨g, ⟨writesG, soundG⟩, found, ⟨writesTargets, known⟩, rfl⟩
      exact ⟨⟨fields, mapping, writesKind, writesG, writesTargets⟩, soundG, known⟩
    · split at read
      · next same =>
        subst same
        simp only [bind_eq_ok, required_eq_ok accepts_nonNegative, pure_eq_ok, targets] at read
        rcases read with
          ⟨coefficient, ⟨writesCoefficient, magnitude⟩, found, ⟨writesTargets, known⟩, rfl⟩
        exact ⟨⟨fields, mapping, writesKind, writesCoefficient, writesTargets⟩, magnitude, known⟩
      · split at read
        · next same =>
          subst same
          simp only [bind_eq_ok, required_eq_ok accepts_vector, required_eq_ok accepts_positive,
            required_eq_ok (accepts_bodyReference ids), pure_eq_ok] at read
          obtain ⟨anchor, ⟨writesAnchor, soundAnchor⟩, body, ⟨writesBody, known⟩, stiffness,
            ⟨writesStiffness, stiff⟩, found, readLength, rfl⟩ := read
          rcases restLength.mp ⟨found, readLength, rfl⟩ with ⟨writesLength, long⟩
          exact ⟨⟨fields, mapping, writesKind, writesAnchor, writesBody, writesStiffness,
            writesLength⟩, soundAnchor, known, stiff, long⟩
        · cases read
  · intro given
    rcases given with ⟨⟨fields, mapping, writesKind, parts⟩, sound⟩
    cases force with
    | gravity g targets' =>
      refine ⟨fields, mapping, "gravity", ⟨writesKind, trivial⟩, ?_⟩
      rw [if_pos rfl]
      simp only [bind_eq_ok, required_eq_ok accepts_vector, pure_eq_ok, targets]
      exact ⟨g, ⟨parts.1, sound.1⟩, targets', ⟨parts.2, sound.2⟩, rfl⟩
    | drag coefficient targets' =>
      refine ⟨fields, mapping, "drag", ⟨writesKind, trivial⟩, ?_⟩
      rw [if_neg (by decide), if_pos rfl]
      simp only [bind_eq_ok, required_eq_ok accepts_nonNegative, pure_eq_ok, targets]
      exact ⟨coefficient, ⟨parts.1, sound.1⟩, targets', ⟨parts.2, sound.2⟩, rfl⟩
    | spring anchor body stiffness length =>
      rcases parts with ⟨writesAnchor, writesBody, writesStiffness, writesLength⟩
      rcases sound with ⟨soundAnchor, known, stiff, long⟩
      rcases restLength.mpr ⟨writesLength, long⟩ with ⟨found, readLength, same⟩
      refine ⟨fields, mapping, "spring", ⟨writesKind, trivial⟩, ?_⟩
      rw [if_neg (by decide), if_neg (by decide), if_pos rfl]
      simp only [bind_eq_ok, required_eq_ok accepts_vector, required_eq_ok accepts_positive,
        required_eq_ok (accepts_bodyReference ids), pure_eq_ok]
      exact ⟨anchor, ⟨writesAnchor, soundAnchor⟩, body, ⟨writesBody, known⟩, stiffness,
        ⟨writesStiffness, stiff⟩, found, readLength, by rw [same]⟩

theorem accepts_readForces (ids : List String) :
    Accepts (readForces ids) (Node.WritesAll Node.WritesForce)
      fun forces => ∀ force ∈ forces, force.Sound ids := by
  intro node path forces
  simp only [readForces, bind_eq_ok, sequence, shape_eq_ok, mapM_eq_ok (accepts_readForce ids)]
  constructor
  · intro given
    rcases given with ⟨items, sequence, all, sound⟩
    exact ⟨⟨items, sequence, all⟩, sound⟩
  · intro given
    rcases given with ⟨⟨items, sequence, all⟩, sound⟩
    exact ⟨items, sequence, all, sound⟩

/-! The whole document. -/

theorem timeScale_eq_ok {fields : Fields Node} {scale : Float} :
    (∃ found, optional positive fields Path.root "timeScale" = .ok found ∧
      found.getD 1.0 = scale) ↔
      Defaulted "timeScale" 1.0 Node.WritesNumber fields scale ∧ Magnitude (0.0 < ·) scale :=
  optional_getD_eq_ok accepts_positive ⟨by decide +kernel, by decide +kernel⟩

theorem forces_eq_ok {fields : Fields Node} {ids : List String} {forces : List Force} :
    (∃ found, optional (readForces ids) fields Path.root "forces" = .ok found ∧
      found.getD [] = forces) ↔
      Defaulted "forces" [] (Node.WritesAll Node.WritesForce) fields forces ∧
        ∀ force ∈ forces, force.Sound ids :=
  optional_getD_eq_ok (accepts_readForces ids) (by simp)

theorem accepts_sequence :
    Accepts sequence (fun node items => node.items? = some items) fun _ => True := by
  intro node path items
  rw [sequence, shape_eq_ok, and_true]

variable {node : Node} {world : World}

/-- A world that is read is sound, and the document writes it. -/
theorem sound_of_ofNode (built : ofNode node = .ok world) :
    node.WritesWorld world ∧ world.Sound := by
  simp only [ofNode, bind_eq_ok, mapping, shape_eq_ok, optional_eq_ok accepts_string,
    optional_eq_ok accepts_readBounds, required_eq_ok accepts_sequence, readBodies_eq_ok,
    pure_eq_ok] at built
  rcases built with ⟨fields, mapping, name, ⟨writesName, -⟩, scale, readScale, bounds,
    ⟨writesBounds, boundsSound⟩, items, ⟨⟨bodies, found, sequence⟩, -⟩, _, ⟨more, rfl, all,
    bodiesSound, -, distinct⟩, found', readForces, rfl⟩
  rcases timeScale_eq_ok.mp ⟨scale, readScale, rfl⟩ with ⟨writesScale, scaleSound⟩
  rcases forces_eq_ok.mp ⟨found', readForces, rfl⟩ with ⟨writesForces, forcesSound⟩
  exact ⟨⟨fields, mapping, writesName, writesScale, writesBounds,
    ⟨bodies, found, items, sequence, all⟩, writesForces⟩, scaleSound, boundsSound, bodiesSound,
    distinct, forcesSound⟩

theorem ofNode_of_sound (written : node.WritesWorld world) (sound : world.Sound) :
    ofNode node = .ok world := by
  simp only [ofNode, bind_eq_ok, mapping, shape_eq_ok, optional_eq_ok accepts_string,
    optional_eq_ok accepts_readBounds, required_eq_ok accepts_sequence, readBodies_eq_ok,
    pure_eq_ok]
  rcases written with ⟨fields, mapping, writesName, writesScale, writesBounds, ⟨bodies, found,
    items, sequence, all⟩, writesForces⟩
  rcases timeScale_eq_ok.mpr ⟨writesScale, sound.timeScale⟩ with ⟨scale, readScale, sameScale⟩
  rcases forces_eq_ok.mpr ⟨writesForces, sound.forces⟩ with ⟨found', readForces, sameForces⟩
  refine ⟨fields, mapping, _, ⟨writesName, by simp⟩, scale, readScale, _,
    ⟨writesBounds, sound.bounds⟩, items, ⟨⟨bodies, found, sequence⟩, trivial⟩, _,
    ⟨world.bodies, rfl, all, sound.bodies, by simp, sound.distinct⟩, found', readForces, ?_⟩
  rw [sameScale, sameForces]
  rfl

/-- A world is read from the documents that write it, if it is sound, and from no others. -/
theorem ofNode_eq_ok (node : Node) (world : World) :
    ofNode node = .ok world ↔ node.WritesWorld world ∧ world.Sound :=
  ⟨sound_of_ofNode, fun given => ofNode_of_sound given.1 given.2⟩

end ParticleSim.World
