import Mathlib.Tactic.MkIffOfInductiveProp
import ParticleSim.Proofs.Schema.Scenario
import ParticleSim.Proofs.World.Reading

namespace ParticleSim

namespace Node

def NumberIs (condition : Float → Prop) (node : Node) : Prop :=
  ∀ x ∈ node.number?, condition x

def TextIs (condition : String → Prop) (node : Node) : Prop :=
  ∀ text ∈ node.string?, condition text

@[mk_iff]
structure FiniteVector (node : Node) : Prop where
  x : node.At "x" (NumberIs (·.isFinite = true))
  y : node.At "y" (NumberIs (·.isFinite = true))

def Before (axis : String) (low high : Node) : Prop :=
  low.At axis (NumberIs fun a => high.At axis (NumberIs (a < ·)))

@[mk_iff]
structure BoundsRule (node : Node) : Prop where
  min : node.At "min" FiniteVector
  max : node.At "max" FiniteVector
  width : node.At "min" fun low => node.At "max" (low.Before "x")
  height : node.At "min" fun low => node.At "max" (low.Before "y")

@[mk_iff]
structure BodyRule (node : Node) : Prop where
  kind : node.At "kind" (TextIs (· ∈ ["particle", "fixed"]))
  mass : node.At "mass" (NumberIs (Magnitude (0.0 < ·)))
  position : node.At "position" FiniteVector
  velocity : node.At "velocity" FiniteVector

def TargetsRule (ids : List String) (node : Node) : Prop :=
  node.EachItem (TextIs (· ∈ ids))

@[mk_iff]
structure GravityRule (ids : List String) (node : Node) : Prop where
  g : node.At "g" FiniteVector
  targets : node.At "targets" (TargetsRule ids)

@[mk_iff]
structure DragRule (ids : List String) (node : Node) : Prop where
  coefficient : node.At "coefficient" (NumberIs (Magnitude (0.0 ≤ ·)))
  targets : node.At "targets" (TargetsRule ids)

@[mk_iff]
structure SpringRule (ids : List String) (node : Node) : Prop where
  anchor : node.At "anchor" FiniteVector
  bodyId : node.At "bodyId" (TextIs (· ∈ ids))
  stiffness : node.At "stiffness" (NumberIs (Magnitude (0.0 < ·)))
  restLength : node.At "restLength" (NumberIs (Magnitude (0.0 ≤ ·)))

@[mk_iff]
structure ForceRule (ids : List String) (node : Node) : Prop where
  kind : node.At "kind" (TextIs (· ∈ ["gravity", "drag", "spring"]))
  gravity : node.Has "kind" (·.string? = some "gravity") → node.GravityRule ids
  drag : node.Has "kind" (·.string? = some "drag") → node.DragRule ids
  spring : node.Has "kind" (·.string? = some "spring") → node.SpringRule ids

def bodyId? (node : Node) : Option String := (node.child? "id").bind string?

def bodyIds (node : Node) : List String :=
  (((node.child? "bodies").bind items?).getD []).filterMap bodyId?

/-- What the values of a document have to fulfil beyond its schema. -/
@[mk_iff]
structure WorldRule (node : Node) : Prop where
  timeScale : node.At "timeScale" (NumberIs (Magnitude (0.0 < ·)))
  bounds : node.At "bounds" BoundsRule
  bodies : node.At "bodies" (EachItem BodyRule)
  distinct : node.bodyIds.Nodup
  forces : node.At "forces" (EachItem (ForceRule node.bodyIds))

end Node

/-- The fault lies in a value and not in the shape of the document. -/
def BuildError.OfValue : BuildError → Prop
  | .unknownKind _ => True
  | .danglingReference _ => True
  | .invalidMagnitude _ => True
  | .duplicateBody _ => True
  | .malformed .. => False

namespace World

section Combinators

variable {α β : Type} {rule rule' : Prop} {result : Except BuildError α}

def Follows (rule : Prop) : Except BuildError α → Prop
  | .ok _ => rule
  | .error fault => ¬rule ∧ fault.OfValue

theorem Follows.congr (follows : Follows rule result) (same : rule ↔ rule') :
    Follows rule' result := by
  rwa [← propext same]

theorem Follows.pure (value : α) : Follows True (pure value : Except BuildError α) := trivial

theorem Follows.bind {next : α → Except BuildError β} (first : Follows rule result)
    (second : ∀ value, result = .ok value → Follows rule' (next value)) :
    Follows (rule ∧ rule') (result >>= next) := by
  cases result with
  | error fault => exact ⟨fun both => first.1 both.1, first.2⟩
  | ok value => exact (second value rfl).congr (and_iff_right first).symm

theorem Follows.after {next : α → Except BuildError β} (first : Follows True result)
    (second : ∀ value, result = .ok value → Follows rule (next value)) :
    Follows rule (result >>= next) :=
  (first.bind second).congr (iff_of_eq (true_and rule))

theorem Follows.last {next : α → β} (follows : Follows rule result) :
    Follows rule (result >>= fun value => Pure.pure (next value)) :=
  (follows.bind fun value _ => Follows.pure (next value)).congr (iff_of_eq (and_true rule))

theorem follows_guard {fails : Bool} {fault : BuildError} {skipped : PUnit → Except BuildError α}
    {next : Except BuildError α} (checks : fails = false ↔ rule) (ofValue : fault.OfValue)
    (second : fails = false → Follows rule' next) :
    Follows (rule ∧ rule') (if fails = true then throw fault >>= skipped else next) := by
  cases fails with
  | true => exact ⟨fun both => absurd (checks.mpr both.1) (by decide), ofValue⟩
  | false => exact (second rfl).congr (and_iff_right (checks.mp rfl)).symm

/-- A node of the right shape is viewed, and all depends on what is done then. -/
theorem follows_shape {expected : String} {view : Node → Option α} {node : Node} {path : Path}
    {next : α → Except BuildError β} (shaped : ∃ value, view node = some value)
    (second : ∀ value, view node = some value → Follows rule (next value)) :
    Follows rule (shape expected view node path >>= next) := by
  rcases shaped with ⟨value, viewed⟩
  rw [shape, viewed]
  exact second value viewed

end Combinators

section Entries

variable {α : Type} {read : Read α} {shaped rule : Node → Prop} {node : Node} {fields : Fields Node}
  {key : String} {path : Path}
  (follows : ∀ {child : Node} (path : Path), shaped child → Follows (rule child) (read child path))
include follows

theorem follows_required (mapping : node.fields? = some fields) (has : node.Has key shaped) :
    Follows (node.At key rule) (required read fields path key) := by
  rcases has with ⟨child, found, shaped⟩
  have same : rule child ↔ node.At key rule := by
    rw [Node.At, found]
    simp
  rw [Node.child?_eq mapping] at found
  rw [required, found]
  exact (follows _ shaped).congr same

theorem follows_optional (mapping : node.fields? = some fields) (may : node.At key shaped) :
    Follows (node.At key rule) (optional read fields path key) := by
  rw [Node.At, Node.child?_eq mapping] at may ⊢
  rw [optional]
  cases found : fields.get? key with
  | none =>
    intro child impossible
    cases impossible
  | some child =>
    have same : rule child ↔ ∀ other ∈ some child, rule other := by simp
    have followed := (follows (path.key key) (may child found)).congr same
    dsimp only
    cases result : read child (path.key key) with
    | error fault =>
      rw [result] at followed
      exact followed
    | ok value =>
      rw [result] at followed
      exact followed

theorem follows_mapM {items : List Node} {start : Nat} (all : ∀ item ∈ items, shaped item) :
    Follows (∀ item ∈ items, rule item)
      ((items.zipIdx start).mapM fun (item, i) => read item (path.index i)) := by
  induction items generalizing start with
  | nil =>
    intro item none
    cases none
  | cons item rest ih =>
    rcases List.forall_mem_cons.mp all with ⟨first, others⟩
    rw [List.zipIdx_cons, List.mapM_cons, List.forall_mem_cons]
    apply Follows.bind (follows _ first)
    intro value _
    exact ((ih others).bind fun values _ => Follows.pure _).congr (by rw [and_true])

end Entries

variable {node : Node} {ids : List String}

theorem follows_string (path : Path) (isString : node.IsString) :
    Follows True (string node path) := by
  rcases isString with ⟨text, same⟩
  rw [string, shape, same]
  trivial

theorem follows_numberThat (condition : Float → Bool) (path : Path) (isNumber : node.IsNumber) :
    Follows (node.NumberIs (Magnitude (condition · = true))) (numberThat condition node path) := by
  apply follows_shape isNumber
  intro x same
  rw [Node.NumberIs, same]
  cases passes : x.isFinite && condition x with
  | true =>
    rw [Bool.and_eq_true] at passes
    intro y found
    cases found
    exact passes
  | false =>
    refine ⟨?_, trivial⟩
    intro sound
    rcases sound x rfl with ⟨finite, holds⟩
    rw [finite, holds] at passes
    cases passes

theorem follows_positive (path : Path) (isNumber : node.IsNumber) :
    Follows (node.NumberIs (Magnitude (0.0 < ·))) (positive node path) := by
  refine (follows_numberThat _ path isNumber).congr ?_
  simp only [decide_eq_true_eq]

theorem follows_nonNegative (path : Path) (isNumber : node.IsNumber) :
    Follows (node.NumberIs (Magnitude (0.0 ≤ ·))) (nonNegative node path) := by
  refine (follows_numberThat _ path isNumber).congr ?_
  simp only [decide_eq_true_eq]

theorem follows_number (path : Path) (isNumber : node.IsNumber) :
    Follows (node.NumberIs (·.isFinite = true)) (number node path) := by
  refine (follows_numberThat _ path isNumber).congr ?_
  simp only [Node.NumberIs, Magnitude, and_true]

theorem follows_vector (path : Path) (isVector : node.IsVector) :
    Follows node.FiniteVector (vector node path) := by
  rw [Node.finiteVector_iff]
  apply follows_shape isVector.x.isMapping
  intro fields mapping
  apply Follows.bind (follows_required follows_number mapping isVector.x)
  intro x _
  exact (follows_required follows_number mapping isVector.y).last

theorem follows_policy (path : Path) (isPolicy : node.IsPolicy) :
    Follows True (policy node path) := by
  rcases isPolicy with same | same
  all_goals
    rw [policy, string, shape, same]
    trivial

theorem has_of_required {α : Type} {key : String} {writes : Node → α → Prop}
    {fields : Fields Node} {value : α} (mapping : node.fields? = some fields)
    (written : Required key writes fields value) : node.Has key (writes · value) := by
  rcases written with ⟨child, found, writes⟩
  exact ⟨child, (Node.child?_eq mapping key).trans found, writes⟩

theorem before_iff {low high : String} {axis : String} {a b : Float}
    (first : node.Has low (Node.Has axis (·.number? = some a)))
    (second : node.Has high (Node.Has axis (·.number? = some b))) :
    (node.At low fun corner => node.At high (corner.Before axis)) ↔ a < b := by
  rcases first with ⟨corner, foundLow, child, found, number⟩
  rcases second with ⟨corner', foundHigh, child', found', number'⟩
  simp only [Node.Before, Node.At, foundLow, foundHigh, found, found', Node.NumberIs, number,
    number', Option.mem_def, Option.some.injEq, forall_eq']

theorem follows_readBounds (path : Path) (isBounds : node.IsBounds) :
    Follows node.BoundsRule (readBounds node path) := by
  rw [Node.boundsRule_iff]
  apply follows_shape isBounds.min.isMapping
  intro fields mapping
  apply Follows.bind (follows_required follows_vector mapping isBounds.min)
  intro low readLow
  apply Follows.bind (follows_required follows_vector mapping isBounds.max)
  intro high readHigh
  have writesLow := has_of_required mapping ((required_eq_ok accepts_vector).mp readLow).1
  have writesHigh := has_of_required mapping ((required_eq_ok accepts_vector).mp readHigh).1
  -- the reader compares what it has read and the rule what is written, so both are the same
  refine (follows_guard ?_ ?_ fun _ => ?_).congr (iff_of_eq (and_true _))
  · have width := before_iff (writesLow.imp fun _ ⟨_, mapping, x, _⟩ => has_of_required mapping x)
      (writesHigh.imp fun _ ⟨_, mapping, x, _⟩ => has_of_required mapping x)
    have height := before_iff (writesLow.imp fun _ ⟨_, mapping, _, y⟩ => has_of_required mapping y)
      (writesHigh.imp fun _ ⟨_, mapping, _, y⟩ => has_of_required mapping y)
    rw [width, height, Bool.not_eq_false', Bool.and_eq_true, decide_eq_true_eq, decide_eq_true_eq]
  · trivial
  · exact ((follows_required follows_policy mapping isBounds.policy).congr Node.at_true).last

theorem follows_bodyKind (path : Path) (isString : node.IsString) :
    Follows (node.TextIs (· ∈ ["particle", "fixed"])) (bodyKind node path) := by
  apply follows_shape isString
  intro name same
  rw [Node.TextIs, same]
  split
  · next particle => simp [Follows, particle, Pure.pure, Except.pure]
  · split
    · next fixed => simp [Follows, fixed, Pure.pure, Except.pure]
    · next notParticle notFixed => exact ⟨by simp [notParticle, notFixed], trivial⟩

theorem follows_readBody (path : Path) (isBody : node.IsBody) :
    Follows node.BodyRule (readBody node path) := by
  rw [Node.bodyRule_iff]
  apply follows_shape isBody.id.isMapping
  intro fields mapping
  have id : Follows True (required string fields path "id") :=
    (follows_required follows_string mapping isBody.id).congr Node.at_true
  apply id.after
  intro id _
  apply Follows.bind (follows_optional follows_bodyKind mapping isBody.kind)
  intro kind _
  apply Follows.bind (follows_required follows_positive mapping isBody.mass)
  intro mass _
  apply Follows.bind (follows_required follows_vector mapping isBody.position)
  intro position _
  exact (follows_optional follows_vector mapping isBody.velocity).last

theorem bodyId?_eq {body : Body} (writes : node.WritesBody body) :
    node.bodyId? = some body.id := by
  rcases writes with ⟨fields, mapping, ⟨child, found, same⟩, -⟩
  rw [Node.bodyId?, Node.child?_eq mapping, found]
  exact same

theorem filterMap_bodyId? {items : List Node} {bodies : List Body}
    (written : List.Forall₂ Node.WritesBody items bodies) :
    items.filterMap Node.bodyId? = bodies.map Body.id := by
  induction written with
  | nil => rfl
  | cons writes _ ih => rw [List.filterMap_cons_some (bodyId?_eq writes), ih, List.map_cons]

theorem follows_readBodies (path : Path) {items : List Node} {earlier : List Body}
    (bodies : ∀ item ∈ items, item.IsBody) (distinct : (earlier.map Body.id).Nodup) :
    Follows ((∀ item ∈ items, item.BodyRule) ∧
        (earlier.map Body.id ++ items.filterMap Node.bodyId?).Nodup)
      (readBodies path earlier items) := by
  induction items generalizing earlier with
  | nil => simpa [Follows, readBodies] using distinct
  | cons item rest ih =>
    rcases List.forall_mem_cons.mp bodies with ⟨isBody, others⟩
    rw [List.forall_mem_cons, and_assoc, readBodies]
    apply Follows.bind (follows_readBody _ isBody)
    intro body read
    rcases (accepts_readBody item _ body).mp read with ⟨writes, -⟩
    -- the body just read is the last of the earlier ones for all that come after it
    have together : (earlier.map Body.id ++ (item :: rest).filterMap Node.bodyId?) =
        (earlier ++ [body]).map Body.id ++ rest.filterMap Node.bodyId? := by
      rw [List.filterMap_cons_some (bodyId?_eq writes), List.map_append, List.append_assoc]
      rfl
    rw [together]
    refine (follows_guard fresh_iff ?_ fun new => ih others ?_).congr ?_
    · trivial
    · rw [List.map_append, List.nodup_append]
      refine ⟨distinct, List.nodup_singleton _, ?_⟩
      rintro id member other single rfl
      rw [List.map_singleton, List.mem_singleton] at single
      exact fresh_iff.mp new (single ▸ member)
    · constructor
      · exact fun both => both.2
      · intro both
        refine ⟨?_, both⟩
        have distinct := (List.nodup_append.mp both.2).1
        rw [List.map_append, List.nodup_append] at distinct
        exact fun member => distinct.2.2 _ member _ (List.mem_singleton_self _) rfl

theorem follows_bodyReference (ids : List String) (path : Path) (isString : node.IsString) :
    Follows (node.TextIs (· ∈ ids)) (bodyReference ids node path) := by
  apply follows_shape isString
  intro id same
  rw [Node.TextIs, same]
  split
  · next known => simpa [Follows, Pure.pure, Except.pure] using known
  · next unknown => exact ⟨by simpa using unknown, trivial⟩

theorem follows_sequence {α : Type} {read : Read α} {shaped rule : Node → Prop}
    (follows : ∀ {child : Node} (path : Path), shaped child →
      Follows (rule child) (read child path))
    {items : List Node} {path : Path} (sequence : node.items? = some items)
    (each : node.EachItem shaped) :
    Follows (node.EachItem rule)
      (items.zipIdx.mapM fun (item, i) => read item (path.index i)) := by
  refine (follows_mapM follows (each items sequence)).congr ?_
  simp only [Node.EachItem, sequence, Option.mem_def, Option.some.injEq, forall_eq']

theorem follows_readTargets (ids : List String) (path : Path) (isTargets : node.IsTargets) :
    Follows (node.TargetsRule ids) (readTargets ids node path) := by
  apply follows_shape isTargets.sequence
  intro items sequence
  exact (follows_sequence (follows_bodyReference ids) sequence isTargets.ids).last

theorem kindIs_iff {kind other : String} (same : node.Has "kind" (·.string? = some kind)) :
    node.Has "kind" (·.string? = some other) ↔ kind = other := by
  rcases same with ⟨child, found, same⟩
  simp only [Node.Has, found, Option.some.injEq, exists_eq_left', same]

theorem forceRule_iff {kind : String} (same : node.Has "kind" (·.string? = some kind)) :
    node.ForceRule ids ↔ kind ∈ ["gravity", "drag", "spring"] ∧
      (kind = "gravity" → node.GravityRule ids) ∧ (kind = "drag" → node.DragRule ids) ∧
      (kind = "spring" → node.SpringRule ids) := by
  have known : node.At "kind" (Node.TextIs (· ∈ ["gravity", "drag", "spring"])) ↔
      kind ∈ ["gravity", "drag", "spring"] := by
    rcases same with ⟨child, found, same⟩
    simp only [Node.At, found, Node.TextIs, Option.mem_def, Option.some.injEq, forall_eq', same]
  rw [Node.forceRule_iff, known, kindIs_iff same, kindIs_iff same, kindIs_iff same]

theorem follows_readForce (ids : List String) (path : Path) (isForce : node.IsForce) :
    Follows (node.ForceRule ids) (readForce ids node path) := by
  apply follows_shape isForce.kind.isMapping
  intro fields mapping
  have kind : Follows True (required string fields path "kind") :=
    (follows_required follows_string mapping isForce.kind).congr Node.at_true
  apply kind.after
  intro kind read
  have same := has_of_required mapping ((required_eq_ok accepts_string).mp read).1
  dsimp only
  split
  · next gravity =>
    subst gravity
    have isGravity := isForce.gravity same
    have rule : node.ForceRule ids ↔ node.GravityRule ids := (forceRule_iff same).trans (by simp)
    rw [rule, Node.gravityRule_iff]
    apply Follows.bind (follows_required follows_vector mapping isGravity.g)
    intro g _
    exact (follows_optional (follows_readTargets ids) mapping isGravity.targets).last.last
  · split
    · next drag =>
      subst drag
      have isDrag := isForce.drag same
      have rule : node.ForceRule ids ↔ node.DragRule ids := (forceRule_iff same).trans (by simp)
      rw [rule, Node.dragRule_iff]
      apply Follows.bind (follows_required follows_nonNegative mapping isDrag.coefficient)
      intro _ _
      exact (follows_optional (follows_readTargets ids) mapping isDrag.targets).last.last
    · split
      · next spring =>
        subst spring
        have isSpring := isForce.spring same
        have rule : node.ForceRule ids ↔ node.SpringRule ids :=
          (forceRule_iff same).trans (by simp)
        rw [rule, Node.springRule_iff]
        apply Follows.bind (follows_required follows_vector mapping isSpring.anchor)
        intro anchor _
        apply Follows.bind (follows_required (follows_bodyReference ids) mapping isSpring.bodyId)
        intro body _
        apply Follows.bind (follows_required follows_positive mapping isSpring.stiffness)
        intro stiffness _
        exact (follows_optional follows_nonNegative mapping isSpring.restLength).last
      · next notGravity notDrag notSpring =>
        refine ⟨?_, trivial⟩
        intro rule
        simpa [notGravity, notDrag, notSpring] using ((forceRule_iff same).mp rule).1

theorem follows_readForces (ids : List String) (path : Path)
    (forces : node.IsSequence ∧ node.EachItem Node.IsForce) :
    Follows (node.EachItem (Node.ForceRule ids)) (readForces ids node path) :=
  follows_shape forces.1 fun _ sequence =>
    follows_sequence (follows_readForce ids) sequence forces.2

theorem follows_ofNode (isScenario : node.IsScenario) : Follows node.WorldRule (ofNode node) := by
  rw [Node.worldRule_iff]
  apply follows_shape isScenario.mapping
  intro fields mapping
  have name : Follows True (optional string fields Path.root "name") :=
    (follows_optional follows_string mapping isScenario.name).congr Node.at_true
  apply name.after
  intro name _
  apply Follows.bind (follows_optional follows_positive mapping isScenario.timeScale)
  intro scale _
  apply Follows.bind (follows_optional follows_readBounds mapping isScenario.bounds)
  intro bounds _
  rcases isScenario.bodies with ⟨bodies, found, ⟨items, sequence⟩, each⟩
  have readItems : required World.sequence fields Path.root "bodies" = .ok items := by
    rw [required, ← Node.child?_eq mapping, found]
    exact shape_eq_ok.mpr sequence
  have bodyRules : node.At "bodies" (Node.EachItem Node.BodyRule) ↔
      ∀ item ∈ items, item.BodyRule := by
    simp only [Node.At, found, Node.EachItem, sequence, Option.mem_def, Option.some.injEq,
      forall_eq']
  have ids : node.bodyIds = items.filterMap Node.bodyId? := by
    rw [Node.bodyIds, found, Option.bind_some, sequence, Option.getD_some]
  have succeeds : Follows True (required World.sequence fields Path.root "bodies") := by
    rw [readItems]
    trivial
  rw [bodyRules, ids, ← and_assoc]
  apply succeeds.after
  intro _ same
  rw [readItems] at same
  cases same
  have follows : Follows ((∀ item ∈ items, item.BodyRule) ∧
      (items.filterMap Node.bodyId?).Nodup) (readBodies (Path.root.key "bodies") [] items) :=
    follows_readBodies _ (each items sequence) List.nodup_nil
  apply follows.bind
  intro bodies read
  rcases readBodies_eq_ok.mp read with ⟨bodies, rfl, written, -⟩
  rw [filterMap_bodyId? written]
  exact (follows_optional (follows_readForces _) mapping isScenario.forces).last

end World

/-- If validation finds nothing in a document, reading it succeeds exactly when the rules for its
values hold, and otherwise fails for one of its values, never for its shape. -/
theorem ofNode_of_validate (node : Node) (unique : node.UniqueKeys)
    (valid : ScenarioSchema.document.validate node = []) :
    ((∃ world, World.ofNode node = .ok world) ↔ node.WorldRule) ∧
      ∀ fault, World.ofNode node = .error fault → fault.OfValue := by
  have follows := World.follows_ofNode (ScenarioSchema.isScenario_of_validate unique valid)
  cases result : World.ofNode node with
  | ok world =>
    rw [result] at follows
    exact ⟨⟨fun _ => follows, fun _ => ⟨world, rfl⟩⟩, fun _ impossible => nomatch impossible⟩
  | error fault =>
    rw [result] at follows
    refine ⟨⟨?_, fun rule => absurd rule follows.1⟩, ?_⟩
    · intro given
      rcases given with ⟨_, impossible⟩
      cases impossible
    · intro other same
      cases same
      exact follows.2

def Node.pendulum : Node :=
  let point (x y : Int64) : Node := .mapping [("x", .ofInt64 x), ("y", .ofInt64 y)]
  .mapping
    [("bodies", .sequence
      [.mapping [("id", .ofString "bob"), ("mass", .ofInt64 1), ("position", point 0 1)]]),
    ("forces", .sequence
      [.mapping [("kind", .ofString "gravity"), ("g", point 0 (-10))],
        .mapping [("kind", .ofString "spring"), ("anchor", point 0 0),
          ("bodyId", .ofString "bob"), ("stiffness", .ofInt64 4)]])]

theorem ofNode_of_validate_pendulum :
    Node.pendulum.UniqueKeys ∧ ScenarioSchema.document.validate Node.pendulum = [] ∧
      ((∃ world, World.ofNode Node.pendulum = .ok world) ↔ Node.pendulum.WorldRule) ∧
      ∀ fault, World.ofNode Node.pendulum = .error fault → fault.OfValue := by
  have unique : Node.pendulum.UniqueKeys := by
    simp [Node.pendulum, Node.UniqueKeys, Node.All, Node.AllItems, Node.AllFields,
      Node.DistinctKeys, Fields.keys, Node.ofString, Node.ofInt64]
  have valid : ScenarioSchema.document.validate Node.pendulum = [] := by
    decide +kernel
  exact ⟨unique, valid, ofNode_of_validate Node.pendulum unique valid⟩

end ParticleSim
