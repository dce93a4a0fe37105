import ParticleSim.Proofs.Schema.EqualSchemas
import ParticleSim.Proofs.World.Reading

namespace ParticleSim

/-! Equality of worlds, with numbers compared as numbers. -/

structure Vec.Alike (v w : Vec) : Prop where
  x : (v.x == w.x) = true
  y : (v.y == w.y) = true

structure Bounds.Alike (bounds other : Bounds) : Prop where
  min : bounds.rect.min.Alike other.rect.min
  max : bounds.rect.max.Alike other.rect.max
  policy : bounds.policy = other.policy

structure Body.Alike (body other : Body) : Prop where
  id : body.id = other.id
  kind : body.kind = other.kind
  mass : (body.mass == other.mass) = true
  position : body.position.Alike other.position
  velocity : body.velocity.Alike other.velocity

inductive Force.Alike : Force → Force → Prop where
  | gravity {g g' : Vec} {targets : Targets} (same : g.Alike g') :
    Alike (.gravity g targets) (.gravity g' targets)
  | drag {coefficient coefficient' : Float} {targets : Targets}
    (same : (coefficient == coefficient') = true) :
    Alike (.drag coefficient targets) (.drag coefficient' targets)
  | spring {anchor anchor' : Vec} {body : String} {stiffness stiffness' : Float}
    {restLength restLength' : Float} (sameAnchor : anchor.Alike anchor')
    (sameStiffness : (stiffness == stiffness') = true)
    (sameLength : (restLength == restLength') = true) :
    Alike (.spring anchor body stiffness restLength) (.spring anchor' body stiffness' restLength')

structure World.Alike (world other : World) : Prop where
  name : world.name = other.name
  timeScale : (world.timeScale == other.timeScale) = true
  bounds : Option.Rel Bounds.Alike world.bounds other.bounds
  bodies : List.Forall₂ Body.Alike world.bodies other.bodies
  forces : List.Forall₂ Force.Alike world.forces other.forces

namespace World

inductive SameOutcome {α : Type} (R : α → α → Prop) :
    Except BuildError α → Except BuildError α → Prop where
  | ok {a b : α} (related : R a b) : SameOutcome R (.ok a) (.ok b)
  | error (fault : BuildError) : SameOutcome R (.error fault) (.error fault)

/-- Equal nodes at one path are read with the same outcome. -/
def ReadsAlike {α : Type} (R : α → α → Prop) (read : Read α) : Prop :=
  ∀ node node' : Node, node.Like node' → ∀ path, SameOutcome R (read node path) (read node' path)

section Combinators

variable {α β : Type} {R : α → α → Prop} {S : β → β → Prop}

theorem SameOutcome.bind {first second : Except BuildError α} {next next' : α → Except BuildError β}
    (same : SameOutcome R first second)
    (later : ∀ a b, R a b → SameOutcome S (next a) (next' b)) :
    SameOutcome S (first >>= next) (second >>= next') := by
  cases same with
  | ok related => exact later _ _ related
  | error fault => exact .error fault

theorem SameOutcome.map {first second : Except BuildError α} {f : α → β}
    (same : SameOutcome R first second) (related : ∀ a b, R a b → S (f a) (f b)) :
    SameOutcome S (first.map f) (second.map f) := by
  cases same with
  | ok same => exact .ok (related _ _ same)
  | error fault => exact .error fault

theorem SameOutcome.guard {fails fails' : Bool} (equal : fails = fails') {fault : BuildError}
    {skipped skipped' : PUnit → Except BuildError α} {next next' : Except BuildError α}
    (same : SameOutcome R next next') :
    SameOutcome R (if fails = true then throw fault >>= skipped else next)
      (if fails' = true then throw fault >>= skipped' else next') := by
  subst equal
  split
  · exact .error fault
  · exact same

theorem same_shape {expected : String} {view : Node → Option α} {node node' : Node}
    (like : node.Like node') (related : Option.Rel R (view node) (view node')) (path : Path) :
    SameOutcome R (shape expected view node path) (shape expected view node' path) := by
  rw [shape, shape, like.typeName_eq]
  exact rel_elim related (.error _) fun _ _ related => .ok related

theorem same_mapM {read : Read α} (alike : ReadsAlike R read) {items others : List Node}
    (each : List.Forall₂ Node.Like items others) (path : Path) (start : Nat) :
    SameOutcome (List.Forall₂ R)
      ((items.zipIdx start).mapM fun (item, i) => read item (path.index i))
      ((others.zipIdx start).mapM fun (item, i) => read item (path.index i)) := by
  induction each generalizing start with
  | nil => exact .ok .nil
  | cons like _ ih =>
    rw [List.zipIdx_cons, List.zipIdx_cons, List.mapM_cons, List.mapM_cons]
    exact (alike _ _ like _).bind fun _ _ first =>
      (ih (start + 1)).bind fun _ _ rest => .ok (.cons first rest)

variable {read : Read α} (alike : ReadsAlike R read) {fields others : Fields Node}
  (related : fields.Alike Node.Like others) (path : Path) (key : String)
include alike related

theorem same_required :
    SameOutcome R (required read fields path key) (required read others path key) := by
  rw [required, required]
  exact rel_elim (related.related key) (.error _) fun _ _ like => alike _ _ like _

theorem same_optional : SameOutcome (Option.Rel R) (optional read fields path key)
    (optional read others path key) := by
  rw [optional, optional]
  exact rel_elim (related.related key) (.ok .none) fun _ _ like =>
    (alike _ _ like _).map fun _ _ same => .some same

end Combinators

theorem rel_getD {α : Type} {R : α → α → Prop} {first second : Option α}
    (related : Option.Rel R first second) {default : α} (same : R default default) :
    R (first.getD default) (second.getD default) :=
  rel_elim related same fun _ _ related => related

theorem readsAlike_mapping : ReadsAlike (Fields.Alike Node.Like) mapping :=
  fun _ _ like path => same_shape like like.fields? path

theorem readsAlike_sequence : ReadsAlike (List.Forall₂ Node.Like) sequence :=
  fun _ _ like path => same_shape like like.items? path

theorem readsAlike_string : ReadsAlike Eq string := by
  intro node node' like path
  refine same_shape like ?_ path
  rw [like.string?_eq]
  exact rel_refl _

theorem readsAlike_numberThat {condition : Float → Bool}
    (congr : ∀ x y, (x == y) = true → condition x = condition y) :
    ReadsAlike (fun x y => (x == y) = true) (numberThat condition) := by
  intro node node' like path
  rw [numberThat, numberThat]
  refine (same_shape like like.number? path).bind fun x y same => ?_
  rw [Binary64.isFinite_congr same, congr x y same]
  split
  · exact .ok same
  · exact .error _

theorem readsAlike_number : ReadsAlike (fun x y => (x == y) = true) number :=
  readsAlike_numberThat fun _ _ _ => rfl

theorem zero_same : ((0.0 : Float) == 0.0) = true := Binary64.beq_self (by decide +kernel)

theorem readsAlike_positive : ReadsAlike (fun x y => (x == y) = true) positive :=
  readsAlike_numberThat fun _ _ same => decide_eq_decide.mpr (Binary64.lt_congr zero_same same)

theorem readsAlike_nonNegative : ReadsAlike (fun x y => (x == y) = true) nonNegative :=
  readsAlike_numberThat fun _ _ same => decide_eq_decide.mpr (Binary64.le_congr zero_same same)

theorem readsAlike_vector : ReadsAlike Vec.Alike vector := by
  intro node node' like path
  refine (readsAlike_mapping _ _ like path).bind fun fields others alike => ?_
  refine (same_required readsAlike_number alike path "x").bind fun x x' sameX => ?_
  refine (same_required readsAlike_number alike path "y").bind fun y y' sameY => ?_
  exact .ok ⟨sameX, sameY⟩

theorem readsAlike_policy : ReadsAlike Eq policy := by
  intro node node' like path
  refine (readsAlike_string _ _ like path).bind fun name _ same => ?_
  subst same
  split
  · exact .ok rfl
  · split
    · exact .ok rfl
    · exact .error _

theorem readsAlike_readBounds : ReadsAlike Bounds.Alike readBounds := by
  intro node node' like path
  refine (readsAlike_mapping _ _ like path).bind fun fields others alike => ?_
  refine (same_required readsAlike_vector alike path "min").bind fun low low' min => ?_
  refine (same_required readsAlike_vector alike path "max").bind fun high high' max => ?_
  have order : (!(decide (low.x < high.x) && decide (low.y < high.y))) =
      !(decide (low'.x < high'.x) && decide (low'.y < high'.y)) := by
    rw [decide_eq_decide.mpr (Binary64.lt_congr min.x max.x),
      decide_eq_decide.mpr (Binary64.lt_congr min.y max.y)]
  refine SameOutcome.guard order ?_
  refine (same_required readsAlike_policy alike path "policy").bind fun policy _ same => ?_
  exact .ok ⟨min, max, same⟩

theorem readsAlike_bodyKind : ReadsAlike Eq bodyKind := by
  intro node node' like path
  refine (readsAlike_string _ _ like path).bind fun name _ same => ?_
  subst same
  split
  · exact .ok rfl
  · split
    · exact .ok rfl
    · exact .error _

theorem readsAlike_readBody : ReadsAlike Body.Alike readBody := by
  intro node node' like path
  refine (readsAlike_mapping _ _ like path).bind fun fields others alike => ?_
  refine (same_required readsAlike_string alike path "id").bind fun id id' sameId => ?_
  refine (same_optional readsAlike_bodyKind alike path "kind").bind fun kind kind' sameKind => ?_
  refine (same_required readsAlike_positive alike path "mass").bind fun mass mass' sameMass => ?_
  refine (same_required readsAlike_vector alike path "position").bind fun _ _ position => ?_
  refine (same_optional readsAlike_vector alike path "velocity").bind fun _ _ velocity => ?_
  exact .ok ⟨sameId, rel_getD sameKind rfl, sameMass, position,
    rel_getD velocity ⟨zero_same, zero_same⟩⟩

theorem ids_eq {bodies others : List Body} (each : List.Forall₂ Body.Alike bodies others) :
    bodies.map Body.id = others.map Body.id := by
  induction each with
  | nil => rfl
  | cons same _ ih => rw [List.map_cons, List.map_cons, same.id, ih]

theorem same_readBodies (path : Path) {items others : List Node}
    (each : List.Forall₂ Node.Like items others) {earlier earlier' : List Body}
    (before : List.Forall₂ Body.Alike earlier earlier') :
    SameOutcome (List.Forall₂ Body.Alike) (readBodies path earlier items)
      (readBodies path earlier' others) := by
  induction each generalizing earlier earlier' with
  | nil => exact .ok before
  | cons like _ ih =>
    rw [readBodies, readBodies, before.length_eq]
    refine (readsAlike_readBody _ _ like _).bind fun body body' same => ?_
    have taken : earlier.any (·.id == body'.id) = earlier'.any (·.id == body'.id) := by
      rw [Bool.eq_iff_iff, ← Bool.not_eq_false, ← Bool.not_eq_false, fresh_iff, fresh_iff,
        ids_eq before]
    rw [same.id]
    exact SameOutcome.guard taken (ih (List.rel_append before (.cons same .nil)))

theorem readsAlike_bodyReference (ids : List String) : ReadsAlike Eq (bodyReference ids) := by
  intro node node' like path
  refine (readsAlike_string _ _ like path).bind fun id _ same => ?_
  subst same
  split
  · exact .ok rfl
  · exact .error _

theorem readsAlike_readTargets (ids : List String) : ReadsAlike Eq (readTargets ids) := by
  intro node node' like path
  refine (readsAlike_sequence _ _ like path).bind fun items others each => ?_
  refine (same_mapM (readsAlike_bodyReference ids) each path 0).bind fun _ _ same => .ok ?_
  rw [List.forall₂_eq_eq_eq] at same
  rw [same]

theorem readsAlike_readForce (ids : List String) : ReadsAlike Force.Alike (readForce ids) := by
  intro node node' like path
  refine (readsAlike_mapping _ _ like path).bind fun fields others alike => ?_
  refine (same_required readsAlike_string alike path "kind").bind fun kind _ same => ?_
  subst same
  have targets : SameOutcome Eq
      (do return (← optional (readTargets ids) fields path "targets").getD .all)
      (do return (← optional (readTargets ids) others path "targets").getD .all) :=
    (same_optional (readsAlike_readTargets ids) alike path "targets").bind fun _ _ same =>
      .ok (rel_getD same rfl)
  split
  · refine (same_required readsAlike_vector alike path "g").bind fun g g' same => ?_
    refine targets.bind fun targets _ equal => ?_
    subst equal
    exact .ok (.gravity same)
  · split
    · refine (same_required readsAlike_nonNegative alike path "coefficient").bind
        fun coefficient coefficient' same => ?_
      refine targets.bind fun targets _ equal => ?_
      subst equal
      exact .ok (.drag same)
    · split
      · refine (same_required readsAlike_vector alike path "anchor").bind fun _ _ anchor => ?_
        refine (same_required (readsAlike_bodyReference ids) alike path "bodyId").bind
          fun body _ equal => ?_
        subst equal
        refine (same_required readsAlike_positive alike path "stiffness").bind
          fun _ _ stiffness => ?_
        refine (same_optional readsAlike_nonNegative alike path "restLength").bind
          fun _ _ restLength => ?_
        exact .ok (.spring anchor stiffness (rel_getD restLength zero_same))
      · exact .error _

theorem readsAlike_readForces (ids : List String) :
    ReadsAlike (List.Forall₂ Force.Alike) (readForces ids) := by
  intro node node' like path
  refine (readsAlike_sequence _ _ like path).bind fun items others each => ?_
  exact same_mapM (readsAlike_readForce ids) each path 0

/-- Equal trees give alike worlds, or fail with the same fault. -/
theorem same_ofNode {node node' : Node} (like : node.Like node') :
    SameOutcome World.Alike (ofNode node) (ofNode node') := by
  refine (readsAlike_mapping _ _ like Path.root).bind fun fields others alike => ?_
  have name := same_optional readsAlike_string alike Path.root "name"
  have timeScale := same_optional readsAlike_positive alike Path.root "timeScale"
  have bounds := same_optional readsAlike_readBounds alike Path.root "bounds"
  have items := same_required readsAlike_sequence alike Path.root "bodies"
  refine name.bind fun name name' sameName => ?_
  refine timeScale.bind fun scale scale' sameScale => ?_
  refine bounds.bind fun bounds bounds' sameBounds => ?_
  refine items.bind fun items items' each => ?_
  refine (same_readBodies _ each .nil).bind fun bodies bodies' sameBodies => ?_
  rw [ids_eq sameBodies]
  refine (same_optional (readsAlike_readForces _) alike Path.root "forces").bind
    fun forces forces' sameForces => ?_
  refine .ok ⟨?_, rel_getD sameScale (Binary64.beq_self (by decide +kernel)), sameBounds,
    sameBodies, rel_getD sameForces .nil⟩
  cases sameName with
  | none => rfl
  | some same => rw [same]

end World

/-- The order of the entries in mappings has no meaning: equal trees are both schemas or both none,
validation of equal trees against them finds violations at the same paths, and the worlds of equal
trees are equal, or reading them fails with one fault. -/
theorem same_results_of_equal {schema schema' node node' : Node}
    (uniqueSchema : schema.UniqueKeys) (uniqueSchema' : schema'.UniqueKeys)
    (sameSchema : schema.equal schema' = true) (unique : node.UniqueKeys)
    (unique' : node'.UniqueKeys) (same : node.equal node' = true) :
    ((∃ document, SchemaDocument.ofNode schema = .ok document) ↔
      ∃ document, SchemaDocument.ofNode schema' = .ok document) ∧
    (∀ document document', SchemaDocument.ofNode schema = .ok document →
      SchemaDocument.ofNode schema' = .ok document' →
      (document.validate node = [] ↔ document'.validate node' = []) ∧
      ((document.validate node).map Violation.path).Perm
        ((document'.validate node').map Violation.path)) ∧
    ((∃ world world', World.ofNode node = .ok world ∧ World.ofNode node' = .ok world' ∧
        world.Alike world') ∨
      ∃ fault, World.ofNode node = .error fault ∧ World.ofNode node' = .error fault) := by
  have like : node.Like node' := ⟨unique, unique', same⟩
  have schemas := SchemaDocument.ofNode_agree ⟨uniqueSchema, uniqueSchema', sameSchema⟩
  refine ⟨?_, ?_, ?_⟩
  · rcases schemas with ⟨fault, fault', stops, stops'⟩ | ⟨document, document', reads, reads', -⟩
    · rw [stops, stops']
      simp
    · rw [reads, reads']
      simp
  · intro document document' reads reads'
    rcases schemas with ⟨fault, _, stops, -⟩ | ⟨_, _, found, found', agree⟩
    · rw [stops] at reads
      cases reads
    · rw [found] at reads
      rw [found'] at reads'
      cases reads
      cases reads'
      have places := agree.validate like
      refine ⟨?_, places⟩
      rw [← List.isEmpty_iff, ← List.isEmpty_iff, places.isEmpty_eq]
  · have outcome := World.same_ofNode like
    generalize World.ofNode node = result at outcome
    generalize World.ofNode node' = result' at outcome
    cases outcome with
    | ok alike => exact .inl ⟨_, _, rfl, rfl, alike⟩
    | error fault => exact .inr ⟨fault, rfl, rfl⟩

def Node.scaled : Node :=
  .mapping
    [("required", .sequence [.ofString "bodies", .ofString "forces"]),
      ("properties", .mapping [("timeScale", .mapping [("minimum", .ofFloat 0.0)])])]

def Node.scaledReordered : Node :=
  .mapping
    [("properties", .mapping [("timeScale", .mapping [("minimum", .ofFloat (-0.0))])]),
      ("required", .sequence [.ofString "bodies", .ofString "forces"])]

def Node.single : Node :=
  .mapping
    [("bodies", .sequence [.mapping [("id", .ofString "bob"), ("mass", .ofInt64 1),
        ("position", .mapping [("x", .ofFloat 0.0), ("y", .ofInt64 1)])]]),
      ("timeScale", .ofInt64 2)]

def Node.singleReordered : Node :=
  .mapping
    [("timeScale", .ofInt64 2),
      ("bodies", .sequence [.mapping [("mass", .ofInt64 1), ("id", .ofString "bob"),
        ("position", .mapping [("y", .ofInt64 1), ("x", .ofFloat (-0.0))])]])]

theorem same_results_single :
    Node.scaled.equal Node.scaledReordered = true ∧
    Node.single.equal Node.singleReordered = true ∧
    ((∃ document, SchemaDocument.ofNode Node.scaled = .ok document) ↔
      ∃ document, SchemaDocument.ofNode Node.scaledReordered = .ok document) ∧
    (∀ document document', SchemaDocument.ofNode Node.scaled = .ok document →
      SchemaDocument.ofNode Node.scaledReordered = .ok document' →
      (document.validate Node.single = [] ↔ document'.validate Node.singleReordered = []) ∧
      ((document.validate Node.single).map Violation.path).Perm
        ((document'.validate Node.singleReordered).map Violation.path)) ∧
    ((∃ world world', World.ofNode Node.single = .ok world ∧
        World.ofNode Node.singleReordered = .ok world' ∧ world.Alike world') ∨
      ∃ fault, World.ofNode Node.single = .error fault ∧
        World.ofNode Node.singleReordered = .error fault) := by
  have unique : Node.scaled.UniqueKeys ∧ Node.scaledReordered.UniqueKeys ∧
      Node.single.UniqueKeys ∧ Node.singleReordered.UniqueKeys := by
    simp [Node.scaled, Node.scaledReordered, Node.single, Node.singleReordered, Node.UniqueKeys,
      Node.All, Node.AllItems, Node.AllFields, Node.DistinctKeys, Fields.keys, Node.ofString,
      Node.ofInt64, Node.ofFloat]
  have sameSchema : Node.scaled.equal Node.scaledReordered = true := by decide +kernel
  have same : Node.single.equal Node.singleReordered = true := by decide +kernel
  exact ⟨sameSchema, same, same_results_of_equal unique.1 unique.2.1 sameSchema unique.2.2.1
    unique.2.2.2 same⟩

end ParticleSim
