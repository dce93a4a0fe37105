import Mathlib.Data.List.Forall2
import ParticleSim.Tree.Node
import ParticleSim.World.Record

namespace ParticleSim

def Required {α : Type} (key : String) (writes : Node → α → Prop) (fields : Fields Node)
    (value : α) : Prop :=
  ∃ node, fields.get? key = some node ∧ writes node value

def Defaulted {α : Type} (key : String) (default : α) (writes : Node → α → Prop)
    (fields : Fields Node) (value : α) : Prop :=
  match fields.get? key with
  | none => value = default
  | some node => writes node value

def Optional {α : Type} (key : String) (writes : Node → α → Prop) (fields : Fields Node)
    (value : Option α) : Prop :=
  Defaulted key none (fun node value => ∃ found, value = some found ∧ writes node found) fields
    value

namespace Node

def WritesNumber (node : Node) (x : Float) : Prop := node.number? = some x
def WritesString (node : Node) (text : String) : Prop := node.string? = some text
def WritesKind (node : Node) (kind : BodyKind) : Prop := node.string? = some kind.text
def WritesPolicy (node : Node) (policy : Policy) : Prop := node.string? = some policy.text

def WritesVec (node : Node) (v : Vec) : Prop :=
  ∃ fields, node.fields? = some fields ∧
    Required "x" WritesNumber fields v.x ∧ Required "y" WritesNumber fields v.y

def WritesBounds (node : Node) (bounds : Bounds) : Prop :=
  ∃ fields, node.fields? = some fields ∧
    Required "min" WritesVec fields bounds.rect.min ∧
    Required "max" WritesVec fields bounds.rect.max ∧
    Required "policy" WritesPolicy fields bounds.policy

/-- A body is a particle at rest unless the document says otherwise. -/
def WritesBody (node : Node) (body : Body) : Prop :=
  ∃ fields, node.fields? = some fields ∧
    Required "id" WritesString fields body.id ∧
    Defaulted "kind" .particle WritesKind fields body.kind ∧
    Required "mass" WritesNumber fields body.mass ∧
    Required "position" WritesVec fields body.position ∧
    Defaulted "velocity" Vec.zero WritesVec fields body.velocity

def WritesAll {α : Type} (writes : Node → α → Prop) (node : Node) (values : List α) : Prop :=
  ∃ items, node.items? = some items ∧ List.Forall₂ writes items values

def WritesTargets (node : Node) (targets : Targets) : Prop :=
  ∃ ids, targets = .only ids ∧ node.WritesAll WritesString ids

/-- The fields of a force depend on its kind. A field without targets acts on all bodies, and a
spring rests at length zero unless the document says otherwise. -/
def WritesForce (node : Node) (force : Force) : Prop :=
  ∃ fields, node.fields? = some fields ∧ Required "kind" WritesString fields force.kind ∧
    match force with
    | .gravity g targets =>
      Required "g" WritesVec fields g ∧ Defaulted "targets" .all WritesTargets fields targets
    | .drag coefficient targets =>
      Required "coefficient" WritesNumber fields coefficient ∧
        Defaulted "targets" .all WritesTargets fields targets
    | .spring anchor body stiffness restLength =>
      Required "anchor" WritesVec fields anchor ∧ Required "bodyId" WritesString fields body ∧
        Required "stiffness" WritesNumber fields stiffness ∧
        Defaulted "restLength" 0.0 WritesNumber fields restLength

/-- Time passes at scale one and there are no forces unless the document says otherwise. -/
def WritesWorld (node : Node) (world : World) : Prop :=
  ∃ fields, node.fields? = some fields ∧
    Optional "name" WritesString fields world.name ∧
    Defaulted "timeScale" 1.0 WritesNumber fields world.timeScale ∧
    Optional "bounds" WritesBounds fields world.bounds ∧
    Required "bodies" (WritesAll WritesBody) fields world.bodies ∧
    Defaulted "forces" [] (WritesAll WritesForce) fields world.forces

end Node

def Magnitude (condition : Float → Prop) (x : Float) : Prop := x.isFinite = true ∧ condition x

theorem refused_iff {condition : Float → Prop} [DecidablePred condition] {x : Float} :
    (!(x.isFinite && decide (condition x))) = true ↔ ¬Magnitude condition x := by
  rw [Bool.not_eq_true', ← Bool.not_eq_true, Bool.and_eq_true, decide_eq_true_eq, Magnitude]

namespace Vec

def Sound (v : Vec) : Prop := v.x.isFinite = true ∧ v.y.isFinite = true

end Vec

structure Bounds.Sound (bounds : Bounds) : Prop where
  min : bounds.rect.min.Sound
  max : bounds.rect.max.Sound
  width : bounds.rect.min.x < bounds.rect.max.x
  height : bounds.rect.min.y < bounds.rect.max.y

structure Body.Sound (body : Body) : Prop where
  mass : Magnitude (0.0 < ·) body.mass
  position : body.position.Sound
  velocity : body.velocity.Sound

def Targets.Sound (ids : List String) : Targets → Prop
  | .all => True
  | .only targets => ∀ id ∈ targets, id ∈ ids

def Force.Sound (ids : List String) : Force → Prop
  | .gravity g targets => g.Sound ∧ targets.Sound ids
  | .drag coefficient targets => Magnitude (0.0 ≤ ·) coefficient ∧ targets.Sound ids
  | .spring anchor body stiffness restLength =>
    anchor.Sound ∧ body ∈ ids ∧ Magnitude (0.0 < ·) stiffness ∧ Magnitude (0.0 ≤ ·) restLength

structure World.Sound (world : World) : Prop where
  timeScale : Magnitude (0.0 < ·) world.timeScale
  bounds : ∀ bounds ∈ world.bounds, bounds.Sound
  bodies : ∀ body ∈ world.bodies, body.Sound
  distinct : (world.bodies.map Body.id).Nodup
  forces : ∀ force ∈ world.forces, force.Sound (world.bodies.map Body.id)

end ParticleSim
