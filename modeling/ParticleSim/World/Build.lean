import ParticleSim.Tree.Path
import ParticleSim.World.Basic
/-!
Reading a world from a tree. Shapes are checked along with what no schema says: magnitudes, distinct
ids, references to bodies and the names of kinds. Fields are read in a fixed order, so that the
first fault is the one reported.
-/
namespace ParticleSim

inductive Misfit where
  | wrongShape (expected found : String)
  | missing
  | unknownPolicy (name : String)
  deriving DecidableEq, Repr

def Misfit.message : Misfit → String
  | .wrongShape expected found => "expected a " ++ expected ++ ", found " ++ found
  | .missing => "required field is missing"
  | .unknownPolicy name => "unknown boundary policy \x60" ++ name ++ "\x60"

inductive BuildError where
  | unknownKind (name : String)
  | danglingReference (id : String)
  | invalidMagnitude (path : Path)
  | duplicateBody (id : String)
  | malformed (path : Path) (misfit : Misfit)
  deriving DecidableEq, Repr

def BuildError.message : BuildError → String
  | .unknownKind name => "unknown kind \x60" ++ name ++ "\x60"
  | .danglingReference id => "reference to unknown body \x60" ++ id ++ "\x60"
  | .invalidMagnitude path => "invalid magnitude at " ++ path.text
  | .duplicateBody id => "duplicate body id \x60" ++ id ++ "\x60"
  | .malformed path misfit => path.text ++ ": " ++ misfit.message

namespace World

abbrev Read (α : Type) := Node → Path → Except BuildError α

def shape {α : Type} (expected : String) (view : Node → Option α) : Read α := fun node path =>
  match view node with
  | some value => .ok value
  | none => .error (.malformed path (.wrongShape expected node.typeName))

def mapping : Read (Fields Node) := shape "mapping" Node.fields?
def sequence : Read (List Node) := shape "sequence" Node.items?
def string : Read String := shape "string" Node.string?

def numberThat (condition : Float → Bool) : Read Float := fun node path => do
  let x ← shape "number" Node.number? node path
  if x.isFinite && condition x then return x else throw (.invalidMagnitude path)

def number : Read Float := numberThat fun _ => true
def positive : Read Float := numberThat (0.0 < ·)
def nonNegative : Read Float := numberThat (0.0 ≤ ·)

def required {α : Type} (read : Read α) (fields : Fields Node) (path : Path) (key : String) :
    Except BuildError α :=
  match fields.get? key with
  | some node => read node (path.key key)
  | none => .error (.malformed (path.key key) .missing)

def optional {α : Type} (read : Read α) (fields : Fields Node) (path : Path) (key : String) :
    Except BuildError (Option α) :=
  match fields.get? key with
  | some node => (read node (path.key key)).map some
  | none => .ok none

def vector : Read Vec := fun node path => do
  let fields ← mapping node path
  let x ← required number fields path "x"
  let y ← required number fields path "y"
  return ⟨x, y⟩

def policy : Read Policy := fun node path => do
  let name ← string node path
  if name = "clamp" then return .clamp
  else if name = "wrap" then return .wrap
  else throw (.malformed path (.unknownPolicy name))

def readBounds : Read Bounds := fun node path => do
  let fields ← mapping node path
  let low ← required vector fields path "min"
  let high ← required vector fields path "max"
  if !(low.x < high.x && low.y < high.y) then throw (.invalidMagnitude (path.key "max"))
  let policy ← required policy fields path "policy"
  return ⟨⟨low, high⟩, policy⟩

def bodyKind : Read BodyKind := fun node path => do
  let name ← string node path
  if name = "particle" then return .particle
  else if name = "fixed" then return .fixed
  else throw (.unknownKind name)

def readBody : Read Body := fun node path => do
  let fields ← mapping node path
  let id ← required string fields path "id"
  let kind ← optional bodyKind fields path "kind"
  let mass ← required positive fields path "mass"
  let position ← required vector fields path "position"
  let velocity ← optional vector fields path "velocity"
  return ⟨id, kind.getD .particle, mass, position, velocity.getD Vec.zero⟩

def readBodies (path : Path) (earlier : List Body) :
    List Node → Except BuildError (List Body)
  | [] => .ok earlier
  | item :: rest => do
    let body ← readBody item (path.index earlier.length)
    if earlier.any (·.id == body.id) then throw (.duplicateBody body.id)
    readBodies path (earlier ++ [body]) rest

def bodyReference (ids : List String) : Read String := fun node path => do
  let id ← string node path
  if ids.contains id then return id else throw (.danglingReference id)

def readTargets (ids : List String) : Read Targets := fun node path => do
  let items ← sequence node path
  let targets ← items.zipIdx.mapM fun (item, i) => bodyReference ids item (path.index i)
  return .only targets

def readForce (ids : List String) : Read Force := fun node path => do
  let fields ← mapping node path
  let kind ← required string fields path "kind"
  let targets : Except BuildError Targets := do
    return (← optional (readTargets ids) fields path "targets").getD .all
  if kind = "gravity" then
    let g ← required vector fields path "g"
    return .gravity g (← targets)
  else if kind = "drag" then
    let coefficient ← required nonNegative fields path "coefficient"
    return .drag coefficient (← targets)
  else if kind = "spring" then
    let anchor ← required vector fields path "anchor"
    let body ← required (bodyReference ids) fields path "bodyId"
    let stiffness ← required positive fields path "stiffness"
    let restLength ← optional nonNegative fields path "restLength"
    return .spring anchor body stiffness (restLength.getD 0.0)
  else throw (.unknownKind kind)

def readForces (ids : List String) : Read (List Force) := fun node path => do
  let items ← sequence node path
  items.zipIdx.mapM fun (item, i) => readForce ids item (path.index i)

def ofNode (node : Node) : Except BuildError World := do
  let fields ← mapping node Path.root
  let name ← optional string fields Path.root "name"
  let timeScale ← optional positive fields Path.root "timeScale"
  let bounds ← optional readBounds fields Path.root "bounds"
  let items ← required sequence fields Path.root "bodies"
  let bodies ← readBodies (Path.root.key "bodies") [] items
  let forces ← optional (readForces (bodies.map Body.id)) fields Path.root "forces"
  return ⟨name, timeScale.getD 1.0, bounds, bodies, forces.getD []⟩

end World
end ParticleSim
