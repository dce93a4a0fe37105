import ParticleSim.Json.Writer
import ParticleSim.World.State

namespace ParticleSim

open Json (arrayText floatText objectText stringText)

def Vec.record (v : Vec) : List Char :=
  arrayText [floatText v.x, floatText v.y]

def BodyKind.text : BodyKind → String
  | .particle => "particle"
  | .fixed => "fixed"

def Policy.text : Policy → String
  | .clamp => "clamp"
  | .wrap => "wrap"

def Rect.record (rect : Rect) : List Char :=
  objectText [("min", rect.min.record), ("max", rect.max.record)]

def Bounds.record (bounds : Bounds) : List Char :=
  objectText [("rect", bounds.rect.record), ("policy", stringText bounds.policy.text)]

def Body.record (body : Body) : List Char :=
  objectText [("id", stringText body.id), ("kind", stringText body.kind.text),
    ("mass", floatText body.mass), ("position", body.position.record),
    ("velocity", body.velocity.record)]

def Targets.record : Targets → List Char
  | .all => stringText "all"
  | .only ids => objectText [("only", arrayText (ids.map stringText))]

def Force.record (force : Force) : List Char :=
  let kind := ("kind", stringText force.kind)
  match force with
  | .gravity g targets => objectText [kind, ("g", g.record), ("targets", targets.record)]
  | .drag coefficient targets =>
    objectText [kind, ("coefficient", floatText coefficient), ("targets", targets.record)]
  | .spring anchor body stiffness restLength =>
    objectText [kind, ("anchor", anchor.record), ("body", stringText body),
      ("stiffness", floatText stiffness), ("rest_length", floatText restLength)]

def optionalText {α : Type} (text : α → List Char) : Option α → List Char
  | none => "null".toList
  | some value => text value

def World.record (world : World) : String :=
  String.ofList <| objectText
    [("name", optionalText stringText world.name), ("time_scale", floatText world.timeScale),
      ("bounds", optionalText Bounds.record world.bounds),
      ("bodies", arrayText (world.bodies.map Body.record)),
      ("forces", arrayText (world.forces.map Force.record))]

def BodyState.record (state : BodyState) : List Char :=
  objectText [("position", state.position.record), ("velocity", state.velocity.record),
    ("acceleration", state.acceleration.record)]

def State.record (state : State) : String :=
  String.ofList <| objectText
    [("time", floatText state.time), ("tick", Decimal.digitsOf state.tick.toNat),
      ("bodies", objectText (state.bodies.map fun (id, body) => (id, body.record)))]

end ParticleSim
