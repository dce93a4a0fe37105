import ParticleSim.Number.Format
import ParticleSim.Tree.Fields
import ParticleSim.World.Basic

namespace ParticleSim

structure BodyState where
  position : Vec
  velocity : Vec
  acceleration : Vec
  deriving DecidableEq, Repr

/-- All bodies at one time. The bodies are in ascending order of their ids. -/
structure State where
  time : Float
  tick : UInt64
  bodies : Fields BodyState
  deriving DecidableEq, Repr

def littleEndian (word : UInt64) : List UInt8 :=
  (List.range 8).map fun i => (word >>> (8 * i).toUInt64).toUInt8

def Vec.bytes (v : Vec) : List UInt8 :=
  littleEndian v.x.toBits ++ littleEndian v.y.toBits

def BodyState.bytes (state : BodyState) : List UInt8 :=
  state.position.bytes ++ state.velocity.bytes ++ state.acceleration.bytes

/-- The content of a state as bytes: the tick, the time, and for each body its id, a zero byte and
its vectors. -/
def State.bytes (state : State) : List UInt8 :=
  littleEndian state.tick ++ littleEndian state.time.toBits ++
    state.bodies.flatMap fun (id, body) => id.toUTF8.data.toList ++ 0 :: body.bytes

def mixByte (hash : UInt64) (byte : UInt8) : UInt64 :=
  (hash ^^^ byte.toUInt64) * 0x100000001B3

def State.hash (state : State) : UInt64 :=
  state.bytes.foldl mixByte 0xCBF29CE484222325

end ParticleSim
