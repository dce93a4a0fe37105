import ParticleSim.Proofs.Text.ByteOrder
import ParticleSim.Proofs.Text.Unambiguous
import ParticleSim.World.State
/-!
The bytes of a state and their hash. Numbers have eight bytes each, and an id without zero bytes
ends at the zero byte behind it, so the bytes determine the state. A round of the hash loses nothing
of what went into it, so a single byte that differs is still seen after all the bytes behind it.
-/
namespace ParticleSim

section Words

theorem length_littleEndian (word : UInt64) : (littleEndian word).length = 8 := by
  rw [littleEndian, List.length_map, List.length_range]

theorem toNat_byte (word : UInt64) : ∀ i < 8,
    ((word >>> (8 * i).toUInt64).toUInt8).toNat = word.toNat / 2 ^ (8 * i) % 256 := by
  intro i small
  have amount : (8 * i).toUInt64.toNat % 64 = 8 * i := by
    rw [Nat.toUInt64, UInt64.toNat_ofNat']
    omega
  rw [UInt64.toNat_toUInt8, UInt64.toNat_shiftRight, amount, Nat.shiftRight_eq_div_pow]

/-- A word is the sum of its bytes. -/
theorem littleEndian_inj {word other : UInt64} (same : littleEndian word = littleEndian other) :
    word = other := by
  rw [littleEndian, littleEndian, List.map_inj_left] at same
  have bytes : ∀ i < 8, word.toNat / 2 ^ (8 * i) % 256 = other.toNat / 2 ^ (8 * i) % 256 := by
    intro i small
    rw [← toNat_byte word i small, ← toNat_byte other i small, same i (List.mem_range.mpr small)]
  have bound := word.toNat_lt
  have bound' := other.toNat_lt
  have b0 := bytes 0 (by decide)
  have b1 := bytes 1 (by decide)
  have b2 := bytes 2 (by decide)
  have b3 := bytes 3 (by decide)
  have b4 := bytes 4 (by decide)
  have b5 := bytes 5 (by decide)
  have b6 := bytes 6 (by decide)
  have b7 := bytes 7 (by decide)
  apply UInt64.toNat_inj.mp
  norm_num at b0 b1 b2 b3 b4 b5 b6 b7 bound bound'
  omega

theorem selfDelimiting_littleEndian : SelfDelimiting littleEndian :=
  .of_length 8 length_littleEndian fun _ _ => littleEndian_inj

end Words

@[ext]
structure VecBits where
  x : UInt64
  y : UInt64
  deriving DecidableEq

@[ext]
structure BodyBits where
  position : VecBits
  velocity : VecBits
  acceleration : VecBits
  deriving DecidableEq

/-- A state by the bits of its numbers. Bits tell NaNs apart, which a `Float` does not. -/
@[ext]
structure Image where
  tick : UInt64
  time : UInt64
  bodies : Fields BodyBits
  deriving DecidableEq

def VecBits.bytes (v : VecBits) : List UInt8 :=
  littleEndian v.x ++ littleEndian v.y

def BodyBits.bytes (body : BodyBits) : List UInt8 :=
  body.position.bytes ++ body.velocity.bytes ++ body.acceleration.bytes

def BodyBits.entryBytes (entry : String × BodyBits) : List UInt8 :=
  utf8 entry.1 ++ 0 :: entry.2.bytes

def Image.bytes (image : Image) : List UInt8 :=
  littleEndian image.tick ++ littleEndian image.time ++ image.bodies.flatMap BodyBits.entryBytes

def Image.hash (image : Image) : UInt64 :=
  image.bytes.foldl mixByte 0xCBF29CE484222325

def Vec.bits (v : Vec) : VecBits := ⟨v.x.toBits, v.y.toBits⟩

def BodyState.bits (body : BodyState) : BodyBits :=
  ⟨body.position.bits, body.velocity.bits, body.acceleration.bits⟩

def State.image (state : State) : Image :=
  ⟨state.tick, state.time.toBits, state.bodies.map fun entry => (entry.1, entry.2.bits)⟩

theorem State.bytes_eq (state : State) : state.bytes = state.image.bytes := by
  rw [State.bytes, Image.bytes, State.image, List.flatMap_map]
  rfl

theorem State.hash_eq (state : State) : state.hash = state.image.hash := by
  rw [State.hash, Image.hash, State.bytes_eq]

section Bytes

theorem selfDelimiting_vecBits : SelfDelimiting VecBits.bytes := by
  intro v w rest more same
  simp only [VecBits.bytes, List.append_assoc] at same
  rcases selfDelimiting_littleEndian same with ⟨x, same⟩
  rcases selfDelimiting_littleEndian same with ⟨y, same⟩
  exact ⟨VecBits.ext x y, same⟩

theorem selfDelimiting_bodyBits : SelfDelimiting BodyBits.bytes := by
  intro body other rest more same
  simp only [BodyBits.bytes, List.append_assoc] at same
  rcases selfDelimiting_vecBits same with ⟨position, same⟩
  rcases selfDelimiting_vecBits same with ⟨velocity, same⟩
  rcases selfDelimiting_vecBits same with ⟨acceleration, same⟩
  exact ⟨BodyBits.ext position velocity acceleration, same⟩

theorem utf8_inj {text other : String} (same : utf8 text = utf8 other) : text = other := by
  rw [utf8, utf8, String.toUTF8_eq_toByteArray, String.toUTF8_eq_toByteArray] at same
  exact String.toByteArray_inj.mp (ByteArray.ext (Array.toList_inj.mp same))

theorem unambiguous_id : Unambiguous (fun id => 0 ∉ utf8 id) (StartsOutside (· != 0)) utf8 := by
  refine .of_class (fun id free byte member => ?_) fun _ _ => utf8_inj
  rw [bne_iff_ne]
  exact ne_of_mem_of_not_mem member free

theorem unambiguous_entry : Unambiguous (fun entry : String × BodyBits => 0 ∉ utf8 entry.1)
    (fun _ => True) BodyBits.entryBytes := by
  rintro ⟨id, body⟩ ⟨id', body'⟩ rest more free free' _ _ same
  simp only [BodyBits.entryBytes, List.append_assoc, List.cons_append] at same
  have zero : ∀ bytes : List UInt8, StartsOutside (· != 0) (0 :: bytes) :=
    startsOutside_cons (by decide)
  rcases unambiguous_id free free' (zero _) (zero _) same with ⟨ids, behind⟩
  rcases selfDelimiting_bodyBits ((List.cons_inj_right _).mp behind) with ⟨bodies, last⟩
  exact ⟨Prod.ext ids bodies, last⟩

def Image.ZeroFree (image : Image) : Prop :=
  ∀ entry ∈ image.bodies, 0 ∉ utf8 entry.1

theorem Image.bytes_inj {image other : Image} (free : image.ZeroFree) (free' : other.ZeroFree)
    (same : image.bytes = other.bytes) : image = other := by
  simp only [Image.bytes, List.append_assoc] at same
  rcases selfDelimiting_littleEndian same with ⟨tick, same⟩
  rcases selfDelimiting_littleEndian same with ⟨time, same⟩
  have bodies := unambiguous_entry.flatMap_inj (fun _ _ _ _ => trivial) trivial
    (fun entry _ empty => by simp [BodyBits.entryBytes] at empty) free free' same
  exact Image.ext tick time bodies

end Bytes

section Rounds

/-- The factor of a round is odd, so multiplying by it can be undone. -/
theorem mul_factor_inj {a b : UInt64} (same : a * 0x100000001B3 = b * 0x100000001B3) : a = b := by
  have inverse : (0x100000001B3 : UInt64) * 0xCE965057AFF6957B = 1 := by decide
  calc
    a = a * 0x100000001B3 * 0xCE965057AFF6957B := by
      rw [UInt64.mul_assoc, inverse, UInt64.mul_one]
    _ = b * 0x100000001B3 * 0xCE965057AFF6957B := by rw [same]
    _ = b := by rw [UInt64.mul_assoc, inverse, UInt64.mul_one]

theorem mixByte_hash_inj {hash other : UInt64} {byte : UInt8}
    (same : mixByte hash byte = mixByte other byte) : hash = other :=
  UInt64.xor_left_inj _ |>.mp (mul_factor_inj same)

theorem mixByte_byte_inj {hash : UInt64} {byte other : UInt8}
    (same : mixByte hash byte = mixByte hash other) : byte = other :=
  UInt8.toUInt64_inj.mp (UInt64.xor_right_inj _ |>.mp (mul_factor_inj same))

/-- Hashes that differ still differ after the same bytes. -/
theorem foldl_mixByte_inj {bytes : List UInt8} {hash other : UInt64}
    (same : bytes.foldl mixByte hash = bytes.foldl mixByte other) : hash = other := by
  induction bytes generalizing hash other with
  | nil => exact same
  | cons byte bytes ih => exact mixByte_hash_inj (ih same)

theorem foldl_mixByte_ne {front back : List UInt8} {byte other : UInt8} (differ : byte ≠ other)
    (hash : UInt64) :
    (front ++ byte :: back).foldl mixByte hash ≠ (front ++ other :: back).foldl mixByte hash := by
  intro same
  rw [List.foldl_append, List.foldl_append, List.foldl_cons, List.foldl_cons] at same
  exact differ (mixByte_byte_inj (foldl_mixByte_inj same))

theorem exists_of_differ_once {bytes others : List UInt8} (long : bytes.length = others.length)
    (once : ∃! i : Nat, bytes[i]? ≠ others[i]?) : ∃ front byte other back,
      bytes = front ++ byte :: back ∧ others = front ++ other :: back ∧ byte ≠ other := by
  rcases once with ⟨i, differ, only⟩
  have inside : i < bytes.length := by
    by_contra outside
    have outside := Nat.not_lt.mp outside
    exact differ (by rw [List.getElem?_eq_none outside, List.getElem?_eq_none (long ▸ outside)])
  have elsewhere : ∀ j, j ≠ i → bytes[j]? = others[j]? :=
    fun j other => not_not.mp fun unequal => other (only j unequal)
  have front : bytes.take i = others.take i := by
    apply List.ext_getElem?
    intro j
    rw [List.getElem?_take, List.getElem?_take]
    split
    · next before => exact elsewhere j (Nat.ne_of_lt before)
    · rfl
  have back : bytes.drop (i + 1) = others.drop (i + 1) := by
    apply List.ext_getElem?
    intro j
    rw [List.getElem?_drop, List.getElem?_drop]
    exact elsewhere _ (by omega)
  refine ⟨bytes.take i, bytes[i], others[i], bytes.drop (i + 1), ?_, ?_, fun same => differ ?_⟩
  · rw [List.cons_getElem_drop_succ, List.take_append_drop]
  · rw [front, back, List.cons_getElem_drop_succ, List.take_append_drop]
  · rw [List.getElem?_eq_getElem inside, List.getElem?_eq_getElem (long ▸ inside), same]

theorem Image.hash_ne {image other : Image} (long : image.bytes.length = other.bytes.length)
    (once : ∃! i : Nat, image.bytes[i]? ≠ other.bytes[i]?) : image.hash ≠ other.hash := by
  rcases exists_of_differ_once long once with ⟨front, byte, byte', back, here, there, differ⟩
  rw [Image.hash, Image.hash, here, there]
  exact foldl_mixByte_ne differ _

end Rounds

/-- The bytes that are hashed are those of the bits of a state. If no id has a zero byte, they
differ as soon as the ticks, the bits of the times, the ids or the bits of a component do; and where
they differ in one byte only, so do the hashes. -/
theorem State.hash_tells_apart :
    (∀ state : State, state.bytes = state.image.bytes ∧ state.hash = state.image.hash) ∧
    (∀ image other : Image, image.ZeroFree → other.ZeroFree →
      (image.bytes = other.bytes ↔ image = other)) ∧
    ∀ image other : Image, image.bytes.length = other.bytes.length →
      (∃! i : Nat, image.bytes[i]? ≠ other.bytes[i]?) → image.hash ≠ other.hash :=
  ⟨fun state => ⟨state.bytes_eq, state.hash_eq⟩,
    fun _ _ free free' => ⟨Image.bytes_inj free free', congrArg _⟩,
    fun _ _ long once => Image.hash_ne long once⟩

def resting (x : Float) : State :=
  ⟨0.5, 3, [("b", ⟨⟨x, 0.0⟩, .zero, .zero⟩), ("é", ⟨.zero, .zero, .zero⟩)]⟩

theorem State.hash_tells_apart_resting :
    (resting 0.0).image.ZeroFree ∧ (resting (-0.0)).image.ZeroFree ∧
    (resting 0.0).bytes ≠ (resting (-0.0)).bytes ∧ (resting 0.0).hash ≠ (resting (-0.0)).hash := by
  rcases State.hash_tells_apart with ⟨images, bytes, hashes⟩
  have free : ∀ x, (resting x).image.ZeroFree := by
    intro x entry member
    have ids : ∀ id ∈ ["b", "é"], 0 ∉ utf8 id := by decide +kernel
    apply ids
    simp only [resting, State.image, List.map_cons, List.map_nil] at member
    simp only [List.mem_cons, List.not_mem_nil, or_false] at member ⊢
    rcases member with rfl | rfl
    · exact .inl rfl
    · exact .inr rfl
  have long : (resting 0.0).image.bytes.length = 117 ∧
      (resting (-0.0)).image.bytes.length = 117 := by
    decide +kernel
  have place : (resting 0.0).image.bytes[25]? ≠ (resting (-0.0)).image.bytes[25]? := by
    decide +kernel
  have elsewhere : ∀ i < 117, (resting 0.0).image.bytes[i]? ≠ (resting (-0.0)).image.bytes[i]? →
      i = 25 := by decide +kernel
  refine ⟨free _, free _, ?_, ?_⟩
  · rw [(images _).1, (images _).1, ne_eq, bytes _ _ (free _) (free _)]
    decide +kernel
  · rw [(images _).2, (images _).2]
    refine hashes _ _ (long.1.trans long.2.symm) ⟨25, place, fun i differ => ?_⟩
    by_cases inside : i < 117
    · exact elsewhere i inside differ
    · refine absurd ?_ differ
      rw [List.getElem?_eq_none (by omega), List.getElem?_eq_none (by omega)]

end ParticleSim
