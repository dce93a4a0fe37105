import ParticleSim.Proofs.Number.Units
import ParticleSim.Proofs.Text.ByteOrder
import ParticleSim.Proofs.World.Stepping

namespace ParticleSim

def Unsteppable (dt : Float) : Prop := dt.isNaN = true ∨ dt.isInf = true ∨ dt ≤ 0.0

theorem magnitude_iff {dt : Float} : Magnitude (0.0 < ·) dt ↔ ¬Unsteppable dt := by
  have origin : (0.0 : Float).isNaN = false := by decide +kernel
  rw [Magnitude, Unsteppable, not_or, not_or, Binary64.isFinite_iff, Bool.not_eq_true,
    Bool.not_eq_true, and_assoc]
  refine and_congr_right fun number => and_congr_right fun _ => ?_
  exact (Binary64.not_le_iff number origin).symm

namespace World

/-- What tells a state from those of a world: of the ids that the world lacks the least in the order
of their bytes, and if it lacks none, the first body of the document that the state lacks. -/
inductive Culprit (world : World) (state : State) : String → Prop where
  | stray {id : String} (held : id ∈ state.bodies.keys) (unknown : id ∉ world.ids)
      (least : ∀ other ∈ state.bodies.keys, other ∉ world.ids → other ≠ id →
        utf8 id < utf8 other) : Culprit world state id
  | missing {before after : List Body} {body : Body}
      (known : ∀ id ∈ state.bodies.keys, id ∈ world.ids)
      (order : world.bodies = before ++ body :: after)
      (held : ∀ earlier ∈ before, earlier.id ∈ state.bodies.keys)
      (lacking : body.id ∉ state.bodies.keys) : Culprit world state body.id

structure Outcome (world : World) (tuning : Tuning) (state : State) (dt : Float) : Prop where
  timestep : ∀ t, world.step tuning state dt = .error (.invalidTimestep t) ↔
    t = dt ∧ Unsteppable dt
  body : ¬Unsteppable dt →
    ∀ id, world.step tuning state dt = .error (.unknownBody id) ↔ world.Culprit state id
  culprit : (∃ id, world.Culprit state id) ↔ ¬∀ id, id ∈ state.bodies.keys ↔ id ∈ world.ids
  taken : ¬Unsteppable dt → (∀ id, id ∈ state.bodies.keys ↔ id ∈ world.ids) →
    ∃ next, world.step tuning state dt = .ok next ∧ next.bodies.keys.Perm world.ids ∧
      next.tick.toNat = state.tick.toNat + 1

section Refusal

variable {world : World} {tuning : Tuning} {state : State} {dt : Float} {id : String}

theorem stray_eq_some_iff (ascending : state.bodies.Ascending) :
    (state.bodies.find? fun entry => (world.body? entry.1).isNone).map Prod.fst = some id ↔
      id ∈ state.bodies.keys ∧ id ∉ world.ids ∧
        ∀ other ∈ state.bodies.keys, other ∉ world.ids → other ≠ id → utf8 id < utf8 other := by
  refine (ascending.find?_key fun id => (world.body? id).isNone).trans ?_
  simp only [body?_isNone_iff, lt_iff_utf8]

theorem mapM_eq_error {ε α β : Type} {read : α → Except ε β} {before after : List α} {item : α}
    {e : ε} (reads : ∀ earlier ∈ before, ∃ value, read earlier = .ok value)
    (fails : read item = .error e) : (before ++ item :: after).mapM read = .error e := by
  induction before with
  | nil =>
    rw [List.nil_append, List.mapM_cons, fails]
    rfl
  | cons earlier rest ih =>
    rw [List.forall_mem_cons] at reads
    rcases reads.1 with ⟨value, here⟩
    rw [List.cons_append, List.mapM_cons, here]
    change Except.bind ((rest ++ item :: after).mapM read) _ = _
    rw [ih reads.2]
    rfl

theorem step_of_culprit (ascending : state.bodies.Ascending) (accepted : Magnitude (0.0 < ·) dt)
    (culprit : world.Culprit state id) :
    world.step tuning state dt = .error (.unknownBody id) := by
  rw [step, if_neg (refused_iff.not_left.mpr accepted)]
  cases culprit with
  | stray held unknown least =>
    have first := (stray_eq_some_iff ascending).mpr ⟨held, unknown, least⟩
    rcases Option.map_eq_some_iff.mp first with ⟨entry, found, rfl⟩
    rw [found]
    rfl
  | missing known order held lacking =>
    rw [stranger_eq_none_iff.mpr known, order]
    dsimp only
    rw [mapM_eq_error (fun earlier member => ?_) (e := .unknownBody _) ?_]
    · rfl
    · rw [Fields.get?_eq_none_iff.mpr lacking]
      rfl
    · have here := mt Fields.get?_eq_none_iff.mp (not_not.mpr (held earlier member))
      rcases Option.ne_none_iff_exists'.mp here with ⟨now, found⟩
      rw [found]
      exact ⟨_, rfl⟩

theorem exists_culprit_iff (ascending : state.bodies.Ascending) :
    (∃ id, world.Culprit state id) ↔ ¬∀ id, id ∈ state.bodies.keys ↔ id ∈ world.ids := by
  constructor
  · rintro ⟨id, held, unknown, -⟩ same
    · exact unknown ((same id).mp held)
    · next order _ lacking =>
      refine lacking ((same _).mpr (List.mem_map_of_mem ?_))
      rw [order]
      exact List.mem_append_right _ (List.mem_cons_self ..)
  · intro differ
    cases stray : state.bodies.find? fun entry => (world.body? entry.1).isNone with
    | some entry =>
      have first := (stray_eq_some_iff ascending).mp (congrArg (Option.map Prod.fst) stray)
      exact ⟨entry.1, .stray first.1 first.2.1 first.2.2⟩
    | none =>
      have known := stranger_eq_none_iff.mp stray
      cases missing : world.bodies.find? (fun body => body.id ∉ state.bodies.keys) with
      | some body =>
        rcases List.find?_eq_some_iff_append.mp missing with ⟨lacking, before, after, order, held⟩
        refine ⟨body.id, .missing known order (fun earlier member => ?_)
          (of_decide_eq_true lacking)⟩
        simpa using held earlier member
      | none =>
        have held : ∀ id ∈ world.ids, id ∈ state.bodies.keys := by
          refine List.forall_mem_map.mpr fun body member => ?_
          simpa using List.find?_eq_none.mp missing body member
        exact absurd (fun id => ⟨known id, held id⟩) differ

/-- A time that can be taken is either taken, or the answer names a culprit. -/
theorem step_cases (world : World) (tuning : Tuning) (ascending : state.bodies.Ascending)
    (accepted : Magnitude (0.0 < ·) dt) :
    (∃ next, world.step tuning state dt = .ok next) ∨
      ∃ id, world.Culprit state id ∧ world.step tuning state dt = .error (.unknownBody id) := by
  by_cases same : ∀ id, id ∈ state.bodies.keys ↔ id ∈ world.ids
  · exact .inl (exists_step same accepted)
  · rcases (exists_culprit_iff ascending).mpr same with ⟨id, culprit⟩
    exact .inr ⟨id, culprit, step_of_culprit ascending accepted culprit⟩

theorem step_eq_invalidTimestep (ascending : state.bodies.Ascending) {t : Float} :
    world.step tuning state dt = .error (.invalidTimestep t) ↔ t = dt ∧ Unsteppable dt := by
  constructor
  · intro refused
    by_cases accepted : Magnitude (0.0 < ·) dt
    · rcases step_cases world tuning ascending accepted with ⟨next, taken⟩ | ⟨id, -, named⟩
      · rw [taken] at refused
        cases refused
      · rw [named] at refused
        cases refused
    · rw [step_of_refused accepted] at refused
      cases refused
      exact ⟨rfl, not_not.mp (mt magnitude_iff.mpr accepted)⟩
  · rintro ⟨rfl, refused⟩
    exact step_of_refused fun accepted => magnitude_iff.mp accepted refused

theorem step_eq_unknownBody (ascending : state.bodies.Ascending)
    (accepted : Magnitude (0.0 < ·) dt) :
    world.step tuning state dt = .error (.unknownBody id) ↔ world.Culprit state id := by
  refine ⟨fun refused => ?_, step_of_culprit ascending accepted⟩
  rcases step_cases world tuning ascending accepted with ⟨next, taken⟩ | ⟨other, culprit, named⟩
  · rw [taken] at refused
    cases refused
  · rw [named] at refused
    cases refused
    exact culprit

end Refusal

/-- Whatever the time and the state, a step names what is wrong with them, or nothing is, and then
it is taken: it counts one further and keeps the bodies of the world. -/
theorem step_outcome (world : World) (tuning : Tuning) (distinct : world.ids.Nodup) (state : State)
    (ascending : state.bodies.Ascending) (counts : state.tick.toNat + 1 < UInt64.size)
    (dt : Float) : world.Outcome tuning state dt where
  timestep _ := step_eq_invalidTimestep ascending
  body regular _ := step_eq_unknownBody ascending (magnitude_iff.mpr regular)
  culprit := exists_culprit_iff ascending
  taken regular same := by
    obtain ⟨next, taken⟩ : ∃ next, world.step tuning state dt = .ok next :=
      exists_step same (magnitude_iff.mpr regular)
    refine ⟨next, taken, ?_, ?_⟩
    · rcases step_eq_ok.mp taken with ⟨-, -, rfl⟩
      exact keys_gather distinct _
    · rw [step_tick taken, UInt64.toNat_add]
      exact Nat.mod_eq_of_lt counts

def foreign : State :=
  { time := Binary64.nan
    tick := 41
    bodies := ["Z", "bob", "é"].map fun id => (id, ⟨Vec.zero, Vec.zero, Vec.zero⟩) }

theorem step_outcome_foreign :
    pinned.ids.Nodup ∧ foreign.bodies.Ascending ∧ foreign.tick.toNat + 1 < UInt64.size ∧
      pinned.Outcome {} foreign 0.5 := by
  have distinct : pinned.ids.Nodup := by decide
  have ascending : foreign.bodies.Ascending := by
    rw [Fields.Ascending]
    decide
  have counts : foreign.tick.toNat + 1 < UInt64.size := by decide
  exact ⟨distinct, ascending, counts, step_outcome pinned {} distinct foreign ascending counts 0.5⟩

example : pinned.step {} foreign 0.5 = .error (.unknownBody "Z") := by rfl

end World
end ParticleSim
