import ParticleSim.Proofs.Tree.Equality
import ParticleSim.Schema.Compile
/-!
Two readings of a schema side by side. Twins both fail, for whatever reason, or both succeed with
related results, having met references to the same names. Reading the entries of a mapping in
another order is a twin of reading them as they stand.
-/
namespace ParticleSim.Compile

variable {α β γ δ : Type} {R : α → β → Prop} {S : γ → δ → Prop}

def Fails (reading : Compile α) : Prop :=
  ∀ before, ∃ error, reading.run before = .error error

def Gives (reading : Compile α) (value : α) (found : List Reference) : Prop :=
  ∀ before, reading.run before = .ok (value, before ++ found)

def SameNames (first second : List Reference) : Prop :=
  ∀ name, name ∈ first.map Reference.name ↔ name ∈ second.map Reference.name

theorem SameNames.append {first second third fourth : List Reference}
    (left : SameNames first second) (right : SameNames third fourth) :
    SameNames (first ++ third) (second ++ fourth) := by
  intro name
  rw [List.map_append, List.map_append, List.mem_append, List.mem_append, left name, right name]

/-- Both readings fail, or both give related values and references to the same names. -/
inductive Twins (R : α → β → Prop) (first : Compile α) (second : Compile β) : Prop where
  | fail (left : Fails first) (right : Fails second)
  | give {a : α} {b : β} {found found' : List Reference} (left : Gives first a found)
    (right : Gives second b found') (related : R a b) (names : SameNames found found')

def Settled (P : α → Prop) (reading : Compile α) : Prop :=
  Fails reading ∨ ∃ value found, Gives reading value found ∧ P value

theorem Fails.bind {reading : Compile α} (fails : Fails reading) (next : α → Compile γ) :
    Fails (reading >>= next) := by
  intro before
  rcases fails before with ⟨error, stops⟩
  refine ⟨error, ?_⟩
  rw [StateT.run_bind, stops]
  rfl

theorem Gives.pure (value : α) : Gives (pure value) value [] := by
  intro before
  rw [List.append_nil]
  rfl

theorem Gives.bind {reading : Compile α} {value : α} {found more : List Reference} {result : γ}
    {next : α → Compile γ} (first : Gives reading value found)
    (second : Gives (next value) result more) :
    Gives (reading >>= next) result (found ++ more) := by
  intro before
  rw [StateT.run_bind, first before, ← List.append_assoc]
  exact second _

theorem Gives.bind_fails {reading : Compile α} {value : α} {found : List Reference}
    {next : α → Compile γ} (first : Gives reading value found) (second : Fails (next value)) :
    Fails (reading >>= next) := by
  intro before
  rcases second (before ++ found) with ⟨error, stops⟩
  refine ⟨error, ?_⟩
  rw [StateT.run_bind, first before]
  exact stops

theorem Gives.unique {reading : Compile α} {value other : α} {found more : List Reference}
    (first : Gives reading value found) (second : Gives reading other more) :
    value = other ∧ found = more := by
  have same := first []
  rw [second []] at same
  cases same
  exact ⟨rfl, rfl⟩

theorem Gives.not_fails {reading : Compile α} {value : α} {found : List Reference}
    (gives : Gives reading value found) : ¬Fails reading := by
  intro fails
  rcases fails [] with ⟨error, stops⟩
  rw [gives []] at stops
  cases stops

theorem fails_fail (path : Path) (fault : SchemaFault) : Fails (fail path fault : Compile α) :=
  fun _ => ⟨_, rfl⟩

/-- A reading that is settled is its own twin. -/
theorem Settled.twins {P : α → Prop} {reading : Compile α} (settled : Settled P reading) :
    Twins Eq reading reading := by
  rcases settled with fails | ⟨value, found, gives, -⟩
  · exact .fail fails fails
  · exact .give gives gives rfl fun _ => Iff.rfl

namespace Twins

variable {first : Compile α} {second : Compile β}

theorem settled (twins : Twins R first second) {P : α → Prop} (kind : ∀ a b, R a b → P a) :
    Settled P first := by
  cases twins with
  | fail left _ => exact .inl left
  | give left _ related _ => exact .inr ⟨_, _, left, kind _ _ related⟩

theorem mono {R' : α → β → Prop} (twins : Twins R first second)
    (weaker : ∀ a b, R a b → R' a b) : Twins R' first second := by
  cases twins with
  | fail left right => exact .fail left right
  | give left right related names => exact .give left right (weaker _ _ related) names

theorem pure {a : α} {b : β} (related : R a b) :
    Twins R (Pure.pure a : Compile α) (Pure.pure b : Compile β) :=
  .give (.pure a) (.pure b) related fun _ => Iff.rfl

theorem bind (twins : Twins R first second) {next : α → Compile γ} {next' : β → Compile δ}
    (later : ∀ a b, R a b → Twins S (next a) (next' b)) :
    Twins S (first >>= next) (second >>= next') := by
  cases twins with
  | fail left right => exact .fail (left.bind next) (right.bind next')
  | give left right related names =>
    cases later _ _ related with
    | fail left' right' => exact .fail (left.bind_fails left') (right.bind_fails right')
    | give left' right' related' names' =>
      exact .give (left.bind left') (right.bind right') related' (names.append names')

theorem also (twins : Twins R first second) {P : α → Prop} (settled : Settled P first) :
    Twins (fun a b => P a ∧ R a b) first second := by
  cases twins with
  | fail left right => exact .fail left right
  | give left right related names =>
    rcases settled with fails | ⟨value, found, gives, kind⟩
    · exact absurd fails left.not_fails
    · rcases left.unique gives with ⟨rfl, -⟩
      exact .give left right ⟨kind, related⟩ names

theorem map (twins : Twins R first second) {f : α → γ} {g : β → δ}
    (related : ∀ a b, R a b → S (f a) (g b)) : Twins S (f <$> first) (g <$> second) := by
  rw [map_eq_pure_bind, map_eq_pure_bind]
  exact twins.bind fun a b same => .pure (related a b same)

theorem trans {third : Compile γ} {T : β → γ → Prop} {U : α → γ → Prop}
    (left : Twins R first second) (right : Twins T second third)
    (compose : ∀ a b c, R a b → T b c → U a c) : Twins U first third := by
  cases left with
  | fail stops stops' =>
    cases right with
    | fail _ stops'' => exact .fail stops stops''
    | give gives => exact absurd stops' gives.not_fails
  | give gives gives' related names =>
    cases right with
    | fail stops => exact absurd stops gives'.not_fails
    | give again gives'' related' names' =>
      rcases gives'.unique again with ⟨rfl, rfl⟩
      exact .give gives gives'' (compose _ _ _ related related') fun name =>
        (names name).trans (names' name)

theorem orFail {found : Option α} {found' : Option β} (related : Option.Rel R found found')
    (path path' : Path) (fault fault' : SchemaFault) :
    Twins R (orFail found path fault) (orFail found' path' fault') :=
  rel_elim related (.fail (fails_fail path fault) (fails_fail path' fault')) fun _ _ related =>
    .pure related

theorem each {items : List α} {others : List β} (related : List.Forall₂ R items others)
    {read : α × Nat → Compile γ} {read' : β × Nat → Compile δ}
    (twins : ∀ a b i, R a b → Twins S (read (a, i)) (read' (b, i))) (start : Nat) :
    Twins (List.Forall₂ S) ((items.zipIdx start).mapM read)
      ((others.zipIdx start).mapM read') := by
  induction related generalizing start with
  | nil =>
    rw [List.zipIdx_nil, List.zipIdx_nil, List.mapM_nil, List.mapM_nil]
    exact .pure .nil
  | cons here _ ih =>
    rw [List.zipIdx_cons, List.zipIdx_cons, List.mapM_cons, List.mapM_cons]
    exact (twins _ _ start here).bind fun a b first =>
      (ih (start + 1)).bind fun as bs rest => .pure (.cons first rest)

end Twins

def readEntries (read : String → α → Compile γ) : Fields α → Compile (Fields γ)
  | [] => return []
  | (key, value) :: rest => do
    let first ← read key value
    return (key, first) :: (← readEntries read rest)

variable {read : String → α → Compile γ} {read' : String → β → Compile δ}

section Entries

variable {entry : String × α} {rest : Fields α}

theorem Fails.first (fails : Fails (read entry.1 entry.2)) :
    Fails (readEntries read (entry :: rest)) :=
  fails.bind _

theorem Gives.fails_later {value : γ} {found : List Reference}
    (first : Gives (read entry.1 entry.2) value found) (later : Fails (readEntries read rest)) :
    Fails (readEntries read (entry :: rest)) :=
  first.bind_fails (later.bind _)

theorem Gives.cons {value : γ} {values : Fields γ} {found more : List Reference}
    (first : Gives (read entry.1 entry.2) value found)
    (later : Gives (readEntries read rest) values more) :
    Gives (readEntries read (entry :: rest)) ((entry.1, value) :: values) (found ++ more) := by
  have tail : Gives (do return (entry.1, value) :: (← readEntries read rest))
      ((entry.1, value) :: values) (more ++ []) := later.bind (.pure _)
  rw [List.append_nil] at tail
  exact first.bind tail

end Entries

theorem Settled.readEntries {P : String → γ → Prop} {fields : Fields α}
    (settled : ∀ entry ∈ fields, Settled (P entry.1) (read entry.1 entry.2)) :
    Settled (fun values : Fields γ => values.keys = fields.keys ∧
      ∀ entry ∈ values, P entry.1 entry.2) (readEntries read fields) := by
  induction fields with
  | nil => exact .inr ⟨[], [], .pure _, rfl, fun _ member => nomatch member⟩
  | cons entry rest ih =>
    rcases List.forall_mem_cons.mp settled with ⟨here, later⟩
    rcases here with fails | ⟨value, found, gives, kind⟩
    · exact .inl fails.first
    · rcases ih later with fails | ⟨values, more, gives', keys, kinds⟩
      · exact .inl (gives.fails_later fails)
      · exact .inr ⟨_, _, gives.cons gives', congrArg (entry.1 :: ·) keys,
          List.forall_mem_cons.mpr ⟨kind, kinds⟩⟩

/-- Reading entries in another order gives their values in that order. -/
theorem readEntries_perm {P : String → γ → Prop} {fields others : Fields α}
    (perm : fields.Perm others)
    (settled : ∀ entry ∈ fields, Settled (P entry.1) (read entry.1 entry.2)) :
    Twins List.Perm (readEntries read fields) (readEntries read others) := by
  induction perm with
  | nil => exact .pure (.refl _)
  | cons entry _ ih =>
    rcases List.forall_mem_cons.mp settled with ⟨here, later⟩
    refine here.twins.bind fun value _ same => (ih later).bind fun as bs perm => ?_
    subst same
    exact .pure (perm.cons _)
  | swap a b rest =>
    rcases List.forall_mem_cons.mp settled with ⟨first, later⟩
    rcases List.forall_mem_cons.mp later with ⟨second, later⟩
    -- whichever of the two fails, both orders fail
    rcases first with fails | ⟨value, found, gives, -⟩
    · rcases second with fails' | ⟨value', found', gives', -⟩
      · exact .fail fails.first fails'.first
      · exact .fail fails.first (gives'.fails_later fails.first)
    · rcases second with fails' | ⟨value', found', gives', -⟩
      · exact .fail (gives.fails_later fails'.first) fails'.first
      · rcases Settled.readEntries later with fails | ⟨values, more, both, -⟩
        · exact .fail (gives.fails_later (gives'.fails_later fails))
            (gives'.fails_later (gives.fails_later fails))
        · refine .give (gives.cons (gives'.cons both)) (gives'.cons (gives.cons both))
            (.swap ..) fun name => ?_
          simp only [List.map_append, List.mem_append]
          exact or_left_comm
  | trans left _ ih ih' =>
    exact (ih settled).trans (ih' fun entry member => settled entry (left.mem_iff.mpr member))
      fun _ _ _ => List.Perm.trans

theorem readEntries_matches {fields : Fields α} {others : Fields β}
    (matching : List.Forall₂ (Fields.Matches R) fields others)
    (twins : ∀ key a b, R a b → Twins S (read key a) (read' key b)) :
    Twins (List.Forall₂ (Fields.Matches S)) (readEntries read fields)
      (readEntries read' others) := by
  induction matching with
  | nil => exact .pure .nil
  | @cons entry other _ _ here _ ih =>
    rcases entry with ⟨key, value⟩
    rcases other with ⟨_, value'⟩
    rcases here with ⟨rfl, related⟩
    exact (twins key value value' related).bind fun a b first =>
      ih.bind fun as bs rest => .pure (.cons ⟨rfl, first⟩ rest)

theorem Twins.entries {P : String → γ → Prop} {fields : Fields α} {others : Fields β}
    (alike : fields.Alike R others) (twins : ∀ key a b, R a b →
      Twins (fun c d => P key c ∧ S c d) (read key a) (read' key b)) :
    Twins (fun values values' => (∀ entry ∈ values, P entry.1 entry.2) ∧
      Fields.Alike S values values') (readEntries read fields) (readEntries read' others) := by
  have settled : ∀ entry ∈ fields, Settled (P entry.1) (read entry.1 entry.2) := by
    intro entry member
    rcases alike.exists_partner member with ⟨other, -, related⟩
    exact (twins _ _ other related).settled fun _ _ both => both.1
  rcases alike.exists_perm with ⟨middle, perm, matching⟩
  have reordered := (readEntries_perm perm settled).also (.readEntries settled)
  have related : ∀ key a b, R a b → Twins S (read key a) (read' key b) :=
    fun key a b same => (twins key a b same).mono fun _ _ both => both.2
  refine reordered.trans (readEntries_matches matching related) ?_
  intro values ordered values' given matching'
  rcases given with ⟨⟨keys, kinds⟩, perm'⟩
  refine ⟨kinds, Fields.Alike.of_perm ?_ perm' matching'⟩
  rw [keys]
  exact alike.distinct

end ParticleSim.Compile
