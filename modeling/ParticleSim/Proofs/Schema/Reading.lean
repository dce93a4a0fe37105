import ParticleSim.Proofs.Schema.Patches

namespace ParticleSim.Compile

variable {α β γ : Type} {P : α → Prop} {Q : γ → Prop} {reading : Compile α}

namespace Settled

theorem pure {value : α} (kind : P value) : Settled P (pure value) :=
  .inr ⟨value, [], .pure value, kind⟩

theorem fail (path : Path) (fault : SchemaFault) : Settled P (fail path fault) :=
  .inl (fails_fail path fault)

theorem bind (settled : Settled P reading) {next : α → Compile γ}
    (later : ∀ value, P value → Settled Q (next value)) : Settled Q (reading >>= next) := by
  rcases settled with fails | ⟨value, found, gives, kind⟩
  · exact .inl (fails.bind next)
  · rcases later value kind with fails | ⟨result, more, gives', kind'⟩
    · exact .inl (gives.bind_fails fails)
    · exact .inr ⟨result, found ++ more, gives.bind gives', kind'⟩

theorem map (settled : Settled P reading) {f : α → γ} (kind : ∀ value, P value → Q (f value)) :
    Settled Q (f <$> reading) := by
  rw [map_eq_pure_bind]
  exact settled.bind fun value holds => pure (kind value holds)

theorem mono (settled : Settled P reading) {P' : α → Prop} (weaker : ∀ value, P value → P' value) :
    Settled P' reading := by
  rcases settled with fails | ⟨value, found, gives, kind⟩
  · exact .inl fails
  · exact .inr ⟨value, found, gives, weaker value kind⟩

theorem orFail (value : Option α) (path : Path) (fault : SchemaFault) :
    Settled (fun _ => True) (orFail value path fault) := by
  cases value with
  | none => exact fail path fault
  | some value => exact pure trivial

theorem mapM {items : List β} {read : β → Compile α}
    (each : ∀ item ∈ items, Settled P (read item)) :
    Settled (fun _ => True) (items.mapM read) := by
  induction items with
  | nil =>
    rw [List.mapM_nil]
    exact pure trivial
  | cons item rest ih =>
    rcases List.forall_mem_cons.mp each with ⟨here, later⟩
    rw [List.mapM_cons]
    exact here.bind fun _ _ => (ih later).bind fun _ _ => pure trivial

end Settled

namespace Gives

variable {value result : γ} {found : List Reference}

theorem kind {value : α} (gives : Gives reading value found) (settled : Settled P reading) :
    P value := by
  rcases settled with fails | ⟨other, more, gives', kind⟩
  · exact absurd fails gives.not_fails
  · rw [(gives.unique gives').1]
    exact kind

/-- A reading in two stages that succeeds is made of two that do. -/
theorem of_bind {next : α → Compile γ} (gives : Gives (reading >>= next) result found)
    (settled : Settled P reading) (later : ∀ value, P value → Settled Q (next value)) :
    ∃ value first rest, Gives reading value first ∧ Gives (next value) result rest ∧
      found = first ++ rest := by
  rcases settled with fails | ⟨value, first, here, kind⟩
  · exact absurd (fails.bind next) gives.not_fails
  · rcases later value kind with fails | ⟨result', rest, there, -⟩
    · exact absurd (here.bind_fails fails) gives.not_fails
    · rcases gives.unique (here.bind there) with ⟨rfl, same⟩
      exact ⟨value, first, rest, here, there, same⟩

theorem of_map {f : α → γ} (gives : Gives (f <$> reading) result found)
    (settled : Settled P reading) : ∃ value, Gives reading value found ∧ result = f value := by
  rw [map_eq_pure_bind] at gives
  rcases gives.of_bind (Q := fun _ => True) settled fun value _ => .pure trivial with
    ⟨value, first, rest, here, there, rfl⟩
  rcases there.unique (.pure (f value)) with ⟨rfl, rfl⟩
  rw [List.append_nil]
  exact ⟨value, here, rfl⟩

end Gives

section Entries

variable {key : String} {read : String → α → Compile γ} {fields : Fields α} {values : Fields γ}
  {found : List Reference}

theorem Gives.entry {K : String → γ → Prop} {value : α}
    (gives : Gives (readEntries read fields) values found)
    (settled : ∀ entry ∈ fields, Settled (K entry.1) (read entry.1 entry.2))
    (asked : fields.get? key = some value) : ∃ result part, values.get? key = some result ∧
      Gives (read key value) result part ∧ part ⊆ found := by
  induction fields generalizing values found with
  | nil => cases asked
  | cons entry rest ih =>
    rcases entry with ⟨name, first⟩
    rcases List.forall_mem_cons.mp settled with ⟨here, later⟩
    rcases here with fails | ⟨result, part, given, -⟩
    · exact absurd (Fails.first fails) gives.not_fails
    · rcases Settled.readEntries later with fails | ⟨others, more, next, -⟩
      · exact absurd (given.fails_later fails) gives.not_fails
      · rcases gives.unique (given.cons next) with ⟨rfl, rfl⟩
        rw [Fields.get?] at asked ⊢
        split at asked
        · next same =>
          cases asked
          rw [if_pos same, ← same]
          exact ⟨result, part, rfl, given, List.subset_append_left ..⟩
        · next differ =>
          rw [if_neg differ]
          rcases ih next later asked with ⟨result, part, stands, given, inside⟩
          exact ⟨result, part, stands, given, List.subset_append_of_subset_right _ inside⟩

theorem Gives.keys {K : String → γ → Prop} (gives : Gives (readEntries read fields) values found)
    (settled : ∀ entry ∈ fields, Settled (K entry.1) (read entry.1 entry.2)) :
    values.keys = fields.keys :=
  (gives.kind (.readEntries settled)).1

end Entries

variable (node : Node) (path : Path)

theorem settled_strings : Settled (fun _ => True) (strings node path) :=
  (Settled.orFail ..).bind fun _ _ => .mapM fun _ _ => .orFail ..

theorem settled_types : Settled (fun _ => True) (types node path) := by
  have names : ∀ names : List String, Settled (fun _ => True)
      (names.mapM fun name => orFail (TypeName.ofText? name) path (.unknownType name)) :=
    fun names => .mapM fun _ _ => .orFail ..
  rw [types]
  cases node.string? with
  | none => exact (settled_strings node path).bind fun found _ => names found
  | some name => exact names [name]

theorem settled_pattern : Settled (fun _ => True) (pattern node path) :=
  (Settled.orFail ..).bind fun _ _ => (Settled.orFail ..).mono fun _ _ => trivial

theorem settled_named (target : String) : Settled (fun _ => True) (do
    let name ← orFail (definitionName? target) path (.unsupportedReference target)
    modify (· ++ [(⟨name, path⟩ : Reference)])
    return name : Compile String) :=
  (Settled.orFail ..).bind fun name _ => .inr ⟨name, [⟨name, path⟩], fun _ => rfl, trivial⟩

theorem settled_reference : Settled (fun _ => True) (reference node path) :=
  (Settled.orFail ..).bind fun target _ => settled_named path target

theorem settled_facetPatch (keyword : String) :
    Settled (fun found => Patch.Of keyword (.facet found)) (facetPatch keyword node path) := by
  rw [facetPatch.eq_def]
  split
  · exact (settled_types node path).map fun _ _ => .inr rfl
  · exact .pure (.inr rfl)
  · exact (Settled.orFail ..).map fun _ _ => .inr rfl
  · exact (Settled.orFail ..).map fun _ _ => .inr rfl
  · exact (Settled.orFail ..).map fun _ _ => .inr rfl
  · exact (Settled.orFail ..).map fun _ _ => .inr rfl
  · exact (Settled.orFail ..).map fun _ _ => .inr rfl
  · exact (Settled.orFail ..).map fun _ _ => .inr rfl
  · exact (Settled.orFail ..).map fun _ _ => .inr rfl
  · exact (settled_pattern node path).map fun _ _ => .inr rfl
  · exact (Settled.orFail ..).map fun _ _ => .inr rfl
  · exact (Settled.orFail ..).map fun _ _ => .inr rfl
  · exact (settled_strings node path).map fun _ _ => .inr rfl
  · exact .pure (.inl rfl)

/-- A reference names what stands behind one of the two beginnings of a pointer. -/
theorem definitionName?_eq_some {target name : String}
    (named : definitionName? target = some name) :
    target = "#/definitions/" ++ name ∨ target = "#/$defs/" ++ name := by
  have behind {start rest : String} (found : (if start.toList.isPrefixOf target.toList then
      some (String.ofList (target.toList.drop start.length)) else none) = some rest) :
      target = start ++ rest := by
    split at found
    · next begins =>
      rcases List.isPrefixOf_iff_prefix.mp begins with ⟨after, whole⟩
      rw [← Option.some.inj found, ← String.toList_inj, String.toList_append,
        String.toList_ofList, ← whole, ← String.length_toList, List.drop_left]
    · cases found
  rw [definitionName?, Option.or_eq_some_iff] at named
  exact named.imp behind fun both => behind both.2

theorem Gives.of_orFail {value : Option α} {path : Path} {fault : SchemaFault} {result : α}
    {found : List Reference} (gives : Gives (orFail value path fault) result found) :
    value = some result ∧ found = [] := by
  cases value with
  | none => exact absurd (fails_fail path fault) gives.not_fails
  | some value =>
    rcases gives.unique (.pure value) with ⟨rfl, rfl⟩
    exact ⟨rfl, rfl⟩

theorem Gives.of_reference {node : Node} {path : Path} {name : String} {found : List Reference}
    (gives : Gives (reference node path) name found) : ∃ target, node.string? = some target ∧
      definitionName? target = some name ∧ found = [⟨name, path⟩] := by
  rcases gives.of_bind (.orFail ..) fun target _ => settled_named path target with
    ⟨target, _, _, first, named, rfl⟩
  rcases first.of_orFail with ⟨text, rfl⟩
  have refers : ∀ name : String, Gives
      (do modify (· ++ [(⟨name, path⟩ : Reference)]); return name) name [⟨name, path⟩] :=
    fun _ _ => rfl
  rcases named.of_bind (.orFail ..) fun name _ => .inr ⟨name, _, refers name, trivial⟩ with
    ⟨other, _, _, second, last, rfl⟩
  rcases second.of_orFail with ⟨pointed, rfl⟩
  rcases last.unique (refers other) with ⟨rfl, rfl⟩
  exact ⟨target, text, pointed, rfl⟩

end ParticleSim.Compile

namespace ParticleSim

open Compile

structure Node.Settles (node : Node) : Prop where
  schema : ∀ path, Settled (fun _ => True) (Schema.ofNode node path)
  named : ∀ path, Settled (fun _ => True) (Schema.propertiesOf node path)
  listed : ∀ path, Settled (fun _ => True) (Schema.branchesOf node path)

theorem Compile.settled_patch {node : Node} (settles : node.Settles)
    {branch? : String → Compile (Option Schema)}
    (branches : ∀ name, Settled (fun _ => True) (branch? name)) (keyword : String) (path : Path) :
    Settled (Patch.Of keyword) (patch branch? keyword node path) := by
  rw [patch.eq_def]
  split
  · exact (settled_reference node path).map fun _ _ => .inr rfl
  · exact (settles.schema path).map fun _ _ => .inr rfl
  · exact (settles.named path).map fun _ _ => .inr rfl
  · split
    · exact .pure (.inr rfl)
    · exact .pure (.inr rfl)
    · exact (settles.schema path).map fun _ _ => .inr rfl
  · exact (settles.listed path).map fun _ _ => .inr rfl
  · exact (settles.listed path).map fun _ _ => .inr rfl
  · exact (settles.schema path).bind fun _ _ => (branches "then").bind fun _ _ =>
      (branches "else").bind fun _ _ => .pure (.inr rfl)
  · exact (settled_facetPatch node path keyword).map fun _ kind => kind

namespace Schema

variable {fields : Fields Node} (settles : ∀ entry ∈ fields, entry.2.Settles) (path : Path)
include settles

theorem settled_named? (name : String) : Settled (fun _ => True) (named? name fields path) := by
  rw [named?_eq]
  cases asked : fields.get? name with
  | none => exact .pure trivial
  | some value =>
    exact ((settles _ (Fields.mem_of_get? asked)).schema _).map fun _ _ => trivial

theorem settled_patches : ∀ entry ∈ fields, Settled (Patch.Of entry.1)
    (Compile.patch (fun name => named? name fields path) entry.1 entry.2 (path.key entry.1)) :=
  fun entry member => settled_patch (settles entry member) (settled_named? settles path) ..

theorem settled_namedSchemas : Settled (fun _ => True) (namedSchemas fields path) := by
  rw [namedSchemas_eq]
  exact (Settled.readEntries (P := fun _ _ => True) fun entry member =>
    (settles entry member).schema _).mono fun _ _ => trivial

theorem settled_ofMapping : Settled (fun _ => True) (ofNode (.mapping fields) path) := by
  rw [ofNode, withKeywords_eq]
  exact (Settled.readEntries (settled_patches settles path)).map fun _ _ => trivial

end Schema

theorem Schema.settled_listedSchemas {items : List Node} (settles : ∀ item ∈ items, item.Settles)
    (path : Path) (start : Nat) : Settled (fun _ => True) (listedSchemas items start path) := by
  induction items generalizing start with
  | nil =>
    rw [listedSchemas]
    exact .pure trivial
  | cons item rest ih =>
    rcases List.forall_mem_cons.mp settles with ⟨here, later⟩
    rw [listedSchemas]
    exact (here.schema _).bind fun _ _ => (ih later _).bind fun _ _ => .pure trivial

open Schema in
theorem Node.settles (node : Node) : node.Settles := by
  induction node using Node.induction with
  | scalar value =>
    refine ⟨fun path => ?_, fun path => .fail .., fun path => .fail ..⟩
    cases value with
    | bool allowed =>
      rw [ofNode]
      exact .pure trivial
    | _ => exact .fail ..
  | sequence items ih =>
    refine ⟨fun path => .fail .., fun path => .fail .., fun path => ?_⟩
    rw [branchesOf]
    exact settled_listedSchemas ih path 0
  | mapping fields ih =>
    refine ⟨settled_ofMapping ih, fun path => ?_, fun path => .fail ..⟩
    rw [propertiesOf]
    exact settled_namedSchemas ih path

end ParticleSim
