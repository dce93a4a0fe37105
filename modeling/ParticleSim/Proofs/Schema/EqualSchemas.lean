import ParticleSim.Proofs.Schema.Agreement
import ParticleSim.Proofs.Schema.Patches
/-!
Equal trees write schemas that agree, or none of them writes a schema. The induction over the tree
compares keyword by keyword; the order of the keywords is settled by the patches.
-/
namespace ParticleSim

namespace Compile

theorem twins_typeNames (names : List String) (path : Path) :
    Twins Eq
      (names.mapM fun name => orFail (TypeName.ofText? name) path (.unknownType name))
      (names.mapM fun name => orFail (TypeName.ofText? name) path (.unknownType name)) := by
  induction names with
  | nil => exact .pure rfl
  | cons name rest ih =>
    rw [List.mapM_cons]
    refine Twins.bind (.orFail (rel_refl _) ..) fun type _ same => ?_
    subst same
    refine Twins.bind ih fun types _ same => ?_
    subst same
    exact .pure rfl

variable {node node' : Node} (like : node.Like node') (path : Path)
include like

theorem twins_number : Twins (fun x y => (x == y) = true) (number node path) (number node' path) :=
  .orFail like.number? ..

theorem twins_count : Twins Eq (count node path) (count node' path) := by
  rw [count, count, count?, count?, like.integer?_eq]
  exact .orFail (rel_refl _) ..

theorem twins_strings : Twins Eq (strings node path) (strings node' path) := by
  refine Twins.bind (.orFail like.items? ..) fun items others each => ?_
  refine Twins.mono (R := List.Forall₂ Eq) (.each each (fun item other i same => ?_) 0) ?_
  · dsimp only
    rw [same.string?_eq]
    exact .orFail (rel_refl _) ..
  · intro texts texts' same
    rwa [List.forall₂_eq_eq_eq] at same

theorem twins_reference : Twins Eq (reference node path) (reference node' path) := by
  rw [reference, reference, like.string?_eq]
  refine Twins.bind (.orFail (rel_refl _) ..) fun target _ same => ?_
  subst same
  refine Twins.bind (.orFail (rel_refl _) ..) fun name _ same => ?_
  subst same
  have refers : Gives (modify (· ++ [(⟨name, path⟩ : Reference)]) : Compile PUnit) ⟨⟩
    [⟨name, path⟩] := fun _ => rfl
  exact .give (refers.bind (.pure name)) (refers.bind (.pure name)) rfl fun _ => Iff.rfl

theorem twins_types : Twins Eq (types node path) (types node' path) := by
  rw [types, types, like.string?_eq]
  cases node'.string? with
  | none =>
    refine Twins.bind (twins_strings like path) fun names _ same => ?_
    subst same
    exact twins_typeNames names path
  | some name => exact twins_typeNames [name] path

theorem twins_pattern : Twins Eq (pattern node path) (pattern node' path) := by
  rw [pattern, pattern, like.string?_eq]
  refine Twins.bind (.orFail (rel_refl _) ..) fun source _ same => ?_
  subst same
  exact .orFail (rel_refl _) ..

end Compile

def FacetPatch.Alike (first second : FacetPatch) : Prop :=
  ∀ facets other : Facets, facets.Alike other → (facets.patch first).Alike (other.patch second)

def Patch.Alike (first second : Patch) : Prop :=
  ∀ schema other : Schema, schema.Alike other → (schema.patch first).Alike (other.patch second)

theorem Compile.twins_facetPatch {node node' : Node} (like : node.Like node') (keyword : String)
    (path : Path) :
    Twins (fun first second => Patch.Of keyword (.facet first) ∧ first.Alike second)
      (facetPatch keyword node path) (facetPatch keyword node' path) := by
  rw [facetPatch.eq_def, facetPatch.eq_def]
  split
  · exact (twins_types like path).map fun _ _ same =>
      ⟨.inr rfl, fun _ _ alike => { alike with types := congrArg some same }⟩
  · exact .pure ⟨.inr rfl, fun _ _ alike => { alike with constant := .some like }⟩
  · exact (Twins.orFail like.items? ..).map fun _ _ each =>
      ⟨.inr rfl, fun _ _ alike => { alike with enumeration := .some each }⟩
  · exact (twins_number like path).map fun _ _ same =>
      ⟨.inr rfl, fun _ _ alike => { alike with minimum := .some same }⟩
  · exact (twins_number like path).map fun _ _ same =>
      ⟨.inr rfl, fun _ _ alike => { alike with maximum := .some same }⟩
  · exact (twins_number like path).map fun _ _ same =>
      ⟨.inr rfl, fun _ _ alike => { alike with exclusiveMinimum := .some same }⟩
  · exact (twins_number like path).map fun _ _ same =>
      ⟨.inr rfl, fun _ _ alike => { alike with exclusiveMaximum := .some same }⟩
  · exact (twins_count like path).map fun _ _ same =>
      ⟨.inr rfl, fun _ _ alike => { alike with minLength := congrArg some same }⟩
  · exact (twins_count like path).map fun _ _ same =>
      ⟨.inr rfl, fun _ _ alike => { alike with maxLength := congrArg some same }⟩
  · exact (twins_pattern like path).map fun _ _ same =>
      ⟨.inr rfl, fun _ _ alike => { alike with pattern := congrArg some same }⟩
  · exact (twins_count like path).map fun _ _ same =>
      ⟨.inr rfl, fun _ _ alike => { alike with minItems := congrArg some same }⟩
  · exact (twins_count like path).map fun _ _ same =>
      ⟨.inr rfl, fun _ _ alike => { alike with maxItems := congrArg some same }⟩
  · exact (twins_strings like path).map fun _ _ same =>
      ⟨.inr rfl, fun _ _ alike => { alike with required := same }⟩
  · exact .pure ⟨.inl rfl, fun _ _ alike => alike⟩

theorem Schema.alike_of_never (never : Bool) :
    Schema.Alike { never := never } { never := never } where
  never := rfl
  reference := rfl
  facets := ⟨rfl, .none, .none, .none, .none, .none, .none, rfl, rfl, rfl, rfl, rfl, rfl⟩
  items := .none
  properties := ⟨List.nodup_nil, List.nodup_nil, fun _ => .none⟩
  additional := .allowed
  allOf := .nil
  anyOf := .nil
  conditional := .none

theorem Schema.patches_alike {patches others : Fields Patch}
    (kinds : ∀ entry ∈ patches, entry.2.Of entry.1) (alike : patches.Alike Patch.Alike others)
    {schema other : Schema} (start : schema.Alike other) :
    (patches.foldl (fun schema entry => schema.patch entry.2) schema).Alike
      (others.foldl (fun schema entry => schema.patch entry.2) other) := by
  rcases alike.exists_perm with ⟨middle, perm, matching⟩
  rw [perm.foldl_eq' fun first member second member' schema =>
    schema.patch_comm (Patch.eq_of_keyword alike.distinct kinds member member')]
  clear perm alike kinds
  induction matching generalizing schema other with
  | nil => exact start
  | cons first _ ih => exact ih (first.2 _ _ start)

structure Node.WriteAlike (node other : Node) : Prop where
  schema : ∀ path,
    Compile.Twins Schema.Agree (Schema.ofNode node path) (Schema.ofNode other path)
  named : ∀ path, Compile.Twins (Fields.Alike Schema.Agree) (Schema.propertiesOf node path)
    (Schema.propertiesOf other path)
  listed : ∀ path, Compile.Twins (List.Forall₂ Schema.Agree) (Schema.branchesOf node path)
    (Schema.branchesOf other path)

namespace Compile

theorem twins_patch {node node' : Node} (like : node.Like node') (written : node.WriteAlike node')
    {branch? branch?' : String → Compile (Option Schema)}
    (branches : ∀ name, Twins (Option.Rel Schema.Agree) (branch? name) (branch?' name))
    (keyword : String) (path : Path) :
    Twins (fun first second => first.Of keyword ∧ first.Alike second)
      (patch branch? keyword node path) (patch branch?' keyword node' path) := by
  rw [patch.eq_def, patch.eq_def]
  split
  · exact (twins_reference like path).map fun _ _ same =>
      ⟨.inr rfl, fun _ _ alike => { alike with reference := congrArg some same }⟩
  · exact (written.schema path).map fun _ _ agree =>
      ⟨.inr rfl, fun _ _ alike => { alike with items := .some agree }⟩
  · exact (written.named path).map fun _ _ each =>
      ⟨.inr rfl, fun _ _ alike => { alike with properties := each }⟩
  · rw [like.bool?_eq]
    split
    · exact .pure ⟨.inr rfl, fun _ _ alike => { alike with additional := .allowed }⟩
    · exact .pure ⟨.inr rfl, fun _ _ alike => { alike with additional := .denied }⟩
    · exact (written.schema path).map fun _ _ agree =>
        ⟨.inr rfl, fun _ _ alike => { alike with additional := .checked agree }⟩
  · exact (written.listed path).map fun _ _ each =>
      ⟨.inr rfl, fun _ _ alike => { alike with allOf := each }⟩
  · exact (written.listed path).map fun _ _ each =>
      ⟨.inr rfl, fun _ _ alike => { alike with anyOf := each }⟩
  · refine (written.schema path).bind fun _ _ condition => ?_
    refine (branches "then").bind fun _ _ consequent => ?_
    refine (branches "else").bind fun _ _ alternative => ?_
    exact .pure ⟨.inr rfl, fun _ _ alike =>
      { alike with conditional := .some ⟨condition, consequent, alternative⟩ }⟩
  · exact (twins_facetPatch like keyword path).map fun _ _ both =>
      ⟨both.1, fun _ _ alike => { alike with facets := both.2 _ _ alike.facets }⟩

end Compile

namespace Schema

open Compile

variable {fields others : Fields Node}
  (alike : fields.Alike (fun a b => a.Like b ∧ a.WriteAlike b) others) (path : Path)
include alike

theorem twins_named? (name : String) :
    Twins (Option.Rel Agree) (named? name fields path) (named? name others path) := by
  rw [named?_eq, named?_eq]
  exact rel_elim (alike.related name) (.pure .none) fun _ _ both =>
    (both.2.schema _).map fun _ _ agree => .some agree

theorem twins_namedSchemas :
    Twins (Fields.Alike Agree) (namedSchemas fields path) (namedSchemas others path) := by
  rw [namedSchemas_eq, namedSchemas_eq]
  refine (Twins.entries (P := fun _ _ => True) alike fun name a b both => ?_).mono
    fun _ _ both => both.2
  exact (both.2.schema _).mono fun _ _ agree => ⟨trivial, agree⟩

theorem twins_ofMapping :
    Twins Agree (ofNode (.mapping fields) path) (ofNode (.mapping others) path) := by
  rw [ofNode, ofNode, withKeywords_eq, withKeywords_eq]
  have patches := Twins.entries (P := Patch.Of) (S := Patch.Alike) alike fun keyword a b both =>
    twins_patch both.1 both.2 (twins_named? alike path) keyword (path.key keyword)
  exact patches.map fun _ _ given => (patches_alike given.1 given.2 (alike_of_never false)).agree

end Schema

theorem Schema.twins_listedSchemas {items others : List Node}
    (each : List.Forall₂ Node.WriteAlike items others) (path : Path) (start : Nat) :
    Compile.Twins (List.Forall₂ Agree) (listedSchemas items start path)
      (listedSchemas others start path) := by
  induction each generalizing start with
  | nil =>
    rw [listedSchemas]
    exact .pure .nil
  | cons written _ ih =>
    rw [listedSchemas, listedSchemas]
    exact (written.schema _).bind fun _ _ first => (ih _).bind fun _ _ rest =>
      .pure (.cons first rest)

section

open Compile Schema

theorem Scalar.writeAlike {a b : Scalar} (same : a.equal b = true) :
    Node.WriteAlike (.scalar a) (.scalar b) := by
  refine ⟨fun path => ?_, fun path => ?_, fun path => ?_⟩
  · rcases equal_cases same with rfl | ⟨x, y, rfl, rfl, -⟩
    · cases a with
      | bool allowed =>
        rw [ofNode]
        exact .pure (alike_of_never _).agree
      | _ => exact .fail (fails_fail _ _) (fails_fail _ _)
    · exact .fail (fails_fail _ _) (fails_fail _ _)
  · exact .fail (fails_fail _ _) (fails_fail _ _)
  · exact .fail (fails_fail _ _) (fails_fail _ _)

theorem Node.Like.writeAlike {node other : Node} (like : node.Like other) :
    node.WriteAlike other := by
  induction node using Node.induction generalizing other with
  | scalar a =>
    cases like.layer with
    | scalar same => exact Scalar.writeAlike same
  | sequence items ih =>
    cases like.layer with
    | sequence each =>
      have written := forall₂_mono each fun item member other _ like => ih item member like
      refine ⟨fun path => ?_, fun path => ?_, fun path => ?_⟩
      · rw [ofNode, ofNode]
        exact .fail (fails_fail _ _) (fails_fail _ _)
      · rw [propertiesOf, propertiesOf]
        exact .fail (fails_fail _ _) (fails_fail _ _)
      · rw [branchesOf, branchesOf]
        exact twins_listedSchemas written path 0
  | mapping fields ih =>
    cases like.layer with
    | mapping alike =>
      have written : fields.Alike (fun a b => a.Like b ∧ a.WriteAlike b) _ :=
        alike.imp fun entry member other like => ⟨like, ih entry member like⟩
      refine ⟨fun path => ?_, fun path => ?_, fun path => ?_⟩
      · exact twins_ofMapping written path
      · rw [propertiesOf, propertiesOf]
        exact twins_namedSchemas written path
      · rw [branchesOf, branchesOf]
        exact .fail (fails_fail _ _) (fails_fail _ _)

end

namespace SchemaDocument

open Compile

variable {node other : Node} (like : node.Like other)

theorem dangling?_eq_none_iff {definitions : Fields Schema} {references : List Reference} :
    dangling? definitions references = none ↔
      ∀ name ∈ references.map Reference.name, definitions.contains name = true := by
  rw [dangling?, List.find?_eq_none]
  simp

theorem ofNode_of_gives {document : SchemaDocument} {found : List Reference}
    (gives : Gives (read node) document found) : ofNode node =
      (match dangling? document.definitions found with
        | some reference =>
          .error (.invalid reference.path (.unresolvedReference reference.name))
        | none => .ok document) := by
  rw [ofNode, gives []]
  rfl

include like

theorem twins_readDefinitions {definitions others : Fields Schema}
    (related : DefinitionsAgree definitions others) (key : String) :
    Twins DefinitionsAgree (readDefinitions node definitions key)
      (readDefinitions other others key) := by
  rw [readDefinitions, readDefinitions]
  refine rel_elim (like.child? key) (.pure related) fun value value' like => ?_
  refine (like.writeAlike.named _).bind fun schemas schemas' alike => .pure fun name => ?_
  rw [Fields.get?_foldl_insert alike.distinct, Fields.get?_foldl_insert alike.distinct']
  exact rel_or (alike.related name) (related name)

theorem twins_read : Twins Agree (read node) (read other) := by
  have definitions : Twins DefinitionsAgree
      (["definitions", "$defs"].foldlM (readDefinitions node) [])
      (["definitions", "$defs"].foldlM (readDefinitions other) []) := by
    simp only [List.foldlM_cons, List.foldlM_nil, bind_pure]
    exact (twins_readDefinitions like (fun _ => .none) _).bind fun _ _ related =>
      twins_readDefinitions like related _
  exact definitions.bind fun _ _ related =>
    (like.writeAlike.schema Path.root).bind fun _ _ agree => .pure ⟨agree, related⟩

/-- Equal trees are both refused as schemas, or both read as schemas that agree. -/
theorem ofNode_agree :
    (∃ fault fault', ofNode node = .error fault ∧ ofNode other = .error fault') ∨
      ∃ document document', ofNode node = .ok document ∧ ofNode other = .ok document' ∧
        document.Agree document' := by
  cases twins_read like with
  | fail left right =>
    rcases left [] with ⟨fault, stops⟩
    rcases right [] with ⟨fault', stops'⟩
    refine .inl ⟨fault, fault', ?_, ?_⟩
    · rw [ofNode, stops]
      rfl
    · rw [ofNode, stops']
      rfl
  | @give document document' found found' left right agree names =>
    have complete : dangling? document.definitions found = none ↔
        dangling? document'.definitions found' = none := by
      rw [dangling?_eq_none_iff, dangling?_eq_none_iff]
      refine forall_congr' fun name => ?_
      rw [names name, Fields.contains, Fields.contains, rel_isSome (agree.definitions name)]
    rw [ofNode_of_gives left, ofNode_of_gives right]
    cases dangles : dangling? document.definitions found with
    | none =>
      rw [complete.mp dangles]
      exact .inr ⟨_, _, rfl, rfl, agree⟩
    | some reference =>
      cases dangles' : dangling? document'.definitions found' with
      | none =>
        rw [complete.mpr dangles'] at dangles
        cases dangles
      | some reference' => exact .inl ⟨_, _, rfl, rfl⟩

end SchemaDocument
end ParticleSim
