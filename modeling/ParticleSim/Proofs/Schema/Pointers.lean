import ParticleSim.Proofs.Schema.EqualSchemas
import ParticleSim.Proofs.Schema.Positions
import ParticleSim.Proofs.Schema.Soundness
/-!
Where references lead. A pointer names one of two mappings of definitions, but it is kept as a bare
name: it leads to the definition of that name, whichever mapping has it, and to the later one if
both have.
-/
namespace ParticleSim.SchemaDocument

open Compile

variable {tree : Node} {document : SchemaDocument}

theorem gives_of_ofNode (reads : ofNode tree = .ok document) :
    ∃ all, Gives (read tree) document all ∧ dangling? document.definitions all = none := by
  rcases settled_read tree with fails | ⟨other, all, gives, -⟩
  · rcases fails [] with ⟨error, stops⟩
    rw [ofNode, stops] at reads
    cases reads
  · rw [ofNode_of_gives gives] at reads
    split at reads
    · cases reads
    · next complete =>
      cases reads
      exact ⟨all, gives, complete⟩

/-- A definition is what the entry of its name writes, the one of the later mapping first. -/
theorem exists_entry (unique : tree.UniqueKeys) {all : List Reference}
    (gives : Gives (read tree) document all) {name : String} {schema : Schema}
    (defined : document.definitions.get? name = some schema) :
    ∃ key entry, (key = "$defs" ∨ key = "definitions" ∧
      tree.at? [.key "$defs", .key name] = none) ∧ tree.at? [.key key, .key name] = some entry ∧
        entry.Writes [.key key, .key name] schema := by
  rcases gives.of_read with ⟨definitions, first, second, third, reads, reads', -, -⟩
  rcases reads.of_readDefinitions unique name with ⟨absent, present⟩
  rcases reads'.of_readDefinitions unique name with ⟨absent', present'⟩
  cases later : tree.at? [.key "$defs", .key name] with
  | some entry =>
    rcases present' entry later with ⟨other, part, found, given, -⟩
    rw [defined] at found
    cases found
    exact ⟨"$defs", entry, .inl rfl, later, part, given⟩
  | none =>
    rw [absent' later] at defined
    cases earlier : tree.at? [.key "definitions", .key name] with
    | some entry =>
      rcases present entry earlier with ⟨other, part, found, given, -⟩
      rw [defined] at found
      cases found
      exact ⟨"definitions", entry, .inr ⟨rfl, rfl⟩, earlier, part, given⟩
    | none =>
      rw [absent earlier] at defined
      cases defined

theorem violations_of_found {schema definition : Schema} {definitions : Fields Schema}
    {name : String} (possible : schema.never = false) (refers : schema.reference = some name)
    (found : definitions.get? name = some definition) (budget : Nat) (node : Node) (path : Path) :
    schema.violations (resolver definitions (budget + 1)) node path =
      definition.violations (resolver definitions budget) node path ++
        { schema with reference := none }.violations (resolver definitions (budget + 1)) node
          path := by
  have rest : { schema with reference := none }.violations (resolver definitions (budget + 1))
      node path = schema.ownViolations (resolver definitions (budget + 1)) node path := by
    rw [Schema.violations_eq, possible]
    rfl
  rw [rest, Schema.violations_eq, possible, refers]
  simp only [resolver_succ found, Bool.false_eq_true, if_false]

/-- A reference at a place of the tree leads to an entry of its name among the definitions: to the
one in the later mapping if there is one, whichever mapping the pointer names. To apply the
reference is to apply the schema that the entry writes, with one reference less to follow. -/
theorem violations_of_reference (unique : tree.UniqueKeys) (reads : ofNode tree = .ok document)
    {node : Node} {path : Path} (place : SchemaPlace tree node path) {pointer : Node}
    (refers : node.child? "$ref" = some pointer) :
    ∃ part, Position tree document path part ∧ ∃ pointed ∈ ["definitions", "$defs"], ∃ name,
      pointer = .ofString ("#/" ++ pointed ++ "/" ++ name) ∧
        ∃ key entry schema, (key = "$defs" ∨ key = "definitions" ∧
          tree.at? [.key "$defs", .key name] = none) ∧
            tree.at? [.key key, .key name] = some entry ∧
              entry.Writes [.key key, .key name] schema ∧
                ∀ budget value place,
                  part.violations (resolver document.definitions (budget + 1)) value place =
                    schema.violations (resolver document.definitions budget) value place ++
                      { part with reference := none }.violations
                        (resolver document.definitions (budget + 1)) value place := by
  rcases gives_of_ofNode reads with ⟨all, whole, complete⟩
  rcases place.exists_position unique whole with ⟨part, found, position, gives, inside, distinct⟩
  rcases gives.of_child distinct refers with ⟨made, met, given, within, work⟩
  rw [patch] at given
  rcases given.of_map (settled_reference pointer _) with ⟨name, points, rfl⟩
  rcases points.of_reference with ⟨target, text, named, rfl⟩
  -- the reference was collected, so its name is defined in one of the mappings
  have listed : name ∈ all.map Reference.name :=
    List.mem_map_of_mem (inside (within List.mem_cons_self))
  rcases Option.isSome_iff_exists.mp (dangling?_eq_none_iff.mp complete name listed) with
    ⟨schema, defined⟩
  rcases exists_entry unique whole defined with ⟨key, entry, first, written, writes⟩
  have applies := violations_of_found (gives.never_eq_false refers)
    (congrArg Schema.reference work).symm defined
  rw [Node.eq_ofString text]
  rcases definitionName?_eq_some named with rfl | rfl
  · exact ⟨part, position, "definitions", by simp, name, rfl, key, entry, schema, first, written,
      writes, applies⟩
  · exact ⟨part, position, "$defs", by simp, name, rfl, key, entry, schema, first, written,
      writes, applies⟩

def pointing : Node :=
  .mapping [("$ref", .ofString "#/definitions/a")]

def shadowed : Node :=
  .mapping [("items", pointing), ("definitions", .mapping [("a", .ofBool false)]),
    ("$defs", .mapping [("a", .ofBool true)])]

def ofShadowed : SchemaDocument :=
  ⟨{ items := some { reference := some "a" } }, [("a", {})]⟩

theorem ofNode_shadowed : ofNode shadowed = .ok ofShadowed := by
  rfl

theorem place_pointing : SchemaPlace shadowed pointing [.key "items"] :=
  .slot .root .items trivial rfl

theorem violations_of_reference_shadowed : shadowed.UniqueKeys ∧
    ofNode shadowed = .ok ofShadowed ∧ SchemaPlace shadowed pointing [.key "items"] ∧
      pointing.child? "$ref" = some (.ofString "#/definitions/a") ∧
        ∃ part schema, Position shadowed ofShadowed [.key "items"] part ∧
          (Node.ofBool true).Writes [.key "$defs", .key "a"] schema ∧ ∀ budget value place,
            part.violations (resolver ofShadowed.definitions (budget + 1)) value place =
              schema.violations (resolver ofShadowed.definitions budget) value place ++
                { part with reference := none }.violations
                  (resolver ofShadowed.definitions (budget + 1)) value place := by
  have unique : shadowed.UniqueKeys := by
    simp [shadowed, pointing, Node.UniqueKeys, Node.All, Node.AllFields, Node.DistinctKeys,
      Fields.keys, Node.ofString, Node.ofBool]
  refine ⟨unique, ofNode_shadowed, place_pointing, rfl, ?_⟩
  rcases violations_of_reference unique ofNode_shadowed place_pointing rfl with
    ⟨part, position, pointed, listed, name, same, key, entry, schema, first, written, writes,
      applies⟩
  have text : "#/definitions/a" = "#/" ++ pointed ++ "/" ++ name := by
    injection same with same
    injection same
  have named : name = "a" := by
    rcases List.mem_pair.mp listed with rfl | rfl
    · have behind : "#/definitions/" ++ "a" = "#/definitions/" ++ name := text
      exact ((String.append_right_inj _).mp behind).symm
    · have letters := congrArg String.toList text
      simp [String.toList_append] at letters
  subst named
  rcases first with rfl | ⟨rfl, absent⟩
  · cases written
    exact ⟨part, schema, position, writes, applies⟩
  · cases absent

/-- Nothing satisfies the definition that the pointer names, and everything its reference. -/
theorem pointed_definition_hidden : ofNode shadowed = .ok ofShadowed ∧
    SchemaPlace shadowed pointing [.key "items"] ∧
      pointing.child? "$ref" = some (.ofString "#/definitions/a") ∧
        shadowed.at? [.key "definitions", .key "a"] = some (.ofBool false) ∧
          (Node.ofBool false).Writes [.key "definitions", .key "a"] { never := true } ∧
            Position shadowed ofShadowed [.key "items"] { reference := some "a" } ∧
              Schema.violations (resolver ofShadowed.definitions 63) { never := true } .null
                  Path.root = [⟨Path.root, .nothingAllowed⟩] ∧
                Schema.violations (resolver ofShadowed.definitions 64) { reference := some "a" }
                  .null Path.root = [] := by
  refine ⟨ofNode_shadowed, place_pointing, rfl, rfl, ⟨[], .pure _⟩, ?_, rfl, rfl⟩
  exact .slot .root .items rfl

end ParticleSim.SchemaDocument
