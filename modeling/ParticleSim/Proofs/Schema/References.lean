import Mathlib.Data.Finset.Card
import Mathlib.Logic.Relation
import ParticleSim.Proofs.Schema.Soundness
/-!
References between definitions. A definition leads from a node to the definitions it refers to,
each at the place in the node where it is asked for. Where such chains are short, the budget for
following references outlasts them, and the definitions fix what references mean. Without cycles a
chain visits each definition at most once.
-/
namespace ParticleSim

theorem Schema.satisfies_congr {meaning meaning' : Meaning} (schema : Schema) {node : Node}
    (agree : ∀ part place, schema.Visits node part place →
      ∀ name ∈ part.reference, (meaning name place ↔ meaning' name place)) :
    schema.Satisfies meaning node ↔ schema.Satisfies meaning' node := by
  induction schema using Schema.induction generalizing node with
  | step schema alongside underneath =>
    have same : ∀ inner ∈ schema.alongside,
        (inner.Satisfies meaning node ↔ inner.Satisfies meaning' node) :=
      fun inner member => alongside inner member
        fun part place visits => agree part place (.alongside member visits)
    rw [satisfies_iff, satisfies_iff]
    refine and_congr Iff.rfl (and_congr ?_ (and_congr Iff.rfl (and_congr ?_ (and_congr ?_
      (and_congr ?_ (and_congr ?_ ?_))))))
    · exact forall₂_congr fun name mentioned => agree schema node (.here schema node) name mentioned
    · exact forall₄_congr fun nodes sequence item member => forall₂_congr fun inner asked =>
        underneath inner (mem_underneath_of_items asked)
          fun part place visits => agree part place (.item sequence member asked visits)
    · exact forall₄_congr fun fields mapping entry member => and_congr
        (forall₂_congr fun inner asked => underneath inner (mem_underneath_of_forEntry asked)
          fun part place visits => agree part place (.entry mapping member asked visits)) Iff.rfl
    · exact forall₂_congr fun inner member => same inner (mem_alongside_of_allOf member)
    · exact or_congr Iff.rfl (exists_congr fun inner => and_congr_right fun member =>
        same inner (mem_alongside_of_anyOf member))
    · refine forall₂_congr fun choice asked => ?_
      have each : ∀ inner ∈ choice.all,
          (inner.Satisfies meaning node ↔ inner.Satisfies meaning' node) :=
        fun inner member => same inner (mem_alongside_of_choice asked member)
      simp only [Conditional.all, List.forall_mem_cons, List.forall_mem_append,
        Option.mem_toList] at each
      rw [each.1]
      exact and_congr (imp_congr Iff.rfl (forall₂_congr each.2.1))
        (imp_congr Iff.rfl (forall₂_congr each.2.2))

variable {definitions : Fields Schema} {meaning meaning' : Meaning}

/-- The definition of the name, applied to the node, asks for the other name at the place. -/
def Leads (definitions : Fields Schema) (name : String) (node : Node) (other : String)
    (place : Node) : Prop :=
  ∃ schema, definitions.get? name = some schema ∧
    ∃ part, schema.Visits node part place ∧ part.reference = some other

/-- Chains of references that start with the name at the node visit at most so many definitions. -/
def Within (definitions : Fields Schema) : Nat → String → Node → Prop
  | 0, name, _ => definitions.get? name = none
  | count + 1, name, node =>
    ∀ other place, Leads definitions name node other place → Within definitions count other place

theorem Leads.refers {name other : String} {node place : Node}
    (leads : Leads definitions name node other place) : Refers definitions name other := by
  rcases leads with ⟨schema, found, part, visits, mentioned⟩
  exact ⟨schema, found, part, visits.mem_parts, mentioned⟩

theorem mem_keys_of_refers {name other : String} (refers : Refers definitions name other) :
    name ∈ definitions.keys := by
  rcases refers with ⟨schema, found, -⟩
  exact List.mem_map_of_mem (Fields.mem_of_get? found)

/-- A chain is no longer than a number at its start, if each reference to a definition leads to a
smaller one. -/
theorem within_of_measure (measure : String → Node → Nat)
    (falls : ∀ name node other place, Leads definitions name node other place →
      other ∈ definitions.keys → measure other place < measure name node)
    {count : Nat} {name : String} {node : Node}
    (few : name ∈ definitions.keys → measure name node < count) :
    Within definitions count name node := by
  induction count generalizing name node with
  | zero => exact Fields.get?_eq_none_iff.mpr fun defined => Nat.not_lt_zero _ (few defined)
  | succ count ih =>
    intro other place leads
    refine ih fun defined => ?_
    have less := falls name node other place leads defined
    have start := few (mem_keys_of_refers leads.refers)
    omega

/-- Names that are not connected to themselves can be ranked below their number. -/
theorem exists_rank {connects : String → String → Prop} (keys : List String)
    (acyclic : ∀ name, ¬Relation.TransGen connects name name) :
    ∃ rank : String → Nat, (∀ name ∈ keys, rank name < keys.length) ∧
      ∀ name other, connects name other → other ∈ keys → rank other < rank name := by
  classical
  -- the rank of a name is how many names it is connected to
  refine ⟨fun name => (keys.toFinset.filter (Relation.TransGen connects name)).card, ?_, ?_⟩
  · intro name member
    refine lt_of_lt_of_le (Finset.card_lt_card ?_) (List.toFinset_card_le keys)
    rw [Finset.filter_ssubset]
    exact ⟨name, List.mem_toFinset.mpr member, acyclic name⟩
  · intro name other connected member
    apply Finset.card_lt_card
    rw [Finset.ssubset_iff_of_subset]
    · refine ⟨other, ?_, ?_⟩
      · exact Finset.mem_filter.mpr ⟨List.mem_toFinset.mpr member, .single connected⟩
      · exact fun found => acyclic other (Finset.mem_filter.mp found).2
    · exact Finset.monotone_filter_right _ fun third _ reaches => .head connected reaches

/-- Without cycles a chain is no longer than there are definitions. -/
theorem within_of_acyclic (acyclic : Acyclic definitions) {count : Nat}
    (few : definitions.length ≤ count) (name : String) (node : Node) :
    Within definitions count name node := by
  rcases exists_rank definitions.keys acyclic with ⟨rank, bounded, falls⟩
  refine within_of_measure (fun name _ => rank name)
    (fun name _ other _ leads => falls name other leads.refers) fun defined => ?_
  have bound := bounded name defined
  rw [Fields.keys, List.length_map] at bound
  exact lt_of_lt_of_le bound few

theorem acyclic_of_rank (rank : String → Nat)
    (falls : ∀ entry ∈ definitions, ∀ part ∈ entry.2.parts, ∀ other ∈ part.reference,
      rank other < rank entry.1) : Acyclic definitions := by
  have step : ∀ {name other}, Refers definitions name other → rank other < rank name := by
    rintro name other ⟨schema, found, part, member, mentioned⟩
    exact falls (name, schema) (Fields.mem_of_get? found) part member other mentioned
  have far : ∀ {name other}, Relation.TransGen (Refers definitions) name other →
      rank other < rank name := by
    intro name other reaches
    induction reaches with
    | single refers => exact step refers
    | tail _ refers ih => exact lt_trans (step refers) ih
  exact fun name cycle => lt_irrefl _ (far cycle)

def meaningWithin (definitions : Fields Schema) : Nat → Meaning
  | 0, _, _ => False
  | count + 1, name, node => ∃ schema, definitions.get? name = some schema ∧
      schema.Satisfies (meaningWithin definitions count) node

theorem meaningWithin_succ {count : Nat} {name : String} {node : Node}
    (within : Within definitions count name node) :
    meaningWithin definitions count name node ↔
      meaningWithin definitions (count + 1) name node := by
  induction count generalizing name node with
  | zero =>
    rw [Within] at within
    simp [meaningWithin, within]
  | succ count ih =>
    rw [meaningWithin, meaningWithin]
    refine exists_congr fun schema => and_congr_right fun found => ?_
    exact schema.satisfies_congr fun part place visits other mentioned =>
      ih (within other place ⟨schema, found, part, visits, mentioned⟩)

theorem within_of_undefined {name : String} (absent : definitions.get? name = none) (count : Nat)
    (node : Node) : Within definitions count name node := by
  cases count with
  | zero => exact absent
  | succ count =>
    rintro other place ⟨schema, found, -⟩
    rw [absent] at found
    cases found

theorem Within.mono {count more : Nat} {name : String} {node : Node}
    (within : Within definitions count name node) (fewer : count ≤ more) :
    Within definitions more name node := by
  induction count generalizing more name node with
  | zero => exact within_of_undefined within more node
  | succ count ih =>
    obtain ⟨more, rfl⟩ : ∃ less, more = less + 1 := ⟨more - 1, by omega⟩
    exact fun other place leads => ih (within other place leads) (by omega)

theorem meaningWithin_le {count more : Nat} {name : String} {node : Node}
    (within : Within definitions count name node) (fewer : count ≤ more) :
    meaningWithin definitions count name node ↔ meaningWithin definitions more name node := by
  induction more, fewer using Nat.le_induction with
  | base => exact Iff.rfl
  | succ more fewer ih => exact ih.trans (meaningWithin_succ (within.mono fewer))

/-- Where chains are bounded by a size that does not grow on the way into a tree, following them so
far gives a meaning that fits the definitions. -/
theorem interprets_of_within (size : Node → Nat)
    (within : ∀ name node, Within definitions (size node) name node)
    (shrinks : ∀ {schema part : Schema} {node place : Node}, schema.Visits node part place →
      size place ≤ size node) :
    Interprets definitions fun name node => meaningWithin definitions (size node) name node := by
  intro name node
  refine (meaningWithin_succ (within name node)).trans ?_
  rw [meaningWithin]
  refine exists_congr fun schema => and_congr_right fun found => ?_
  exact schema.satisfies_congr fun part place visits other mentioned =>
    (meaningWithin_le (within other place) (shrinks visits)).symm

theorem interprets_meaningWithin {count : Nat}
    (within : ∀ name node, Within definitions count name node) :
    Interprets definitions (meaningWithin definitions count) :=
  interprets_of_within (fun _ => count) within fun _ => le_rfl

theorem Interprets.agree (fits : Interprets definitions meaning)
    (fits' : Interprets definitions meaning') {count : Nat} {name : String} {node : Node}
    (within : Within definitions count name node) : meaning name node ↔ meaning' name node := by
  induction count generalizing name node with
  | zero =>
    rw [Within] at within
    rw [fits name node, fits' name node, within]
    simp
  | succ count ih =>
    rw [fits name node, fits' name node]
    refine exists_congr fun schema => and_congr_right fun found => ?_
    exact schema.satisfies_congr fun part place visits other mentioned =>
      ih (within other place ⟨schema, found, part, visits, mentioned⟩)

/-- At most one meaning fits definitions without long chains of references. -/
theorem Interprets.unique (fits : Interprets definitions meaning)
    (fits' : Interprets definitions meaning') {count : Nat} {name : String}
    (within : ∀ node, Within definitions count name node) (node : Node) :
    meaning name node ↔ meaning' name node :=
  fits.agree fits' (within node)

structure Schema.Suits (exact : Prop) (admissible : Node → Prop) (schema : Schema) : Prop where
  numbers : exact → ∀ part ∈ schema.parts, ∀ node, admissible node → part.facets.Comparable node
  choice : ∀ part ∈ schema.parts, part.conditional.isSome → exact

theorem Schema.Suits.verdict {exact : Prop} {admissible : Node → Prop} {schema : Schema}
    (suits : schema.Suits exact admissible) (closed : ClosedUnderParts admissible)
    {resolve : Resolver} {node : Node} (fits : admissible node)
    (resolved : ∀ part place, schema.Visits node part place → admissible place →
      ∀ name ∈ part.reference, ∀ path, Verdict exact
        (∃ check, resolve name = .found check ∧ check place path = []) (meaning name place))
    (path : Path) :
    Verdict exact (schema.violations resolve node path = []) (schema.Satisfies meaning node) := by
  refine Schema.verdict schema (fun part place visits => ?_) path
  have small := visits.admissible closed fits
  exact ⟨fun exactly => suits.numbers exactly part visits.mem_parts place small,
    suits.choice part visits.mem_parts, resolved part place visits small⟩

section Resolver

variable {exact : Prop} {admissible : Node → Prop} (closed : ClosedUnderParts admissible)
  (interprets : Interprets definitions meaning)
  (suits : ∀ name schema, definitions.get? name = some schema → schema.Suits exact admissible)
include closed interprets suits

theorem resolver_verdict {budget : Nat} {name : String} {node : Node}
    (within : Within definitions budget name node) (fits : admissible node) (path : Path) :
    Verdict exact (∃ check, SchemaDocument.resolver definitions budget name = .found check ∧
      check node path = []) (meaning name node) := by
  have nothing : ∀ {name node}, definitions.get? name = none → ¬meaning name node := by
    intro name node absent means
    rcases (interprets name node).mp means with ⟨schema, found, -⟩
    rw [absent] at found
    cases found
  -- each reference of the chain costs one of the budget
  induction budget generalizing name node path with
  | zero =>
    refine ⟨fun means => absurd means (nothing within), fun _ clean => ?_⟩
    rcases clean with ⟨check, found, -⟩
    rw [SchemaDocument.resolver] at found
    split at found <;> cases found
  | succ budget ih =>
    rw [SchemaDocument.resolver]
    cases found : definitions.get? name with
    | none =>
      refine ⟨fun means => absurd means (nothing found), fun _ clean => ?_⟩
      rcases clean with ⟨check, impossible, -⟩
      cases impossible
    | some schema =>
      have verdict : Verdict exact
          (schema.violations (SchemaDocument.resolver definitions budget) node path = [])
          (schema.Satisfies meaning node) :=
        (suits name schema found).verdict closed fits
          (fun part place visits small other mentioned =>
            ih (within other place ⟨schema, found, part, visits, mentioned⟩) small) path
      have means : meaning name node ↔ schema.Satisfies meaning node := by
        rw [interprets name node, found]
        simp
      rw [means]
      simpa using verdict

/-- Under a meaning that fits the definitions, a check whose budget outlasts the chains finds
nothing in the trees that satisfy the schema and, where it is exact, in no others. -/
theorem root_verdict {root : Schema} (rootSuits : root.Suits exact admissible) {budget : Nat}
    {node : Node} (within : ∀ part place, root.Visits node part place →
      ∀ name ∈ part.reference, Within definitions budget name place) (fits : admissible node) :
    Verdict exact
      (root.violations (SchemaDocument.resolver definitions budget) node Path.root = [])
      (root.Satisfies meaning node) :=
  rootSuits.verdict closed fits (fun part place visits small name mentioned =>
    resolver_verdict closed interprets suits (within part place visits name mentioned) small)
    Path.root

end Resolver

theorem validate_of_within {admissible : Node → Prop} (closed : ClosedUnderParts admissible)
    (interprets : Interprets definitions meaning)
    (numbers : ∀ name schema, definitions.get? name = some schema → ∀ part ∈ schema.parts,
      ∀ node, admissible node → part.facets.Comparable node) {root : Schema}
    (rootNumbers : ∀ part ∈ root.parts, ∀ node, admissible node → part.facets.Comparable node)
    (within : ∀ name node, Within definitions SchemaDocument.maxReferences name node) {node : Node}
    (fits : admissible node) :
    SchemaDocument.validate ⟨root, definitions⟩ node = [] ↔ root.Satisfies meaning node := by
  have suits : ∀ schema : Schema, (∀ part ∈ schema.parts, ∀ node, admissible node →
      part.facets.Comparable node) → schema.Suits True admissible :=
    fun schema numbers => ⟨fun _ => numbers, fun _ _ _ => trivial⟩
  exact (root_verdict closed interprets
    (fun name schema found => suits schema (numbers name schema found)) (suits root rootNumbers)
      (fun _ place _ name _ => within name place) fits).iff trivial

end ParticleSim
