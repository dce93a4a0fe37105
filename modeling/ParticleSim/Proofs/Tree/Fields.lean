import Mathlib.Data.List.Induction
import ParticleSim.Tree.Fields

namespace ParticleSim.Fields

variable {α : Type} {key : String} {fields : Fields α}

theorem get?_eq_none_iff : fields.get? key = none ↔ key ∉ fields.keys := by
  induction fields with
  | nil => simp [get?, keys]
  | cons entry rest ih =>
    rcases entry with ⟨k, value⟩
    rw [get?, keys, List.map_cons, List.mem_cons, not_or]
    split
    · next same => simp [same]
    · next differ =>
      rw [ih]
      exact ⟨fun absent => ⟨fun same => differ same.symm, absent⟩, fun both => both.2⟩

theorem mem_of_get? {value : α} (found : fields.get? key = some value) : (key, value) ∈ fields := by
  induction fields with
  | nil => cases found
  | cons entry rest ih =>
    rcases entry with ⟨k, other⟩
    rw [get?] at found
    split at found
    · next same =>
      cases found
      rw [same]
      exact List.mem_cons_self ..
    · exact List.mem_cons_of_mem _ (ih found)

theorem get?_of_mem (distinct : fields.keys.Nodup) {value : α} (member : (key, value) ∈ fields) :
    fields.get? key = some value := by
  induction fields with
  | nil => cases member
  | cons entry rest ih =>
    rcases entry with ⟨k, other⟩
    rw [keys, List.map_cons, List.nodup_cons] at distinct
    rw [get?]
    rcases List.mem_cons.mp member with same | later
    · cases same
      exact if_pos rfl
    · rw [if_neg, ih distinct.2 later]
      intro equal
      subst equal
      exact distinct.1 (List.mem_map.mpr ⟨_, later, rfl⟩)

theorem contains_eq_false_iff : fields.contains key = false ↔ key ∉ fields.keys := by
  rw [contains, Option.isSome_eq_false_iff, Option.isNone_iff_eq_none, get?_eq_none_iff]

theorem contains_iff : fields.contains key = true ↔ key ∈ fields.keys := by
  rw [← Bool.not_eq_false, contains_eq_false_iff, Decidable.not_not]

theorem insert_new (absent : key ∉ fields.keys) (value : α) :
    fields.insert key value = fields ++ [(key, value)] := by
  induction fields with
  | nil => rfl
  | cons entry rest ih =>
    rcases entry with ⟨k, old⟩
    rw [keys, List.map_cons, List.mem_cons, not_or] at absent
    rw [insert, if_neg (Ne.symm absent.1), ih absent.2]
    rfl

theorem mem_keys_insert {name : String} (absent : key ∉ fields.keys) {value : α} :
    name ∈ (fields.insert key value).keys ↔ name ∈ fields.keys ∨ name = key := by
  rw [insert_new absent, keys, List.map_append, List.mem_append]
  exact or_congr Iff.rfl List.mem_singleton

theorem ofList_of_nodup {entries : List (String × α)} (distinct : (keys entries).Nodup) :
    ofList entries = entries := by
  suffices behind : ∀ fields : Fields α, (keys (fields ++ entries)).Nodup →
      entries.foldl (fun fields entry => fields.insert entry.1 entry.2) fields = fields ++ entries
    from behind [] distinct
  clear distinct
  induction entries with
  | nil => exact fun fields _ => (List.append_nil fields).symm
  | cons entry rest ih =>
    intro fields distinct
    have moved : fields ++ entry :: rest = (fields ++ [entry]) ++ rest := by simp
    have absent : entry.1 ∉ fields.keys := by
      rw [keys, List.map_append, List.map_cons, List.nodup_append] at distinct
      exact fun member => distinct.2.2 _ member _ List.mem_cons_self rfl
    rw [List.foldl_cons, insert_new absent, moved]
    rw [moved] at distinct
    exact ih _ distinct

theorem get?_insert (fields : Fields α) (name key : String) (value : α) :
    (fields.insert name value).get? key = if name = key then some value else fields.get? key := by
  induction fields with
  | nil => rfl
  | cons entry rest ih =>
    rcases entry with ⟨k, old⟩
    rw [insert]
    split
    · next same =>
      subst same
      rw [get?, get?]
      split <;> rfl
    · next differ =>
      rw [get?, get?, ih]
      split
      · next here =>
        subst here
        rw [if_neg (Ne.symm differ)]
      · rfl

theorem mem_insert {entry : String × α} {value : α} (member : entry ∈ fields.insert key value) :
    entry = (key, value) ∨ entry ∈ fields := by
  induction fields with
  | nil => exact .inl (List.mem_singleton.mp member)
  | cons other rest ih =>
    rcases other with ⟨k, old⟩
    rw [insert] at member
    split at member
    · next same =>
      rw [same] at member
      exact (List.mem_cons.mp member).imp_right (List.mem_cons_of_mem _)
    · rcases List.mem_cons.mp member with rfl | later
      · exact .inr (List.mem_cons_self ..)
      · exact (ih later).imp_right (List.mem_cons_of_mem _)

theorem mem_foldl_insert {entries : Fields α} {entry : String × α}
    (member : entry ∈ entries.foldl (fun fields (name, value) => fields.insert name value) fields) :
    entry ∈ entries ∨ entry ∈ fields := by
  induction entries generalizing fields with
  | nil => exact .inr member
  | cons first rest ih =>
    rcases ih member with later | inserted
    · exact .inl (List.mem_cons_of_mem _ later)
    · rcases mem_insert inserted with rfl | before
      · exact .inl (List.mem_cons_self ..)
      · exact .inr before

/-- Entries with distinct keys count before those they are inserted into. -/
theorem get?_foldl_insert {entries : Fields α} (distinct : entries.keys.Nodup)
    (fields : Fields α) (key : String) :
    (entries.foldl (fun fields (name, value) => fields.insert name value) fields).get? key =
      (entries.get? key).or (fields.get? key) := by
  induction entries generalizing fields with
  | nil => rfl
  | cons entry rest ih =>
    rcases entry with ⟨name, value⟩
    rw [keys, List.map_cons, List.nodup_cons] at distinct
    rw [List.foldl_cons, ih distinct.2, get?_insert, get?]
    split
    · next same =>
      subst same
      rw [get?_eq_none_iff.mpr distinct.1]
      rfl
    · rfl

theorem insertSorted_perm (absent : key ∉ fields.keys) (value : α) :
    (fields.insertSorted key value).Perm ((key, value) :: fields) := by
  induction fields with
  | nil => exact .refl _
  | cons entry rest ih =>
    rcases entry with ⟨k, old⟩
    rw [keys, List.map_cons, List.mem_cons, not_or] at absent
    rw [insertSorted, if_neg (Ne.symm absent.1)]
    split
    · exact .refl _
    · exact ((ih absent.2).cons _).trans (.swap ..)

theorem sorted_perm {entries : List (String × α)} (distinct : (keys entries).Nodup) :
    (sorted entries).Perm entries := by
  suffices behind : ∀ fields : Fields α, (keys (fields ++ entries)).Nodup →
      (entries.foldl (fun fields entry => insertSorted entry.1 entry.2 fields) fields).Perm
        (fields ++ entries) from behind [] distinct
  clear distinct
  induction entries with
  | nil => exact fun fields _ => by rw [List.append_nil]; exact .refl _
  | cons entry rest ih =>
    intro fields distinct
    have moved : (fields ++ entry :: rest).Perm ((entry :: fields) ++ rest) := List.perm_middle
    have apart : (keys (entry :: (fields ++ rest))).Nodup := (moved.map _).nodup distinct
    have absent : entry.1 ∉ fields.keys := by
      rw [keys, List.map_cons, List.nodup_cons, List.map_append, List.mem_append, not_or] at apart
      exact apart.1.1
    have placed := (insertSorted_perm absent entry.2).append_right rest
    exact (ih _ ((placed.map _).symm.nodup apart)).trans (placed.trans moved.symm)

theorem insertSorted_map {β : Type} (f : α → β) (key : String) (value : α) (fields : Fields α) :
    insertSorted key (f value) (fields.map fun entry => (entry.1, f entry.2)) =
      (fields.insertSorted key value).map fun entry => (entry.1, f entry.2) := by
  induction fields with
  | nil => rfl
  | cons entry rest ih =>
    rcases entry with ⟨k, old⟩
    rw [List.map_cons, insertSorted, insertSorted, ih]
    split
    · rfl
    · split <;> rfl

theorem sorted_map {β : Type} (f : α → β) (entries : List (String × α)) :
    sorted (entries.map fun entry => (entry.1, f entry.2)) =
      (sorted entries).map fun entry => (entry.1, f entry.2) := by
  induction entries using List.reverseRecOn with
  | nil => rfl
  | append_singleton entries entry ih =>
    rw [sorted, sorted, List.map_append, List.foldl_append, List.foldl_append, ← sorted,
      ← sorted, ih]
    exact insertSorted_map f entry.1 entry.2 _

theorem get?_insertSorted (fields : Fields α) (name key : String) (value : α) :
    (fields.insertSorted name value).get? key =
      if name = key then some value else fields.get? key := by
  induction fields with
  | nil => rfl
  | cons entry rest ih =>
    rcases entry with ⟨k, old⟩
    rw [insertSorted]
    split
    · next same =>
      subst same
      rw [get?, get?]
      split <;> rfl
    · next differ =>
      split
      · rfl
      · rw [get?, get?, ih]
        split
        · next here =>
          subst here
          rw [if_neg (Ne.symm differ)]
        · rfl

theorem get?_sorted (entries : List (String × α)) (key : String) :
    (sorted entries).get? key = get? key entries.reverse := by
  induction entries using List.reverseRecOn with
  | nil => rfl
  | append_singleton entries entry ih =>
    rw [sorted, List.foldl_append, List.foldl_cons, List.foldl_nil, get?_insertSorted,
      List.reverse_concat, get?]
    exact congrArg _ ih

def Ascending (fields : Fields α) : Prop :=
  fields.Pairwise fun first second => first.1 < second.1

theorem mem_insertSorted {entry : String × α} {value : α}
    (member : entry ∈ fields.insertSorted key value) : entry = (key, value) ∨ entry ∈ fields := by
  induction fields with
  | nil => exact .inl (List.mem_singleton.mp member)
  | cons other rest ih =>
    rcases other with ⟨k, old⟩
    rw [insertSorted] at member
    split at member
    · next same =>
      rw [same] at member
      exact (List.mem_cons.mp member).imp_right (List.mem_cons_of_mem _)
    · split at member
      · exact List.mem_cons.mp member
      · rcases List.mem_cons.mp member with rfl | later
        · exact .inr (List.mem_cons_self ..)
        · exact (ih later).imp_right (List.mem_cons_of_mem _)

theorem Ascending.insertSorted (ascending : fields.Ascending) (key : String) (value : α) :
    (fields.insertSorted key value).Ascending := by
  induction fields with
  | nil => exact List.pairwise_singleton ..
  | cons entry rest ih =>
    rcases entry with ⟨k, old⟩
    rcases List.pairwise_cons.mp ascending with ⟨first, others⟩
    rw [Fields.insertSorted]
    split
    · exact List.pairwise_cons.mpr ⟨first, others⟩
    · next differ =>
      split
      · next before =>
        refine List.pairwise_cons.mpr ⟨?_, ascending⟩
        intro entry member
        rcases List.mem_cons.mp member with rfl | later
        · exact before
        · exact String.lt_trans before (first entry later)
      · next behind =>
        have after : k < key := Std.lt_of_le_of_ne (String.not_lt.mp behind) differ
        refine List.pairwise_cons.mpr ⟨?_, ih others⟩
        intro entry member
        rcases mem_insertSorted member with rfl | later
        · exact after
        · exact first entry later

/-- The first of ascending entries that a test on keys finds has the least key of those. -/
theorem Ascending.find?_key (ascending : fields.Ascending) (test : String → Bool) :
    (fields.find? fun entry => test entry.1).map Prod.fst = some key ↔
      key ∈ fields.keys ∧ test key = true ∧
        ∀ other ∈ fields.keys, test other = true → other ≠ key → key < other := by
  induction fields with
  | nil => simp [keys]
  | cons entry rest ih =>
    rcases entry with ⟨k, value⟩
    rcases List.pairwise_cons.mp ascending with ⟨first, others⟩
    have behind : ∀ other ∈ keys rest, k < other := List.forall_mem_map.mpr first
    rw [List.find?_cons]
    dsimp only
    cases holds : test k with
    | true =>
      rw [Option.map_some, Option.some_inj]
      constructor
      · rintro rfl
        refine ⟨List.mem_cons_self .., holds, fun other member _ differ => ?_⟩
        exact behind other ((List.mem_cons.mp member).resolve_left differ)
      · rintro ⟨member, -, least⟩
        by_contra differ
        have before := behind key ((List.mem_cons.mp member).resolve_left (Ne.symm differ))
        exact String.lt_asymm before (least k (List.mem_cons_self ..) holds differ)
    | false =>
      rw [ih others]
      have unseen {other : String} (found : test other = true) : other ≠ k := by
        rintro rfl
        rw [holds] at found
        cases found
      have known {other : String} (found : test other = true) :
          other ∈ keys ((k, value) :: rest) ↔ other ∈ keys rest :=
        List.mem_cons.trans (or_iff_right (unseen found))
      constructor
      · rintro ⟨member, found, least⟩
        exact ⟨(known found).mpr member, found,
          fun other there holds' => least other ((known holds').mp there) holds'⟩
      · rintro ⟨member, found, least⟩
        exact ⟨(known found).mp member, found,
          fun other there holds' => least other ((known holds').mpr there) holds'⟩

theorem ascending_sorted (entries : List (String × α)) : (sorted entries).Ascending := by
  suffices kept : ∀ fields : Fields α, fields.Ascending →
      Ascending (entries.foldl (fun fields entry => fields.insertSorted entry.1 entry.2) fields)
    from kept [] .nil
  induction entries with
  | nil => exact fun fields ascending => ascending
  | cons entry rest ih =>
    exact fun fields ascending => ih _ (ascending.insertSorted entry.1 entry.2)

/-- Sorting forgets in which order entries with distinct keys were given. -/
theorem sorted_eq_of_perm {entries others : List (String × α)} (distinct : (keys entries).Nodup)
    (perm : entries.Perm others) : sorted entries = sorted others := by
  have same : (sorted entries).Perm (sorted others) :=
    (sorted_perm distinct).trans (perm.trans (sorted_perm ((perm.map _).nodup distinct)).symm)
  refine List.Perm.eq_of_pairwise ?_ (ascending_sorted entries) (ascending_sorted others) same
  intro _ _ _ _ before behind
  exact absurd behind (String.lt_asymm before)

end ParticleSim.Fields
