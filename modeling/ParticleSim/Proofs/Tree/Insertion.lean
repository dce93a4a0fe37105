import Mathlib.Data.Finset.Card
import Mathlib.Data.List.Induction
import ParticleSim.Proofs.Tree.Fields
/-!
Sequences of insertions. Fields that are filled one entry after the other hold of each key the value
that came last, and list the keys in the order in which they came first; every insertion reports
what it replaces.
-/
namespace ParticleSim.Fields

variable {α : Type} {key : String} {value : α} {fields : Fields α} {entries : List (String × α)}

theorem getThenInsert?_eq (key : String) (value : α) (fields : Fields α) :
    fields.getThenInsert? key value = (fields.get? key, fields.insert key value) := by
  induction fields with
  | nil => rfl
  | cons entry rest ih =>
    rcases entry with ⟨k, old⟩
    rw [getThenInsert?, get?, insert]
    split
    · rfl
    · rw [ih]

/-- A key keeps its place when its value is replaced, and a new one goes to the end. -/
theorem keys_insert (key : String) (value : α) (fields : Fields α) :
    (fields.insert key value).keys =
      if key ∈ fields.keys then fields.keys else fields.keys ++ [key] := by
  split
  · next present =>
    induction fields with
    | nil => cases present
    | cons entry rest ih =>
      rcases entry with ⟨k, old⟩
      rw [insert]
      split
      · rfl
      · next differ =>
        have behind := (List.mem_cons.mp present).resolve_left (Ne.symm differ)
        exact congrArg (k :: ·) (ih behind)
  · next absent =>
    rw [insert_new absent, keys, List.map_append]
    rfl

/-- The fields after one insertion after the other, and what each of them replaces. -/
def insertAll : List (String × α) → Fields α → List (Option α) × Fields α
  | [], fields => ([], fields)
  | (key, value) :: rest, fields =>
    let (replaced, fields) := fields.getThenInsert? key value
    let (others, fields) := insertAll rest fields
    (replaced :: others, fields)

theorem insertAll_cons (key : String) (value : α) (rest : List (String × α)) (fields : Fields α) :
    insertAll ((key, value) :: rest) fields =
      (fields.get? key :: (insertAll rest (fields.insert key value)).1,
        (insertAll rest (fields.insert key value)).2) := by
  rw [insertAll, getThenInsert?_eq]

theorem insertAll_concat (entries : List (String × α)) (key : String) (value : α)
    (fields : Fields α) : insertAll (entries ++ [(key, value)]) fields =
      ((insertAll entries fields).1 ++ [(insertAll entries fields).2.get? key],
        (insertAll entries fields).2.insert key value) := by
  induction entries generalizing fields with
  | nil => exact insertAll_cons key value [] fields
  | cons entry rest ih =>
    rcases entry with ⟨k, first⟩
    rw [List.cons_append, insertAll_cons, insertAll_cons, ih]
    rfl

theorem ofList_eq_insertAll (entries : List (String × α)) :
    ofList entries = (insertAll entries []).2 := by
  induction entries using List.reverseRecOn with
  | nil => rfl
  | append_singleton entries entry ih =>
    rcases entry with ⟨key, value⟩
    rw [insertAll_concat, ← ih, ofList, List.foldl_concat]
    rfl

def Last (entries : List (String × α)) (key : String) (value : α) : Prop :=
  ∃ before after, entries = before ++ (key, value) :: after ∧ key ∉ keys after

theorem last_concat {k : String} {v : α} : Last (entries ++ [(k, v)]) key value ↔
    if k = key then v = value else Last entries key value := by
  constructor
  · rintro ⟨before, after, same, final⟩
    rcases List.eq_nil_or_concat after with rfl | ⟨after, entry, rfl⟩
    · obtain ⟨-, tail⟩ := List.append_inj' same rfl
      cases tail
      rw [if_pos rfl]
    · rw [List.concat_eq_append, ← List.cons_append, ← List.append_assoc] at same
      obtain ⟨front, tail⟩ := List.append_inj' same rfl
      cases tail
      rw [List.concat_eq_append, keys, List.map_append, List.mem_append, not_or] at final
      rw [if_neg fun equal => final.2 (by simp [equal])]
      exact ⟨before, after, front, final.1⟩
  · intro given
    split at given
    · next equal => exact ⟨entries, [], by rw [equal, given], List.not_mem_nil⟩
    · next differ =>
      rcases given with ⟨before, after, rfl, final⟩
      refine ⟨before, after ++ [(k, v)], by simp, ?_⟩
      rw [keys, List.map_append, List.mem_append, not_or]
      exact ⟨final, by simpa using Ne.symm differ⟩

/-- What a sequence of insertions leaves, and what each of them reports. -/
structure Remembers (entries : List (String × α)) (replaced : List (Option α))
    (fields : Fields α) : Prop where
  distinct : fields.keys.Nodup
  get? : ∀ key value, fields.get? key = some value ↔ Last entries key value
  known : ∀ key, key ∈ fields.keys ↔ key ∈ keys entries
  order : fields.keys.Pairwise fun first second =>
    (keys entries).idxOf first < (keys entries).idxOf second
  count : replaced.length = entries.length
  replaced : ∀ (i : Nat) (key : String) (value : α), entries[i]? = some (key, value) →
    ∃ report, replaced[i]? = some report ∧
      ∀ old, report = some old ↔ Last (entries.take i) key old

namespace Remembers

variable {replaced : List (Option α)}

theorem nil : Remembers ([] : List (String × α)) [] [] where
  distinct := List.nodup_nil
  get? key value := by simp [Fields.get?, Last]
  known key := Iff.rfl
  order := .nil
  count := rfl
  replaced i key value found := by simp at found

theorem keys_concat (entries : List (String × α)) (key : String) (value : α) :
    keys (entries ++ [(key, value)]) = keys entries ++ [key] := List.map_append

theorem concat (remembers : Remembers entries replaced fields) (key : String) (value : α) :
    Remembers (entries ++ [(key, value)]) (replaced ++ [fields.get? key])
      (fields.insert key value) where
  distinct := by
    rw [keys_insert]
    split
    · exact remembers.distinct
    · next absent =>
      rw [← List.concat_eq_append]
      exact remembers.distinct.concat absent
  get? name content := by
    rw [get?_insert, last_concat, ← remembers.get?]
    split
    · rw [Option.some_inj]
    · exact Iff.rfl
  known name := by
    rw [keys_insert, keys_concat, List.mem_append, ← remembers.known, List.mem_singleton]
    split
    · next present =>
      refine ⟨.inl, fun given => given.elim id ?_⟩
      rintro rfl
      exact present
    · rw [List.mem_append, List.mem_singleton]
  order := by
    -- what is held already came before and keeps its first place
    have earlier {name : String} (member : name ∈ fields.keys) :
        (keys entries ++ [key]).idxOf name = (keys entries).idxOf name :=
      List.idxOf_append_of_mem ((remembers.known name).mp member)
    have kept : fields.keys.Pairwise fun first second =>
        (keys entries ++ [key]).idxOf first < (keys entries ++ [key]).idxOf second := by
      refine remembers.order.imp_of_mem fun {first second} member member' before => ?_
      rwa [earlier member, earlier member']
    rw [keys_insert, keys_concat]
    split
    · exact kept
    · next absent =>
      refine List.pairwise_append.mpr ⟨kept, List.pairwise_singleton .., ?_⟩
      intro name member new listed
      rw [List.mem_singleton.mp listed, earlier member,
        List.idxOf_append_of_notMem (mt (remembers.known key).mpr absent)]
      exact (List.idxOf_lt_length_of_mem ((remembers.known name).mp member)).trans_le
        (Nat.le_add_right ..)
  count := by
    rw [List.length_append, List.length_append, remembers.count]
    rfl
  replaced i name content found := by
    rcases Nat.lt_trichotomy i entries.length with before | rfl | behind
    · rw [List.getElem?_append_left before] at found
      rw [List.getElem?_append_left (remembers.count ▸ before),
        List.take_append_of_le_length before.le]
      exact remembers.replaced i name content found
    · rw [List.getElem?_concat_length, Option.some_inj, Prod.mk.injEq] at found
      rw [← remembers.count, List.getElem?_concat_length, remembers.count, List.take_left]
      refine ⟨_, rfl, fun old => ?_⟩
      rw [found.1]
      exact remembers.get? name old
    · rw [List.getElem?_eq_none (by rw [List.length_append]; exact behind)] at found
      cases found

end Remembers

theorem remembers_insertAll (entries : List (String × α)) :
    Remembers entries (insertAll entries []).1 (insertAll entries []).2 := by
  induction entries using List.reverseRecOn with
  | nil => exact .nil
  | append_singleton entries entry ih =>
    rcases entry with ⟨key, value⟩
    rw [insertAll_concat]
    exact ih.concat key value

/-- Fields that are filled by insertions, and equally fields that are collected from a list, hold
the value of the last entry with a key and list the keys by their first entries. Each insertion
reports the value that it replaces. -/
theorem insertAll_remembers (entries : List (String × α)) : ∃ replaced fields,
    insertAll entries [] = (replaced, fields) ∧ ofList entries = fields ∧
      Remembers entries replaced fields ∧
      (∀ key, fields.get? key = none ↔ key ∉ keys entries) ∧
      (∀ key value, (key, value) ∈ fields ↔ Last entries key value) ∧
      fields.length = (keys entries).toFinset.card := by
  have remembers := remembers_insertAll entries
  refine ⟨_, _, rfl, ofList_eq_insertAll entries, remembers, fun key => ?_, fun key value => ?_, ?_⟩
  · rw [get?_eq_none_iff, remembers.known]
  · rw [← remembers.get?]
    exact ⟨get?_of_mem remembers.distinct, mem_of_get?⟩
  · have same : (keys entries).toFinset = (insertAll entries []).2.keys.toFinset := by
      ext key
      rw [List.mem_toFinset, List.mem_toFinset, remembers.known]
    rw [same, List.toFinset_card_of_nodup remembers.distinct, keys, List.length_map]

end ParticleSim.Fields
