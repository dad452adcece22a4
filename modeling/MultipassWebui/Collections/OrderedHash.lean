import Mathlib.Data.List.Nodup

/-!
# Hashes in insertion order

Finite maps that enumerate their entries in the order in which the keys were
first inserted.  Replacing the value of a key keeps its place, and deleting a
key forgets it.
-/

namespace MultipassWebui.Collections

universe u v

structure OrderedHash (κ : Type u) (ν : Type v) where
  entries : List (κ × ν)
  nodup : (entries.map Prod.fst).Nodup

namespace OrderedHash

variable {κ : Type u} {ν : Type v} [DecidableEq κ]

def empty : OrderedHash κ ν := ⟨[], List.nodup_nil⟩

def get? (hash : OrderedHash κ ν) (key : κ) : Option ν :=
  (hash.entries.find? fun entry => entry.1 = key).map Prod.snd

/-- The entries after a key was set. -/
def setEntries (key : κ) (value : ν) (entries : List (κ × ν)) : List (κ × ν) :=
  if key ∈ entries.map Prod.fst then
    entries.map fun entry => if entry.1 = key then (key, value) else entry
  else entries ++ [(key, value)]

theorem map_fst_setEntries {key : κ} {value : ν} {entries : List (κ × ν)}
    (present : key ∈ entries.map Prod.fst) :
    (setEntries key value entries).map Prod.fst = entries.map Prod.fst := by
  rw [setEntries, if_pos present, List.map_map]
  apply List.map_congr_left
  intro entry _
  by_cases same : entry.1 = key
  · simp [same]
  · simp [same]

theorem nodup_setEntries {key : κ} {value : ν} {entries : List (κ × ν)}
    (nodup : (entries.map Prod.fst).Nodup) :
    ((setEntries key value entries).map Prod.fst).Nodup := by
  by_cases present : key ∈ entries.map Prod.fst
  · rw [map_fst_setEntries present]
    exact nodup
  · have extended := List.Nodup.concat present nodup
    rw [List.concat_eq_append] at extended
    rw [setEntries, if_neg present, List.map_append]
    exact extended

/-- `hash[key] = value` -/
def insert (hash : OrderedHash κ ν) (key : κ) (value : ν) : OrderedHash κ ν :=
  ⟨setEntries key value hash.entries, nodup_setEntries hash.nodup⟩

/-- `hash.delete(key)` -/
def delete (hash : OrderedHash κ ν) (key : κ) : OrderedHash κ ν :=
  ⟨hash.entries.filter fun entry => entry.1 ≠ key, hash.nodup.sublist (List.filter_sublist.map _)⟩

/-- Looking a key up and finding its entry come to the same. -/
theorem get?_eq_some_iff {hash : OrderedHash κ ν} {key : κ} {value : ν} :
    hash.get? key = some value ↔ (key, value) ∈ hash.entries := by
  constructor
  · intro found
    rcases Option.map_eq_some_iff.mp found with ⟨⟨other, found⟩, isEntry, rfl⟩
    have same : other = key := by simpa using List.find?_some isEntry
    rw [← same]
    exact List.mem_of_find?_eq_some isEntry
  · intro member
    cases found : hash.entries.find? fun entry => entry.1 = key with
    | none =>
        have missing := List.find?_eq_none.mp found (key, value) member
        simp at missing
    | some entry =>
        have same : entry.1 = key := by simpa using List.find?_some found
        have isMember := List.mem_of_find?_eq_some found
        have equal := List.inj_on_of_nodup_map hash.nodup isMember member same
        rw [get?, found, equal]
        rfl

theorem get?_eq_none_iff {hash : OrderedHash κ ν} {key : κ} :
    hash.get? key = none ↔ ∀ value, (key, value) ∉ hash.entries := by
  rw [Option.eq_none_iff_forall_ne_some]
  exact forall_congr' fun value => not_congr get?_eq_some_iff

theorem mem_insert_iff {hash : OrderedHash κ ν} {key other : κ} {value found : ν} :
    (other, found) ∈ (hash.insert key value).entries ↔
      other = key ∧ found = value ∨ other ≠ key ∧ (other, found) ∈ hash.entries := by
  unfold insert setEntries
  split_ifs with present
  · rw [List.mem_map]
    constructor
    · rintro ⟨entry, member, equal⟩
      split_ifs at equal with same
      · cases equal
        exact Or.inl ⟨rfl, rfl⟩
      · subst equal
        exact Or.inr ⟨same, member⟩
    · rintro (⟨rfl, rfl⟩ | ⟨different, member⟩)
      · rcases List.mem_map.mp present with ⟨entry, member, same⟩
        exact ⟨entry, member, if_pos same⟩
      · exact ⟨_, member, if_neg different⟩
  · rw [List.mem_append, List.mem_singleton, Prod.mk.injEq]
    constructor
    · rintro (member | equal)
      · refine Or.inr ⟨?_, member⟩
        rintro rfl
        exact present (List.mem_map.mpr ⟨_, member, rfl⟩)
      · exact Or.inl equal
    · rintro (equal | ⟨_, member⟩)
      · exact Or.inr equal
      · exact Or.inl member

theorem mem_delete_iff {hash : OrderedHash κ ν} {key other : κ} {found : ν} :
    (other, found) ∈ (hash.delete key).entries ↔ other ≠ key ∧ (other, found) ∈ hash.entries := by
  simp [delete, and_comm]

theorem delete_of_get?_eq_none {hash : OrderedHash κ ν} {key : κ} (missing : hash.get? key = none) :
    hash.delete key = hash := by
  have kept : hash.entries.filter (fun entry => entry.1 ≠ key) = hash.entries := by
    apply List.filter_eq_self.mpr
    rintro ⟨other, value⟩ member
    rw [decide_eq_true_eq]
    rintro rfl
    exact get?_eq_none_iff.mp missing value member
  cases hash
  simp only [delete, mk.injEq]
  exact kept

@[simp]
theorem get?_insert_self (hash : OrderedHash κ ν) (key : κ) (value : ν) :
    (hash.insert key value).get? key = some value :=
  get?_eq_some_iff.mpr (mem_insert_iff.mpr (Or.inl ⟨rfl, rfl⟩))

@[simp]
theorem get?_delete_self (hash : OrderedHash κ ν) (key : κ) : (hash.delete key).get? key = none :=
  get?_eq_none_iff.mpr fun _ member => (mem_delete_iff.mp member).1 rfl

theorem get?_insert_of_ne (hash : OrderedHash κ ν) {key other : κ} (different : other ≠ key)
    (value : ν) : (hash.insert key value).get? other = hash.get? other := by
  refine Option.ext fun found => ?_
  rw [get?_eq_some_iff, get?_eq_some_iff, mem_insert_iff]
  simp [different]

theorem get?_delete_of_ne (hash : OrderedHash κ ν) {key other : κ} (different : other ≠ key) :
    (hash.delete key).get? other = hash.get? other := by
  refine Option.ext fun found => ?_
  rw [get?_eq_some_iff, get?_eq_some_iff, mem_delete_iff]
  simp [different]

end OrderedHash

end MultipassWebui.Collections
