import Mathlib.Algebra.Ring.Nat
import MultipassWebui.Collections.OrderedHash

/-!
# Counting into a hash

A hash of counts, and what it holds once a list of keys was counted into it:
every key was counted as often as it occurs, nothing is lost or counted twice,
and the keys that were there first stay in front.
-/

namespace MultipassWebui.Collections

universe u v

namespace OrderedHash

variable {κ : Type u} [DecidableEq κ]

/-- `counts[key] = (counts[key] || 0) + 1` -/
def count (counts : OrderedHash κ Nat) (key : κ) : OrderedHash κ Nat :=
  counts.insert key ((counts.get? key).getD 0 + 1)

/-- Everything that was counted. -/
def total (counts : OrderedHash κ Nat) : Nat := (counts.entries.map Prod.snd).sum

/-- The keys, in order. -/
def keys {ν : Type v} (hash : OrderedHash κ ν) : List κ := hash.entries.map Prod.fst

theorem get?_count (counts : OrderedHash κ Nat) (key other : κ) :
    ((counts.count key).get? other).getD 0 =
      (counts.get? other).getD 0 + if other = key then 1 else 0 := by
  by_cases same : other = key
  · subst same
    rw [count, get?_insert_self, if_pos rfl]
    rfl
  · rw [count, get?_insert_of_ne _ same, if_neg same, Nat.add_zero]

theorem setEntries_cons_self (key : κ) (value found : Nat) {entries : List (κ × Nat)}
    (absent : key ∉ entries.map Prod.fst) :
    setEntries key value ((key, found) :: entries) = (key, value) :: entries := by
  have kept : entries.map (fun entry => if entry.1 = key then (key, value) else entry) =
      entries := by
    conv_rhs => rw [← List.map_id entries]
    apply List.map_congr_left
    intro entry member
    have other : entry.1 ≠ key := fun same => absent (same ▸ List.mem_map_of_mem member)
    exact if_neg other
  simp [setEntries, kept]

theorem setEntries_cons_of_ne {key other : κ} (different : other ≠ key) (value found : Nat)
    (entries : List (κ × Nat)) :
    setEntries key value ((other, found) :: entries) =
      (other, found) :: setEntries key value entries := by
  by_cases present : key ∈ entries.map Prod.fst
  · have within : key ∈ ((other, found) :: entries).map Prod.fst := List.mem_cons_of_mem _ present
    rw [setEntries, if_pos within, setEntries, if_pos present, List.map_cons, if_neg different]
  · have without : key ∉ ((other, found) :: entries).map Prod.fst := by
      rw [List.map_cons, List.mem_cons, not_or]
      exact ⟨Ne.symm different, present⟩
    rw [setEntries, if_neg without, setEntries, if_neg present]
    rfl

/-- What an entry held is replaced. -/
theorem sum_setEntries {key : κ} {value : Nat} {entries : List (κ × Nat)}
    (nodup : (entries.map Prod.fst).Nodup) :
    ((setEntries key value entries).map Prod.snd).sum +
        ((entries.find? fun entry => entry.1 = key).map Prod.snd).getD 0 =
      (entries.map Prod.snd).sum + value := by
  induction entries with
  | nil => simp [setEntries]
  | cons entry rest ih =>
      rcases entry with ⟨other, found⟩
      rw [List.map_cons, List.nodup_cons] at nodup
      have later := ih nodup.2
      by_cases same : other = key
      · subst same
        rw [setEntries_cons_self _ _ _ nodup.1]
        simp only [List.find?_cons_of_pos, decide_true, List.map_cons, List.sum_cons,
          Option.map_some, Option.getD_some]
        omega
      · rw [setEntries_cons_of_ne same, List.find?_cons_of_neg (by simpa using same)]
        simp only [List.map_cons, List.sum_cons]
        omega

theorem total_count (counts : OrderedHash κ Nat) (key : κ) :
    (counts.count key).total = counts.total + 1 := by
  have sum := @sum_setEntries κ _ key ((counts.get? key).getD 0 + 1) _ counts.nodup
  rw [total, total, count]
  change ((setEntries _ _ _).map _).sum = _
  rw [get?] at sum ⊢
  omega

theorem keys_count (counts : OrderedHash κ Nat) (key : κ) :
    counts.keys <+: (counts.count key).keys := by
  change counts.entries.map Prod.fst <+: (setEntries key _ counts.entries).map Prod.fst
  by_cases present : key ∈ counts.entries.map Prod.fst
  · exact (map_fst_setEntries present).symm ▸ List.prefix_refl _
  · unfold setEntries
    rw [if_neg present, List.map_append]
    exact List.prefix_append _ _

/-! ## A list of keys -/

variable (counts : OrderedHash κ Nat) (given : List κ)

theorem get?_foldl_count (key : κ) :
    ((given.foldl count counts).get? key).getD 0 =
      (counts.get? key).getD 0 + given.countP fun other => other = key := by
  induction given generalizing counts with
  | nil => rfl
  | cons first rest ih =>
      rw [List.foldl_cons, ih, get?_count, List.countP_cons]
      by_cases same : key = first
      · subst same
        simp
        omega
      · simp [same, Ne.symm same]

theorem total_foldl_count : (given.foldl count counts).total = counts.total + given.length := by
  induction given generalizing counts with
  | nil => rfl
  | cons first rest ih =>
      rw [List.foldl_cons, ih, total_count, List.length_cons]
      omega

theorem keys_foldl_count : counts.keys <+: (given.foldl count counts).keys := by
  induction given generalizing counts with
  | nil => exact List.prefix_refl _
  | cons first rest ih => exact (keys_count counts first).trans (ih _)

end OrderedHash

end MultipassWebui.Collections
