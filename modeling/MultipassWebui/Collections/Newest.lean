import MultipassWebui.Collections.Sorting

/-!
# The newest rows

The first rows of a list that is sorted by a key, the greatest first.  Rows with
the same key stand in any order, so this is a relation.
-/

namespace MultipassWebui.Collections

variable {α β : Type} [LinearOrder β]

/-- The result is the first `count` rows, in a descending order of the key. -/
def Newest (key : α → β) (count : Nat) (rows result : List α) : Prop :=
  ∃ sorted : List α, sorted.Perm rows ∧
    (sorted.Pairwise fun first second => key second ≤ key first) ∧ result = sorted.take count

namespace Newest

variable {key : α → β} {count : Nat} {rows result : List α}

theorem length_eq (newest : Newest key count rows result) :
    result.length = min count rows.length := by
  rcases newest with ⟨sorted, perm, _, rfl⟩
  rw [List.length_take, perm.length_eq]

theorem of_perm {others : List α} (newest : Newest key count rows result)
    (perm : rows.Perm others) : Newest key count others result := by
  rcases newest with ⟨sorted, same, descends, taken⟩
  exact ⟨sorted, same.trans perm, descends, taken⟩

/-- There is a result, whatever the rows. -/
theorem exists_newest (key : α → β) (count : Nat) (rows : List α) :
    ∃ result, Newest key count rows result := by
  let le : α → α → Bool := fun first second => decide (key second ≤ key first)
  have byKey : ∀ first second, le first second = true ↔
      OrderDual.toDual (key first) ≤ OrderDual.toDual (key second) :=
    fun first second => decide_eq_true_iff
  exact ⟨_, rows.mergeSort le, List.mergeSort_perm rows le, pairwise_mergeSort_key byKey rows, rfl⟩

/-- Keys that order the rows in the same way have the same results. -/
theorem of_key {γ : Type} [LinearOrder γ] {other : α → γ} (newest : Newest key count rows result)
    (agree : ∀ first ∈ rows, ∀ second ∈ rows, key first ≤ key second → other first ≤ other second) :
    Newest other count rows result := by
  rcases newest with ⟨sorted, perm, descends, taken⟩
  refine ⟨sorted, perm, ?_, taken⟩
  apply descends.imp_of_mem
  intro first second firstMem secondMem le
  exact agree second (perm.mem_iff.mp secondMem) first (perm.mem_iff.mp firstMem) le

/-- Rows before all others are among the newest only if the others do not suffice. -/
theorem append_iff {early : List α} (newest : Newest key count rows result)
    (before : ∀ first ∈ rows, ∀ second ∈ early, key second ≤ key first) :
    Newest key count (rows ++ early) result ↔ early = [] ∨ count ≤ rows.length := by
  constructor
  · intro all
    have lengths := newest.length_eq.symm.trans all.length_eq
    rw [List.length_append] at lengths
    rw [← List.length_eq_zero_iff]
    omega
  · rintro (rfl | enough)
    · rw [List.append_nil]
      exact newest
    · rcases newest with ⟨sorted, perm, descends, rfl⟩
      rcases exists_newest key early.length early with ⟨_, others, otherPerm, otherDescends, _⟩
      refine ⟨sorted ++ others, perm.append otherPerm, ?_, ?_⟩
      · rw [List.pairwise_append]
        refine ⟨descends, otherDescends, ?_⟩
        intro first firstMem second secondMem
        exact before first (perm.mem_iff.mp firstMem) second (otherPerm.mem_iff.mp secondMem)
      · rw [List.take_append_of_le_length]
        rw [perm.length_eq]
        exact enough

end Newest

end MultipassWebui.Collections
