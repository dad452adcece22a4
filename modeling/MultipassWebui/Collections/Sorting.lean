import Mathlib.Data.List.Perm.Basic
import Mathlib.Order.Lattice

/-!
# Sorting by a key

What `List.mergeSort` gives when the comparison is the one of a key from a
linear order, and that rows in strictly ascending order are determined by their
members.
-/

namespace MultipassWebui.Collections

section

variable {α β : Type} [LinearOrder β] {key : α → β} {le : α → α → Bool}

theorem pairwise_mergeSort_key
    (byKey : ∀ first second, le first second = true ↔ key first ≤ key second) (rows : List α) :
    (rows.mergeSort le).Pairwise fun first second => key first ≤ key second := by
  have transitive : ∀ first second third, le first second = true → le second third = true →
      le first third = true := by
    intro first second third early late
    rw [byKey] at early late ⊢
    exact le_trans early late
  have total : ∀ first second, (le first second || le second first) = true := by
    intro first second
    rw [Bool.or_eq_true, byKey, byKey]
    exact le_total _ _
  exact (List.pairwise_mergeSort transitive total rows).imp fun holds => (byKey _ _).mp holds

/-- Rows with different keys are sorted strictly. -/
theorem pairwise_mergeSort_of_nodup
    (byKey : ∀ first second, le first second = true ↔ key first ≤ key second) {rows : List α}
    (distinct : (rows.map key).Nodup) :
    ((rows.mergeSort le).map key).Pairwise (· < ·) := by
  have nodup : ((rows.mergeSort le).map key).Nodup :=
    ((List.mergeSort_perm rows le).map key).nodup_iff.mpr distinct
  have weak : ((rows.mergeSort le).map key).Pairwise (· ≤ ·) :=
    List.pairwise_map.mpr (pairwise_mergeSort_key byKey rows)
  exact (weak.and nodup).imp fun both => lt_of_le_of_ne both.1 both.2

/-- Two lists with the same members, both strictly ascending, are the same. -/
theorem eq_of_perm_of_ascending {first second : List α}
    (firstAscends : (first.map key).Pairwise (· < ·))
    (secondAscends : (second.map key).Pairwise (· < ·)) (same : first.Perm second) :
    first = second := by
  rw [List.pairwise_map] at firstAscends secondAscends
  refine List.Perm.eq_of_pairwise ?_ firstAscends secondAscends same
  intro one other _ _ early late
  exact absurd early (lt_asymm late)

end

end MultipassWebui.Collections
