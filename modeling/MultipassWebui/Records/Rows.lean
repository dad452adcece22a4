import Mathlib.Data.List.Nodup
import Mathlib.Data.List.Basic

/-!
# Tables as lists of rows

Insertion at the end, update of the rows that satisfy a condition and deletion,
together with the way each of them keeps a relation that holds between any two
distinct rows, such as having different keys.
-/

namespace MultipassWebui.Records.Rows

universe u v

variable {ρ : Type u} {κ : Type v}

/-- `UPDATE … SET … WHERE p` -/
def updateWhere (p : ρ → Bool) (change : ρ → ρ) (rows : List ρ) : List ρ :=
  rows.map fun row => if p row then change row else row

theorem mem_updateWhere {p : ρ → Bool} {change : ρ → ρ} {rows : List ρ} {row : ρ} :
    row ∈ updateWhere p change rows ↔
      ∃ source ∈ rows, (if p source then change source else source) = row := by
  simp [updateWhere]

theorem pairwise_concat {R : ρ → ρ → Prop} {rows : List ρ} {row : ρ}
    (pairs : rows.Pairwise R) (fresh : ∀ old ∈ rows, R old row) :
    (rows ++ [row]).Pairwise R := by
  rw [List.pairwise_append]
  refine ⟨pairs, List.pairwise_singleton R row, ?_⟩
  intro old oldMem new newMem
  rw [List.mem_singleton] at newMem
  subst new
  exact fresh old oldMem

theorem pairwise_updateWhere {R : ρ → ρ → Prop} {p : ρ → Bool} {change : ρ → ρ}
    {rows : List ρ}
    (keep : ∀ first ∈ rows, ∀ second ∈ rows, R first second →
      R (if p first then change first else first) (if p second then change second else second))
    (pairs : rows.Pairwise R) : (updateWhere p change rows).Pairwise R := by
  rw [updateWhere, List.pairwise_map]
  exact pairs.imp_of_mem fun firstMem secondMem related =>
    keep _ firstMem _ secondMem related

/-- Rows with pairwise different keys are determined by their key. -/
theorem eq_of_key_eq {key : ρ → κ} {rows : List ρ}
    (pairs : rows.Pairwise fun first second => key first ≠ key second) {first second : ρ}
    (firstMem : first ∈ rows) (secondMem : second ∈ rows) (equal : key first = key second) :
    first = second := by
  have distinct : (rows.map key).Nodup := List.pairwise_map.mpr pairs
  exact List.inj_on_of_nodup_map distinct firstMem secondMem equal

/-- A row that is the only one to satisfy a condition is found. -/
theorem find?_eq_some_of_unique {p : ρ → Bool} {rows : List ρ} {row : ρ} (member : row ∈ rows)
    (satisfies : p row = true) (unique : ∀ other ∈ rows, p other = true → other = row) :
    rows.find? p = some row := by
  cases found : rows.find? p with
  | none => exact absurd satisfies (List.find?_eq_none.mp found row member)
  | some other =>
      rw [unique other (List.mem_of_find?_eq_some found) (List.find?_some found)]

/-- The first row with a given key is the only one. -/
theorem find?_key_eq_some [DecidableEq κ] {key : ρ → κ} {rows : List ρ}
    (pairs : rows.Pairwise fun first second => key first ≠ key second) {row : ρ}
    (member : row ∈ rows) : rows.find? (fun other => key other = key row) = some row := by
  apply find?_eq_some_of_unique member
  · simp
  · intro other otherMember sameKey
    exact eq_of_key_eq pairs otherMember member (of_decide_eq_true sameKey)

end MultipassWebui.Records.Rows
