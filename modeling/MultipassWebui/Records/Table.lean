import Mathlib.Data.List.Basic

/-!
# Tables under an automatic key

The rows of a table in the order of their keys.  A key is handed out once and in
increasing order, so the keys are unique without an index that says so.
-/

namespace MultipassWebui.Records

structure Table (ρ : Type) where
  rows : List (Nat × ρ)
  sequence : Nat
  ascending : rows.Pairwise fun earlier later => earlier.1 < later.1
  fresh : ∀ row ∈ rows, row.1 < sequence

namespace Table

variable {ρ : Type}

def empty : Table ρ := ⟨[], 1, List.Pairwise.nil, fun _ member => nomatch member⟩

/-- `first`: the row with the least key. -/
def first (table : Table ρ) : Option (Nat × ρ) := table.rows.head?

/-- The rows without their keys. -/
def values (table : Table ρ) : List ρ := table.rows.map Prod.snd

/-- `create!` -/
def insert (table : Table ρ) (value : ρ) : Table ρ where
  rows := table.rows ++ [(table.sequence, value)]
  sequence := table.sequence + 1
  ascending := by
    rw [List.pairwise_append]
    refine ⟨table.ascending, List.pairwise_singleton _ _, ?_⟩
    intro earlier member later new
    rw [List.mem_singleton.mp new]
    exact table.fresh earlier member
  fresh := by
    intro row member
    rcases List.mem_append.mp member with old | new
    · exact Nat.lt_succ_of_lt (table.fresh row old)
    · rw [List.mem_singleton.mp new]
      exact Nat.lt_succ_self _

/-- `update!` of the first row. -/
def updateFirst (table : Table ρ) (update : ρ → ρ) : Table ρ where
  rows := table.rows.modifyHead fun row => (row.1, update row.2)
  sequence := table.sequence
  ascending := by
    have ascending := table.ascending
    cases rows : table.rows with
    | nil => exact List.Pairwise.nil
    | cons row rest =>
        rw [rows, List.pairwise_cons] at ascending
        exact List.pairwise_cons.mpr ascending
  fresh := by
    have fresh := table.fresh
    cases rows : table.rows with
    | nil =>
        intro row member
        cases member
    | cons row rest =>
        rw [rows, List.forall_mem_cons] at fresh
        exact List.forall_mem_cons.mpr fresh

theorem first_eq_none_iff (table : Table ρ) : table.first = none ↔ table.rows = [] :=
  List.head?_eq_none_iff

@[simp]
theorem values_empty : (empty : Table ρ).values = [] :=
  rfl

@[simp]
theorem values_insert (table : Table ρ) (value : ρ) :
    (table.insert value).values = table.values ++ [value] := by
  simp [values, insert]

end Table

end MultipassWebui.Records
