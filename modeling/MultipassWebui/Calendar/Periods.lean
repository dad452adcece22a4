import Mathlib.Data.Nat.Count
import Mathlib.Tactic.Common

/-!
# Counting over a period

How often a predicate holds in one period does not depend on where the period
begins, and in a period of blocks it is counted block by block.
-/

namespace MultipassWebui.Calendar

variable {p q : Nat → Prop} [DecidablePred p] [DecidablePred q]

theorem count_congr {bound : Nat} (same : ∀ k < bound, p k ↔ q k) :
    Nat.count p bound = Nat.count q bound :=
  Nat.le_antisymm (Nat.count_mono_left fun k below => (same k below).mp)
    (Nat.count_mono_left fun k below => (same k below).mpr)

/-- Every stretch of one period holds the predicate equally often. -/
theorem count_from_of_periodic {period : Nat} (periodic : ∀ n, p (n + period) ↔ p n) (start : Nat) :
    Nat.count (fun k => p (start + k)) period = Nat.count p period := by
  induction start with
  | zero => simp only [Nat.zero_add]
  | succ start ih =>
      -- Moving the start by one drops the first value and takes the same one at the end.
      have first := Nat.count_succ' (fun k => p (start + k)) period
      have last := Nat.count_succ (fun k => p (start + k)) period
      have same : (if p (start + period) then 1 else 0) = if p (start + 0) then 1 else 0 :=
        if_congr (periodic start) rfl rfl
      have shifted : Nat.count (fun k => p (start + 1 + k)) period =
          Nat.count (fun k => p (start + (k + 1))) period :=
        count_congr fun k _ => by rw [Nat.add_assoc, Nat.add_comm 1 k]
      rw [shifted]
      omega

/-- A single value is met at most once. -/
theorem count_eq_single (value bound : Nat) :
    Nat.count (fun k => k = value) bound = if value < bound then 1 else 0 := by
  induction bound with
  | zero => rfl
  | succ bound ih =>
      rw [Nat.count_succ, ih]
      split_ifs <;> omega

/-- One offset in every block that a predicate selects. -/
theorem count_blocks (size offset blocks : Nat) :
    Nat.count (fun n => n % size = offset ∧ p (n / size)) (blocks * size) =
      if offset < size then Nat.count p blocks else 0 := by
  induction blocks with
  | zero => simp
  | succ blocks ih =>
      have inBlock : ∀ k < size, ((blocks * size + k) % size = offset ∧
          p ((blocks * size + k) / size)) ↔ k = offset ∧ p blocks := by
        intro k below
        have positive : 0 < size := Nat.lt_of_le_of_lt (Nat.zero_le k) below
        rw [Nat.mul_comm, Nat.mul_add_mod, Nat.mod_eq_of_lt below, Nat.mul_add_div positive,
          Nat.div_eq_of_lt below, Nat.add_zero]
      have block : Nat.count (fun k => k = offset ∧ p blocks) size =
          if offset < size then (if p blocks then 1 else 0) else 0 := by
        by_cases selected : p blocks
        · simp only [selected, and_true, if_true, count_eq_single]
        · simp [selected]
      rw [Nat.succ_mul, Nat.count_add, ih, count_congr inBlock, block]
      split_ifs with inside selected
      · rw [Nat.count_succ, if_pos selected]
      · rw [Nat.count_succ, if_neg selected]
      · rfl

end MultipassWebui.Calendar
