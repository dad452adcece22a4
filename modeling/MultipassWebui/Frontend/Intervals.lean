import Mathlib.Data.List.Nodup

/-!
# Interval timers

The timers of a page that fire again and again until they are cleared.  An id is
given out once, and it is positive, so that a variable that holds one is true.
-/

namespace MultipassWebui.Frontend

universe u

/-- The running timers, each with what it was started with. -/
structure Intervals (α : Type u) where
  active : List (Nat × α)
  next : Nat
  below : ∀ timer ∈ active, timer.1 < next
  distinct : (active.map Prod.fst).Nodup

namespace Intervals

variable {α : Type u}

def empty : Intervals α := ⟨[], 1, fun _ member => absurd member List.not_mem_nil, List.nodup_nil⟩

/-- `setInterval`, which returns the id. -/
def set (timers : Intervals α) (value : α) : Intervals α where
  active := timers.active ++ [(timers.next, value)]
  next := timers.next + 1
  below := by
    intro timer member
    rcases List.mem_append.mp member with earlier | new
    · exact Nat.lt_succ_of_lt (timers.below timer earlier)
    · rw [List.mem_singleton.mp new]
      exact Nat.lt_succ_self timers.next
  distinct := by
    rw [List.map_append, List.nodup_append]
    refine ⟨timers.distinct, List.nodup_singleton _, ?_⟩
    intro id member other isNext
    rcases List.mem_map.mp member with ⟨timer, earlier, rfl⟩
    rw [List.mem_singleton.mp isNext]
    exact Nat.ne_of_lt (timers.below timer earlier)

/-- `clearInterval` -/
def clear (timers : Intervals α) (id : Nat) : Intervals α where
  active := timers.active.filter fun timer => timer.1 ≠ id
  next := timers.next
  below := by
    intro timer member
    exact timers.below timer (List.mem_of_mem_filter member)
  distinct := timers.distinct.sublist (List.filter_sublist.map Prod.fst)

/-- What a running timer was started with. -/
def find? (timers : Intervals α) (id : Nat) : Option α := timers.active.lookup id

variable {timers : Intervals α} {timer : Nat × α} {id : Nat} {value : α}

theorem mem_set : timer ∈ (timers.set value).active ↔
    timer ∈ timers.active ∨ timer = (timers.next, value) := by
  rw [set, List.mem_append, List.mem_singleton]

theorem mem_clear : timer ∈ (timers.clear id).active ↔ timer ∈ timers.active ∧ timer.1 ≠ id := by
  rw [clear, List.mem_filter, decide_eq_true_eq]

theorem mem_of_find? (found : timers.find? id = some value) : (id, value) ∈ timers.active := by
  rcases List.lookup_eq_some_iff.mp found with ⟨before, after, isActive, _⟩
  rw [isActive]
  exact List.mem_append_right before List.mem_cons_self

/-- An id belongs to one timer. -/
theorem eq_of_mem {other : Nat × α} (first : timer ∈ timers.active)
    (second : other ∈ timers.active) (same : timer.1 = other.1) : timer = other :=
  List.inj_on_of_nodup_map timers.distinct first second same

/-- In a list without duplicates, the only element with a property is counted once. -/
theorem countP_eq_one {β : Type u} {elements : List β} (nodup : elements.Nodup) {p : β → Bool}
    {element : β} (member : element ∈ elements) (holds : p element = true)
    (only : ∀ other ∈ elements, p other = true → other = element) : elements.countP p = 1 := by
  induction elements with
  | nil => cases member
  | cons head rest ih =>
      rw [List.nodup_cons] at nodup
      by_cases here : head = element
      · subst here
        rw [List.countP_cons_of_pos holds]
        apply congrArg Nat.succ
        apply List.countP_eq_zero.mpr
        intro other later counted
        apply nodup.1
        rw [← only other (List.mem_cons_of_mem head later) counted]
        exact later
      · have skipped : ¬ p head = true := fun counted => here (only head List.mem_cons_self counted)
        rw [List.countP_cons_of_neg skipped]
        apply ih nodup.2
        · rcases List.mem_cons.mp member with isHead | later
          · exact absurd isHead.symm here
          · exact later
        · intro other later
          exact only other (List.mem_cons_of_mem head later)

/-- The running timers with a property, if all of them have the same id. -/
theorem countP_active_eq_one {p : Nat × α → Bool} (member : timer ∈ timers.active)
    (holds : p timer = true) (only : ∀ other ∈ timers.active, p other = true → other.1 = timer.1) :
    timers.active.countP p = 1 := by
  apply countP_eq_one timers.distinct.of_map member holds
  intro other running counted
  exact eq_of_mem running member (only other running counted)

end Intervals

end MultipassWebui.Frontend
