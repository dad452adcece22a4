import Mathlib.Data.List.Basic

/-!
# Bounded pipes

A pipe is a queue that never holds more than its capacity.  A write to a full pipe
and a read from an empty one have no result: whoever makes it waits.
-/

namespace MultipassWebui.Streams

universe u

/-- A queue with room for `capacity` items. -/
@[ext]
structure Pipe (α : Type u) (capacity : Nat) where
  items : List α
  fits : items.length ≤ capacity

namespace Pipe

variable {α : Type u} {capacity : Nat}

def empty : Pipe α capacity := ⟨[], Nat.zero_le capacity⟩

@[simp]
theorem items_empty : (empty : Pipe α capacity).items = [] := rfl

/-- Write an item, if there is room. -/
def push (pipe : Pipe α capacity) (item : α) : Option (Pipe α capacity) :=
  if room : pipe.items.length < capacity then
    some ⟨pipe.items ++ [item], by
      rw [List.length_append]
      exact room⟩
  else none

/-- Read the first item, if there is one. -/
def pop (pipe : Pipe α capacity) : Option (α × Pipe α capacity) :=
  match pipe with
  | ⟨[], _⟩ => none
  | ⟨item :: rest, fits⟩ => some (item, ⟨rest, Nat.le_of_succ_le fits⟩)

theorem push_eq_some_iff {pipe target : Pipe α capacity} {item : α} :
    pipe.push item = some target ↔
      pipe.items.length < capacity ∧ target.items = pipe.items ++ [item] := by
  rw [push]
  split
  · next room =>
      rw [Option.some.injEq, Pipe.ext_iff, and_iff_right room, eq_comm]
  · next full =>
      constructor
      · intro pushed
        cases pushed
      · rintro ⟨room, _⟩
        exact absurd room full

theorem exists_push (pipe : Pipe α capacity) (item : α) (room : pipe.items.length < capacity) :
    ∃ target, pipe.push item = some target := by
  rw [push, dif_pos room]
  exact ⟨_, rfl⟩

/-- What is full holds as much as the capacity. -/
theorem length_of_full {pipe : Pipe α capacity} {item : α} (full : pipe.push item = none) :
    pipe.items.length = capacity := by
  by_cases room : pipe.items.length < capacity
  · rcases pipe.exists_push item room with ⟨target, pushed⟩
    rw [full] at pushed
    cases pushed
  · exact Nat.le_antisymm pipe.fits (Nat.le_of_not_lt room)

theorem pop_eq_some_iff {pipe target : Pipe α capacity} {item : α} :
    pipe.pop = some (item, target) ↔ pipe.items = item :: target.items := by
  rcases pipe with ⟨items, fits⟩
  cases items with
  | nil => simp [pop]
  | cons head rest => simp [pop, Pipe.ext_iff]

theorem pop_eq_none_iff {pipe : Pipe α capacity} : pipe.pop = none ↔ pipe.items = [] := by
  rcases pipe with ⟨items, fits⟩
  cases items with
  | nil => simp [pop]
  | cons head rest => simp [pop]

end Pipe

end MultipassWebui.Streams
