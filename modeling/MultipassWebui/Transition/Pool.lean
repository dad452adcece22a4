import Mathlib.Data.List.Perm.Subperm
import MultipassWebui.Transition.Run

/-!
# Threads that share a state

A pool is a shared state together with a list of threads; a step moves one
thread and may change the shared state.  What the threads hold is collected
with `filterMap`, and a step changes the collection only at the moved thread,
up to the order of the entries.
-/

namespace MultipassWebui.Transition

universe u v w

structure Pool (σ : Type u) (τ : Type v) where
  shared : σ
  threads : List τ

namespace Pool

variable {σ : Type u} {τ : Type v} {β : Type w}

/-- One step of the thread at a position. -/
def stepAt (step : τ → σ → Option (τ × σ)) (pool : Pool σ τ) (i : Nat) : Option (Pool σ τ) :=
  (pool.threads[i]?).bind fun thread =>
    (step thread pool.shared).map fun moved => ⟨moved.2, pool.threads.set i moved.1⟩

theorem stepAt_eq_some_iff {step : τ → σ → Option (τ × σ)} {pool target : Pool σ τ} {i : Nat} :
    stepAt step pool i = some target ↔
      ∃ thread moved, pool.threads[i]? = some thread ∧ step thread pool.shared = some moved ∧
        target = ⟨moved.2, pool.threads.set i moved.1⟩ := by
  simp only [stepAt, Option.bind_eq_some_iff, Option.map_eq_some_iff]
  constructor
  · rintro ⟨thread, found, moved, stepped, rfl⟩
    exact ⟨thread, moved, found, stepped, rfl⟩
  · rintro ⟨thread, moved, found, stepped, rfl⟩
    exact ⟨thread, found, moved, stepped, rfl⟩

/-- A thread with the shared state to itself. -/
def solo (step : τ → σ → Option (τ × σ)) : Step (τ × σ) Unit :=
  fun alone _ => step alone.1 alone.2

/-- What a thread can do alone, it can do in a pool whose other threads wait. -/
theorem reachable_of_solo {α : Type w} {step : τ → σ → Option (τ × σ)} {next : Step (Pool σ τ) α}
    (action : α) {i : Nat} (moves : ∀ pool, next pool action = stepAt step pool i)
    {thread moved : τ} {after : σ} {pool : Pool σ τ} (found : pool.threads[i]? = some thread)
    (alone : Reachable (solo step) (thread, pool.shared) (moved, after)) :
    Reachable next pool ⟨after, pool.threads.set i moved⟩ := by
  rcases alone with ⟨actions, executed⟩
  induction actions generalizing thread pool with
  | nil =>
      cases executed
      rcases List.getElem?_eq_some_iff.mp found with ⟨bound, rfl⟩
      rw [List.set_getElem_self]
      exact Reachable.refl next pool
  | cons _ rest ih =>
      rcases (run_cons_eq_some_iff _ _ _ _ _).mp executed with ⟨⟨middle, between⟩, stepped, tail⟩
      rcases List.getElem?_eq_some_iff.mp found with ⟨bound, _⟩
      have stepNext : next pool action = some ⟨between, pool.threads.set i middle⟩ := by
        rw [moves]
        exact stepAt_eq_some_iff.mpr ⟨thread, (middle, between), found, stepped, rfl⟩
      have set : (pool.threads.set i middle)[i]? = some middle := List.getElem?_set_self bound
      have later : Reachable next ⟨between, pool.threads.set i middle⟩
          ⟨after, (pool.threads.set i middle).set i moved⟩ := ih set tail
      rw [List.set_set] at later
      exact Reachable.head stepNext later

section Set

variable {threads : List τ} {i : Nat} {thread moved : τ} {P : τ → Prop}

/-- The threads after one of them moved. -/
theorem mem_set (found : threads[i]? = some thread) {other : τ} :
    other ∈ threads.set i moved ↔ other = moved ∨ ∃ j, j ≠ i ∧ threads[j]? = some other := by
  rcases List.getElem?_eq_some_iff.mp found with ⟨bound, _⟩
  rw [List.mem_iff_getElem?]
  constructor
  · rintro ⟨j, atJ⟩
    by_cases same : j = i
    · subst same
      rw [List.getElem?_set_self bound] at atJ
      exact Or.inl (Option.some.inj atJ).symm
    · rw [List.getElem?_set_ne (Ne.symm same)] at atJ
      exact Or.inr ⟨j, same, atJ⟩
  · rintro (rfl | ⟨j, different, atJ⟩)
    · exact ⟨i, List.getElem?_set_self bound⟩
    · exact ⟨j, by rw [List.getElem?_set_ne (Ne.symm different), atJ]⟩

/-- The thread that stood at a position before. -/
theorem getElem?_of_set (found : threads[i]? = some thread) {j : Nat} {other : τ}
    (atJ : (threads.set i moved)[j]? = some other) :
    j = i ∧ other = moved ∨ j ≠ i ∧ threads[j]? = some other := by
  rcases List.getElem?_eq_some_iff.mp found with ⟨bound, _⟩
  by_cases same : j = i
  · subst same
    rw [List.getElem?_set_self bound] at atJ
    exact Or.inl ⟨rfl, (Option.some.inj atJ).symm⟩
  · rw [List.getElem?_set_ne (Ne.symm same)] at atJ
    exact Or.inr ⟨same, atJ⟩

/-- What the moved thread inherits, all threads do. -/
theorem forall_of_forall_set (found : threads[i]? = some thread)
    (inherits : P moved → P thread) (all : ∀ other ∈ threads.set i moved, P other) :
    ∀ other ∈ threads, P other := by
  intro other member
  rcases List.mem_iff_getElem?.mp member with ⟨j, atJ⟩
  by_cases same : j = i
  · subst same
    obtain rfl := Option.some.inj (found.symm.trans atJ)
    exact inherits (all moved ((mem_set found).mpr (Or.inl rfl)))
  · exact all other ((mem_set found).mpr (Or.inr ⟨j, same, atJ⟩))

/-- What all threads satisfy, they satisfy once the moved thread does. -/
theorem forall_set (found : threads[i]? = some thread) (all : ∀ other ∈ threads, P other)
    (here : P moved) : ∀ other ∈ threads.set i moved, P other := by
  intro other member
  rcases (mem_set found).mp member with rfl | ⟨j, _, atJ⟩
  · exact here
  · exact all other (List.mem_of_getElem? atJ)

end Set

section Collect

variable (entry : τ → Option β) {threads : List τ} {i : Nat} {thread : τ}

/-- The entries of the threads, with the one at a position in front. -/
theorem filterMap_perm (found : threads[i]? = some thread) :
    (threads.filterMap entry).Perm
      ((entry thread).toList ++ (threads.eraseIdx i).filterMap entry) := by
  rcases List.getElem?_eq_some_iff.mp found with ⟨bound, rfl⟩
  have front := (List.getElem_cons_eraseIdx_perm bound).symm.filterMap entry
  cases held : entry threads[i] with
  | none => simpa [List.filterMap_cons, held] using front
  | some value => simpa [List.filterMap_cons, held] using front

theorem filterMap_set_perm (found : threads[i]? = some thread) (moved : τ) :
    ((threads.set i moved).filterMap entry).Perm
      ((entry moved).toList ++ (threads.eraseIdx i).filterMap entry) := by
  rcases List.getElem?_eq_some_iff.mp found with ⟨bound, _⟩
  have front := (List.set_perm_cons_eraseIdx bound moved).filterMap entry
  cases held : entry moved with
  | none => simpa [List.filterMap_cons, held] using front
  | some value => simpa [List.filterMap_cons, held] using front

end Collect

/-- A symmetric relation between any two entries survives dropping and
reordering entries. -/
theorem pairwise_of_subperm {R : β → β → Prop} (symmetric : ∀ a b, R a b → R b a)
    {fewer entries : List β} (subperm : fewer.Subperm entries) (pairs : entries.Pairwise R) :
    fewer.Pairwise R := by
  rcases subperm with ⟨kept, reordered, sublist⟩
  exact (pairs.sublist sublist).perm reordered fun {a b} => symmetric a b

end Pool

end MultipassWebui.Transition
