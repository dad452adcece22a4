import MultipassWebui.Transition.Run

/-!
# Runs that end

A system ends from a state if none of its runs gets stuck in an unfinished state
and there is a bound on their length.  The bound comes from a measure that every
step lowers; that a system does not end is shown by an invariant of unfinished
states.
-/

namespace MultipassWebui.Transition

universe u v

variable {σ : Type u} {α : Type v}

/-- Every run can go on until it is finished, and none goes on forever. -/
structure Terminates (next : Step σ α) (finished : σ → Prop) (start : σ) : Prop where
  progress : ∀ state, Reachable next start state → ¬ finished state →
    ∃ action target, next state action = some target
  bounded : ∃ bound, ∀ actions target, run next start actions = some target →
    actions.length ≤ bound

variable {next : Step σ α} {finished : σ → Prop} {start state target : σ}

/-- A run is no longer than the measure it uses up. -/
theorem length_add_le_of_lowers {measure : σ → Nat}
    (lowers : ∀ state action target, next state action = some target →
      measure target < measure state) {actions : List α}
    (executed : run next state actions = some target) :
    actions.length + measure target ≤ measure state := by
  induction actions generalizing state with
  | nil =>
      cases executed
      exact Nat.le_of_eq (Nat.zero_add _)
  | cons action rest ih =>
      rcases (run_cons_eq_some_iff _ _ _ _ _).mp executed with ⟨middle, step, tail⟩
      calc
        (action :: rest).length + measure target = rest.length + measure target + 1 := by
          rw [List.length_cons, Nat.add_right_comm]
        _ ≤ measure middle + 1 := Nat.succ_le_succ (ih tail)
        _ ≤ measure state := lowers state action middle step

theorem exists_bound_of_lowers {measure : σ → Nat}
    (lowers : ∀ state action target, next state action = some target →
      measure target < measure state) (start : σ) :
    ∃ bound, ∀ actions target, run next start actions = some target →
      actions.length ≤ bound := by
  refine ⟨measure start, ?_⟩
  intro actions target executed
  exact Nat.le_trans (Nat.le_add_right _ _) (length_add_le_of_lowers lowers executed)

/-- The rule for systems with a measure: an invariant that rules out stuck states suffices. -/
theorem terminates_of_invariant {measure : σ → Nat} {J : σ → Prop}
    (lowers : ∀ state action target, next state action = some target →
      measure target < measure state)
    (keep : ∀ state action target, J state → next state action = some target → J target)
    (goesOn : ∀ state, J state → ¬ finished state →
      ∃ action target, next state action = some target)
    (initial : J start) : Terminates next finished start where
  progress state reachable unfinished := goesOn state (reachable.preserves keep initial) unfinished
  bounded := exists_bound_of_lowers lowers start

/-- Every reachable state has a finished one ahead of it. -/
theorem Terminates.exists_finished (terminates : Terminates next finished start)
    (reachable : Reachable next start state) :
    ∃ target, Reachable next state target ∧ finished target := by
  rcases terminates.bounded with ⟨bound, bounded⟩
  have goesOn : ∀ left : Nat, ∀ actions state, run next start actions = some state →
      bound < actions.length + left → ∃ target, Reachable next state target ∧ finished target := by
    intro left
    induction left with
    | zero =>
        intro actions state executed longer
        exact absurd (bounded actions state executed) (Nat.not_le_of_lt longer)
    | succ left ih =>
        intro actions state executed longer
        by_cases done : finished state
        · exact ⟨state, .refl next state, done⟩
        · rcases terminates.progress state ⟨actions, executed⟩ done with ⟨action, middle, step⟩
          have extended : run next start (actions ++ [action]) = some middle := by
            rw [run_append, executed]
            simp [run, step]
          have enough : bound < (actions ++ [action]).length + left := by
            rw [List.length_append, List.length_singleton, Nat.add_assoc, Nat.add_comm 1 left]
            exact longer
          rcases ih (actions ++ [action]) middle extended enough with ⟨target, later, done⟩
          exact ⟨target, later.head step, done⟩
  rcases reachable with ⟨actions, executed⟩
  apply goesOn (bound + 1) actions state executed
  rw [← Nat.add_assoc]
  exact Nat.lt_succ_of_le (Nat.le_add_left _ _)

/-- A system that stays among unfinished states does not end. -/
theorem not_terminates_of_invariant {J : σ → Prop}
    (keep : ∀ state action target, J state → next state action = some target → J target)
    (unfinished : ∀ state, J state → ¬ finished state) (initial : J start) :
    ¬ Terminates next finished start := by
  intro terminates
  rcases terminates.exists_finished (.refl next start) with ⟨target, reachable, done⟩
  exact unfinished target (reachable.preserves keep initial) done

end MultipassWebui.Transition
