import Mathlib.Data.List.Basic

/-!
# Runs of guarded transition systems

A system is a partial labelled transition: an action that is not enabled in a
state has no successor.  A run executes a list of actions and fails at the
first disabled one.  Two predicates on runs are kept apart: `Always` speaks
about the states that are visited and `Throughout` about the steps that are
taken.  The rules below move from a step lemma to a statement about a whole
run, in one direction and, where the step lemma is exact, in both.
-/

namespace MultipassWebui.Transition

universe u v

/-- A guarded labelled transition; `none` marks a disabled action. -/
abbrev Step (σ : Type u) (α : Type v) := σ → α → Option σ

variable {σ : Type u} {α : Type v}

/-- Execute a list of actions, failing at the first disabled one. -/
def run (next : Step σ α) : σ → List α → Option σ
  | state, [] => some state
  | state, action :: rest => (next state action).bind fun middle => run next middle rest

@[simp]
theorem run_nil (next : Step σ α) (state : σ) : run next state [] = some state :=
  rfl

theorem run_cons_eq_some_iff (next : Step σ α) (state target : σ) (action : α)
    (rest : List α) :
    run next state (action :: rest) = some target ↔
      ∃ middle, next state action = some middle ∧ run next middle rest = some target := by
  simp only [run]
  exact Option.bind_eq_some_iff

/-- A run splits at every position of its action list. -/
theorem run_append (next : Step σ α) (state : σ) (first second : List α) :
    run next state (first ++ second) =
      (run next state first).bind fun middle => run next middle second := by
  induction first generalizing state with
  | nil => rfl
  | cons action rest ih =>
      simp only [List.cons_append, run, Option.bind_assoc]
      congr 1
      funext middle
      exact ih middle

/-- `target` is the end of some run from `start`. -/
def Reachable (next : Step σ α) (start target : σ) : Prop :=
  ∃ actions, run next start actions = some target

theorem Reachable.refl (next : Step σ α) (state : σ) : Reachable next state state :=
  ⟨[], rfl⟩

theorem Reachable.tail {next : Step σ α} {start middle target : σ} {action : α}
    (reachable : Reachable next start middle) (step : next middle action = some target) :
    Reachable next start target := by
  obtain ⟨actions, executed⟩ := reachable
  refine ⟨actions ++ [action], ?_⟩
  rw [run_append, executed]
  simp [run, step]

theorem Reachable.trans {next : Step σ α} {start middle target : σ}
    (first : Reachable next start middle) (second : Reachable next middle target) :
    Reachable next start target := by
  rcases first with ⟨earlier, toMiddle⟩
  rcases second with ⟨later, toTarget⟩
  refine ⟨earlier ++ later, ?_⟩
  rw [run_append, toMiddle]
  exact toTarget

theorem Reachable.head {next : Step σ α} {start middle target : σ} {action : α}
    (step : next start action = some middle) (reachable : Reachable next middle target) :
    Reachable next start target := by
  rcases reachable with ⟨actions, executed⟩
  exact ⟨action :: actions, (run_cons_eq_some_iff _ _ _ _ _).mpr ⟨middle, step, executed⟩⟩

theorem Reachable.single {next : Step σ α} {start target : σ} {action : α}
    (step : next start action = some target) : Reachable next start target :=
  (Reachable.refl next start).tail step

/-- A predicate that every step keeps is kept by every run. -/
theorem run_preserves {next : Step σ α} {I : σ → Prop}
    (keep : ∀ state action target, I state → next state action = some target → I target)
    {state target : σ} {actions : List α} (initial : I state)
    (executed : run next state actions = some target) : I target := by
  induction actions generalizing state with
  | nil =>
      cases executed
      exact initial
  | cons action rest ih =>
      obtain ⟨middle, step, tail⟩ := (run_cons_eq_some_iff _ _ _ _ _).mp executed
      exact ih (keep state action middle initial step) tail

theorem Reachable.preserves {next : Step σ α} {I : σ → Prop} {start target : σ}
    (keep : ∀ state action target, I state → next state action = some target → I target)
    (initial : I start) (reachable : Reachable next start target) : I target := by
  obtain ⟨_, executed⟩ := reachable
  exact run_preserves keep initial executed

/-- `P` holds in every state the run visits, the first one included. -/
def Always (next : Step σ α) (P : σ → Prop) : σ → List α → Prop
  | state, [] => P state
  | state, action :: rest =>
      P state ∧ ∀ target, next state action = some target → Always next P target rest

/-- Every step the run takes satisfies `C` of its source state and action. -/
def Throughout (next : Step σ α) (C : σ → α → Prop) : σ → List α → Prop
  | _, [] => True
  | state, action :: rest =>
      ∀ target, next state action = some target →
        C state action ∧ Throughout next C target rest

instance decidableAlways {next : Step σ α} {P : σ → Prop} [DecidablePred P] (state : σ)
    (actions : List α) : Decidable (Always next P state actions) :=
  match actions with
  | [] => inferInstanceAs (Decidable (P state))
  | action :: rest =>
      match step : next state action with
      | none => decidable_of_iff (P state) (by simp [Always, step])
      | some target =>
          have : Decidable (Always next P target rest) := decidableAlways target rest
          decidable_of_iff (P state ∧ Always next P target rest) (by simp [Always, step])

instance decidableThroughout {next : Step σ α} {C : σ → α → Prop}
    [∀ state action, Decidable (C state action)] (state : σ) (actions : List α) :
    Decidable (Throughout next C state actions) :=
  match actions with
  | [] => isTrue trivial
  | action :: rest =>
      match step : next state action with
      | none => isTrue (by simp [Throughout, step])
      | some target =>
          have : Decidable (Throughout next C target rest) := decidableThroughout target rest
          decidable_of_iff (C state action ∧ Throughout next C target rest)
            (by simp [Throughout, step])

theorem Always.head {next : Step σ α} {P : σ → Prop} {state : σ} {actions : List α}
    (always : Always next P state actions) : P state := by
  cases actions with
  | nil => exact always
  | cons _ _ => exact always.1

/-- The state a run ends in is one of the states it visits. -/
theorem Always.last {next : Step σ α} {P : σ → Prop} {state target : σ}
    {actions : List α} (always : Always next P state actions)
    (executed : run next state actions = some target) : P target := by
  induction actions generalizing state with
  | nil =>
      cases executed
      exact always
  | cons action rest ih =>
      obtain ⟨middle, step, tail⟩ := (run_cons_eq_some_iff _ _ _ _ _).mp executed
      exact ih (always.2 middle step) tail

theorem Always.imp {next : Step σ α} {P Q : σ → Prop} (weaken : ∀ state, P state → Q state)
    {state : σ} {actions : List α} (always : Always next P state actions) :
    Always next Q state actions := by
  induction actions generalizing state with
  | nil => exact weaken state always
  | cons action rest ih =>
      exact ⟨weaken state always.1, fun target step => ih (always.2 target step)⟩

/-- The condition holds of the step taken after any initial part of the run. -/
theorem Throughout.at_step {next : Step σ α} {C : σ → α → Prop} {state middle target : σ}
    {first rest : List α} {action : α}
    (steps : Throughout next C state (first ++ action :: rest))
    (executed : run next state first = some middle)
    (step : next middle action = some target) : C middle action := by
  induction first generalizing state with
  | nil =>
      cases executed
      exact (steps target step).1
  | cons earlier others ih =>
      rcases (run_cons_eq_some_iff _ _ _ _ _).mp executed with ⟨reached, earlierStep, tail⟩
      exact ih (steps reached earlierStep).2 tail

/-- Steps that satisfy each of several conditions satisfy all of them. -/
theorem Throughout.forall {next : Step σ α} {ι : Type*} {chosen : ι → Prop} {C : ι → σ → α → Prop}
    {state : σ} {actions : List α}
    (each : ∀ index, chosen index → Throughout next (C index) state actions) :
    Throughout next (fun state action => ∀ index, chosen index → C index state action) state
      actions := by
  induction actions generalizing state with
  | nil => trivial
  | cons action rest ih =>
      intro target step
      exact ⟨fun index isChosen => (each index isChosen target step).1,
        ih fun index isChosen => (each index isChosen target step).2⟩

/-- The invariant rule: a predicate kept by the steps that satisfy `C` holds
along every run all of whose steps satisfy `C`. -/
theorem always_of_throughout {next : Step σ α} {I : σ → Prop} {C : σ → α → Prop}
    (keep : ∀ state action target, I state → C state action →
      next state action = some target → I target)
    {state : σ} {actions : List α} (initial : I state)
    (steps : Throughout next C state actions) : Always next I state actions := by
  induction actions generalizing state with
  | nil => exact initial
  | cons action rest ih =>
      refine ⟨initial, fun target step => ?_⟩
      obtain ⟨condition, later⟩ := steps target step
      exact ih (keep state action target initial condition step) later

/-- The exact rule: when, under an invariant `J`, a step leads from `P` to `P`
precisely if it satisfies `C`, then `P` holds along a run precisely if all of
its steps satisfy `C`. -/
theorem always_iff_throughout {next : Step σ α} {J P : σ → Prop} {C : σ → α → Prop}
    (keep : ∀ state action target, J state → next state action = some target → J target)
    (exact' : ∀ state action target, J state → P state →
      next state action = some target → (P target ↔ C state action))
    {state : σ} {actions : List α} (invariant : J state) (initial : P state) :
    Always next P state actions ↔ Throughout next C state actions := by
  induction actions generalizing state with
  | nil => exact ⟨fun _ => trivial, fun _ => initial⟩
  | cons action rest ih =>
      constructor
      · rintro ⟨_, later⟩ target step
        have reached : P target := (later target step).head
        have condition := (exact' state action target invariant initial step).mp reached
        exact ⟨condition, (ih (keep _ _ _ invariant step) reached).mp (later target step)⟩
      · intro steps
        refine ⟨initial, fun target step => ?_⟩
        obtain ⟨condition, later⟩ := steps target step
        have reached := (exact' state action target invariant initial step).mpr condition
        exact (ih (keep _ _ _ invariant step) reached).mpr later

/-- The exact rule for a demand on the states together with one on the steps. -/
theorem always_and_throughout_iff {next : Step σ α} {J P : σ → Prop} {C D : σ → α → Prop}
    (keep : ∀ state action target, J state → next state action = some target → J target)
    (exact' : ∀ state action target, J state → P state →
      next state action = some target → (P target ∧ D state action ↔ C state action))
    {state : σ} {actions : List α} (invariant : J state) (initial : P state) :
    Always next P state actions ∧ Throughout next D state actions ↔
      Throughout next C state actions := by
  induction actions generalizing state with
  | nil => exact ⟨fun _ => trivial, fun _ => ⟨initial, trivial⟩⟩
  | cons action rest ih =>
      constructor
      · rintro ⟨⟨_, always⟩, steps⟩ target step
        have reached : P target := (always target step).head
        rcases steps target step with ⟨demand, later⟩
        have condition := (exact' state action target invariant initial step).mp ⟨reached, demand⟩
        have kept := keep state action target invariant step
        exact ⟨condition, (ih kept reached).mp ⟨always target step, later⟩⟩
      · intro steps
        have goes : ∀ target, next state action = some target →
            (P target ∧ D state action) ∧
              Always next P target rest ∧ Throughout next D target rest := by
          intro target step
          rcases steps target step with ⟨condition, later⟩
          have demand := (exact' state action target invariant initial step).mpr condition
          have kept := keep state action target invariant step
          exact ⟨demand, (ih kept demand.1).mpr later⟩
        constructor
        · exact ⟨initial, fun target step => (goes target step).2.1⟩
        · intro target step
          exact ⟨(goes target step).1.2, (goes target step).2.2⟩

/-- Two step conditions that agree under an invariant agree along runs. -/
theorem throughout_iff {next : Step σ α} {J : σ → Prop} {C D : σ → α → Prop}
    (keep : ∀ state action target, J state → next state action = some target → J target)
    (agree : ∀ state action target, J state → next state action = some target →
      (C state action ↔ D state action))
    {state : σ} {actions : List α} (invariant : J state) :
    Throughout next C state actions ↔ Throughout next D state actions := by
  induction actions generalizing state with
  | nil => exact Iff.rfl
  | cons action rest ih =>
      constructor
      · intro steps target step
        rcases steps target step with ⟨condition, later⟩
        exact ⟨(agree state action target invariant step).mp condition,
          (ih (keep state action target invariant step)).mp later⟩
      · intro steps target step
        rcases steps target step with ⟨condition, later⟩
        exact ⟨(agree state action target invariant step).mpr condition,
          (ih (keep state action target invariant step)).mpr later⟩

end MultipassWebui.Transition
