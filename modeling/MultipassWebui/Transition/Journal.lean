import MultipassWebui.Transition.Run

/-!
# Systems that keep a log

Every step of a system may add entries at the end of a log.  What the steps
write is a relation, so the log of a run can be read off the run.  A part of the
state that changes only with the log is what replaying the log gives, from
whatever it was at the start.
-/

namespace MultipassWebui.Transition

universe u v w

variable {σ : Type u} {α : Type v} {ε : Type w} {κ : Type*}

/-! ## What is written -/

/-- A step keeps the entries that are there, and adds those that it writes. -/
structure Appends (next : Step σ α) (log : σ → List ε) (Wrote : σ → α → ε → Prop) : Prop where
  extends_log : ∀ state action target, next state action = some target → log state <+: log target
  mem_iff : ∀ state action target, next state action = some target →
    ∀ entry, entry ∈ log target ↔ entry ∈ log state ∨ Wrote state action entry

/-- An entry is written by the step at some position of the run. -/
def Written (next : Step σ α) (Wrote : σ → α → ε → Prop) (start : σ) (actions : List α)
    (entry : ε) : Prop :=
  ∃ first action rest middle, actions = first ++ action :: rest ∧
    run next start first = some middle ∧ Wrote middle action entry

section

variable {next : Step σ α} {log : σ → List ε} {Wrote : σ → α → ε → Prop}

theorem not_written_nil (start : σ) (entry : ε) : ¬ Written next Wrote start [] entry := by
  rintro ⟨first, action, rest, _, split, _⟩
  cases first with
  | nil => cases split
  | cons _ _ => cases split

/-- The first step writes an entry, or a later one does. -/
theorem written_cons_iff {start middle : σ} {action : α} (step : next start action = some middle)
    (rest : List α) (entry : ε) :
    Written next Wrote start (action :: rest) entry ↔
      Wrote start action entry ∨ Written next Wrote middle rest entry := by
  constructor
  · rintro ⟨first, writer, later, reached, split, executed, wrote⟩
    cases first with
    | nil =>
        cases split
        cases executed
        exact Or.inl wrote
    | cons earlier others =>
        cases split
        obtain ⟨between, isStep, tail⟩ := (run_cons_eq_some_iff _ _ _ _ _).mp executed
        rw [step] at isStep
        cases isStep
        exact Or.inr ⟨others, writer, later, reached, rfl, tail, wrote⟩
  · rintro (wrote | ⟨first, writer, later, reached, rfl, executed, wrote⟩)
    · exact ⟨[], action, rest, start, rfl, rfl, wrote⟩
    · refine ⟨action :: first, writer, later, reached, rfl, ?_, wrote⟩
      exact (run_cons_eq_some_iff _ _ _ _ _).mpr ⟨middle, step, executed⟩

/-- Along a run the log only grows. -/
theorem Appends.run_extends (appends : Appends next log Wrote) {start target : σ}
    {actions : List α} (executed : run next start actions = some target) :
    log start <+: log target := by
  induction actions generalizing start with
  | nil =>
      cases executed
      exact List.prefix_rfl
  | cons action rest ih =>
      obtain ⟨middle, step, tail⟩ := (run_cons_eq_some_iff _ _ _ _ _).mp executed
      exact (appends.extends_log start action middle step).trans (ih tail)

/-- After a run the log holds what it held before and what the steps wrote. -/
theorem Appends.run_mem_iff (appends : Appends next log Wrote) {start target : σ}
    {actions : List α} (executed : run next start actions = some target) (entry : ε) :
    entry ∈ log target ↔ entry ∈ log start ∨ Written next Wrote start actions entry := by
  induction actions generalizing start with
  | nil =>
      cases executed
      simp [not_written_nil]
  | cons action rest ih =>
      obtain ⟨middle, step, tail⟩ := (run_cons_eq_some_iff _ _ _ _ _).mp executed
      rw [ih tail, appends.mem_iff start action middle step, written_cons_iff step, or_assoc]

end

/-! ## Replaying a log -/

/-- What is left after the entries of a log, one after the other. -/
def replay (enter : κ → ε → κ) (start : κ) (entries : List ε) : κ :=
  entries.foldl enter start

section

variable {enter : κ → ε → κ} {start : κ}

@[simp]
theorem replay_nil : replay enter start [] = start :=
  rfl

@[simp]
theorem replay_cons (entry : ε) (rest : List ε) :
    replay enter start (entry :: rest) = replay enter (enter start entry) rest :=
  rfl

theorem replay_append (earlier later : List ε) :
    replay enter start (earlier ++ later) = replay enter (replay enter start earlier) later :=
  List.foldl_append

/-- Entries that change nothing are passed over. -/
theorem replay_of_ignored {entries : List ε}
    (ignored : ∀ entry ∈ entries, ∀ before, enter before entry = before) :
    replay enter start entries = start := by
  induction entries with
  | nil => rfl
  | cons entry rest ih =>
      rw [List.forall_mem_cons] at ignored
      rw [replay_cons, ignored.1, ih ignored.2]

/-- Replaying for what may not be there. -/
theorem replay_option (view : Option κ) (entries : List ε) :
    replay (fun view entry => view.map fun view => enter view entry) view entries =
      view.map fun view => replay enter view entries := by
  induction entries generalizing view with
  | nil => simp
  | cons entry rest ih =>
      rw [replay_cons, ih, Option.map_map]
      rfl

end

/-- From one state to another, entries were added to the log, and the view is
what replaying them gives. -/
def Journaled (enter : κ → ε → κ) (log : σ → List ε) (view : σ → κ) (before after : σ) : Prop :=
  ∃ added, log after = log before ++ added ∧ view after = replay enter (view before) added

section

variable {enter : κ → ε → κ} {log : σ → List ε} {view : σ → κ}

theorem Journaled.refl (state : σ) : Journaled enter log view state state :=
  ⟨[], (List.append_nil _).symm, rfl⟩

theorem Journaled.trans {first second third : σ} (earlier : Journaled enter log view first second)
    (later : Journaled enter log view second third) : Journaled enter log view first third := by
  rcases earlier with ⟨added, isLog, isView⟩
  rcases later with ⟨more, isLater, isLaterView⟩
  refine ⟨added ++ more, ?_, ?_⟩
  · rw [isLater, isLog, List.append_assoc]
  · rw [isLaterView, isView, replay_append]

/-- A view that every step keeps in line with the log is in line with it after a run. -/
theorem run_journaled {next : Step σ α} {I : σ → Prop} {C : σ → α → Prop}
    (keep : ∀ state action target, I state → next state action = some target → I target)
    (each : ∀ state action target, I state → C state action → next state action = some target →
      Journaled enter log view state target)
    {start target : σ} {actions : List α} (initial : I start)
    (steps : Throughout next C start actions)
    (executed : run next start actions = some target) :
    Journaled enter log view start target := by
  induction actions generalizing start with
  | nil =>
      cases executed
      exact Journaled.refl _
  | cons action rest ih =>
      obtain ⟨middle, step, tail⟩ := (run_cons_eq_some_iff _ _ _ _ _).mp executed
      obtain ⟨condition, later⟩ := steps middle step
      have first := each start action middle initial condition step
      exact first.trans (ih (keep start action middle initial step) later tail)

end

/-! ## What the steps of a run hand over -/

/-- What the steps of a run hand over, in their order. -/
def handedOver (next : Step σ α) (hands : σ → α → List ε) : σ → List α → List ε
  | _, [] => []
  | state, action :: rest =>
      hands state action ++
        (next state action).elim [] fun target => handedOver next hands target rest

/-- A view that every step changes by what it hands over is changed by a run by what
its steps handed over. -/
theorem run_replays {next : Step σ α} {hands : σ → α → List ε} {enter : κ → ε → κ} {view : σ → κ}
    {I : σ → Prop}
    (keep : ∀ state action target, I state → next state action = some target → I target)
    (each : ∀ state action target, I state → next state action = some target →
      view target = replay enter (view state) (hands state action))
    {start target : σ} {actions : List α} (initial : I start)
    (executed : run next start actions = some target) :
    view target = replay enter (view start) (handedOver next hands start actions) := by
  induction actions generalizing start with
  | nil =>
      cases executed
      rfl
  | cons action rest ih =>
      obtain ⟨middle, step, tail⟩ := (run_cons_eq_some_iff _ _ _ _ _).mp executed
      rw [ih (keep start action middle initial step) tail, each start action middle initial step,
        handedOver, step, Option.elim_some, replay_append]

end MultipassWebui.Transition
