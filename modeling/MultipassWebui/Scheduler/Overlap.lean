import MultipassWebui.Records.Integrity
import MultipassWebui.Scheduler.Tick
import MultipassWebui.Transition.Pool

/-!
# Overlapping ticks

The job is enqueued twice a minute and several workers run it, so ticks may
overlap.  One run of `perform` is split into the steps between which others
can move: read the snapshot, decide from a snapshot row, write the firing time,
call `execute`, write the event.  The guard looks at the snapshot and not at
the stored row, so two ticks that have both read a row may both fire it.  A
tick that runs alone does what `perform` does.
-/

namespace MultipassWebui.Scheduler.Overlap

open MultipassWebui.Calendar
open MultipassWebui.Effect
open MultipassWebui.Records
open MultipassWebui.Transition

/-! ## The steps of a tick -/

/-- Where a tick stands, with the part of its snapshot that is still ahead. -/
inductive Phase where
  /-- `now` is captured. -/
  | started
  | looping (rest : List Schedule)
  /-- The schedule passed the guards. -/
  | decided (sched : Schedule) (rest : List Schedule)
  /-- `last_fired_at` is written. -/
  | written (sched : Schedule) (rest : List Schedule)
  /-- `execute` was called, or there were no targets. -/
  | reporting (sched : Schedule) (rest : List Schedule) (event : EventAttributes)
  | finished
  /-- Writing an event raised. -/
  | raised

structure TickRun where
  env : Environment
  phase : Phase

/-- A call of `execute` for a schedule by a tick with the given `now`. -/
structure Execution where
  slug : String
  now : Int
  deriving DecidableEq, Repr

/-- What the ticks share: the world and the calls of `execute` so far. -/
structure Shared where
  world : World
  executions : List Execution

namespace TickRun

def enter (tick : TickRun) (phase : Phase) : TickRun :=
  { tick with phase := phase }

/-- The next step of a tick. -/
def step (tick : TickRun) (shared : Shared) : Option (TickRun × Shared) :=
  match tick.phase with
  | .started => some (tick.enter (.looping (snapshot shared.world.db)), shared)
  | .looping [] => some (tick.enter .finished, shared)
  | .looping (sched :: rest) =>
      some (tick.enter (if due sched tick.env.now then .decided sched rest else .looping rest),
        shared)
  | .decided sched rest =>
      some (tick.enter (.written sched rest),
        { shared with world := shared.world.markFired sched tick.env.now })
  | .written sched rest =>
      let targets := resolveTargets shared.world.db sched
      let (calls, event) := report tick.env sched targets
      some (tick.enter (.reporting sched rest event),
        { world := shared.world.recordCalls calls
          executions := shared.executions ++
            if targets.isEmpty then [] else [⟨sched.idSlug, tick.env.now⟩] })
  | .reporting sched rest event =>
      match emit (tick.env.stamp sched.idSlug) event shared.world with
      | (.ok _, world) => some (tick.enter (.looping rest), { shared with world := world })
      | (.error _, world) => some (tick.enter .raised, { shared with world := world })
  | .finished => none
  | .raised => none

/-- The schedules of the snapshot that a tick has still to do with. -/
def ahead (tick : TickRun) : List Schedule :=
  match tick.phase with
  | .looping rest => rest
  | .decided sched rest => sched :: rest
  | .written sched rest => sched :: rest
  | .reporting sched rest _ => sched :: rest
  | _ => []

/-- A firing time that is written but not followed by `execute` yet. -/
def pending (tick : TickRun) : Option Execution :=
  match tick.phase with
  | .written sched _ => some ⟨sched.idSlug, tick.env.now⟩
  | _ => none

end TickRun

abbrev State := Pool Shared TickRun

inductive Action where
  /-- A worker picks up a job: the tick captures `now`. -/
  | begin (env : Environment)
  /-- The tick at a position takes its next step. -/
  | step (i : Nat)

def next : Step State Action
  | state, .begin env => some { state with threads := state.threads ++ [⟨env, .started⟩] }
  | state, .step i => Pool.stepAt TickRun.step state i

/-- No tick is running and none has executed anything. -/
def initial (db : Database) : State := ⟨⟨⟨db, [], []⟩, []⟩, []⟩

/-! ## A tick that runs alone -/

/-- The event that a firing reports. -/
def reportIn (env : Environment) (sched : Schedule) (world : World) : EventAttributes :=
  (report env sched (resolveTargets (writeLastFiredAt world.db sched env.now) sched)).2

/-- A due schedule is fired up to its event in three steps. -/
theorem solo_reporting {env : Environment} {sched : Schedule}
    (passed : due sched env.now = true) (rest : List Schedule) (shared : Shared) :
    ∃ executions, Reachable (Pool.solo TickRun.step) (⟨env, .looping (sched :: rest)⟩, shared)
      (⟨env, .reporting sched rest (reportIn env sched shared.world)⟩,
        ⟨firedWorld env sched shared.world, executions⟩) := by
  have decide : Pool.solo TickRun.step (⟨env, .looping (sched :: rest)⟩, shared) () =
      some (⟨env, .decided sched rest⟩, shared) := by
    simp [Pool.solo, TickRun.step, TickRun.enter, passed]
  have write : Pool.solo TickRun.step (⟨env, .decided sched rest⟩, shared) () =
      some (⟨env, .written sched rest⟩,
        { shared with world := shared.world.markFired sched env.now }) := rfl
  exact ⟨_, Reachable.head decide (Reachable.head write ⟨[()], rfl⟩)⟩

/-- The world after a tick has gone through the rest of its snapshot alone is
the one that the loop of `perform` leaves. -/
theorem solo_looping (env : Environment) (schedules : List Schedule) (shared : Shared) :
    ∃ phase executions, (phase = .finished ∨ phase = .raised) ∧
      Reachable (Pool.solo TickRun.step) (⟨env, .looping schedules⟩, shared)
        (⟨env, phase⟩, ⟨(performEach env schedules shared.world).2, executions⟩) := by
  induction schedules generalizing shared with
  | nil => exact ⟨.finished, shared.executions, Or.inl rfl, [()], rfl⟩
  | cons sched rest ih =>
      rw [performEach_cons]
      by_cases passed : due sched env.now = true
      · rw [if_pos passed, fire_apply]
        rcases solo_reporting passed rest shared with ⟨executions, reporting⟩
        cases emitted : emit (env.stamp sched.idSlug) (reportIn env sched shared.world)
            (firedWorld env sched shared.world) with
        | mk outcome world =>
            cases outcome with
            | ok _ =>
                rcases ih ⟨world, executions⟩ with ⟨phase, final, ended, looping⟩
                have returned : Pool.solo TickRun.step
                    (⟨env, .reporting sched rest (reportIn env sched shared.world)⟩,
                      ⟨firedWorld env sched shared.world, executions⟩) () =
                    some (⟨env, .looping rest⟩, ⟨world, executions⟩) := by
                  simp only [Pool.solo, TickRun.step, emitted]
                  rfl
                rw [reportIn] at emitted
                rw [emitted]
                exact ⟨phase, final, ended, reporting.trans (Reachable.head returned looping)⟩
            | error _ =>
                have failed : Pool.solo TickRun.step
                    (⟨env, .reporting sched rest (reportIn env sched shared.world)⟩,
                      ⟨firedWorld env sched shared.world, executions⟩) () =
                    some (⟨env, .raised⟩, ⟨world, executions⟩) := by
                  simp only [Pool.solo, TickRun.step, emitted]
                  rfl
                rw [reportIn] at emitted
                rw [emitted]
                exact ⟨.raised, executions, Or.inr rfl, reporting.tail failed⟩
      · rw [if_neg passed]
        rcases ih shared with ⟨phase, executions, ended, looping⟩
        have skipped : Pool.solo TickRun.step (⟨env, .looping (sched :: rest)⟩, shared) () =
            some (⟨env, .looping rest⟩, shared) := by
          simp [Pool.solo, TickRun.step, TickRun.enter, passed]
        exact ⟨phase, executions, ended, Reachable.head skipped looping⟩

/-- A tick whose steps are not interleaved with others does what `perform` does. -/
theorem reachable_perform {state : State} {i : Nat} {env : Environment}
    (started : state.threads[i]? = some ⟨env, .started⟩) :
    ∃ phase executions, (phase = .finished ∨ phase = .raised) ∧
      Reachable next state
        ⟨⟨(perform env state.shared.world).2, executions⟩, state.threads.set i ⟨env, phase⟩⟩ := by
  rcases solo_looping env (snapshot state.shared.world.db) state.shared with
    ⟨phase, executions, ended, looping⟩
  refine ⟨phase, executions, ended, ?_⟩
  rw [perform_apply]
  have snapshotRead : Pool.solo TickRun.step (⟨env, .started⟩, state.shared) () =
      some (⟨env, .looping (snapshot state.shared.world.db)⟩, state.shared) := rfl
  exact Pool.reachable_of_solo (Action.step i) (fun _ => rfl) started
    (Reachable.head snapshotRead looping)

/-! ## At most one execution in a minute -/

/-- Two executions are not of one schedule in one calendar minute. -/
def Apart (first second : Execution) : Prop :=
  first.slug = second.slug → ¬ SameMinute first.now second.now

instance (first second : Execution) : Decidable (Apart first second) :=
  inferInstanceAs (Decidable (_ → _))

theorem Apart.symm (first second : Execution) (apart : Apart first second) :
    Apart second first :=
  fun equal same => apart equal.symm same.symm

/-- `execute` is called at most once for a schedule in a calendar minute. -/
def AtMostOncePerMinute (state : State) : Prop :=
  state.shared.executions.Pairwise Apart

instance (state : State) : Decidable (AtMostOncePerMinute state) :=
  inferInstanceAs (Decidable (List.Pairwise _ _))

/-- The stored times of a schedule are earlier than `now`, in another minute. -/
def StoredEarlier (schedules : List Schedule) (sched : Schedule) (now : Int) : Prop :=
  ∀ row ∈ schedules, row.idSlug = sched.idSlug → ∀ last ∈ row.lastFiredAt,
    last ≤ now ∧ ¬ SameMinute last now

instance (schedules : List Schedule) (sched : Schedule) (now : Int) :
    Decidable (StoredEarlier schedules sched now) :=
  inferInstanceAs (Decidable (∀ row ∈ schedules, _ → _))

/-- The tick does not write a firing time now, or writes it over an earlier
one, of another minute.  The guard ensured this for the snapshot row, which may
have gone stale since. -/
def WritesFresh (schedules : List Schedule) (tick : TickRun) : Prop :=
  match tick.phase with
  | .decided sched _ => StoredEarlier schedules sched tick.env.now
  | _ => True

instance (schedules : List Schedule) (tick : TickRun) : Decidable (WritesFresh schedules tick) :=
  match phase : tick.phase with
  | .decided sched _ =>
      decidable_of_iff (StoredEarlier schedules sched tick.env.now) (by simp [WritesFresh, phase])
  | .started | .looping _ | .written _ _ | .reporting _ _ _ | .finished | .raised =>
      isTrue (by simp [WritesFresh, phase])

def FreshWrite (state : State) : Action → Prop
  | .begin _ => True
  | .step i => ∀ tick ∈ state.threads[i]?, WritesFresh state.shared.world.db.schedules tick

instance (state : State) (action : Action) : Decidable (FreshWrite state action) :=
  match action with
  | .begin _ => isTrue trivial
  | .step i => inferInstanceAs
      (Decidable (∀ tick ∈ state.threads[i]?, WritesFresh state.shared.world.db.schedules tick))

/-- The executions so far and those that are bound to follow. -/
def entries (state : State) : List Execution :=
  state.shared.executions ++ state.threads.filterMap TickRun.pending

/-- The stored firing times cover the entries. -/
def Covered (schedules : List Schedule) (entry : Execution) : Prop :=
  ∀ row ∈ schedules, row.idSlug = entry.slug →
    ∃ last, row.lastFiredAt = some last ∧ entry.now ≤ last

/-- Snapshots speak of stored schedules; entries are apart and covered. -/
structure Exclusive (state : State) : Prop where
  known : ∀ tick ∈ state.threads, ∀ sched ∈ tick.ahead,
    ∃ row ∈ state.shared.world.db.schedules, row.idSlug = sched.idSlug
  apart : (entries state).Pairwise Apart
  covered : ∀ entry ∈ entries state, Covered state.shared.world.db.schedules entry

theorem exclusive_initial (db : Database) : Exclusive (initial db) where
  known _ member := absurd member List.not_mem_nil
  apart := List.Pairwise.nil
  covered _ member := absurd member List.not_mem_nil

theorem Exclusive.atMostOnce {state : State} (exclusive : Exclusive state) :
    AtMostOncePerMinute state :=
  (List.pairwise_append.mp exclusive.apart).1

/-! ## Steps that write no firing time -/

/-- What a step does unless it writes a firing time: the schedules stay, the
tick goes on with what it had or with a new snapshot, and every entry that it
leaves was there before. -/
structure Quiet (tick moved : TickRun) (before after : Shared) : Prop where
  schedules : after.world.db.schedules = before.world.db.schedules
  ahead : moved.ahead ⊆ tick.ahead ∨ moved.ahead ⊆ before.world.db.schedules
  settled : moved.pending = none
  executions : (after.executions).Subperm (before.executions ++ tick.pending.toList)

theorem TickRun.step_cases {tick moved : TickRun} {before after : Shared}
    (stepped : tick.step before = some (moved, after)) :
    (∃ sched rest, tick.phase = .decided sched rest ∧ moved = tick.enter (.written sched rest) ∧
      after = { before with world := before.world.markFired sched tick.env.now }) ∨
    Quiet tick moved before after := by
  unfold TickRun.step at stepped
  cases phase : tick.phase with
  | started =>
      rw [phase] at stepped
      cases stepped
      right
      refine ⟨rfl, Or.inr List.filter_sublist.subset, rfl, ?_⟩
      exact (List.sublist_append_left _ _).subperm
  | looping rest =>
      rw [phase] at stepped
      cases rest with
      | nil =>
          cases stepped
          right
          exact ⟨rfl, Or.inl (List.nil_subset _), rfl, (List.sublist_append_left _ _).subperm⟩
      | cons sched rest =>
          cases stepped
          right
          by_cases passed : due sched tick.env.now
          · refine ⟨rfl, Or.inl ?_, ?_, (List.sublist_append_left _ _).subperm⟩
            · simp [TickRun.ahead, TickRun.enter, passed, phase]
            · simp [TickRun.pending, TickRun.enter, passed]
          · refine ⟨rfl, Or.inl ?_, ?_, (List.sublist_append_left _ _).subperm⟩
            · simp [TickRun.ahead, TickRun.enter, passed, phase]
            · simp [TickRun.pending, TickRun.enter, passed]
  | decided sched rest =>
      rw [phase] at stepped
      cases stepped
      exact Or.inl ⟨sched, rest, rfl, rfl, rfl⟩
  | written sched rest =>
      rw [phase] at stepped
      cases stepped
      right
      refine ⟨rfl, Or.inl ?_, rfl, ?_⟩
      · simp [TickRun.ahead, TickRun.enter, phase]
      · -- Without targets the entry is dropped, otherwise it becomes an execution.
        have entry : tick.pending = some ⟨sched.idSlug, tick.env.now⟩ := by
          simp [TickRun.pending, phase]
        rw [entry]
        dsimp only
        split_ifs
        · rw [List.append_nil]
          exact (List.sublist_append_left _ _).subperm
        · exact List.Subperm.refl _
  | reporting sched rest event =>
      rw [phase] at stepped
      have tables := emit_apply (tick.env.stamp sched.idSlug) event before.world
      dsimp only at stepped
      right
      split at stepped
      · rename_i world emitted
        rw [emitted] at tables
        cases stepped
        refine ⟨congrArg (fun world => world.db.schedules) tables, Or.inl ?_, rfl,
          (List.sublist_append_left _ _).subperm⟩
        simp [TickRun.ahead, TickRun.enter, phase]
      · rename_i world emitted
        rw [emitted] at tables
        cases stepped
        exact ⟨congrArg (fun world => world.db.schedules) tables, Or.inl (List.nil_subset _), rfl,
          (List.sublist_append_left _ _).subperm⟩
  | finished =>
      rw [phase] at stepped
      cases stepped
  | raised =>
      rw [phase] at stepped
      cases stepped

theorem Quiet.entries {tick moved : TickRun} {shared after : Shared} {threads : List TickRun}
    {i : Nat} (quiet : Quiet tick moved shared after) (found : threads[i]? = some tick) :
    (entries ⟨after, threads.set i moved⟩).Subperm (entries ⟨shared, threads⟩) := by
  have left := Pool.filterMap_set_perm TickRun.pending found moved
  rw [quiet.settled, Option.toList_none, List.nil_append] at left
  have all := (Pool.filterMap_perm TickRun.pending found).append_left shared.executions
  rw [← List.append_assoc] at all
  exact (quiet.executions.append left.subperm).trans all.symm.subperm

theorem Exclusive.quiet {state : State} (exclusive : Exclusive state) {i : Nat}
    {tick moved : TickRun} {after : Shared} (found : state.threads[i]? = some tick)
    (quiet : Quiet tick moved state.shared after) :
    Exclusive ⟨after, state.threads.set i moved⟩ := by
  have fewer := quiet.entries found
  constructor
  · intro other otherMem sched schedAhead
    rw [quiet.schedules]
    rcases List.mem_or_eq_of_mem_set otherMem with old | rfl
    · exact exclusive.known other old sched schedAhead
    · rcases quiet.ahead with before | snapshot
      · exact exclusive.known tick (List.mem_of_getElem? found) sched (before schedAhead)
      · exact ⟨sched, snapshot schedAhead, rfl⟩
  · exact Pool.pairwise_of_subperm Apart.symm fewer exclusive.apart
  · intro entry member
    rw [quiet.schedules]
    exact exclusive.covered entry (fewer.subset member)

/-! ## Writing a firing time -/

section Write

variable {state : State} {i : Nat} {tick : TickRun} {sched : Schedule} {rest : List Schedule}

/-- The state after the tick at a position has written a firing time. -/
def writtenState (state : State) (i : Nat) (tick : TickRun) (sched : Schedule)
    (rest : List Schedule) : State :=
  ⟨{ state.shared with world := state.shared.world.markFired sched tick.env.now },
    state.threads.set i (tick.enter (.written sched rest))⟩

theorem entries_writtenState (found : state.threads[i]? = some tick)
    (phase : tick.phase = .decided sched rest) :
    (entries (writtenState state i tick sched rest)).Perm
      (⟨sched.idSlug, tick.env.now⟩ :: entries state) := by
  have nothing : tick.pending = none := by simp [TickRun.pending, phase]
  have before := Pool.filterMap_perm TickRun.pending found
  rw [nothing, Option.toList_none, List.nil_append] at before
  have after := Pool.filterMap_set_perm TickRun.pending found
    (tick.enter (.written sched rest))
  calc entries (writtenState state i tick sched rest)
      _ = state.shared.executions ++
            (state.threads.set i (tick.enter (.written sched rest))).filterMap TickRun.pending :=
          rfl
      _ |>.Perm (state.shared.executions ++ (⟨sched.idSlug, tick.env.now⟩ ::
            (state.threads.eraseIdx i).filterMap TickRun.pending)) := after.append_left _
      _ |>.Perm (⟨sched.idSlug, tick.env.now⟩ :: (state.shared.executions ++
            (state.threads.eraseIdx i).filterMap TickRun.pending)) := List.perm_middle
      _ |>.Perm (⟨sched.idSlug, tick.env.now⟩ :: entries state) :=
          (before.symm.append_left _).cons _

/-- After the write the stored time of the schedule is `now`, and every other
row is as before. -/
theorem mem_markFired {world : World} {now : Int} {row : Schedule}
    (member : row ∈ (world.markFired sched now).db.schedules) :
    ∃ source ∈ world.db.schedules, row.idSlug = source.idSlug ∧
      (source.idSlug = sched.idSlug ∧ row.lastFiredAt = some now ∨
        source.idSlug ≠ sched.idSlug ∧ row = source) := by
  rcases Rows.mem_updateWhere.mp member with ⟨source, stored, rfl⟩
  refine ⟨source, stored, ?_⟩
  by_cases same : source.idSlug = sched.idSlug
  · simp [same]
  · simp [same]

theorem Exclusive.write (exclusive : Exclusive state) (found : state.threads[i]? = some tick)
    (phase : tick.phase = .decided sched rest) (fresh : FreshWrite state (.step i)) :
    Exclusive (writtenState state i tick sched rest) := by
  have reordered := entries_writtenState found phase
  have slugKept : ∀ row ∈ state.shared.world.db.schedules,
      ∃ kept ∈ (state.shared.world.markFired sched tick.env.now).db.schedules,
        kept.idSlug = row.idSlug := by
    intro row stored
    refine ⟨_, Rows.mem_updateWhere.mpr ⟨row, stored, rfl⟩, ?_⟩
    split_ifs <;> rfl
  have inSnapshot : ∀ other ∈ (tick.enter (.written sched rest)).ahead, other ∈ tick.ahead := by
    intro other otherAhead
    simpa [TickRun.ahead, TickRun.enter, phase] using otherAhead
  have earlier : ∀ entry ∈ entries state, entry.slug = sched.idSlug →
      entry.now ≤ tick.env.now ∧ ¬ SameMinute entry.now tick.env.now := by
    intro entry member same
    have schedAhead : sched ∈ tick.ahead := by simp [TickRun.ahead, phase]
    rcases exclusive.known tick (List.mem_of_getElem? found) sched schedAhead with
      ⟨row, stored, rowSlug⟩
    rcases exclusive.covered entry member row stored (rowSlug.trans same.symm) with
      ⟨last, lastEq, before⟩
    have writes := fresh tick found
    rw [WritesFresh, phase] at writes
    rcases writes row stored rowSlug last lastEq with ⟨past, otherMinute⟩
    exact ⟨before.trans past, fun sameMinute => otherMinute (sameMinute.of_between before past)⟩
  constructor
  · intro other otherMem ahead aheadMem
    have source : ∃ row ∈ state.shared.world.db.schedules, row.idSlug = ahead.idSlug := by
      rcases List.mem_or_eq_of_mem_set otherMem with old | rfl
      · exact exclusive.known other old ahead aheadMem
      · exact exclusive.known tick (List.mem_of_getElem? found) ahead (inSnapshot ahead aheadMem)
    rcases source with ⟨row, stored, rowSlug⟩
    rcases slugKept row stored with ⟨kept, keptMem, keptSlug⟩
    exact ⟨kept, keptMem, keptSlug.trans rowSlug⟩
  · apply (List.Perm.pairwise_iff (fun {a b} => Apart.symm a b) reordered).mpr
    apply List.pairwise_cons.mpr
    refine ⟨?_, exclusive.apart⟩
    intro entry member same sameMinute
    exact (earlier entry member same.symm).2 sameMinute.symm
  · intro entry member row rowMem rowSlug
    rcases mem_markFired rowMem with ⟨source, stored, kept, fired | untouched⟩
    · refine ⟨tick.env.now, fired.2, ?_⟩
      rcases List.mem_cons.mp (reordered.subset member) with rfl | old
      · exact le_refl _
      · exact (earlier entry old (rowSlug.symm.trans (kept.trans fired.1))).1
    · rcases untouched with ⟨different, rfl⟩
      rcases List.mem_cons.mp (reordered.subset member) with rfl | old
      · exact absurd rowSlug different
      · exact exclusive.covered entry old row stored rowSlug

end Write

/-! ## Runs -/

theorem Exclusive.begin {state : State} (exclusive : Exclusive state) (env : Environment) :
    Exclusive { state with threads := state.threads ++ [⟨env, .started⟩] } := by
  have same : entries { state with threads := state.threads ++ [⟨env, .started⟩] } =
      entries state := by
    simp [entries, TickRun.pending]
  constructor
  · intro tick tickMem sched schedAhead
    rcases List.mem_append.mp tickMem with old | new
    · exact exclusive.known tick old sched schedAhead
    · rw [List.mem_singleton] at new
      subst new
      exact absurd schedAhead List.not_mem_nil
  · rw [same]
    exact exclusive.apart
  · rw [same]
    exact exclusive.covered

theorem Exclusive.next {state target : State} {action : Action} (exclusive : Exclusive state)
    (fresh : FreshWrite state action) (step : next state action = some target) :
    Exclusive target := by
  cases action with
  | begin env =>
      cases step
      exact exclusive.begin env
  | step i =>
      rcases Pool.stepAt_eq_some_iff.mp step with ⟨tick, ⟨moved, after⟩, found, stepped, rfl⟩
      rcases TickRun.step_cases stepped with ⟨sched, rest, phase, rfl, rfl⟩ | quiet
      · exact exclusive.write found phase fresh
      · exact exclusive.quiet found quiet

/-- In every interleaving in which each firing time is written over an earlier
one of another minute, no schedule is executed twice in a calendar minute. -/
theorem atMostOncePerMinute_of_freshWrites {db : Database} {actions : List Action}
    (fresh : Throughout next FreshWrite (initial db) actions) :
    Always next AtMostOncePerMinute (initial db) actions := by
  have always : Always next Exclusive (initial db) actions := by
    apply always_of_throughout (C := FreshWrite)
    · intro state action target exclusive condition step
      exact exclusive.next condition step
    · exact exclusive_initial db
    · exact fresh
  exact always.imp fun _ exclusive => exclusive.atMostOnce

/-- Two VMs that are stopped every day at nine. -/
def nineDatabase : Database :=
  ["first", "second"].foldl (fun db slug =>
    db.createSchedule slug
      { name := some slug, enabled := some "1", action := some "stop", time := some "09:00",
        groupName := none, playbook := none, days := none, vmNames := some ["web-1"] })
    Database.empty

/-- A tick some seconds after nine whose CLI calls succeed. -/
def nineTick (seconds : Int) : Environment where
  now := instantOf ⟨2024, 1, 15⟩ 9 0 seconds
  cli _ _ := none
  stamp slug := ⟨instantOf ⟨2024, 1, 15⟩ 9 0 seconds / 1000000, slug⟩

/-- One tick that runs to its end, and a second one after it. -/
def serialTicks : List Action :=
  .begin (nineTick 5) :: List.replicate 10 (.step 0) ++
    .begin (nineTick 35) :: List.replicate 4 (.step 1)

theorem atMostOncePerMinute_of_freshWrites_serial :
    Always next AtMostOncePerMinute (initial nineDatabase) serialTicks :=
  atMostOncePerMinute_of_freshWrites (by decide)

/-- The first tick is still busy with the first VM when the second one reads
its snapshot, half a minute later; then both go on to the second VM. -/
def overlappingTicks : List Action :=
  .begin (nineTick 5) :: List.replicate 4 (.step 0) ++
    .begin (nineTick 35) :: .step 1 :: List.replicate 5 (.step 0) ++ List.replicate 5 (.step 1)

/-- Both ticks execute the second schedule. -/
theorem overlappingTicks_not_atMostOnce :
    ¬ Always next AtMostOncePerMinute (initial nineDatabase) overlappingTicks := by
  decide

end MultipassWebui.Scheduler.Overlap
