import MultipassWebui.Records.Database
import MultipassWebui.Transition.Run

/-!
# Integrity of the database

Every edit keeps the keys of the tables unique and the references between them
intact.  Histories of edits are runs of the edit system, so every reachable
database is well formed.
-/

namespace MultipassWebui.Records

open MultipassWebui.Transition
open Rows

namespace Database

/-- Groups differ in key and name. -/
def DistinctGroups (groups : List Group) : Prop :=
  groups.Pairwise fun first second => first.id ≠ second.id ∧ first.name ≠ second.name

/-- Schedules differ in both of their keys. -/
def DistinctSchedules (schedules : List Schedule) : Prop :=
  schedules.Pairwise fun first second =>
    first.rowId ≠ second.rowId ∧ first.idSlug ≠ second.idSlug

/-- What the constraints of the schema and the models guarantee together. -/
structure WellFormed (db : Database) : Prop where
  groups : DistinctGroups db.groups
  groupsBelow : ∀ group ∈ db.groups, group.id < db.groupSequence
  references : ∀ assignment ∈ db.assignments, ∀ id, assignment.groupId = some id →
    ∃ group ∈ db.groups, group.id = id
  schedules : DistinctSchedules db.schedules
  schedulesBelow : ∀ sched ∈ db.schedules, sched.rowId < db.scheduleSequence

theorem wellFormed_empty : WellFormed empty := by
  constructor
  · exact List.Pairwise.nil
  · simp [empty]
  · simp [empty]
  · exact List.Pairwise.nil
  · simp [empty]

/-! ## Edits of groups -/

theorem WellFormed.createGroup {db : Database} (wf : WellFormed db) (name : String)
    (position : Int) : WellFormed (db.createGroup name position) := by
  unfold Database.createGroup
  split_ifs with valid taken
  · exact wf
  · have unused : ∀ group ∈ db.groups, group.name ≠ name := by simpa using taken
    constructor
    · apply pairwise_concat wf.groups
      intro old oldMem
      exact ⟨(wf.groupsBelow old oldMem).ne, unused old oldMem⟩
    · intro group member
      rcases List.mem_append.mp member with old | new
      · exact Nat.lt_succ_of_lt (wf.groupsBelow group old)
      · rw [List.mem_singleton] at new
        subst group
        exact Nat.lt_succ_self _
    · intro assignment member id reference
      rcases wf.references assignment member id reference with ⟨group, groupMem, groupId⟩
      exact ⟨group, List.mem_append_left _ groupMem, groupId⟩
    · exact wf.schedules
    · exact wf.schedulesBelow
  · exact wf

theorem WellFormed.renameGroup {db : Database} (wf : WellFormed db) (id : Nat)
    (name : String) : WellFormed (db.renameGroup id name) := by
  unfold Database.renameGroup
  split_ifs with valid taken
  · exact wf
  · have unused : ∀ group ∈ db.groups, group.id ≠ id → group.name ≠ name := by
      simpa using taken
    constructor
    · apply pairwise_updateWhere _ wf.groups
      intro first firstMem second secondMem distinct
      by_cases firstHit : first.id = id <;> by_cases secondHit : second.id = id
      · exact absurd (firstHit.trans secondHit.symm) distinct.1
      · simpa [firstHit, secondHit] using
          ⟨firstHit ▸ distinct.1, (unused second secondMem secondHit).symm⟩
      · simpa [firstHit, secondHit] using unused first firstMem firstHit
      · simpa [firstHit, secondHit] using distinct
    · intro group member
      rcases mem_updateWhere.mp member with ⟨source, sourceMem, rfl⟩
      have below := wf.groupsBelow source sourceMem
      split <;> exact below
    · intro assignment member target reference
      rcases wf.references assignment member target reference with ⟨group, groupMem, groupId⟩
      refine ⟨_, mem_updateWhere.mpr ⟨group, groupMem, rfl⟩, ?_⟩
      split <;> exact groupId
    · exact wf.schedules
    · exact wf.schedulesBelow
  · exact wf

theorem mem_nullify {id : Nat} {assignments : List VmAssignment} {assignment : VmAssignment}
    (member : assignment ∈ nullify id assignments) :
    assignment.groupId ≠ some id ∧
      ∃ source ∈ assignments,
        assignment.groupId = none ∨ assignment.groupId = source.groupId := by
  rcases mem_updateWhere.mp member with ⟨source, sourceMem, rfl⟩
  by_cases hit : source.groupId = some id
  · simp only [hit, decide_true, if_true]
    exact ⟨by simp, source, sourceMem, Or.inl trivial⟩
  · simp only [hit, decide_false, Bool.false_eq_true, if_false]
    exact ⟨hit, source, sourceMem, Or.inr rfl⟩

/-- Destroying a group clears the references to it first. -/
theorem WellFormed.destroyGroup {db : Database} (wf : WellFormed db) (id : Nat) :
    WellFormed (db.destroyGroup id) := by
  constructor
  · exact List.Pairwise.filter _ wf.groups
  · intro group member
    exact wf.groupsBelow group (List.mem_filter.mp member).1
  · intro assignment member target reference
    rcases mem_nullify member with ⟨notTarget, source, sourceMem, cleared | kept⟩
    · rw [cleared] at reference
      contradiction
    · rw [kept] at reference notTarget
      rcases wf.references source sourceMem target reference with ⟨group, groupMem, groupId⟩
      refine ⟨group, List.mem_filter.mpr ⟨groupMem, ?_⟩, groupId⟩
      rw [reference] at notTarget
      simpa [groupId] using fun equal : target = id => notTarget (congrArg some equal)
  · exact wf.schedules
  · exact wf.schedulesBelow

/-! ## Edits of assignments -/

theorem referenceExists_iff (db : Database) (groupId : Option Nat) :
    db.referenceExists groupId = true ↔
      ∀ id, groupId = some id → ∃ group ∈ db.groups, group.id = id := by
  cases groupId <;> simp [referenceExists]

theorem WellFormed.createAssignment {db : Database} (wf : WellFormed db) (vmName : String)
    (groupId : Option Nat) (isTemplate : Bool) :
    WellFormed (db.createAssignment vmName groupId isTemplate) := by
  unfold Database.createAssignment
  split_ifs with valid refused
  · exact wf
  · rw [Bool.or_eq_true, not_or, Bool.not_eq_true', Bool.not_eq_false] at refused
    constructor
    · exact wf.groups
    · exact wf.groupsBelow
    · intro assignment member id reference
      rcases List.mem_append.mp member with old | new
      · exact wf.references assignment old id reference
      · rw [List.mem_singleton] at new
        subst assignment
        exact (referenceExists_iff db groupId).mp refused.2 id reference
    · exact wf.schedules
    · exact wf.schedulesBelow
  · exact wf

theorem WellFormed.updateAssignment {db : Database} (wf : WellFormed db) (row : Nat)
    (vmName : String) (groupId : Option Nat) (isTemplate : Bool) :
    WellFormed (db.updateAssignment row vmName groupId isTemplate) := by
  unfold Database.updateAssignment
  split_ifs with valid refused
  · exact wf
  · rw [Bool.or_eq_true, not_or, Bool.not_eq_true', Bool.not_eq_false] at refused
    constructor
    · exact wf.groups
    · exact wf.groupsBelow
    · intro assignment member id reference
      rcases mem_updateWhere.mp member with ⟨source, sourceMem, rfl⟩
      by_cases hit : source.id = row
      · rw [if_pos (by simpa using hit)] at reference
        exact (referenceExists_iff db groupId).mp refused.2 id reference
      · rw [if_neg (by simpa using hit)] at reference
        exact wf.references source sourceMem id reference
    · exact wf.schedules
    · exact wf.schedulesBelow
  · exact wf

theorem WellFormed.destroyAssignment {db : Database} (wf : WellFormed db) (row : Nat) :
    WellFormed (db.destroyAssignment row) where
  groups := wf.groups
  groupsBelow := wf.groupsBelow
  references assignment member := wf.references assignment (List.mem_filter.mp member).1
  schedules := wf.schedules
  schedulesBelow := wf.schedulesBelow

/-! ## Edits of schedules -/

theorem reviseSchedule_keys (form : ScheduleForm) (sched : Schedule) :
    (reviseSchedule form sched).rowId = sched.rowId ∧
      (reviseSchedule form sched).idSlug = sched.idSlug ∧
      (reviseSchedule form sched).lastFiredAt = sched.lastFiredAt := by
  unfold reviseSchedule
  split
  · exact ⟨rfl, rfl, rfl⟩
  · exact ⟨rfl, rfl, rfl⟩

/-- Replacing schedules by schedules with the same keys keeps them distinct. -/
theorem DistinctSchedules.updateWhere {schedules : List Schedule} {p : Schedule → Bool}
    {change : Schedule → Schedule} (distinct : DistinctSchedules schedules)
    (kept : ∀ sched, (change sched).rowId = sched.rowId ∧ (change sched).idSlug = sched.idSlug) :
    DistinctSchedules (updateWhere p change schedules) := by
  apply pairwise_updateWhere _ distinct
  intro first _ second _ different
  have keys : ∀ sched : Schedule,
      (if p sched then change sched else sched).rowId = sched.rowId ∧
        (if p sched then change sched else sched).idSlug = sched.idSlug := by
    intro sched
    split
    · exact kept sched
    · exact ⟨rfl, rfl⟩
  rw [(keys first).1, (keys first).2, (keys second).1, (keys second).2]
  exact different

theorem WellFormed.createSchedule {db : Database} (wf : WellFormed db) (slug : String)
    (form : ScheduleForm) : WellFormed (db.createSchedule slug form) := by
  unfold Database.createSchedule
  split_ifs with valid taken
  · exact wf
  · have unused : ∀ sched ∈ db.schedules, sched.idSlug ≠ slug := by simpa using taken
    constructor
    · exact wf.groups
    · exact wf.groupsBelow
    · exact wf.references
    · apply pairwise_concat wf.schedules
      intro old oldMem
      exact ⟨(wf.schedulesBelow old oldMem).ne, unused old oldMem⟩
    · intro sched member
      rcases List.mem_append.mp member with old | new
      · exact Nat.lt_succ_of_lt (wf.schedulesBelow sched old)
      · rw [List.mem_singleton] at new
        subst sched
        exact Nat.lt_succ_self _
  · exact wf

theorem WellFormed.updateSchedule {db : Database} (wf : WellFormed db) (slug : String)
    (form : ScheduleForm) : WellFormed (db.updateSchedule slug form) where
  groups := wf.groups
  groupsBelow := wf.groupsBelow
  references := wf.references
  schedules := wf.schedules.updateWhere fun sched =>
    ⟨(reviseSchedule_keys form sched).1, (reviseSchedule_keys form sched).2.1⟩
  schedulesBelow := by
    intro sched member
    rcases mem_updateWhere.mp member with ⟨source, sourceMem, rfl⟩
    split
    · rw [(reviseSchedule_keys form source).1]
      exact wf.schedulesBelow source sourceMem
    · exact wf.schedulesBelow source sourceMem

theorem WellFormed.destroySchedule {db : Database} (wf : WellFormed db) (slug : String) :
    WellFormed (db.destroySchedule slug) where
  groups := wf.groups
  groupsBelow := wf.groupsBelow
  references := wf.references
  schedules := List.Pairwise.filter _ wf.schedules
  schedulesBelow sched member := wf.schedulesBelow sched (List.mem_filter.mp member).1

/-! ## Histories -/

theorem WellFormed.apply {db : Database} (wf : WellFormed db) (edit : Edit) :
    WellFormed (db.apply edit) := by
  cases edit with
  | createGroup name position => exact wf.createGroup name position
  | renameGroup id name => exact wf.renameGroup id name
  | destroyGroup id => exact wf.destroyGroup id
  | createAssignment vmName groupId isTemplate =>
      exact wf.createAssignment vmName groupId isTemplate
  | updateAssignment id vmName groupId isTemplate =>
      exact wf.updateAssignment id vmName groupId isTemplate
  | destroyAssignment id => exact wf.destroyAssignment id
  | createSchedule slug form => exact wf.createSchedule slug form
  | updateSchedule slug form => exact wf.updateSchedule slug form
  | destroySchedule slug => exact wf.destroySchedule slug

/-- Where the schedules of an edited database come from: an edit keeps the
integer key and the firing time of a row, and new rows have never fired. -/
theorem mem_apply_schedules {db : Database} {edit : Edit} {sched : Schedule}
    (member : sched ∈ (db.apply edit).schedules) :
    (∃ source ∈ db.schedules,
      sched.rowId = source.rowId ∧ sched.lastFiredAt = source.lastFiredAt) ∨
      sched.rowId = db.scheduleSequence ∧ sched.lastFiredAt = none := by
  have unchanged : sched ∈ db.schedules →
      (∃ source ∈ db.schedules,
        sched.rowId = source.rowId ∧ sched.lastFiredAt = source.lastFiredAt) ∨
        sched.rowId = db.scheduleSequence ∧ sched.lastFiredAt = none :=
    fun old => Or.inl ⟨sched, old, rfl, rfl⟩
  cases edit with
  | createGroup name position =>
      simp only [apply, Database.createGroup] at member
      split_ifs at member <;> exact unchanged member
  | renameGroup id name =>
      simp only [apply, Database.renameGroup] at member
      split_ifs at member <;> exact unchanged member
  | destroyGroup id => exact unchanged member
  | createAssignment vmName groupId isTemplate =>
      simp only [apply, Database.createAssignment] at member
      split_ifs at member <;> exact unchanged member
  | updateAssignment id vmName groupId isTemplate =>
      simp only [apply, Database.updateAssignment] at member
      split_ifs at member <;> exact unchanged member
  | destroyAssignment id => exact unchanged member
  | createSchedule slug form =>
      simp only [apply, Database.createSchedule] at member
      split_ifs at member with valid taken
      · exact unchanged member
      · rcases List.mem_append.mp member with old | new
        · exact unchanged old
        · rw [List.mem_singleton] at new
          subst sched
          exact Or.inr ⟨rfl, rfl⟩
      · exact unchanged member
  | updateSchedule slug form =>
      rcases mem_updateWhere.mp member with ⟨source, sourceMem, rfl⟩
      left
      refine ⟨source, sourceMem, ?_⟩
      split
      · exact ⟨(reviseSchedule_keys form source).1, (reviseSchedule_keys form source).2.2⟩
      · exact ⟨rfl, rfl⟩
  | destroySchedule slug => exact unchanged (List.mem_filter.mp member).1

/-- The sequence of integer keys never goes back. -/
theorem scheduleSequence_le_apply (db : Database) (edit : Edit) :
    db.scheduleSequence ≤ (db.apply edit).scheduleSequence := by
  cases edit <;>
    simp only [apply, Database.createGroup, Database.renameGroup, Database.destroyGroup,
      Database.createAssignment, Database.updateAssignment, Database.destroyAssignment,
      Database.createSchedule, Database.updateSchedule, Database.destroySchedule] <;>
    (repeat' split) <;> simp

/-- Edits are always enabled. -/
def editStep : Step Database Edit := fun db edit => some (db.apply edit)

theorem run_editStep (db : Database) (edits : List Edit) :
    run editStep db edits = some (edits.foldl apply db) := by
  induction edits generalizing db with
  | nil => rfl
  | cons edit rest ih => exact ih (db.apply edit)

/-- Every database reached from the empty one is well formed. -/
theorem wellFormed_of_reachable {db : Database} (reachable : Reachable editStep empty db) :
    WellFormed db := by
  apply reachable.preserves _ wellFormed_empty
  intro state edit target wf step
  cases step
  exact wf.apply edit

end Database

end MultipassWebui.Records
