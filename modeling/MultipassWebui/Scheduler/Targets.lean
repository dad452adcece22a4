import MultipassWebui.Records.Integrity
import MultipassWebui.Scheduler.Tick

/-!
# Targets of group schedules

A schedule names its group while assignments refer to theirs by key.  When the
group exists the two agree, because names and keys are unique and references
are intact.  When it does not, the lookup yields `nil` and the query selects
the assignments without a group, so a schedule whose group is gone acts on
every ungrouped VM.
-/

namespace MultipassWebui.Scheduler

open MultipassWebui.Records
open MultipassWebui.Text
open MultipassWebui.Transition

/-- The VMs assigned to the group with the given name. -/
def membersOf (db : Database) (name : String) : List String :=
  (db.assignments.filter fun assignment =>
    (db.groupOf assignment).any fun group => group.name = name).map VmAssignment.vmName

/-- A schedule acts on the group it names and on nothing else. -/
structure ActsOnOwnGroup (db : Database) (sched : Schedule) (name : String) : Prop where
  targets : resolveTargets db sched = membersOf db name
  /-- Without the group there are no targets and the tick reports `no_targets`. -/
  missing : (∀ group ∈ db.groups, group.name ≠ name) →
    resolveTargets db sched = [] ∧
      ∀ env, report env sched (resolveTargets db sched) =
        ([], { category := "schedule", action := "tick", actor := "scheduler",
               resource := some sched.name, result := some "no_targets",
               detail := some "no VMs matched", endpoint := none, payload := none })
  /-- No tick calls the CLI for the schedule on any other VM. -/
  calls : ∀ env world, world.db = db → ∀ call ∈ (perform env world).2.calls,
    call ∈ world.calls ∨ (call.schedule = sched.idSlug → call.vm ∈ membersOf db name)

section Lookup

variable {db : Database} {name : String}

theorem findGroupByName_eq_some (wf : db.WellFormed) {group : Group}
    (member : group ∈ db.groups) (named : group.name = name) :
    db.findGroupByName name = some group := by
  subst name
  exact Rows.find?_key_eq_some (wf.groups.imp fun distinct => distinct.2) member

theorem findGroupByName_eq_none (missing : ∀ group ∈ db.groups, group.name ≠ name) :
    db.findGroupByName name = none := by
  simpa [Database.findGroupByName] using missing

/-- An assignment belongs to the named group precisely if it refers to its key. -/
theorem groupOf_named_iff (wf : db.WellFormed) {group : Group} (member : group ∈ db.groups)
    (named : group.name = name) {assignment : VmAssignment}
    (assigned : assignment ∈ db.assignments) :
    (db.groupOf assignment).any (fun other => other.name = name) = true ↔
      assignment.groupId = some group.id := by
  have keys : db.groups.Pairwise fun first second => first.id ≠ second.id :=
    wf.groups.imp fun distinct => distinct.1
  have names : db.groups.Pairwise fun first second => first.name ≠ second.name :=
    wf.groups.imp fun distinct => distinct.2
  cases reference : assignment.groupId with
  | none => simp [Database.groupOf, reference]
  | some id =>
      rcases wf.references assignment assigned id reference with ⟨owner, ownerMem, rfl⟩
      have found : db.groupOf assignment = some owner := by
        rw [Database.groupOf, reference]
        exact Rows.find?_key_eq_some keys ownerMem
      rw [found, Option.any_some, decide_eq_true_eq, Option.some.injEq]
      constructor
      · intro ownerNamed
        rw [Rows.eq_of_key_eq names ownerMem member (ownerNamed.trans named.symm)]
      · intro sameKey
        rw [Rows.eq_of_key_eq keys ownerMem member sameKey]
        exact named

theorem membersOf_of_mem (wf : db.WellFormed) {group : Group} (member : group ∈ db.groups)
    (named : group.name = name) :
    membersOf db name =
      (db.assignments.filter fun assignment => assignment.groupId = some group.id).map
        VmAssignment.vmName := by
  unfold membersOf
  congr 1
  apply List.filter_congr
  intro assignment assigned
  rw [Bool.eq_iff_iff, groupOf_named_iff wf member named assigned, decide_eq_true_eq]

theorem membersOf_of_missing (missing : ∀ group ∈ db.groups, group.name ≠ name) :
    membersOf db name = [] := by
  unfold membersOf
  rw [List.map_eq_nil_iff, List.filter_eq_nil_iff]
  intro assignment _ owned
  rcases (Option.any_eq_true _ _).mp owned with ⟨group, found, named⟩
  cases reference : assignment.groupId with
  | none => simp [Database.groupOf, reference] at found
  | some id =>
      rw [Database.groupOf, reference] at found
      exact missing group (List.mem_of_find?_eq_some found) (by simpa using named)

/-- The VMs that a schedule with a missing group resolves to. -/
theorem resolveTargets_of_missing {sched : Schedule} (groupName : sched.groupName = some name)
    (nonblank : blank name = false) (missing : ∀ group ∈ db.groups, group.name ≠ name) :
    resolveTargets db sched =
      (db.assignments.filter fun assignment => assignment.groupId = none).map
        VmAssignment.vmName := by
  simp [resolveTargets, groupName, present, nonblank, findGroupByName_eq_none missing]

theorem resolveTargets_of_mem (wf : db.WellFormed) {sched : Schedule} {group : Group}
    (groupName : sched.groupName = some name) (nonblank : blank name = false)
    (member : group ∈ db.groups) (named : group.name = name) :
    resolveTargets db sched = membersOf db name := by
  rw [membersOf_of_mem wf member named]
  simp [resolveTargets, groupName, present, nonblank, findGroupByName_eq_some wf member named]

end Lookup

/-- The calls of a tick for one schedule are made on that schedule's targets. -/
theorem perform_calls_own {db : Database} (wf : db.WellFormed) {sched : Schedule}
    (stored : sched ∈ db.schedules) (env : Environment) {world : World} (same : world.db = db)
    {call : CliCall} (made : call ∈ (perform env world).2.calls) :
    call ∈ world.calls ∨ (call.schedule = sched.idSlug → call.vm ∈ resolveTargets db sched) := by
  subst same
  rw [perform_apply] at made
  rcases performEach_calls made with old | ⟨other, otherMem, slug, vm⟩
  · exact Or.inl old
  · right
    intro ownSlug
    have sameSched : other = sched :=
      Rows.eq_of_key_eq (wf.schedules.imp fun distinct => distinct.2)
        (List.mem_filter.mp otherMem).1 stored (slug.symm.trans ownSlug)
    rw [← sameSched]
    exact vm

/-- In every reachable database, a schedule acts on its own group exactly if
the group exists or no assignment is without a group. -/
theorem actsOnOwnGroup_iff {db : Database}
    (reachable : Reachable Database.editStep Database.empty db) {sched : Schedule}
    (stored : sched ∈ db.schedules) {name : String} (groupName : sched.groupName = some name)
    (nonblank : blank name = false) :
    ActsOnOwnGroup db sched name ↔
      (∃ group ∈ db.groups, group.name = name) ∨
        ∀ assignment ∈ db.assignments, assignment.groupId ≠ none := by
  have wf := Database.wellFormed_of_reachable reachable
  constructor
  · intro own
    by_cases exists_ : ∃ group ∈ db.groups, group.name = name
    · exact Or.inl exists_
    · right
      have missing : ∀ group ∈ db.groups, group.name ≠ name := by simpa using exists_
      have nothing := (own.missing missing).1
      rw [resolveTargets_of_missing groupName nonblank missing, List.map_eq_nil_iff,
        List.filter_eq_nil_iff] at nothing
      intro assignment assigned ungrouped
      exact nothing assignment assigned (by simpa using ungrouped)
  · intro condition
    have targets : resolveTargets db sched = membersOf db name := by
      rcases condition with ⟨group, member, named⟩ | grouped
      · exact resolveTargets_of_mem wf groupName nonblank member named
      · by_cases exists_ : ∃ group ∈ db.groups, group.name = name
        · rcases exists_ with ⟨group, member, named⟩
          exact resolveTargets_of_mem wf groupName nonblank member named
        · have missing : ∀ group ∈ db.groups, group.name ≠ name := by simpa using exists_
          rw [resolveTargets_of_missing groupName nonblank missing,
            membersOf_of_missing missing, List.map_eq_nil_iff, List.filter_eq_nil_iff]
          intro assignment assigned ungrouped
          exact grouped assignment assigned (by simpa using ungrouped)
    constructor
    · exact targets
    · intro missing
      rw [targets, membersOf_of_missing missing]
      exact ⟨rfl, fun _ => rfl⟩
    · intro env world same call made
      rw [← targets]
      exact perform_calls_own wf stored env same made

/-- A group with one of two VMs, and a schedule that names the group. -/
def groupedEdits : List Edit :=
  [.createGroup "web" 0, .createAssignment "web-1" (some 0) false,
    .createAssignment "db-1" none false,
    .createSchedule "nightly"
      { name := some "Nightly stop", enabled := some "1", action := some "stop",
        time := some "22:00", groupName := some "web", playbook := none, days := none,
        vmNames := none }]

def groupedDatabase : Database := groupedEdits.foldl Database.apply Database.empty

theorem actsOnOwnGroup_iff_grouped :
    ∃ sched ∈ groupedDatabase.schedules, ActsOnOwnGroup groupedDatabase sched "web" := by
  have stored : ∃ sched ∈ groupedDatabase.schedules, sched.groupName = some "web" := by decide
  rcases stored with ⟨sched, member, groupName⟩
  have present : ∃ group ∈ groupedDatabase.groups, group.name = "web" := by decide
  exact ⟨sched, member,
    (actsOnOwnGroup_iff ⟨groupedEdits, Database.run_editStep _ _⟩ member groupName
      (by decide)).mpr (Or.inl present)⟩

/-- The same database after the group was destroyed. -/
def deletedGroupDatabase : Database := groupedDatabase.apply (.destroyGroup 0)

/-- After its group is destroyed the schedule stops both VMs, neither of which
is in a group of that name. -/
theorem deletedGroup_not_actsOnOwnGroup :
    Reachable Database.editStep Database.empty deletedGroupDatabase ∧
      ∃ sched ∈ deletedGroupDatabase.schedules, sched.groupName = some "web" ∧
        resolveTargets deletedGroupDatabase sched = ["web-1", "db-1"] ∧
        ¬ ActsOnOwnGroup deletedGroupDatabase sched "web" := by
  constructor
  · exact Reachable.tail ⟨groupedEdits, Database.run_editStep _ _⟩ rfl
  · have stored : ∃ sched ∈ deletedGroupDatabase.schedules, sched.groupName = some "web" ∧
        resolveTargets deletedGroupDatabase sched = ["web-1", "db-1"] := by decide
    rcases stored with ⟨sched, member, groupName, resolved⟩
    refine ⟨sched, member, groupName, resolved, fun own => ?_⟩
    have missing : ∀ group ∈ deletedGroupDatabase.groups, group.name ≠ "web" := by decide
    have nothing := (own.missing missing).1
    rw [resolved] at nothing
    contradiction

end MultipassWebui.Scheduler
