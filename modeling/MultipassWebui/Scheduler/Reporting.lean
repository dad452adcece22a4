import MultipassWebui.Scheduler.Job

/-!
# The events of a tick

A tick adds the event of every schedule that it fires, in the order of the
snapshot, up to the first one whose drawn id is in use.
-/

namespace MultipassWebui.Scheduler

open MultipassWebui.Effect
open MultipassWebui.Records

/-- What a row of the log says, with its id. -/
abbrev Row := String × EventAttributes

def rowOf (event : Event) : Row := (event.id, event.toEventAttributes)

/-- The row of a schedule. -/
def reportRow (env : Environment) (db : Database) (sched : Schedule) : Row :=
  ((env.stamp sched.idSlug).id, (report env sched (resolveTargets db sched)).2)

/-- The rows that the loop writes, given the event ids in use. -/
def reportsOf (env : Environment) (db : Database) : List String → List Schedule → List Row
  | _, [] => []
  | used, sched :: rest =>
      if due sched env.now then
        if used.contains (env.stamp sched.idSlug).id then []
        else reportRow env db sched ::
          reportsOf env db (used ++ [(env.stamp sched.idSlug).id]) rest
      else reportsOf env db used rest

/-- Only the groups and the assignments of the database matter. -/
theorem reportsOf_congr {env : Environment} {first second : Database}
    (groups : first.groups = second.groups) (assignments : first.assignments = second.assignments)
    (used : List String) (schedules : List Schedule) :
    reportsOf env first used schedules = reportsOf env second used schedules := by
  have sameTargets : resolveTargets first = resolveTargets second := by
    funext sched
    unfold resolveTargets Database.findGroupByName
    rw [groups, assignments]
  have sameRow : reportRow env first = reportRow env second := by
    funext sched
    rw [reportRow, reportRow, sameTargets]
  induction schedules generalizing used with
  | nil => rfl
  | cons sched rest ih =>
      unfold reportsOf
      rw [ih, ih, sameRow]

/-- The loop adds these rows, whether it returns or raises. -/
theorem performEach_events (env : Environment) (schedules : List Schedule) (world : World) :
    ∃ added, (performEach env schedules world).2.db.events = world.db.events ++ added ∧
      added.map rowOf = reportsOf env world.db (eventIds world.db) schedules := by
  induction schedules generalizing world with
  | nil => exact ⟨[], (List.append_nil _).symm, rfl⟩
  | cons sched rest ih =>
      rw [performEach_cons, reportsOf]
      by_cases passed : due sched env.now = true
      · rw [if_pos passed, if_pos passed]
        by_cases fresh : FreshStamp env world.db sched
        · rcases fire_of_fresh fresh with ⟨event, eventId, attributes, fired⟩
          rcases ih ((firedWorld env sched world).setEvents (world.db.events ++ [event])) with
            ⟨added, extended, rows⟩
          rw [fired, if_neg fun clash => freshStamp_iff.mp fresh (List.contains_iff_mem.mp clash)]
          refine ⟨event :: added, ?_, ?_⟩
          · rw [extended]
            exact List.append_assoc _ _ _
          · have ids : eventIds
                ((firedWorld env sched world).setEvents (world.db.events ++ [event])).db =
                  eventIds world.db ++ [(env.stamp sched.idSlug).id] := by
              simp [eventIds, World.setEvents, eventId]
            have row : rowOf event = reportRow env world.db sched := by
              rw [rowOf, eventId, attributes, reportRow]
            have same := @reportsOf_congr env
              ((firedWorld env sched world).setEvents (world.db.events ++ [event])).db world.db
              rfl rfl
            rw [List.map_cons, rows, ids, row, same]
        · rcases fire_of_used fresh with ⟨raised, fired⟩
          have clash := not_not.mp (mt freshStamp_iff.mpr fresh)
          rw [fired, if_pos (List.contains_iff_mem.mpr clash)]
          exact ⟨[], (List.append_nil _).symm, rfl⟩
      · rw [if_neg passed, if_neg passed]
        exact ih world

/-- The rows of a tick. -/
theorem perform_events (env : Environment) (world : World) :
    ∃ added, (Job.perform env world).2.db.events = world.db.events ++ added ∧
      added.map rowOf = reportsOf env world.db (eventIds world.db) (snapshot world.db) := by
  rw [Job.perform_eq, perform_apply]
  exact performEach_events env (snapshot world.db) world

/-- Every row is the one of a schedule of the list that is due, under an id not used before. -/
theorem of_mem_reportsOf {env : Environment} {db : Database} {used : List String}
    {schedules : List Schedule} {row : Row} (member : row ∈ reportsOf env db used schedules) :
    ∃ sched ∈ schedules, due sched env.now = true ∧ row = reportRow env db sched ∧
      row.1 ∉ used := by
  induction schedules generalizing used with
  | nil => cases member
  | cons sched rest ih =>
      unfold reportsOf at member
      split_ifs at member with passed clash
      · cases member
      · rcases List.mem_cons.mp member with rfl | later
        · refine ⟨sched, List.mem_cons_self, passed, rfl, ?_⟩
          exact fun used => clash (List.contains_iff_mem.mpr used)
        · rcases ih later with ⟨other, among, isDue, isRow, unused⟩
          refine ⟨other, List.mem_cons_of_mem _ among, isDue, isRow, ?_⟩
          exact fun used => unused (List.mem_append_left _ used)
      · rcases ih member with ⟨other, among, isDue, isRow, unused⟩
        exact ⟨other, List.mem_cons_of_mem _ among, isDue, isRow, unused⟩

/-- No id is written twice. -/
theorem nodup_reportsOf (env : Environment) (db : Database) (used : List String)
    (schedules : List Schedule) : ((reportsOf env db used schedules).map Prod.fst).Nodup := by
  induction schedules generalizing used with
  | nil => exact List.nodup_nil
  | cons sched rest ih =>
      unfold reportsOf
      split_ifs
      · exact List.nodup_nil
      · rw [List.map_cons, List.nodup_cons]
        refine ⟨fun again => ?_, ih _⟩
        rcases List.mem_map.mp again with ⟨row, member, same⟩
        rcases of_mem_reportsOf member with ⟨_, _, _, _, unused⟩
        rw [same] at unused
        exact unused (List.mem_append_right _ List.mem_cons_self)
      · exact ih used

/-- No schedule is added, deleted or renamed. -/
theorem perform_slugs (env : Environment) (world : World) :
    (Job.perform env world).2.db.schedules.map (fun sched => sched.idSlug) =
      world.db.schedules.map fun sched => sched.idSlug := by
  rw [Job.perform_eq, perform_apply, (performEach_fired env (snapshot world.db) world).schedules]
  unfold firedRows Rows.updateWhere
  rw [List.map_map]
  apply List.map_congr_left
  intro sched _
  dsimp only [Function.comp]
  split_ifs
  · rfl
  · rfl

/-- A tick keeps the tables well formed. -/
theorem wellFormed_perform (env : Environment) (world : World) (wf : world.db.WellFormed) :
    (Job.perform env world).2.db.WellFormed := by
  rw [Job.perform_eq, perform_apply]
  have fired := performEach_fired env (snapshot world.db) world
  constructor
  · rw [fired.groups]
    exact wf.groups
  · rw [fired.groups, fired.groupSequence]
    exact wf.groupsBelow
  · rw [fired.groups, fired.assignments]
    exact wf.references
  · rw [fired.schedules]
    exact wf.schedules.updateWhere fun sched => ⟨rfl, rfl⟩
  · rw [fired.schedules, fired.scheduleSequence]
    intro row member
    rcases Rows.mem_updateWhere.mp member with ⟨source, stored, rfl⟩
    split_ifs
    · exact wf.schedulesBelow source stored
    · exact wf.schedulesBelow source stored

end MultipassWebui.Scheduler
