import MultipassWebui.Calendar.Civil
import MultipassWebui.Records.Database
import MultipassWebui.Records.EventLog

/-!
# The scheduler tick

`SchedulerTickJob#perform` for one tick.  What the tick meets outside the
database is an environment: the instant, the outcome of every CLI call and the
id drawn for every event.  The world carries two ledgers next to the database,
of the CLI calls that were made and of the schedules that were fired; the job
itself reads neither.
-/

namespace MultipassWebui.Scheduler

open MultipassWebui.Calendar
open MultipassWebui.Effect
open MultipassWebui.Records
open MultipassWebui.Text

/-- A call of `start_vm` or `stop_vm` made for a schedule. -/
structure CliCall where
  schedule : String
  method : String
  vm : String
  deriving DecidableEq, Repr

/-- A schedule passed both guards at an instant. -/
structure Firing where
  rowId : Nat
  instant : Int
  deriving DecidableEq, Repr

structure World where
  db : Database
  calls : List CliCall
  firings : List Firing

/-- What one tick meets.  `cli` gives the error message, if any, of the call
for the target at a position, and `stamp` the draw for a schedule's event. -/
structure Environment where
  now : Int
  cli : String → Nat → Option String
  stamp : String → EventStamp

/-! ## The guards -/

/-- `sched.time.split(":").map(&:to_i)` -/
def clockFields (sched : Schedule) : List Int :=
  (split ':' sched.time.toList).map toI

/-- `time_matches?` -/
def timeMatches (sched : Schedule) (now : Int) : Bool :=
  if (clockFields sched)[0]? ≠ some (hour now) || (clockFields sched)[1]? ≠ some (minute now) then
    false
  else
    match sched.days with
    | none => true
    | some days => days.isEmpty || days.contains (wday now)

/-- `already_fired_this_minute?` -/
def alreadyFiredThisMinute (sched : Schedule) (now : Int) : Bool :=
  match sched.lastFiredAt with
  | none => false
  | some last => minute last = minute now && hour last = hour now && day last = day now

/-- The schedule passes both guards. -/
def due (sched : Schedule) (now : Int) : Bool :=
  timeMatches sched now && !alreadyFiredThisMinute sched now

/-! ## Firing one schedule -/

/-- `resolve_targets`: a missing group turns the condition into `group_id IS NULL`. -/
def resolveTargets (db : Database) (sched : Schedule) : List String :=
  if present sched.groupName then
    let group := db.findGroupByName (sched.groupName.getD "")
    (db.assignments.filter fun assignment => assignment.groupId = group.map Group.id).map
      VmAssignment.vmName
  else sched.vmNames.getD []

/-- The calls of one method on every target, and the collected errors. -/
def callEach (env : Environment) (sched : Schedule) (method : String) (targets : List String) :
    List CliCall × List String :=
  (targets.map fun name => ⟨sched.idSlug, method, name⟩,
    targets.zipIdx.filterMap fun (name, position) =>
      (env.cli sched.idSlug position).map fun message => name ++ ": " ++ message)

/-- The branch of `case sched.action` that calls the CLI. -/
def callTargets (env : Environment) (sched : Schedule) (targets : List String) :
    List CliCall × List String :=
  if sched.action = "start" then callEach env sched "start_vm" targets
  else if sched.action = "stop" then callEach env sched "stop_vm" targets
  else ([], [])

/-- The result that `execute` returns after the calls. -/
def resultOf (errors targets : List String) : String :=
  if errors.isEmpty then "success"
  else if errors.length < targets.length then "partial"
  else "failed"

/-- `execute`: the calls that are made and the result. -/
def execute (env : Environment) (sched : Schedule) (targets : List String) :
    List CliCall × String :=
  if sched.action = "playbook" then ([], "success")
  else
    ((callTargets env sched targets).1, resultOf (callTargets env sched targets).2 targets)

/-- The event of a schedule without targets. -/
def noTargetsEvent (sched : Schedule) : EventAttributes :=
  { category := "schedule", action := "tick", actor := "scheduler", resource := some sched.name,
    result := some "no_targets", detail := some "no VMs matched", endpoint := none,
    payload := none }

/-- The event of an executed schedule. -/
def executedEvent (sched : Schedule) (targets : List String) (result : String) :
    EventAttributes :=
  { category := "schedule", action := sched.action, actor := "scheduler",
    resource := some sched.name, result := some result,
    detail := some ("targets: " ++ ", ".intercalate targets), endpoint := none, payload := none }

/-- `sched.update!(last_fired_at: now)`: the row with the schedule's key. -/
def writeLastFiredAt (db : Database) (sched : Schedule) (now : Int) : Database :=
  { db with
    schedules := Rows.updateWhere (fun row => row.idSlug = sched.idSlug)
      (fun row => row.withLastFiredAt now) db.schedules }

namespace World

/-- Write the firing time and record the firing. -/
def markFired (world : World) (sched : Schedule) (now : Int) : World :=
  { world with
    db := writeLastFiredAt world.db sched now
    firings := world.firings ++ [⟨sched.rowId, now⟩] }

/-- Record CLI calls. -/
def recordCalls (world : World) (calls : List CliCall) : World :=
  { world with calls := world.calls ++ calls }

def setEvents (events : List Event) (world : World) : World :=
  { world with db := { world.db with events := events } }

end World

/-- `Event.emit!` in the world of the tick. -/
def emit (stamp : EventStamp) (attributes : EventAttributes) : Exec World RubyError PUnit := do
  let _ ← Exec.zoom (fun world => world.db.events) World.setEvents (Event.emit stamp attributes)
  pure ⟨⟩

/-- What the event says and which calls precede it. -/
def report (env : Environment) (sched : Schedule) (targets : List String) :
    List CliCall × EventAttributes :=
  if targets.isEmpty then ([], noTargetsEvent sched)
  else
    ((execute env sched targets).1,
      executedEvent sched targets (execute env sched targets).2)

/-- The body of the loop after the guards. -/
def fire (env : Environment) (sched : Schedule) : Exec World RubyError PUnit := do
  Exec.modify fun world => world.markFired sched env.now
  let targets ← Exec.gets fun world => resolveTargets world.db sched
  Exec.modify fun world => world.recordCalls (report env sched targets).1
  emit (env.stamp sched.idSlug) (report env sched targets).2

/-- The loop over the snapshot. -/
def performEach (env : Environment) : List Schedule → Exec World RubyError PUnit
  | [] => pure ⟨⟩
  | sched :: rest => do
      if due sched env.now then fire env sched
      performEach env rest

/-- `Schedule.where(enabled: true).to_a` -/
def snapshot (db : Database) : List Schedule :=
  db.schedules.filter fun sched => sched.enabled = some true

/-- `perform` -/
def perform (env : Environment) : Exec World RubyError PUnit := do
  let schedules ← Exec.gets fun world => snapshot world.db
  if schedules.isEmpty then pure ⟨⟩ else performEach env schedules

/-! ## What a firing does -/

theorem callEach_vm (env : Environment) {sched : Schedule} {method : String}
    {targets : List String} {call : CliCall}
    (member : call ∈ (callEach env sched method targets).1) : call.vm ∈ targets := by
  rcases List.mem_map.mp member with ⟨name, nameMem, rfl⟩
  exact nameMem

/-- Every call is made on a target. -/
theorem report_vm {env : Environment} {sched : Schedule} {targets : List String}
    {call : CliCall} (member : call ∈ (report env sched targets).1) : call.vm ∈ targets := by
  unfold report execute callTargets at member
  split_ifs at member with empty playbook start stop
  · cases member
  · cases member
  · exact callEach_vm env member
  · exact callEach_vm env member
  · cases member

/-- Every call is made for the schedule itself. -/
theorem report_schedule {env : Environment} {sched : Schedule} {targets : List String}
    {call : CliCall} (member : call ∈ (report env sched targets).1) :
    call.schedule = sched.idSlug := by
  unfold report execute callTargets at member
  split_ifs at member with empty playbook start stop
  · cases member
  · cases member
  · rcases List.mem_map.mp member with ⟨name, _, rfl⟩
    rfl
  · rcases List.mem_map.mp member with ⟨name, _, rfl⟩
    rfl
  · cases member

theorem resultOf_mem (errors targets : List String) : resultOf errors targets ∈ RESULTS := by
  unfold resultOf
  split_ifs <;> decide

theorem execute_result (env : Environment) (sched : Schedule) (targets : List String) :
    (execute env sched targets).2 ∈ RESULTS := by
  unfold execute
  split
  · decide
  · exact resultOf_mem _ _

/-- The event of a tick passes the validations of `Event`. -/
theorem report_valid (env : Environment) (sched : Schedule) (targets : List String) :
    (report env sched targets).2.errors = [] := by
  unfold report
  split
  · rfl
  · have allowed := execute_result env sched targets
    simp only [executedEvent, EventAttributes.errors, List.append_eq_nil_iff,
      validate_eq_nil_iff, Option.all_some, List.contains_eq_mem, decide_eq_true_eq]
    exact ⟨⟨by decide, by decide⟩, allowed⟩

theorem emit_apply (stamp : EventStamp) (attributes : EventAttributes) (world : World) :
    (emit stamp attributes world).2 =
      World.setEvents (Event.emit stamp attributes world.db.events).2 world := by
  unfold emit
  rw [Exec.bind_apply, Exec.zoom_apply]
  cases (Event.emit stamp attributes world.db.events).1 <;> rfl

/-- The world of a firing before its event is written. -/
def firedWorld (env : Environment) (sched : Schedule) (world : World) : World :=
  (world.markFired sched env.now).recordCalls
    (report env sched (resolveTargets (writeLastFiredAt world.db sched env.now) sched)).1

theorem fire_apply (env : Environment) (sched : Schedule) (world : World) :
    fire env sched world =
      emit (env.stamp sched.idSlug)
        (report env sched (resolveTargets (writeLastFiredAt world.db sched env.now) sched)).2
        (firedWorld env sched world) :=
  rfl

/-- Writing the firing time does not change what a schedule's targets are. -/
@[simp]
theorem resolveTargets_writeLastFiredAt (db : Database) (row : Schedule) (now : Int)
    (sched : Schedule) :
    resolveTargets (writeLastFiredAt db row now) sched = resolveTargets db sched :=
  rfl

/-- Whatever becomes of its event, a firing writes the firing time, records
itself and the calls, and touches no other table. -/
theorem fire_frame (env : Environment) (sched : Schedule) (world : World) :
    ∃ events, (fire env sched world).2 =
      (firedWorld env sched world).setEvents events := by
  rw [fire_apply, emit_apply]
  exact ⟨_, rfl⟩

/-- The draw for the schedule's event is not in the log yet. -/
def FreshStamp (env : Environment) (db : Database) (sched : Schedule) : Prop :=
  ∀ event ∈ db.events, event.id ≠ (env.stamp sched.idSlug).id

/-- With a fresh draw the firing returns and appends one event. -/
theorem fire_of_fresh {env : Environment} {sched : Schedule} {world : World}
    (fresh : FreshStamp env world.db sched) :
    ∃ event : Event, event.id = (env.stamp sched.idSlug).id ∧
      event.toEventAttributes = (report env sched (resolveTargets world.db sched)).2 ∧
      fire env sched world =
        (.ok ⟨⟩, (firedWorld env sched world).setEvents (world.db.events ++ [event])) := by
  refine ⟨⟨(report env sched (resolveTargets world.db sched)).2, (env.stamp sched.idSlug).id,
    report_valid env sched _⟩, rfl, rfl, ?_⟩
  rw [fire_apply, emit, Exec.bind_apply, Exec.zoom_apply, resolveTargets_writeLastFiredAt]
  rw [Event.emit_of_fresh (report_valid env sched _) (by exact fresh)]
  rfl

/-- With a used draw the firing raises after everything but its event is done. -/
theorem fire_of_used {env : Environment} {sched : Schedule} {world : World}
    (used : ¬ FreshStamp env world.db sched) :
    ∃ raised, fire env sched world =
      (.error raised, (firedWorld env sched world).setEvents world.db.events) := by
  have found : ∃ event ∈ world.db.events, event.id = (env.stamp sched.idSlug).id := by
    simpa [FreshStamp] using used
  refine ⟨.recordNotUnique "events.id", ?_⟩
  rw [fire_apply, emit, Exec.bind_apply, Exec.zoom_apply, resolveTargets_writeLastFiredAt]
  rw [Event.emit_of_used (report_valid env sched _) (by exact found)]
  rfl

/-! ## The loop -/

theorem performEach_cons (env : Environment) (sched : Schedule) (rest : List Schedule)
    (world : World) :
    performEach env (sched :: rest) world =
      if due sched env.now then
        match fire env sched world with
        | (.ok _, middle) => performEach env rest middle
        | (.error raised, middle) => (.error raised, middle)
      else performEach env rest world := by
  by_cases passed : due sched env.now
  · simp only [performEach, passed, if_true, Exec.bind_apply]
    rcases fire env sched world with ⟨outcome, middle⟩
    cases outcome <;> rfl
  · simp only [performEach, passed, Bool.false_eq_true, if_false]

theorem perform_apply (env : Environment) (world : World) :
    perform env world = performEach env (snapshot world.db) world := by
  cases schedules : snapshot world.db with
  | nil => simp [perform, Exec.bind_apply, schedules, performEach]
  | cons sched rest => simp [perform, Exec.bind_apply, schedules]

/-- Every call of a tick is made for a schedule of the snapshot, on one of the
targets that schedule has in the database the tick started from. -/
theorem performEach_calls {env : Environment} {schedules : List Schedule} {world : World}
    {call : CliCall} (member : call ∈ (performEach env schedules world).2.calls) :
    call ∈ world.calls ∨
      ∃ sched ∈ schedules, call.schedule = sched.idSlug ∧
        call.vm ∈ resolveTargets world.db sched := by
  induction schedules generalizing world with
  | nil => exact Or.inl member
  | cons sched rest ih =>
      have later : ∀ middle : World,
          (∀ other, resolveTargets middle.db other = resolveTargets world.db other) →
          (call ∈ middle.calls →
            call ∈ world.calls ∨ call.schedule = sched.idSlug ∧
              call.vm ∈ resolveTargets world.db sched) →
          (call ∈ middle.calls ∨
            ∃ other ∈ rest, call.schedule = other.idSlug ∧
              call.vm ∈ resolveTargets middle.db other) →
          call ∈ world.calls ∨
            ∃ other ∈ sched :: rest, call.schedule = other.idSlug ∧
              call.vm ∈ resolveTargets world.db other := by
        intro middle sameTargets own found
        rcases found with now | ⟨other, otherMem, slug, vm⟩
        · rcases own now with old | new
          · exact Or.inl old
          · exact Or.inr ⟨sched, List.mem_cons_self, new⟩
        · rw [sameTargets] at vm
          exact Or.inr ⟨other, List.mem_cons_of_mem _ otherMem, slug, vm⟩
      have own : call ∈ (fire env sched world).2.calls →
          call ∈ world.calls ∨ call.schedule = sched.idSlug ∧
            call.vm ∈ resolveTargets world.db sched := by
        rcases fire_frame env sched world with ⟨events, frame⟩
        rw [frame]
        intro found
        rcases List.mem_append.mp found with old | new
        · exact Or.inl old
        · exact Or.inr ⟨report_schedule new, report_vm new⟩
      have sameTargets : ∀ other,
          resolveTargets (fire env sched world).2.db other = resolveTargets world.db other := by
        rcases fire_frame env sched world with ⟨events, frame⟩
        rw [frame]
        intro other
        rfl
      rw [performEach_cons] at member
      split_ifs at member with passed
      · cases fired : fire env sched world with
        | mk outcome middle =>
            rw [fired] at member own sameTargets
            cases outcome with
            | ok _ => exact later middle sameTargets own (ih member)
            | error _ => exact later middle sameTargets own (Or.inl member)
      · exact later world (fun _ => rfl) Or.inl (ih member)

end MultipassWebui.Scheduler
