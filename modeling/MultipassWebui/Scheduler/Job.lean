import MultipassWebui.Scheduler.Firing

/-!
# One tick, statement by statement

`SchedulerTickJob#perform` with its two loops and the rescue inside the inner
one.  It does what the tick of the runs does, so what one tick does to every
schedule and every target can be read off the lists.
-/

namespace MultipassWebui.Scheduler.Job

open MultipassWebui.Effect
open MultipassWebui.Records

/-- `$!.message` -/
def messageOf : RubyError → String
  | .standardError message => message
  | .commandError message => message
  | _ => ""

section

variable (env : Environment) (sched : Schedule)

/-- The call of one method for the target at a position. -/
def call (method name : String) (position : Nat) : Exec World RubyError PUnit := do
  Exec.modify fun world => world.recordCalls [⟨sched.idSlug, method, name⟩]
  match env.cli sched.idSlug position with
  | none => pure ⟨⟩
  | some message => Exec.raise (.standardError message)

/-- One round of `targets.each`, with the error that the rescue collects. -/
def callOne (method name : String) (position : Nat) : Exec World RubyError (List String) :=
  Exec.rescue (do
    call env sched method name position
    return [])
    fun error => some (pure [name ++ ": " ++ messageOf error])

/-- `targets.each`, with the collected errors. -/
def eachTarget (method : String) : Nat → List String → Exec World RubyError (List String)
  | _, [] => pure []
  | position, name :: rest => do
      let errors ← callOne env sched method name position
      let more ← eachTarget method (position + 1) rest
      return errors ++ more

/-- `execute` -/
def execute (targets : List String) : Exec World RubyError String :=
  if sched.action = "start" then do
    let errors ← eachTarget env sched "start_vm" 0 targets
    return resultOf errors targets
  else if sched.action = "stop" then do
    let errors ← eachTarget env sched "stop_vm" 0 targets
    return resultOf errors targets
  else if sched.action = "playbook" then return "success"
  else return resultOf [] targets

/-- The body of the loop after the guards. -/
def fire : Exec World RubyError PUnit := do
  Exec.modify fun world => world.markFired sched env.now
  let targets ← Exec.gets fun world => resolveTargets world.db sched
  if targets.isEmpty then emit (env.stamp sched.idSlug) (noTargetsEvent sched)
  else do
    let result ← execute env sched targets
    emit (env.stamp sched.idSlug) (executedEvent sched targets result)

end

/-- The loop over the snapshot. -/
def performEach (env : Environment) : List Schedule → Exec World RubyError PUnit
  | [] => pure ⟨⟩
  | sched :: rest => do
      if !timeMatches sched env.now then performEach env rest
      else if alreadyFiredThisMinute sched env.now then performEach env rest
      else do
        fire env sched
        performEach env rest

/-- `perform` -/
def perform (env : Environment) : Exec World RubyError PUnit := do
  let schedules ← Exec.gets fun world => snapshot world.db
  if schedules.isEmpty then pure ⟨⟩ else performEach env schedules

/-! ## The loop over the targets -/

section

variable (env : Environment) (sched : Schedule)

/-- The errors of the calls on targets from a position on. -/
def errorsFrom : Nat → List String → List String
  | _, [] => []
  | position, name :: rest =>
      ((env.cli sched.idSlug position).map fun message => name ++ ": " ++ message).toList ++
        errorsFrom (position + 1) rest

theorem callOne_apply (method name : String) (position : Nat) (world : World) :
    callOne env sched method name position world =
      (.ok ((env.cli sched.idSlug position).map fun message => name ++ ": " ++ message).toList,
        world.recordCalls [⟨sched.idSlug, method, name⟩]) := by
  unfold callOne call
  cases env.cli sched.idSlug position <;> rfl

/-- Every target is called once, in order, whatever the calls before it did. -/
theorem eachTarget_apply (method : String) (position : Nat) (targets : List String)
    (world : World) :
    eachTarget env sched method position targets world =
      (.ok (errorsFrom env sched position targets),
        world.recordCalls (targets.map fun name => ⟨sched.idSlug, method, name⟩)) := by
  induction targets generalizing position world with
  | nil =>
      rw [eachTarget, List.map_nil, World.recordCalls, List.append_nil]
      rfl
  | cons name rest ih =>
      rw [eachTarget, Exec.bind_ok (callOne_apply env sched method name position world),
        Exec.bind_ok (ih (position + 1) _), Exec.pure_apply]
      simp only [World.recordCalls, List.map_cons, List.append_assoc, List.singleton_append,
        errorsFrom]

theorem errorsFrom_eq (position : Nat) (targets : List String) :
    errorsFrom env sched position targets =
      (targets.zipIdx position).filterMap fun (name, position) =>
        (env.cli sched.idSlug position).map fun message => name ++ ": " ++ message := by
  induction targets generalizing position with
  | nil => rfl
  | cons name rest ih =>
      rw [errorsFrom, ih, List.zipIdx_cons, List.filterMap_cons]
      cases outcome : env.cli sched.idSlug position with
      | none => simp only [outcome, Option.map_none, Option.toList_none, List.nil_append]
      | some message =>
          simp only [outcome, Option.map_some, Option.toList_some, List.singleton_append]

/-- The loops call and answer what the tick of the runs calls and answers. -/
theorem execute_apply (targets : List String) (world : World) :
    execute env sched targets world =
      (.ok (Scheduler.execute env sched targets).2,
        world.recordCalls (Scheduler.execute env sched targets).1) := by
  have same : world.recordCalls [] = world := by
    rw [World.recordCalls, List.append_nil]
  unfold execute Scheduler.execute callTargets
  by_cases start : sched.action = "start"
  · rw [if_pos start, if_neg (by rw [start]; decide), if_pos start,
      Exec.bind_ok (eachTarget_apply env sched "start_vm" 0 targets world), errorsFrom_eq]
    rfl
  · rw [if_neg start, if_neg start]
    by_cases stop : sched.action = "stop"
    · rw [if_pos stop, if_neg (by rw [stop]; decide), if_pos stop,
        Exec.bind_ok (eachTarget_apply env sched "stop_vm" 0 targets world), errorsFrom_eq]
      rfl
    · rw [if_neg stop, if_neg stop]
      by_cases playbook : sched.action = "playbook"
      · rw [if_pos playbook, if_pos playbook, same]
        rfl
      · rw [if_neg playbook, if_neg playbook, same]
        rfl

theorem fire_eq : fire env sched = Scheduler.fire env sched := by
  funext world
  rw [fire_apply, fire, Exec.bind_ok (Exec.modify_apply _ world),
      Exec.bind_ok (Exec.gets_apply _ _)]
  unfold report firedWorld report
  have targets : resolveTargets (world.markFired sched env.now).db sched =
      resolveTargets (writeLastFiredAt world.db sched env.now) sched := rfl
  rw [targets]
  split
  · rw [World.recordCalls, List.append_nil]
  · rw [Exec.bind_ok (execute_apply env sched _ _)]

end

theorem performEach_eq (env : Environment) (schedules : List Schedule) :
    performEach env schedules = Scheduler.performEach env schedules := by
  induction schedules with
  | nil => rfl
  | cons sched rest ih =>
      funext world
      rw [performEach, performEach_cons, due, ih, fire_eq]
      cases timeMatches sched env.now with
      | false => rfl
      | true =>
          cases alreadyFiredThisMinute sched env.now with
          | true => rfl
          | false =>
              change (Scheduler.fire env sched >>= fun _ =>
                  Scheduler.performEach env rest) world = _
              rw [Exec.bind_apply]
              rcases Scheduler.fire env sched world with ⟨outcome, middle⟩
              cases outcome <;> rfl

/-- The job is the tick of the runs. -/
theorem perform_eq (env : Environment) : perform env = Scheduler.perform env := by
  unfold perform Scheduler.perform
  simp only [performEach_eq]

/-! ## One tick, end to end -/

/-- The result of an event: whether there was a target, and which calls raised. -/
def verdict (env : Environment) (sched : Schedule) (targets : List String) : String :=
  if targets = [] then "no_targets"
  else if ∀ position < targets.length, env.cli sched.idSlug position = none then "success"
  else if ∀ position < targets.length, env.cli sched.idSlug position ≠ none then "failed"
  else "partial"

/-- The calls for a schedule: its action, once for each target, in order. -/
def callsOf (db : Database) (sched : Schedule) : List CliCall :=
  (resolveTargets db sched).map fun name => ⟨sched.idSlug, sched.action ++ "_vm", name⟩

/-- The event tells of the schedule and of its result. -/
def Reports (env : Environment) (db : Database) (sched : Schedule) (event : Event) : Prop :=
  event.category = "schedule" ∧ event.actor = "scheduler" ∧ event.resource = some sched.name ∧
    event.result = some (verdict env sched (resolveTargets db sched))

/-- The due schedules were fired, and nothing else happened. -/
structure EndToEnd (env : Environment) (before after : World) : Prop where
  schedules : after.db.schedules = before.db.schedules.map fun sched =>
    if sched.enabled = some true ∧ due sched env.now = true then sched.withLastFiredAt env.now
    else sched
  calls : after.calls =
    before.calls ++ (dueOf env.now (snapshot before.db)).flatMap (callsOf before.db)
  events : ∃ written, after.db.events = before.db.events ++ written ∧
    List.Forall₂ (Reports env before.db) (dueOf env.now (snapshot before.db)) written
  groups : after.db.groups = before.db.groups
  assignments : after.db.assignments = before.db.assignments

section

variable (env : Environment) (sched : Schedule)

/-- No error is collected precisely if no call raised. -/
theorem errorsFrom_eq_nil_iff (position : Nat) (targets : List String) :
    errorsFrom env sched position targets = [] ↔
      ∀ later < targets.length, env.cli sched.idSlug (position + later) = none := by
  induction targets generalizing position with
  | nil => simp [errorsFrom]
  | cons name rest ih =>
      rw [List.length_cons, Nat.forall_lt_succ_left, errorsFrom, List.append_eq_nil_iff, ih]
      cases env.cli sched.idSlug position <;> simp [Nat.add_assoc, Nat.add_comm 1]

theorem length_errorsFrom_le (position : Nat) (targets : List String) :
    (errorsFrom env sched position targets).length ≤ targets.length := by
  induction targets generalizing position with
  | nil => exact Nat.le_refl 0
  | cons name rest ih =>
      have later := ih (position + 1)
      rw [errorsFrom, List.length_append, List.length_cons]
      cases env.cli sched.idSlug position <;> simp <;> omega

/-- There are as many errors as targets precisely if every call raised. -/
theorem length_errorsFrom_iff (position : Nat) (targets : List String) :
    (errorsFrom env sched position targets).length = targets.length ↔
      ∀ later < targets.length, env.cli sched.idSlug (position + later) ≠ none := by
  induction targets generalizing position with
  | nil => simp [errorsFrom]
  | cons name rest ih =>
      have bound := length_errorsFrom_le env sched (position + 1) rest
      have later := ih (position + 1)
      rw [List.length_cons, Nat.forall_lt_succ_left, errorsFrom, List.length_append]
      cases env.cli sched.idSlug position with
      | none =>
          simp only [Option.map_none, Option.toList_none, List.length_nil, ne_eq,
            not_true_eq_false, false_and, iff_false]
          omega
      | some message =>
          simp only [Nat.add_assoc, Nat.add_comm 1] at later
          simp only [Option.map_some, Option.toList_some, List.length_singleton, ne_eq,
            reduceCtorEq, not_false_eq_true, true_and, ← later]
          omega

/-- `execute` tells the failures apart. -/
theorem resultOf_errors {targets : List String} (given : targets ≠ []) :
    resultOf (errorsFrom env sched 0 targets) targets = verdict env sched targets := by
  have none := errorsFrom_eq_nil_iff env sched 0 targets
  have all := length_errorsFrom_iff env sched 0 targets
  have bound := length_errorsFrom_le env sched 0 targets
  simp only [Nat.zero_add] at none all
  rw [resultOf, verdict, if_neg given]
  by_cases quiet : errorsFrom env sched 0 targets = []
  · rw [if_pos (by rw [quiet]; rfl), if_pos (none.mp quiet)]
  · rw [if_neg (by rwa [List.isEmpty_iff]), if_neg (mt none.mpr quiet)]
    by_cases loud : (errorsFrom env sched 0 targets).length = targets.length
    · rw [if_neg (by omega), if_pos (all.mp loud)]
    · rw [if_pos (by omega), if_neg (mt all.mpr loud)]

/-- The calls and the event of a schedule that starts or stops its targets. -/
theorem report_eq (action : sched.action = "start" ∨ sched.action = "stop") (db : Database) :
    (report env sched (resolveTargets db sched)).1 = callsOf db sched ∧
      (report env sched (resolveTargets db sched)).2.category = "schedule" ∧
      (report env sched (resolveTargets db sched)).2.actor = "scheduler" ∧
      (report env sched (resolveTargets db sched)).2.resource = some sched.name ∧
      (report env sched (resolveTargets db sched)).2.result =
        some (verdict env sched (resolveTargets db sched)) := by
  unfold report callsOf
  cases targets : resolveTargets db sched with
  | nil => exact ⟨rfl, rfl, rfl, rfl, rfl⟩
  | cons name rest =>
      have given : name :: rest ≠ [] := List.cons_ne_nil name rest
      have verdictEq := resultOf_errors env sched given
      rw [errorsFrom_eq] at verdictEq
      rw [if_neg (by simp)]
      unfold Scheduler.execute callTargets executedEvent
      rcases action with isStart | isStop
      · rw [isStart, if_neg (by decide), if_pos rfl]
        exact ⟨rfl, rfl, rfl, rfl, congrArg some verdictEq⟩
      · rw [isStop, if_neg (by decide), if_neg (by decide), if_pos rfl]
        exact ⟨rfl, rfl, rfl, rfl, congrArg some verdictEq⟩

end

/-- The loop returns, calls what the due schedules call and reports each of them. -/
theorem performEach_of_fresh {env : Environment} {schedules : List Schedule} {world : World}
    (actions : ∀ sched ∈ schedules, sched.action = "start" ∨ sched.action = "stop")
    (fresh : Unused (eventIds world.db) (drawnIds env (dueOf env.now schedules))) :
    ∃ after written, Scheduler.performEach env schedules world = (.ok ⟨⟩, after) ∧
      after.calls = world.calls ++ (dueOf env.now schedules).flatMap (callsOf world.db) ∧
      after.db.events = world.db.events ++ written ∧
      List.Forall₂ (Reports env world.db) (dueOf env.now schedules) written := by
  induction schedules generalizing world with
  | nil => exact ⟨world, [], rfl, (List.append_nil _).symm, (List.append_nil _).symm, .nil⟩
  | cons sched rest ih =>
      have others := fun other member => actions other (List.mem_cons_of_mem _ member)
      rw [performEach_cons]
      by_cases passed : due sched env.now = true
      · rw [dueOf_cons_pos passed, drawnIds, List.map_cons, unused_cons_iff] at fresh
        obtain ⟨event, eventId, attributes, fired⟩ :=
          fire_of_fresh (freshStamp_iff.mpr fresh.1)
        have ids : eventIds
            ((firedWorld env sched world).setEvents (world.db.events ++ [event])).db =
              eventIds world.db ++ [(env.stamp sched.idSlug).id] := by
          simp [eventIds, World.setEvents, eventId]
        obtain ⟨after, written, returned, calls, events, reports⟩ := @ih
          ((firedWorld env sched world).setEvents (world.db.events ++ [event])) others
          (by rw [ids]; exact fresh.2)
        obtain ⟨own, category, actor, resource, result⟩ :=
          report_eq env sched (actions sched (List.mem_cons_self ..)) world.db
        have sameCalls : (firedWorld env sched world).calls = world.calls ++
            callsOf world.db sched := by
          rw [← own]
          rfl
        refine ⟨after, event :: written, ?_, ?_, ?_, ?_⟩
        · rw [if_pos passed, fired]
          exact returned
        · rw [calls, dueOf_cons_pos passed, List.flatMap_cons, ← List.append_assoc, ← sameCalls]
          rfl
        · rw [events]
          exact (List.append_cons ..).symm
        · rw [dueOf_cons_pos passed]
          refine .cons ?_ reports
          rw [Reports, attributes]
          exact ⟨category, actor, resource, result⟩
      · rw [if_neg passed, dueOf_cons_neg passed] at *
        exact ih others fresh

/-- A row is written precisely if its schedule is enabled and due. -/
theorem selected_due_iff {db : Database} (wf : db.WellFormed) {now : Int} {row : Schedule}
    (stored : row ∈ db.schedules) :
    ((dueOf now (snapshot db)).any fun sched => sched.idSlug = row.idSlug) = true ↔
      row.enabled = some true ∧ due row now = true := by
  have slugs : db.schedules.Pairwise fun first second => first.idSlug ≠ second.idSlug :=
    wf.schedules.imp fun distinct => distinct.2
  have mem_due : ∀ sched, sched ∈ dueOf now (snapshot db) ↔
      sched ∈ db.schedules ∧ sched.enabled = some true ∧ due sched now = true := by
    intro sched
    simp only [dueOf, snapshot, List.mem_filter, decide_eq_true_eq, and_assoc]
  rw [List.any_eq_true]
  constructor
  · rintro ⟨sched, isDue, sameSlug⟩
    obtain ⟨isStored, holds⟩ := (mem_due sched).mp isDue
    rwa [← Rows.eq_of_key_eq slugs isStored stored (of_decide_eq_true sameSlug)]
  · intro holds
    exact ⟨row, (mem_due row).mpr ⟨stored, holds⟩, decide_eq_true rfl⟩

theorem firedRows_due {db : Database} (wf : db.WellFormed) (now : Int) :
    firedRows now (dueOf now (snapshot db)) db.schedules = db.schedules.map fun sched =>
      if sched.enabled = some true ∧ due sched now = true then sched.withLastFiredAt now
      else sched := by
  rw [firedRows, Rows.updateWhere]
  refine List.map_congr_left fun row stored => ?_
  exact if_congr (selected_due_iff wf stored) rfl rfl

/-- If no event id is in use or drawn twice, the tick returns, and it fires every
schedule that is due, each on all its targets, and no other. -/
theorem perform_endToEnd (env : Environment) (world : World) (wf : world.db.WellFormed)
    (actions : ∀ sched ∈ snapshot world.db, sched.action = "start" ∨ sched.action = "stop")
    (fresh : Unused (eventIds world.db) (drawnIds env (dueOf env.now (snapshot world.db)))) :
    ∃ after, perform env world = (.ok ⟨⟩, after) ∧ EndToEnd env world after := by
  obtain ⟨after, written, returned, calls, events, reports⟩ := performEach_of_fresh actions fresh
  have tail : Unused (eventIds world.db)
      (drawnIds env (dueOf env.now (snapshot world.db)).dropLast) := by
    have initial := (List.dropLast_sublist (dueOf env.now (snapshot world.db))).map fun sched =>
      (env.stamp sched.idSlug).id
    exact ⟨fun id member => fresh.1 id (initial.subset member), fresh.2.sublist initial⟩
  have fired := performEach_fired env (snapshot world.db) world
  rw [returned, (firedOf_eq_dueOf_iff env _ _).mpr tail] at fired
  refine ⟨after, ?_, ?_, calls, ⟨written, events, reports⟩, fired.groups, fired.assignments⟩
  · rw [perform_eq, perform_apply]
    exact returned
  · rw [fired.schedules]
    exact firedRows_due wf env.now

/-- Two VMs to be stopped every day at nine, and a schedule for another hour. -/
def morningEdits : List Edit :=
  [.createSchedule "morning"
    { name := some "Morning stop", enabled := some "1", action := some "stop",
      time := some "09:00", groupName := none, playbook := none, days := none,
      vmNames := some ["web-1", "db-1"] },
    .createSchedule "evening"
    { name := some "Evening start", enabled := some "1", action := some "start",
      time := some "21:00", groupName := none, playbook := none, days := none,
      vmNames := some ["web-1"] }]

def morningDatabase : Database := morningEdits.foldl Database.apply Database.empty

/-- Nine o'clock, and the first of the calls raises. -/
def morningTick : Environment where
  now := Calendar.instantOf ⟨2024, 1, 15⟩ 9 0 5
  cli _ position := if position = 0 then some "instance is busy" else none
  stamp _ := ⟨1705309205, "00a1"⟩

theorem perform_endToEnd_morning :
    ∃ after, perform morningTick ⟨morningDatabase, [], []⟩ = (.ok ⟨⟩, after) ∧
      EndToEnd morningTick ⟨morningDatabase, [], []⟩ after :=
  perform_endToEnd morningTick ⟨morningDatabase, [], []⟩
    (Database.wellFormed_of_reachable ⟨morningEdits, Database.run_editStep _ _⟩) (by decide)
    ⟨by decide, by decide⟩

/-! ## The writer between two schedules -/

/-- A firing lets the tick go on precisely if its draw is not in the log yet. -/
theorem fire_returns_iff (env : Environment) (sched : Schedule) (world : World) :
    (fire env sched world).1 = .ok ⟨⟩ ↔ FreshStamp env world.db sched := by
  rw [fire_eq]
  by_cases fresh : FreshStamp env world.db sched
  · obtain ⟨event, _, _, fired⟩ := fire_of_fresh fresh
    rw [fired]
    exact iff_of_true rfl fresh
  · obtain ⟨raised, fired⟩ := fire_of_used fresh
    rw [fired]
    exact iff_of_false nofun fresh

/-- The audit writer keeps its contract, whatever its arguments, precisely if it
rejects them or is given an action and draws an unused id; so a firing lets the tick
go on precisely if it draws an unused id. -/
theorem auditWriter_iff (stamp : EventStamp) (arguments : Event.Arguments) (events : List Event)
    (env : Environment) (sched : Schedule) (world : World) :
    (Event.WriterContract events (Event.emitAny stamp arguments events).1
          (Event.emitAny stamp arguments events).2 ↔
        arguments.accepted = false ∨
          arguments.action ≠ none ∧ ∀ event ∈ events, event.id ≠ stamp.id) ∧
      ((fire env sched world).1 = .ok ⟨⟩ ↔ FreshStamp env world.db sched) :=
  ⟨Event.emitAny_writerContract_iff arguments, fire_returns_iff env sched world⟩

def startEvent : EventAttributes :=
  { category := "vm", action := "start", actor := "user", resource := some "web",
    result := some "success", detail := none, endpoint := none, payload := none }

/-- The arguments of the same event, passed to the writer once more. -/
def startArguments : Event.Arguments :=
  { category := some "vm", action := some "start", actor := some "user", resource := some "web",
    result := some "success", detail := none, endpoint := none, payload := none }

/-- In the second in which a row with the same four digits was written, the writer
raises. -/
theorem sameDraw_raises :
    (Event.emitAny ⟨1751920000, "00a1"⟩ startArguments
        [⟨startEvent, "1751920000-00a1", by decide⟩]).1 =
      .error (.recordNotUnique "events.id") ∧
    ¬ Event.WriterContract [⟨startEvent, "1751920000-00a1", by decide⟩]
        (Event.emitAny ⟨1751920000, "00a1"⟩ startArguments
          [⟨startEvent, "1751920000-00a1", by decide⟩]).1
        (Event.emitAny ⟨1751920000, "00a1"⟩ startArguments
          [⟨startEvent, "1751920000-00a1", by decide⟩]).2 := by
  have raised : Event.emitAny ⟨1751920000, "00a1"⟩ startArguments
      [⟨startEvent, "1751920000-00a1", by decide⟩] =
        (.error (.recordNotUnique "events.id"),
          [⟨startEvent, "1751920000-00a1", by decide⟩]) := rfl
  rw [raised]
  exact ⟨rfl, Event.not_writerContract_error _ _ _⟩

end MultipassWebui.Scheduler.Job
