import MultipassWebui.Installation.System
import MultipassWebui.Scheduler.Reporting
import MultipassWebui.Transition.Journal
import MultipassWebui.Web.RowIds

/-!
# The audit log of a run

The log only grows, whatever happens in whatever order, and every row in it was
written either by a visit that was let in and came as far as its row, or by a
tick for a schedule that was due.  No id is used twice.
-/

namespace MultipassWebui.Installation

open MultipassWebui.Effect
open MultipassWebui.Records
open MultipassWebui.Scheduler (Row reportRow reportsOf rowOf eventIds snapshot)
open MultipassWebui.Transition
open MultipassWebui.Web

/-- The rows of the log. -/
def State.rows (state : State) : List Row := state.log.map rowOf

/-- The row that a visit writes: it is let in, its action asks for a row, and the
drawn id is not in use. -/
def Visit.Writes (visit : Visit) (action : Action) (state : State) (row : Row) : Prop :=
  visit.Authentic state ∧ Fresh visit.stamp state.log ∧ row.1 = visit.stamp.id ∧
    ∃ entry, action.Asks (visit.siteIn (visit.begun action state)) visit.request
      ((visit.begun action state).part action) entry ∧ row.2 = entry.attributes visit.request

/-- The rows that a step writes. -/
def Wrote (state : State) : Happening → Row → Prop
  | .visit visit action, row => visit.Writes action state row
  | .tick env, row =>
      row ∈ reportsOf env state.database (eventIds state.database) (snapshot state.database)
  | _, _ => False

/-! ## The steps that write nothing -/

section

variable {state : State}

@[simp]
theorem log_setAccounts (store : Auth.Store) (state : State) :
    (state.setAccounts store).log = state.log :=
  rfl

@[simp]
theorem log_setLog (events : List Event) (state : State) : (state.setLog events).log = events :=
  rfl

/-- A page of the console leaves the log alone. -/
theorem keeps_consoleReply (env : Multipass.Environment) (message : RubyError → String)
    (request : Request) (spawn : Terminals.SpawnEnvironment) (sessionId : String) :
    Exec.Keeps (fun before after : App ShellHost => before.events = after.events)
      (VmsController.consoleReply env message request spawn sessionId) := by
  have quiet : ∀ {α : Type} (body : Exec ShellHost RubyError α),
      Exec.Keeps (fun before after : App ShellHost => before.events = after.events)
        (onState body) := fun _ _ => rfl
  have : IsPreorder (App ShellHost) fun before after => before.events = after.events :=
    { refl := fun _ => rfl, trans := fun _ _ _ first second => first.trans second }
  unfold VmsController.consoleReply VmsController.afterVmName replyToCommandError
  split
  · split_ifs
    · apply Exec.keeps_rescue
      · refine Exec.keeps_bind (quiet _) fun _ => Exec.keeps_bind (quiet _) fun existing => ?_
        cases existing.head? with
        | some _ => exact Exec.keeps_pure _
        | none => exact Exec.keeps_bind (quiet _) fun _ => Exec.keeps_pure _
      · intro error handled handles
        split_ifs at handles
        · cases handles
          exact Exec.keeps_pure _
        · cases handles
    · exact Exec.keeps_pure _
  · exact Exec.keeps_pure _

/-- A page of the console concerns the shells, once it is let in. -/
theorem console_eq (visit : Visit) (message : RubyError → String) (state : State) :
    (∃ shells, (visit.console message state).2 = { visit.begun .openShell state with shells }) ∨
      (visit.console message state).2 = visit.admitted state := by
  by_cases authentic : visit.Authentic state
  · left
    let begun := visit.begun .openShell state
    let app : App ShellHost := ⟨begun.shells, begun.log⟩
    let reply := VmsController.consoleReply visit.site.multipass message visit.request
      visit.site.spawn visit.site.sessionId
    have kept : app.events = (reply app).2.events := keeps_consoleReply _ _ _ _ _ app
    refine ⟨(reply app).2.state, ?_⟩
    rw [Visit.console, Exec.bind_ok (Visit.loggedIn_of_authentic authentic), if_pos rfl,
      Exec.bind_ok (Exec.modify_apply _ _), Exec.bind_state fun _ _ => rfl]
    change State.setLog (reply app).2.events { begun with shells := (reply app).2.state } = _
    rw [← kept]
    rfl
  · right
    rw [Visit.console, Exec.bind_ok (Visit.loggedIn_of_not_authentic authentic),
      if_neg Bool.false_ne_true]
    rfl

/-! ## The steps that write -/

/-- An action writes the row that it asks for under its own id, if that id is unused. -/
theorem events_act {visit : Visit} {action : Action} :
    ∃ added, (visit.act action state).2.log = state.log ++ added ∧ (added.map Event.id).Nodup ∧
      ∀ row, row ∈ added.map rowOf ↔ Fresh visit.stamp state.log ∧ row.1 = visit.stamp.id ∧
        ∃ entry, action.Asks (visit.siteIn state) visit.request (state.part action) entry ∧
          row.2 = entry.attributes visit.request := by
  let app : App action.State := ⟨state.part action, state.log⟩
  have recording := @recording_perform visit.stamp visit.request (visit.siteIn state) action app
  change ∃ added, (action.perform (visit.siteIn state) visit.stamp visit.request app).2.events =
    app.events ++ added ∧ _
  by_cases recorded : Fresh visit.stamp app.events ∧
      ∃ entry, action.Asks (visit.siteIn state) visit.request app.state entry
  · rcases recorded with ⟨fresh, entry, asked⟩
    rcases (recording.row entry asked fresh).1 with ⟨event, attributes, extended⟩
    have eventId : event.id = visit.stamp.id := by
      rcases Action.stamped_perform (visit.siteIn state) action app with ⟨added, isAdded, ids⟩
      have same : added = [event] := List.append_cancel_left (isAdded.symm.trans extended)
      exact ids event (same ▸ List.mem_singleton_self event)
    refine ⟨[event], extended, List.nodup_singleton _, fun row => ?_⟩
    rw [List.map_singleton, List.mem_singleton]
    constructor
    · rintro rfl
      exact ⟨fresh, eventId, entry, asked, attributes⟩
    · rintro ⟨_, isId, other, otherAsked, isEntry⟩
      rcases (recording.row other otherAsked fresh).1 with ⟨again, otherAttributes, alsoExtended⟩
      have same : [again] = [event] := List.append_cancel_left (alsoExtended.symm.trans extended)
      rw [List.singleton_inj.mp same] at otherAttributes
      exact Prod.ext (isId.trans eventId.symm) (isEntry.trans otherAttributes.symm)
  · refine ⟨[], ?_, List.nodup_nil, fun row => ?_⟩
    · rw [List.append_nil]
      exact recording.otherwise fun entry asked fresh => recorded ⟨fresh, entry, asked⟩
    · apply iff_of_false List.not_mem_nil
      rintro ⟨fresh, _, entry, asked, _⟩
      exact recorded ⟨fresh, entry, asked⟩

/-- A visit. -/
theorem rows_visit (visit : Visit) (action : Action) (state : State) :
    ∃ added, (visit.perform action state).2.log = state.log ++ added ∧
      (added.map Event.id).Nodup ∧
        ∀ row, row ∈ added.map rowOf ↔ visit.Writes action state row := by
  by_cases authentic : visit.Authentic state
  · rw [Visit.perform_of_authentic authentic]
    rcases @events_act (visit.begun action state) visit action with
      ⟨added, extended, distinct, rows⟩
    rw [Visit.log_begun] at extended
    refine ⟨added, extended, distinct, fun row => (rows row).trans ?_⟩
    rw [Visit.Writes, Visit.log_begun, and_iff_right authentic]
  · rw [Visit.perform_of_not_authentic authentic]
    refine ⟨[], (List.append_nil _).symm, List.nodup_nil, fun row => ?_⟩
    exact iff_of_false List.not_mem_nil fun writes => authentic writes.1

/-! ## All steps -/

/-- Every step extends the log by rows, and these are the rows that it writes. -/
theorem rows_next {target : State} {happening : Happening}
    (step : next state happening = some target) :
    ∃ added, target.log = state.log ++ added ∧ (added.map Event.id).Nodup ∧
      ∀ row, row ∈ added.map rowOf ↔ Wrote state happening row := by
  have quiet : ∀ other : State, other.log = state.log → ∃ added,
      other.log = state.log ++ added ∧ (added.map Event.id).Nodup ∧
        ∀ row, row ∈ added.map rowOf ↔ False := by
    intro other same
    refine ⟨[], ?_, List.nodup_nil, fun _ => iff_of_false List.not_mem_nil id⟩
    rw [same, List.append_nil]
  cases happening with
  | visit visit action =>
      cases step
      exact rows_visit visit action state
  | console visit message =>
      cases step
      rcases console_eq visit message state with ⟨shells, same⟩ | same
      · rw [same]
        exact quiet _ (@Visit.log_begun visit state .openShell)
      · rw [same]
        exact quiet _ rfl
  | signIn form =>
      cases step
      exact quiet _ rfl
  | signOut crypto now headers =>
      cases step
      exact quiet _ rfl
  | tick env =>
      cases step
      rcases Scheduler.perform_events env ⟨state.database, [], []⟩ with ⟨added, extended, rows⟩
      have ids : added.map Event.id = (added.map rowOf).map Prod.fst := by
        rw [List.map_map]
        rfl
      refine ⟨added, extended, ?_, fun row => ?_⟩
      · rw [ids, rows]
        exact Scheduler.nodup_reportsOf _ _ _ _
      · rw [rows]
        rfl
  | sweep now =>
      cases step
      exact quiet _ rfl
  | shells turn =>
      rcases Option.map_eq_some_iff.mp step with ⟨server, _, rfl⟩
      exact quiet _ rfl

theorem appends : Appends next State.rows Wrote where
  extends_log state happening target step := by
    rcases rows_next step with ⟨added, extended, _, _⟩
    rw [State.rows, State.rows, extended, List.map_append]
    exact List.prefix_append _ _
  mem_iff state happening target step row := by
    rcases rows_next step with ⟨added, extended, _, rows⟩
    rw [State.rows, State.rows, extended, List.map_append, List.mem_append, rows]

/-- A row is written under an id that is not in use. -/
theorem not_mem_eventIds_of_wrote {happening : Happening} {row : Row}
    (wrote : Wrote state happening row) : row.1 ∉ eventIds state.database := by
  cases happening with
  | visit visit action =>
      rcases wrote with ⟨_, fresh, isId, _⟩
      rw [isId]
      intro member
      rcases List.mem_map.mp member with ⟨event, among, same⟩
      exact fresh event among same
  | tick env =>
      rcases Scheduler.of_mem_reportsOf wrote with ⟨_, _, _, _, unused⟩
      exact unused
  | _ => cases wrote

theorem nodup_next {target : State} {happening : Happening}
    (step : next state happening = some target) (distinct : (eventIds state.database).Nodup) :
    (eventIds target.database).Nodup := by
  rcases rows_next step with ⟨added, extended, distinctAdded, rows⟩
  have ids : eventIds target.database = eventIds state.database ++ added.map Event.id := by
    rw [eventIds, eventIds, ← List.map_append]
    exact congrArg (List.map Event.id) extended
  rw [ids]
  refine List.nodup_append.mpr ⟨distinct, distinctAdded, ?_⟩
  intro id used other member same
  rcases List.mem_map.mp member with ⟨event, among, rfl⟩
  have wrote := (rows (rowOf event)).mp (List.mem_map_of_mem among)
  rw [same] at used
  exact not_mem_eventIds_of_wrote wrote used

end

/-- The log of a run: it starts with what was there before, holds besides precisely
the rows that the steps of the run wrote, and uses no id twice. -/
theorem log_of_run {start target : State} {happenings : List Happening}
    (executed : run next start happenings = some target) :
    start.rows <+: target.rows ∧
      (∀ row, row ∈ target.rows ↔ row ∈ start.rows ∨ Written next Wrote start happenings row) ∧
      ((eventIds start.database).Nodup → (eventIds target.database).Nodup) := by
  refine ⟨appends.run_extends executed, appends.run_mem_iff executed, fun distinct => ?_⟩
  exact run_preserves (fun _ _ _ kept step => nodup_next step kept) distinct executed

theorem log_of_run_opening :
    ∃ target, run next (first emptyDisk) opening = some target ∧
      (first emptyDisk).rows <+: target.rows ∧
      (∀ row, row ∈ target.rows ↔ row ∈ (first emptyDisk).rows ∨
        Written next Wrote (first emptyDisk) opening row) ∧
      ((eventIds (first emptyDisk).database).Nodup → (eventIds target.database).Nodup) :=
  ⟨_, rfl, log_of_run rfl⟩

end MultipassWebui.Installation
