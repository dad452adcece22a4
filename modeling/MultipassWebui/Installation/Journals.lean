import MultipassWebui.Installation.Integrity
import MultipassWebui.Installation.Log

/-!
# The audit log as a journal

The webhooks, the profiles, the schedules and the API tokens that exist can be
read off the audit log: replaying the rows about their creation and deletion
gives the names in their tables, in order.  The log loses track only if a row
cannot be written because the id drawn for it is in use.
-/

namespace MultipassWebui.Installation

open MultipassWebui.Effect
open MultipassWebui.Records
open MultipassWebui.Scheduler (Row rowOf)
open MultipassWebui.Transition
open MultipassWebui.Web
open MultipassWebui.Web.ApiTokensController (DistinctTokens tokenNames)
open MultipassWebui.Web.SchedulesController (slugs)

/-! ## Registers -/

/-- A table whose names the log keeps track of: the category of its rows, the actions
that enter a name and strike it out, and the names that are in the table. -/
structure Register where
  category : String
  enters : String
  strikes : String
  names : State → List String

namespace Register

def webhooks : Register where
  category := "config"
  enters := "create_webhook"
  strikes := "delete_webhook"
  names state := state.webhooks.map Migration.Webhook.idSlug

def profiles : Register where
  category := "config"
  enters := "create_profile"
  strikes := "delete_profile"
  names state := state.profiles.map fun profile => profile.idSlug

def schedules : Register where
  category := "schedule"
  enters := "create_schedule"
  strikes := "delete_schedule"
  names state := slugs state.database

def tokens : Register where
  category := "config"
  enters := "create_token"
  strikes := "delete_token"
  names state := tokenNames state.credentials

def all : List Register := [webhooks, profiles, schedules, tokens]

/-- What a row of the log says about the names, by its category and its action. -/
def change (register : Register) (label : String × String) : String → List String → List String :=
  if label = (register.category, register.enters) then enterName
  else if label = (register.category, register.strikes) then strikeName
  else keepNames

/-- Replay one row. -/
def enter (register : Register) (names : List String) (row : Row) : List String :=
  match row.2.resource with
  | none => names
  | some name => register.change (row.2.category, row.2.action) name names

end Register

/-! ## The labels of the rows -/

/-- The category and the action of the row that an action writes. -/
def label : Action → String × String
  | .updateSettings => ("config", "update_settings")
  | .webhooks .create => ("config", "create_webhook")
  | .webhooks .update => ("config", "update_webhook")
  | .webhooks .destroy => ("config", "delete_webhook")
  | .profiles .create => ("config", "create_profile")
  | .profiles .update => ("config", "update_profile")
  | .profiles .destroy => ("config", "delete_profile")
  | .schedules .create => ("schedule", "create_schedule")
  | .schedules .update => ("schedule", "update_schedule")
  | .schedules .destroy => ("schedule", "delete_schedule")
  | .createToken => ("config", "create_token")
  | .destroyToken => ("config", "delete_token")
  | .templates .show => ("config", "show_cloud_init_template")
  | .templates .edit => ("config", "edit_cloud_init_template")
  | .templates .create => ("config", "create_cloud_init_template")
  | .templates .update => ("config", "update_cloud_init_template")
  | .templates .destroy => ("config", "delete_cloud_init_template")
  | .playbooks .create => ("ansible", "create_playbook")
  | .playbooks .update => ("ansible", "update_playbook")
  | .playbooks .destroy => ("ansible", "delete_playbook")
  | .vms .create => ("vm", "create")
  | .vms .destroy => ("vm", "delete")
  | .vms .start => ("vm", "start")
  | .vms .stop => ("vm", "stop")
  | .vms .suspend => ("vm", "suspend")
  | .vms .recover => ("vm", "recover")
  | .vms .clone => ("vm", "clone")
  | .vms .updateResourceConfig => ("vm", "resize")
  | .vms .startAll => ("vm", "start_all")
  | .vms .stopAll => ("vm", "stop_all")
  | .vms .purge => ("vm", "purge")
  | .openShell => ("vm", "open_shell")
  | .closeShell => ("vm", "close_shell")

section

variable {site : ActionEnvironment} {request : Request} {entry : AuditEntry}

theorem label_of_attempted {α : Type} {verb detail : String} {resource : α → Option String}
    {named : Option String} {body : Exec Multipass.Host RubyError α} {host : Multipass.Host}
    (asked : Attempted verb resource detail named body host entry) :
    (entry.category, entry.action) = ("vm", verb) := by
  rcases asked with ⟨_, _, rfl⟩ | ⟨_, _, rfl⟩
  · rfl
  · rfl

theorem label_of_vms {action : VmsController.Action} {host : Multipass.Host}
    (asked : VmsController.Asks site.multipass request host entry action) :
    (entry.category, entry.action) = label (.vms action) := by
  cases action with
  | create => exact label_of_attempted asked
  | destroy | clone | updateResourceConfig =>
      rcases asked with ⟨_, _, _, rfl⟩
      rfl
  | start | stop | suspend | recover => exact label_of_attempted asked.2
  | startAll | stopAll | purge => exact asked.2.elim

/-- The row that an action asks for has its label. -/
theorem label_of_asks {action : Action} {part : action.State}
    (asked : action.Asks site request part entry) :
    (entry.category, entry.action) = label action := by
  cases action with
  | updateSettings =>
      rcases asked with ⟨_, rfl⟩
      rfl
  | webhooks change | profiles change | schedules change | playbooks change =>
      cases change with
      | create | update | destroy =>
          rcases asked with ⟨_, _, rfl⟩
          rfl
  | createToken | destroyToken =>
      rcases asked with ⟨_, _, rfl⟩
      rfl
  | templates action =>
      cases action with
      | «show» | edit => exact asked.elim
      | create | update | destroy =>
          rcases asked with ⟨_, _, rfl⟩
          rfl
  | vms action => exact label_of_vms asked
  | openShell =>
      rcases asked with ⟨_, _, _, _, rfl⟩
      rfl
  | closeShell =>
      rcases asked with ⟨_, _, _, rfl⟩
      rfl

end

/-! ## One action -/

section

variable {register : Register} {visit : Visit} {state : State} {action : Action}

/-- The log and the names of a register go together from one state to another. -/
abbrev Register.Follows (register : Register) : State → State → Prop :=
  Journaled register.enter State.rows register.names

/-- Nothing is written and the names stay. -/
theorem Register.follows_of_quiet {target : State} (sameLog : target.log = state.log)
    (sameNames : register.names target = register.names state) :
    register.Follows state target := by
  refine ⟨[], ?_, sameNames⟩
  rw [State.rows, State.rows, sameLog, List.append_nil]

/-- An action on another table writes rows that do not concern the register. -/
theorem follows_elsewhere (elsewhere : register.change (label action) = keepNames)
    (sameNames : register.names (visit.act action state).2 = register.names state) :
    register.Follows state (visit.act action state).2 := by
  rcases @events_act state visit action with ⟨added, extended, _, rows⟩
  refine ⟨added.map rowOf, ?_, ?_⟩
  · rw [State.rows, State.rows, extended, List.map_append]
  · rw [sameNames, replay_of_ignored]
    intro row member names
    rcases (rows row).mp member with ⟨_, _, entry, asked, isRow⟩
    have labelled := label_of_asks asked
    unfold Register.enter
    rw [isRow]
    cases resource : (entry.attributes visit.request).resource with
    | none => rfl
    | some name =>
        change register.change (entry.category, entry.action) name names = names
        rw [labelled, elsewhere, keepNames]

/-- An action that changes the table of the register, and writes that to the log. -/
theorem follows_recordedIf {names : action.State → List String} {I : action.State → Prop}
    {body : Exec action.State RubyError (Option String)} {category verb : String}
    (isLabel : label action = (category, verb))
    (moves : Moves I names (register.change (label action)) body)
    (asks : ∀ part, action.Asks (visit.siteIn state) visit.request part =
      Saved category verb body part)
    (changes : ∀ app : App action.State,
      (action.perform (visit.siteIn state) visit.stamp visit.request app).2.state =
        (body app.state).2)
    (view : ∀ part events, register.names ((state.setPart action part).setLog events) = names part)
    (here : register.names state = names (state.part action)) (holds : I (state.part action))
    (fresh : Fresh visit.stamp state.log) :
    register.Follows state (visit.act action state).2 := by
  let app : App action.State := ⟨state.part action, state.log⟩
  have recording := @recording_perform visit.stamp visit.request (visit.siteIn state) action app
  have after : register.names (visit.act action state).2 = names (body app.state).2 := by
    rw [← changes app]
    exact view _ _
  by_cases named : ∃ name, (body app.state).1 = .ok (some name)
  · rcases named with ⟨name, returned⟩
    have asked : action.Asks (visit.siteIn state) visit.request app.state
        ⟨category, verb, some name, "success", none⟩ := by
      rw [asks]
      exact ⟨name, returned, rfl⟩
    rcases (recording.row _ asked fresh).1 with ⟨event, attributes, extended⟩
    refine ⟨[rowOf event], ?_, ?_⟩
    · have sameLog : (visit.act action state).2.log = state.log ++ [event] := extended
      rw [State.rows, State.rows, sameLog, List.map_append, List.map_singleton]
    · have entered : register.enter (register.names state) (rowOf event) =
          register.change (label action) name (register.names state) := by
        rw [Register.enter, rowOf, attributes, isLabel]
        rfl
      rw [after, moves.named _ holds name returned, replay_cons, replay_nil, entered, here]
  · have silent : ∀ name, (body app.state).1 ≠ .ok (some name) :=
      fun name returned => named ⟨name, returned⟩
    apply Register.follows_of_quiet
    · apply recording.otherwise
      intro entry asked
      rw [asks] at asked
      rcases asked with ⟨name, returned, _⟩
      exact absurd returned (silent name)
    · rw [after, moves.unnamed _ holds silent, here]

end

/-! ## The actions of the registers -/

section

/-! ### Actions on other tables -/

theorem Register.change_of_ne {register : Register} {label : String × String}
    (entersNot : label ≠ (register.category, register.enters))
    (strikesNot : label ≠ (register.category, register.strikes)) :
    register.change label = keepNames := by
  rw [change, if_neg entersNot, if_neg strikesNot]

/-- The register whose table an action changes. -/
def owner : Action → Option Register
  | .webhooks _ => some .webhooks
  | .profiles _ => some .profiles
  | .schedules _ => some .schedules
  | .createToken | .destroyToken => some .tokens
  | _ => none

/-- The rows of an action do not concern the tables that it does not change. -/
theorem Register.change_elsewhere {register : Register} {action : Action}
    (member : register ∈ Register.all) (elsewhere : owner action ≠ some register) :
    register.change (label action) = keepNames := by
  simp only [Register.all, List.mem_cons, List.not_mem_nil, or_false] at member
  apply Register.change_of_ne
  all_goals
    rcases member with rfl | rfl | rfl | rfl
    all_goals
      cases action with
      | webhooks change | profiles change | schedules change =>
          first
          | exact absurd rfl elsewhere
          | cases change <;> simp [label, webhooks, profiles, schedules, tokens]
      | playbooks action | templates action | vms action =>
          cases action <;> simp [label, webhooks, profiles, schedules, tokens]
      | createToken | destroyToken =>
          first
          | exact absurd rfl elsewhere
          | simp [label, webhooks, profiles, schedules]
      | updateSettings | openShell | closeShell =>
          simp [label, webhooks, profiles, schedules, tokens]

/-! ### All actions -/

variable {visit : Visit} {state : State}

theorem follows_webhooks (fresh : Fresh visit.stamp state.log) (action : Action) :
    Register.webhooks.Follows state (visit.act action state).2 := by
  cases action with
  | webhooks change =>
      cases change with
      | create =>
          exact follows_recordedIf rfl WebhooksController.moves_create (fun _ => rfl)
            (recordedIf_state _) (fun _ _ => rfl) rfl trivial fresh
      | update =>
          exact follows_recordedIf rfl WebhooksController.moves_update (fun _ => rfl)
            (recordedIf_state _) (fun _ _ => rfl) rfl trivial fresh
      | destroy =>
          exact follows_recordedIf rfl WebhooksController.moves_destroy (fun _ => rfl)
            (recordedIf_state _) (fun _ _ => rfl) rfl trivial fresh
  | _ =>
      apply follows_elsewhere (Register.change_elsewhere (by simp [Register.all]) ?_) rfl
      simp [owner, Register.webhooks, Register.profiles, Register.schedules, Register.tokens]

theorem follows_profiles (fresh : Fresh visit.stamp state.log) (action : Action) :
    Register.profiles.Follows state (visit.act action state).2 := by
  cases action with
  | profiles change =>
      cases change with
      | create =>
          exact follows_recordedIf rfl ProfilesController.moves_create (fun _ => rfl)
            (recordedIf_state _) (fun _ _ => rfl) rfl trivial fresh
      | update =>
          exact follows_recordedIf rfl ProfilesController.moves_update (fun _ => rfl)
            (recordedIf_state _) (fun _ _ => rfl) rfl trivial fresh
      | destroy =>
          exact follows_recordedIf rfl ProfilesController.moves_destroy (fun _ => rfl)
            (recordedIf_state _) (fun _ _ => rfl) rfl trivial fresh
  | _ =>
      apply follows_elsewhere (Register.change_elsewhere (by simp [Register.all]) ?_) rfl
      simp [owner, Register.webhooks, Register.profiles, Register.schedules, Register.tokens]

theorem follows_schedules (fresh : Fresh visit.stamp state.log) (action : Action) :
    Register.schedules.Follows state (visit.act action state).2 := by
  cases action with
  | schedules change =>
      cases change with
      | create =>
          exact follows_recordedIf rfl SchedulesController.moves_create (fun _ => rfl)
            (recordedIf_state _) (fun _ _ => rfl) rfl trivial fresh
      | update =>
          exact follows_recordedIf rfl SchedulesController.moves_update (fun _ => rfl)
            (recordedIf_state _) (fun _ _ => rfl) rfl trivial fresh
      | destroy =>
          exact follows_recordedIf rfl SchedulesController.moves_destroy (fun _ => rfl)
            (recordedIf_state _) (fun _ _ => rfl) rfl trivial fresh
  | _ =>
      apply follows_elsewhere (Register.change_elsewhere (by simp [Register.all]) ?_) rfl
      simp [owner, Register.webhooks, Register.profiles, Register.schedules, Register.tokens]

theorem follows_tokens (sound : Sound state) (fresh : Fresh visit.stamp state.log)
    (action : Action) : Register.tokens.Follows state (visit.act action state).2 := by
  cases action with
  | createToken =>
      refine follows_recordedIf rfl ApiTokensController.moves_create (fun _ => rfl) ?_
        (fun _ _ => rfl) rfl (sound.part .createToken).toDistinctTokens fresh
      exact fun app => (rescueInvalid_state _ app).trans (recordedIf_state _ app)
  | destroyToken =>
      exact follows_recordedIf rfl ApiTokensController.moves_destroy (fun _ => rfl)
        (recordedIf_state _) (fun _ _ => rfl) rfl (sound.part .destroyToken).toDistinctTokens fresh
  | _ =>
      apply follows_elsewhere (Register.change_elsewhere (by simp [Register.all]) ?_) rfl
      simp [owner, Register.webhooks, Register.profiles, Register.schedules, Register.tokens]

theorem follows_act (sound : Sound state) (fresh : Fresh visit.stamp state.log) (action : Action)
    {register : Register} (member : register ∈ Register.all) :
    register.Follows state (visit.act action state).2 := by
  simp only [Register.all, List.mem_cons, List.not_mem_nil, or_false] at member
  rcases member with rfl | rfl | rfl | rfl
  · exact follows_webhooks fresh action
  · exact follows_profiles fresh action
  · exact follows_schedules fresh action
  · exact follows_tokens sound fresh action

end

/-! ## All steps -/

section

variable {state : State} {register : Register}

/-- Neither the log nor one of the four tables changes. -/
theorem follows_of_same {target : State} (sameLog : target.log = state.log)
    (sameWebhooks : target.webhooks = state.webhooks)
    (sameProfiles : target.profiles = state.profiles)
    (sameSchedules : target.database.schedules = state.database.schedules)
    (sameTokens : target.credentials.apiTokens = state.credentials.apiTokens)
    (member : register ∈ Register.all) : register.Follows state target := by
  apply Register.follows_of_quiet sameLog
  simp only [Register.all, List.mem_cons, List.not_mem_nil, or_false] at member
  rcases member with rfl | rfl | rfl | rfl
  · exact congrArg (List.map Migration.Webhook.idSlug) sameWebhooks
  · exact congrArg (List.map fun profile => profile.idSlug) sameProfiles
  · exact congrArg (List.map fun sched => sched.idSlug) sameSchedules
  · exact congrArg (List.map fun token => token.name) sameTokens

theorem apiTokens_login (crypto : Auth.Crypto) (now : Int) (username password raw : String)
    (ipAddress userAgent : Option String) (store : Auth.Store) :
    (Auth.login crypto now username password raw ipAddress userAgent store).2.apiTokens =
      store.apiTokens := by
  have : IsPreorder Auth.Store fun before after => after.apiTokens = before.apiTokens :=
    { refl := fun _ => rfl, trans := fun _ _ _ first second => second.trans first }
  have keeps : Exec.Keeps (fun before after => after.apiTokens = before.apiTokens)
      (Auth.login crypto now username password raw ipAddress userAgent) := by
    refine Exec.keeps_bind (Exec.keeps_bind (Exec.keeps_gets _) fun found => ?_) fun setting => ?_
    · cases found with
      | some setting => exact Exec.keeps_pure _
      | none => exact Exec.keeps_bind (fun _ => rfl) fun _ => Exec.keeps_pure _
    · split_ifs
      · refine Exec.keeps_bind (Exec.keeps_bind ?_ fun _ => Exec.keeps_pure _) fun _ =>
          Exec.keeps_pure _
        intro before
        unfold Auth.Session.create
        split_ifs
        · rfl
        · rfl
      · exact Exec.keeps_pure _
  exact keeps store

/-- The rows of a tick do not concern the registers. -/
theorem enter_reportRow (env : Scheduler.Environment) (db : Database) (sched : Schedule)
    (names : List String) (member : register ∈ Register.all) :
    register.enter names (Scheduler.reportRow env db sched) = names := by
  have verbs : (Scheduler.reportRow env db sched).2.action ∈ "tick" :: ACTIONS := by
    unfold Scheduler.reportRow Scheduler.report
    split_ifs
    · exact List.mem_cons_self
    · have valid := sched.valid
      simp only [ScheduleAttributes.errors, List.append_eq_nil_iff, validate_eq_nil_iff] at valid
      exact List.mem_cons_of_mem _ (List.contains_iff_mem.mp valid.1.1.2)
  have category : (Scheduler.reportRow env db sched).2.category = "schedule" := by
    unfold Scheduler.reportRow Scheduler.report
    split_ifs
    · rfl
    · rfl
  unfold Register.enter
  cases (Scheduler.reportRow env db sched).2.resource with
  | none => rfl
  | some name =>
      dsimp only
      rw [category, Register.change_of_ne]
      · rfl
      all_goals
        simp only [ACTIONS, List.mem_cons, List.not_mem_nil, or_false] at verbs
        simp only [Register.all, List.mem_cons, List.not_mem_nil, or_false] at member
        rcases member with rfl | rfl | rfl | rfl
        · simp [Register.webhooks]
        · simp [Register.profiles]
        · rcases verbs with verb | verb | verb | verb <;> simp [verb, Register.schedules]
        · simp [Register.tokens]

theorem follows_tick (env : Scheduler.Environment) (member : register ∈ Register.all) :
    register.Follows state (tick env state).2 := by
  rcases Scheduler.perform_events env ⟨state.database, [], []⟩ with ⟨added, extended, rows⟩
  have sameNames : register.names (tick env state).2 = register.names state := by
    simp only [Register.all, List.mem_cons, List.not_mem_nil, or_false] at member
    rcases member with rfl | rfl | rfl | rfl
    · rfl
    · rfl
    · exact Scheduler.perform_slugs env ⟨state.database, [], []⟩
    · rfl
  refine ⟨added.map rowOf, ?_, ?_⟩
  · have sameLog : (tick env state).2.log = state.log ++ added := extended
    rw [State.rows, State.rows, sameLog, List.map_append]
  · rw [sameNames, replay_of_ignored]
    intro row among names
    rw [rows] at among
    rcases Scheduler.of_mem_reportsOf among with ⟨sched, _, _, rfl, _⟩
    exact enter_reportRow env state.database sched names member

/-- A visit that is let in draws an id that is not in use. -/
def DrawsFresh (state : State) : Happening → Prop
  | .visit visit _ => visit.Authentic state → Fresh visit.stamp state.log
  | _ => True

theorem follows_next {target : State} {happening : Happening} (sound : Sound state)
    (drawn : DrawsFresh state happening) (step : next state happening = some target)
    (member : register ∈ Register.all) : register.Follows state target := by
  have admitted : ∀ visit : Visit, register.Follows state (visit.admitted state) := fun visit =>
    follows_of_same rfl rfl rfl rfl (keeps_loggedIn state.accounts).apiTokens member
  have begun : ∀ (visit : Visit) action, register.Follows state (visit.begun action state) :=
    fun visit action => visit.begun_of action state (admitted visit) fun _ _ follows =>
      follows.trans (follows_of_same rfl rfl rfl rfl rfl member)
  cases happening with
  | visit visit action =>
      cases step
      by_cases authentic : visit.Authentic state
      · rw [Visit.perform_of_authentic authentic]
        apply (begun visit action).trans
        apply follows_act (sound.begun visit action) _ action member
        rw [Visit.log_begun]
        exact drawn authentic
      · rw [Visit.perform_of_not_authentic authentic]
        exact admitted visit
  | console visit message =>
      cases step
      rcases console_eq visit message state with ⟨shells, same⟩ | same
      · rw [same]
        apply (begun visit .openShell).trans
        exact follows_of_same rfl rfl rfl rfl rfl member
      · rw [same]
        exact admitted visit
  | signIn form =>
      cases step
      exact follows_of_same rfl rfl rfl rfl (apiTokens_login _ _ _ _ _ _ _ _) member
  | signOut crypto now headers =>
      cases step
      exact follows_of_same rfl rfl rfl rfl (keeps_logout state.accounts).apiTokens member
  | tick env =>
      cases step
      exact follows_tick env member
  | sweep now =>
      cases step
      exact follows_of_same rfl rfl rfl rfl rfl member
  | shells turn =>
      rcases Option.map_eq_some_iff.mp step with ⟨server, _, rfl⟩
      exact follows_of_same rfl rfl rfl rfl rfl member

end

/-- Over a run of a sound installation in which no visit draws an id that is in use,
the names in the four tables change as the rows say that are added to the log. -/
theorem journals_of_run {start target : State} {happenings : List Happening}
    (sound : Sound start) (drawn : Throughout next DrawsFresh start happenings)
    (executed : run next start happenings = some target) {register : Register}
    (member : register ∈ Register.all) :
    ∃ added, target.rows = start.rows ++ added ∧
      register.names target = replay register.enter (register.names start) added :=
  run_journaled (fun _ _ _ kept step => kept.next step)
    (fun _ _ _ kept fresh step => follows_next kept fresh step member) sound drawn executed

/-- The log is empty until the first visit. -/
theorem drawsFresh_opening : Throughout next DrawsFresh (first emptyDisk) opening := by
  rintro _ ⟨⟩
  refine ⟨trivial, ?_⟩
  rintro _ ⟨⟩
  exact ⟨fun _ _ member => absurd member List.not_mem_nil, trivial⟩

theorem journals_of_run_opening :
    ∃ target, run next (first emptyDisk) opening = some target ∧
      ∃ added, target.rows = (first emptyDisk).rows ++ added ∧
        Register.webhooks.names target =
          replay Register.webhooks.enter (Register.webhooks.names (first emptyDisk)) added :=
  ⟨_, rfl, journals_of_run (sound_first emptyDisk) drawsFresh_opening rfl List.mem_cons_self⟩

end MultipassWebui.Installation
