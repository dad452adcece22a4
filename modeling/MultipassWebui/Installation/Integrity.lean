import MultipassWebui.Installation.System
import MultipassWebui.Migration.Idempotent
import MultipassWebui.Scheduler.Reporting
import MultipassWebui.Web.Registers

/-!
# The tables of an installation

The keys of every table are distinct, the stored webhooks and profiles pass the
validations of their models, and the settings have one row at most: whatever
happens to an installation, in whatever order.
-/

namespace MultipassWebui.Installation

open MultipassWebui.Auth (Headers Store)
open MultipassWebui.Effect
open MultipassWebui.Migration (inRange presence slugErrors)
open MultipassWebui.Records
open MultipassWebui.Records.Rows (updateWhere)
open MultipassWebui.Transition
open MultipassWebui.Web
open MultipassWebui.Web.ApiTokensController (DistinctTokens)

/-! ## Tables with a key -/

/-- No two rows share a key, and every row is valid. -/
structure Keyed {ρ : Type} (key : ρ → String) (valid : ρ → Prop) (rows : List ρ) : Prop where
  distinct : (rows.map key).Nodup
  valid : ∀ row ∈ rows, valid row

section

variable {ρ : Type} {key : ρ → String} {valid : ρ → Prop} {errors : ρ → List FieldError}
  {stored : ρ → Except RubyError PUnit} {rows : List ρ}

theorem Keyed.nil : Keyed key valid [] :=
  ⟨List.nodup_nil, fun _ member => absurd member List.not_mem_nil⟩

theorem Keyed.saveNew (keyed : Keyed key valid rows) {row : ρ}
    (accepts : errors row = [] → stored row = .ok ⟨⟩ → valid row) :
    Keyed key valid (Web.saveNew key errors stored row rows).2 := by
  rcases @saveNew_cases _ key errors stored row rows with
    ⟨saved, noErrors, unused, fits⟩ | ⟨outcome, refused, _⟩
  · rw [saved]
    constructor
    · rw [List.map_append, List.map_singleton, ← List.concat_eq_append]
      apply List.Nodup.concat _ keyed.distinct
      intro member
      rcases List.mem_map.mp member with ⟨other, among, same⟩
      exact unused other among same
    · intro other member
      rcases List.mem_append.mp member with old | new
      · exact keyed.valid other old
      · rw [List.mem_singleton.mp new]
        exact accepts noErrors fits
  · rw [refused]
    exact keyed

theorem Keyed.saveChanged (keyed : Keyed key valid rows) {row : ρ}
    (accepts : errors row = [] → stored row = .ok ⟨⟩ → valid row) :
    Keyed key valid (Web.saveChanged key errors stored row rows).2 := by
  rcases @saveChanged_cases _ key errors stored row rows with
    ⟨saved, noErrors, fits⟩ | ⟨outcome, refused, _⟩
  · rw [saved]
    constructor
    · rw [map_updateWhere]
      exact keyed.distinct
    · intro other member
      rcases Rows.mem_updateWhere.mp member with ⟨source, among, rfl⟩
      split_ifs
      · exact accepts noErrors fits
      · exact keyed.valid source among
  · rw [refused]
    exact keyed

theorem Keyed.filter (keyed : Keyed key valid rows) (kept : ρ → Bool) :
    Keyed key valid (rows.filter kept) where
  distinct := keyed.distinct.sublist (List.filter_sublist.map key)
  valid row member := keyed.valid row (List.mem_filter.mp member).1

end

/-! ## What is required of the tables -/

def ValidWebhook (webhook : Migration.Webhook) : Prop :=
  WebhooksController.errors webhook = []

/-- The validations of a profile that do not look at the request, and the ranges of the
columns. -/
structure ValidProfile (profile : StoredProfile) : Prop where
  slug : slugErrors profile.idSlug = []
  name : presence "name" profile.name = []
  cpus : inRange profile.cpus = true
  memoryMb : inRange profile.memoryMb = true
  diskGb : inRange profile.diskGb = true

/-- The credentials: tokens under distinct ids and names that are short and not blank,
and sessions under distinct ids that were handed out. -/
structure SoundCredentials (store : Store) : Prop extends DistinctTokens store where
  named : ∀ token ∈ store.apiTokens,
    Text.blank token.name = false ∧ token.name.length ≤ 64
  sessions : (store.sessions.map Auth.Session.id).Nodup
  below : ∀ session ∈ store.sessions, session.id < store.sessionSequence

structure SoundConfiguration (configuration : Configuration) : Prop where
  settings : configuration.settings.rows.length ≤ 1
  vmDefaults : configuration.vmDefaults.rows.length ≤ 1

structure Sound (state : State) : Prop where
  configuration : SoundConfiguration state.configuration
  webhooks : Keyed Migration.Webhook.idSlug ValidWebhook state.webhooks
  profiles : Keyed (fun profile => profile.idSlug) ValidProfile state.profiles
  database : state.database.WellFormed
  credentials : SoundCredentials state.credentials

theorem sound_first (disk : Files.Disk) : Sound (first disk) where
  configuration := ⟨Nat.zero_le _, Nat.zero_le _⟩
  webhooks := Keyed.nil
  profiles := Keyed.nil
  database := Database.wellFormed_empty
  credentials :=
    { ids := List.nodup_nil
      names := List.nodup_nil
      named := fun _ member => absurd member List.not_mem_nil
      sessions := List.nodup_nil
      below := fun _ member => absurd member List.not_mem_nil }

/-! ## What the actions do to the tables -/

section

variable {site : Deployment} {request : Request}

/-- A body keeps a condition on its state. -/
abbrev Preserves {σ α : Type} (P : σ → Prop) (body : Exec σ RubyError α) : Prop :=
  Exec.Keeps (fun before after => P before → P after) body

instance isPreorder_preserves {σ : Type} (P : σ → Prop) :
    IsPreorder σ fun before after => P before → P after where
  refl _ := id
  trans _ _ _ first second := second ∘ first

theorem preserves_findRow {ρ : Type} {P : List ρ → Prop} {key : ρ → String} (name : String) :
    Preserves P (findRow key name) := by
  intro rows holds
  rw [findRow_state]
  exact holds

theorem preserves_createWebhook : Preserves (Keyed Migration.Webhook.idSlug ValidWebhook)
    (WebhooksController.createWebhook site request) := by
  refine Exec.keeps_bind (Exec.keeps_ofExcept _) fun p => Exec.keeps_bind ?_ fun _ =>
    Exec.keeps_pure _
  intro rows keyed
  exact keyed.saveNew fun valid _ => valid

theorem preserves_updateWebhook : Preserves (Keyed Migration.Webhook.idSlug ValidWebhook)
    (WebhooksController.updateWebhook site request) := by
  refine Exec.keeps_bind (preserves_findRow _) fun webhook => ?_
  refine Exec.keeps_bind (Exec.keeps_ofExcept _) fun p => Exec.keeps_bind ?_ fun _ =>
    Exec.keeps_pure _
  intro rows keyed
  exact keyed.saveChanged fun valid _ => valid

theorem preserves_destroyWebhook : Preserves (Keyed Migration.Webhook.idSlug ValidWebhook)
    (WebhooksController.destroyWebhook site request) := by
  refine Exec.keeps_bind (preserves_findRow _) fun webhook => Exec.keeps_bind ?_ fun _ =>
    Exec.keeps_pure _
  intro rows keyed
  exact keyed.filter _

theorem validProfile_of_errors {p : Permitted} {profile : StoredProfile}
    (valid : ProfilesController.errors site p profile = [])
    (fits : ProfilesController.stored profile = .ok ⟨⟩) : ValidProfile profile := by
  simp only [ProfilesController.errors, List.append_eq_nil_iff] at valid
  have ranges : (inRange profile.cpus && inRange profile.memoryMb && inRange profile.diskGb) =
      true := by
    unfold ProfilesController.stored at fits
    split_ifs at fits with inRanges
    exact inRanges
  rw [Bool.and_eq_true, Bool.and_eq_true] at ranges
  exact ⟨valid.1.1.1.1, valid.1.1.1.2, ranges.1.1, ranges.1.2, ranges.2⟩

theorem preserves_createProfile : Preserves (Keyed (fun profile => profile.idSlug) ValidProfile)
    (ProfilesController.createProfile site request) := by
  refine Exec.keeps_bind (Exec.keeps_ofExcept _) fun p => Exec.keeps_bind ?_ fun _ =>
    Exec.keeps_pure _
  intro rows keyed
  exact keyed.saveNew validProfile_of_errors

theorem preserves_updateProfile : Preserves (Keyed (fun profile => profile.idSlug) ValidProfile)
    (ProfilesController.updateProfile site request) := by
  refine Exec.keeps_bind (preserves_findRow _) fun profile => ?_
  refine Exec.keeps_bind (Exec.keeps_ofExcept _) fun p => Exec.keeps_bind ?_ fun _ =>
    Exec.keeps_pure _
  intro rows keyed
  exact keyed.saveChanged validProfile_of_errors

theorem preserves_destroyProfile : Preserves (Keyed (fun profile => profile.idSlug) ValidProfile)
    (ProfilesController.destroyProfile site request) := by
  refine Exec.keeps_bind (preserves_findRow _) fun profile => ?_
  split_ifs
  · exact Exec.keeps_pure _
  · refine Exec.keeps_bind ?_ fun _ => Exec.keeps_pure _
    intro rows keyed
    exact keyed.filter _

theorem preserves_findSchedule {P : Database → Prop} :
    Preserves P (SchedulesController.findSchedule site request) := by
  intro db holds
  rw [SchedulesController.findSchedule_state]
  exact holds

theorem preserves_createSchedule : Preserves Database.WellFormed
    (SchedulesController.createSchedule site request) := by
  refine Exec.keeps_bind (Exec.keeps_ofExcept _) fun form => ?_
  refine Exec.keeps_bind (Exec.keeps_gets _) fun _ => Exec.keeps_bind ?_ fun _ =>
    Exec.keeps_pure _
  exact fun db wf => wf.createSchedule _ form

theorem preserves_updateSchedule : Preserves Database.WellFormed
    (SchedulesController.updateSchedule site request) := by
  refine Exec.keeps_bind preserves_findSchedule fun sched => ?_
  refine Exec.keeps_bind (Exec.keeps_ofExcept _) fun form => Exec.keeps_bind ?_ fun _ =>
    Exec.keeps_pure _
  exact fun db wf => wf.updateSchedule _ form

theorem preserves_destroySchedule : Preserves Database.WellFormed
    (SchedulesController.destroySchedule site request) := by
  refine Exec.keeps_bind preserves_findSchedule fun sched => Exec.keeps_bind ?_ fun _ =>
    Exec.keeps_pure _
  exact fun db wf => wf.destroySchedule _

/-! ### Credentials -/

/-- A new token passes the validations of its model. -/
theorem SoundCredentials.insert {store after : Store} (sound : SoundCredentials store)
    {token : Auth.ApiToken} (valid : token.valid store = true)
    (inserted : after.apiTokens = store.apiTokens ++ [token])
    (sessions : after.sessions = store.sessions)
    (sequence : after.sessionSequence = store.sessionSequence) : SoundCredentials after := by
  simp only [Auth.ApiToken.valid, Bool.and_eq_true, Bool.not_eq_true', List.all_eq_true,
    decide_eq_true_eq] at valid
  rcases valid with ⟨⟨⟨⟨⟨⟨_, newId⟩, notBlank⟩, newName⟩, short⟩, _⟩, _⟩
  constructor
  · constructor
    · rw [inserted]
      apply Auth.nodup_map_concat sound.ids
      intro member
      rcases List.mem_map.mp member with ⟨row, among, same⟩
      exact newId row among same
    · rw [ApiTokensController.tokenNames, inserted]
      apply Auth.nodup_map_concat sound.names
      intro member
      rcases List.mem_map.mp member with ⟨row, among, same⟩
      exact newName row among same
  · intro row member
    rw [inserted] at member
    rcases List.mem_append.mp member with old | new
    · exact sound.named row old
    · rw [List.mem_singleton.mp new]
      exact ⟨notBlank, short⟩
  · rw [sessions]
    exact sound.sessions
  · rw [sessions, sequence]
    exact sound.below

/-- Rows are deleted. -/
theorem SoundCredentials.sublist {store after : Store} (sound : SoundCredentials store)
    (tokens : List.Sublist after.apiTokens store.apiTokens)
    (sessions : List.Sublist after.sessions store.sessions)
    (sequence : after.sessionSequence = store.sessionSequence) : SoundCredentials after where
  ids := sound.ids.sublist (tokens.map _)
  names := sound.names.sublist (tokens.map _)
  named token member := sound.named token (tokens.subset member)
  sessions := sound.sessions.sublist (sessions.map _)
  below session member := sequence ▸ sound.below session (sessions.subset member)

theorem SoundCredentials.fewer {store after : Store} (sound : SoundCredentials store)
    (fewer : Fewer store after) : SoundCredentials after :=
  sound.sublist (fewer.apiTokens ▸ List.Sublist.refl _) fewer.sessions fewer.sequence

theorem preserves_issueToken : Preserves SoundCredentials
    (ApiTokensController.issueToken site request) := by
  unfold ApiTokensController.issueToken Auth.ApiToken.issue
  split_ifs
  · refine Exec.keeps_bind ?_ fun _ => Exec.keeps_pure _
    split_ifs
    · exact Exec.keeps_raise _
    · refine Exec.keeps_bind ?_ fun _ => Exec.keeps_pure _
      intro store sound
      unfold Auth.ApiToken.create
      split_ifs with taken valid
      · exact sound
      · exact sound.insert valid rfl rfl rfl
      · exact sound
  · exact Exec.keeps_raise _

theorem preserves_revokeToken : Preserves SoundCredentials
    (ApiTokensController.revokeToken site request) := by
  refine Exec.keeps_bind (Exec.keeps_bind (Exec.keeps_gets _) fun found => ?_) fun _ =>
    Exec.keeps_pure _
  cases found with
  | none => exact Exec.keeps_raise _
  | some token =>
      refine Exec.keeps_bind ?_ fun _ => Exec.keeps_pure _
      exact fun store sound =>
        sound.sublist List.filter_sublist (List.Sublist.refl _) rfl

theorem preserves_login (crypto : Auth.Crypto) (now : Int) (username password raw : String)
    (ipAddress userAgent : Option String) : Preserves SoundCredentials
      (Auth.login crypto now username password raw ipAddress userAgent) := by
  have keepsSettings : Preserves SoundCredentials (Auth.Setting.current crypto) := by
    refine Exec.keeps_bind (Exec.keeps_gets _) fun found => ?_
    cases found with
    | some setting => exact Exec.keeps_pure _
    | none =>
        refine Exec.keeps_bind ?_ fun _ => Exec.keeps_pure _
        exact fun store sound => sound.sublist (List.Sublist.refl _) (List.Sublist.refl _) rfl
  refine Exec.keeps_bind keepsSettings fun setting => ?_
  split_ifs
  · refine Exec.keeps_bind (Exec.keeps_bind ?_ fun _ => Exec.keeps_pure _) fun _ =>
      Exec.keeps_pure _
    intro store sound
    unfold Auth.Session.create
    split_ifs
    · exact sound
    · constructor
      · exact ⟨sound.ids, sound.names⟩
      · exact sound.named
      · apply Auth.nodup_map_concat sound.sessions
        intro member
        rcases List.mem_map.mp member with ⟨session, among, same⟩
        exact (sound.below session among).ne same
      · intro session member
        rcases List.mem_append.mp member with old | new
        · exact Nat.lt_succ_of_lt (sound.below session old)
        · rw [List.mem_singleton.mp new]
          exact Nat.lt_succ_self _
  · exact Exec.keeps_pure _

/-! ### The configuration -/

theorem length_current {ρ : Type} (seed : ρ) {table : Table ρ} (single : table.rows.length ≤ 1) :
    (Migration.current seed table).rows.length ≤ 1 := by
  unfold Migration.current
  split_ifs with empty
  · rw [List.isEmpty_iff] at empty
    simp [Table.insert, empty]
  · exact single

theorem length_updateFirst {ρ : Type} (table : Table ρ) (update : ρ → ρ) :
    (table.updateFirst update).rows.length = table.rows.length := by
  unfold Table.updateFirst
  exact List.length_modifyHead

/-- The first row is changed, and no row is added. -/
theorem preserves_savePart {ρ : Type} (seed : ρ) (key : String)
    {body : Table ρ → Except RubyError (Table ρ)}
    (sameLength : ∀ table saved, body table = .ok saved →
      saved.rows.length = table.rows.length) :
    Preserves (fun table : Table ρ => table.rows.length ≤ 1)
      (SettingsController.savePart request seed key body) := by
  unfold SettingsController.savePart
  split_ifs
  · intro table single
    rw [Exec.bind_ok (Exec.modify_apply _ _), Exec.bind_ok (Exec.gets_apply id _), id]
    cases saves : body (Migration.current seed table) with
    | error raised => exact length_current seed single
    | ok saved =>
        change saved.rows.length ≤ 1
        rw [sameLength _ _ saves]
        exact length_current seed single
  · exact Exec.keeps_pure _

theorem length_updateSetting {settings saved : Table Migration.Setting}
    (saves : SettingsController.updateSetting site request settings = .ok saved) :
    saved.rows.length = settings.rows.length := by
  simp only [SettingsController.updateSetting, bind_eq_ok_iff] at saves
  rcases saves with ⟨p, _, password, _, saves⟩
  split_ifs at saves
  rcases Migration.updateSetting_eq_ok_iff.mp saves with ⟨_, _, _, rfl⟩
  exact length_updateFirst _ _

theorem length_updateVmDefaults {vmDefaults saved : Table Auth.VmDefault}
    (saves : SettingsController.updateVmDefaults site request vmDefaults = .ok saved) :
    saved.rows.length = vmDefaults.rows.length := by
  simp only [SettingsController.updateVmDefaults, bind_eq_ok_iff] at saves
  rcases saves with ⟨p, _, saves⟩
  cases first : vmDefaults.first with
  | none =>
      rw [first] at saves
      cases saves
  | some row =>
      simp only [first, bind_eq_ok_iff] at saves
      rcases saves with ⟨_, _, _, _, _, _, saves⟩
      cases saves
      exact length_updateFirst _ _

theorem preserves_save : Preserves SoundConfiguration (SettingsController.save site request) := by
  have settings : Preserves (fun table => table.rows.length ≤ 1) (SettingsController.savePart
      request (Migration.Setting.seed site.env) "setting"
        (SettingsController.updateSetting site request)) :=
    preserves_savePart _ _ fun _ _ => length_updateSetting
  have vmDefaults : Preserves (fun table => table.rows.length ≤ 1) (SettingsController.savePart
      request Auth.VmDefault.seed "vm_defaults"
        (SettingsController.updateVmDefaults site request)) :=
    preserves_savePart _ _ fun _ _ => length_updateVmDefaults
  apply Exec.keeps_bind
  · exact fun tables sound => ⟨length_current _ sound.settings, sound.vmDefaults⟩
  · intro _
    apply Exec.keeps_bind
    · exact Exec.keeps_zoom settings fun tables _ kept sound =>
        ⟨kept sound.settings, sound.vmDefaults⟩
    · intro _
      exact Exec.keeps_zoom vmDefaults fun tables _ kept sound =>
        ⟨sound.settings, kept sound.vmDefaults⟩

/-! ## The actions -/

/-- What is required of the part of the state that an action works on. -/
def SoundPart : (action : Action) → action.State → Prop
  | .updateSettings => SoundConfiguration
  | .webhooks _ => Keyed Migration.Webhook.idSlug ValidWebhook
  | .profiles _ => Keyed (fun profile => profile.idSlug) ValidProfile
  | .schedules _ => Database.WellFormed
  | .createToken | .destroyToken => SoundCredentials
  | .templates _ | .playbooks _ | .vms _ | .openShell | .closeShell => fun _ => True

variable {σ : Type} {P : σ → Prop} {stamp : EventStamp}

theorem preserves_onState {α : Type} {body : Exec σ RubyError α} (keeps : Preserves P body) :
    Preserves (fun app : App σ => P app.state) (onState body) :=
  fun app => keeps app.state

theorem preserves_emitHttp (category action : String) (resource result detail : Option String) :
    Preserves (fun app : App σ => P app.state)
      (emitHttp stamp request category action resource result detail) := by
  intro app holds
  rw [emitHttp_state]
  exact holds

theorem preserves_recordedIf {category verb : String}
    {body : Exec σ RubyError (Option String)} (keeps : Preserves P body) :
    Preserves (fun app : App σ => P app.state)
      (recordedIf stamp request category verb body) := by
  refine Exec.keeps_bind (preserves_onState keeps) fun saved => ?_
  cases saved with
  | none => exact Exec.keeps_pure _
  | some resource => exact preserves_emitHttp _ _ _ _ _

theorem preserves_rescueInvalid {α : Type} {body : Exec (App σ) RubyError α} {reply : α}
    (keeps : Preserves (fun app : App σ => P app.state) body) :
    Preserves (fun app : App σ => P app.state) (Exec.rescue body fun error =>
      if error.isRecordInvalid then some (pure reply) else none) := by
  apply Exec.keeps_rescue keeps
  intro error handled handles
  split_ifs at handles
  · cases handles
    exact Exec.keeps_pure _
  · cases handles

/-- Every action keeps what is required of its part. -/
theorem preserves_perform (site : ActionEnvironment) (action : Action) :
    Preserves (fun app : App action.State => SoundPart action app.state)
      (action.perform site stamp request) := by
  cases action with
  | updateSettings =>
      refine Exec.keeps_bind (preserves_rescueInvalid ?_) fun _ => Exec.keeps_pure _
      exact Exec.keeps_bind (preserves_onState preserves_save) fun _ =>
        Exec.keeps_bind (preserves_emitHttp _ _ _ _ _) fun _ => Exec.keeps_pure _
  | webhooks change =>
      cases change with
      | create => exact preserves_recordedIf preserves_createWebhook
      | update => exact preserves_recordedIf preserves_updateWebhook
      | destroy => exact preserves_recordedIf preserves_destroyWebhook
  | profiles change =>
      cases change with
      | create => exact preserves_recordedIf preserves_createProfile
      | update => exact preserves_recordedIf preserves_updateProfile
      | destroy => exact preserves_recordedIf preserves_destroyProfile
  | schedules change =>
      cases change with
      | create => exact preserves_recordedIf preserves_createSchedule
      | update => exact preserves_recordedIf preserves_updateSchedule
      | destroy => exact preserves_recordedIf preserves_destroySchedule
  | createToken => exact preserves_rescueInvalid (preserves_recordedIf preserves_issueToken)
  | destroyToken => exact preserves_recordedIf preserves_revokeToken
  | templates _ | playbooks _ | vms _ | openShell | closeShell => exact fun _ _ => trivial

end

/-! ## The steps -/

section

variable {state : State}

theorem Sound.part (sound : Sound state) (action : Action) :
    SoundPart action (state.part action) := by
  cases action with
  | updateSettings => exact sound.configuration
  | webhooks _ => exact sound.webhooks
  | profiles _ => exact sound.profiles
  | schedules _ => exact sound.database
  | createToken | destroyToken =>
      exact sound.credentials.sublist (List.Sublist.refl _) (List.Sublist.refl _) rfl
  | templates _ | playbooks _ | vms _ | openShell | closeShell => exact trivial

theorem Sound.setPart (sound : Sound state) {action : Action} {part : action.State}
    (soundPart : SoundPart action part) : Sound (state.setPart action part) := by
  cases action with
  | updateSettings => exact { sound with configuration := soundPart }
  | webhooks _ => exact { sound with webhooks := soundPart }
  | profiles _ => exact { sound with profiles := soundPart }
  | schedules _ => exact { sound with database := soundPart }
  | createToken | destroyToken => exact { sound with credentials := soundPart }
  | templates _ | playbooks _ | vms _ | openShell | closeShell => exact { sound with }

theorem Sound.setLog (sound : Sound state) (events : List Event) :
    Sound (state.setLog events) :=
  { sound with database := { sound.database with } }

theorem Sound.setAccounts (sound : Sound state) {store : Store}
    (kept : SoundCredentials state.accounts → SoundCredentials store) :
    Sound (state.setAccounts store) :=
  { sound with credentials := kept (sound.part .createToken) }

theorem Sound.admitted (sound : Sound state) (visit : Visit) : Sound (visit.admitted state) :=
  sound.setAccounts fun credentials => credentials.fewer (keeps_loggedIn state.accounts)

theorem Sound.seeded (sound : Sound state) (env : Migration.Environment) :
    Sound (state.seeded env) :=
  { sound with configuration :=
      ⟨length_current _ sound.configuration.settings, sound.configuration.vmDefaults⟩ }

theorem Sound.begun (sound : Sound state) (visit : Visit) (action : Action) :
    Sound (visit.begun action state) := by
  exact visit.begun_of action state (sound.admitted visit) fun env _ sound => sound.seeded env

theorem Sound.visit (sound : Sound state) (visit : Visit) (action : Action) :
    Sound (visit.perform action state).2 := by
  by_cases authentic : visit.Authentic state
  · rw [Visit.perform_of_authentic authentic]
    have begun := sound.begun visit action
    let app : App action.State :=
      ⟨(visit.begun action state).part action, (visit.begun action state).log⟩
    have kept := @preserves_perform visit.request visit.stamp
      (visit.siteIn (visit.begun action state)) action app (begun.part action)
    exact (begun.setPart kept).setLog _
  · rw [Visit.perform_of_not_authentic authentic]
    exact sound.admitted visit

theorem Sound.console (sound : Sound state) (visit : Visit) (message : RubyError → String) :
    Sound (visit.console message state).2 := by
  by_cases authentic : visit.Authentic state
  · rw [Visit.console, Exec.bind_ok (Visit.loggedIn_of_authentic authentic), if_pos rfl,
      Exec.bind_ok (Exec.modify_apply _ _), Exec.bind_state fun _ _ => rfl]
    exact (@Sound.setPart _ (sound.begun visit .openShell) .openShell _ trivial).setLog _
  · rw [Visit.console, Exec.bind_ok (Visit.loggedIn_of_not_authentic authentic),
      if_neg Bool.false_ne_true]
    exact sound.admitted visit

theorem Sound.tick (sound : Sound state) (env : Scheduler.Environment) :
    Sound (tick env state).2 :=
  { sound with database := Scheduler.wellFormed_perform env _ sound.database }

theorem Sound.next {target : State} {happening : Happening} (sound : Sound state)
    (step : next state happening = some target) : Sound target := by
  cases happening with
  | visit visit action =>
      cases step
      exact sound.visit visit action
  | console visit message =>
      cases step
      exact sound.console visit message
  | signIn form =>
      cases step
      exact (sound.seeded form.env).setAccounts (preserves_login _ _ _ _ _ _ _ _)
  | signOut crypto now headers =>
      cases step
      exact sound.setAccounts fun credentials => credentials.fewer (keeps_logout state.accounts)
  | tick env =>
      cases step
      exact sound.tick env
  | sweep now =>
      cases step
      exact sound.setAccounts fun credentials =>
        credentials.fewer (keeps_keepSessions _ state.accounts)
  | shells turn =>
      rcases Option.map_eq_some_iff.mp step with ⟨server, _, rfl⟩
      exact { sound with }

end

/-- Whatever happens to a sound installation, it stays sound. -/
theorem sound_of_run {start target : State} {happenings : List Happening} (sound : Sound start)
    (executed : run next start happenings = some target) : Sound target :=
  run_preserves (fun _ _ _ kept step => kept.next step) sound executed

theorem sound_of_run_opening :
    ∃ target, run next (first emptyDisk) opening = some target ∧ Sound target :=
  ⟨_, rfl, @sound_of_run _ _ opening (sound_first emptyDisk) rfl⟩

end MultipassWebui.Installation
