import MultipassWebui.Migration.Faithful
import MultipassWebui.Multipass.Names
import MultipassWebui.Multipass.PlaybookStore
import MultipassWebui.Web.ConfigurationControllers
import MultipassWebui.Web.HostControllers
import MultipassWebui.Web.ParameterFilter
import MultipassWebui.Web.Recording
import MultipassWebui.Web.TemplateAccess
import MultipassWebui.Web.VmsController

/-!
# What the audit log says about the parameters

Every action that writes to the audit log writes the parameters of its request
as they came.  So two requests that differ in filtered parameters only leave the
same rows precisely if they do not differ, or neither comes as far as its row.
-/

namespace MultipassWebui.Web

open MultipassWebui.Auth (Store)
open MultipassWebui.Effect
open MultipassWebui.Encoding
open MultipassWebui.Files
open MultipassWebui.Multipass
open MultipassWebui.Multipass.Playbooks (process)
open MultipassWebui.Records
open MultipassWebui.Terminals (Server SpawnEnvironment)

/-! ## The actions -/

/-- The actions of a controller that change a row or a file. -/
inductive Change where
  | create
  | update
  | destroy
  deriving DecidableEq, Repr

/-- The actions of all controllers that call `emit_http!`, and the others of the
controllers of templates and machines. -/
inductive Action where
  | updateSettings
  | webhooks (change : Change)
  | profiles (change : Change)
  | schedules (change : Change)
  | createToken
  | destroyToken
  | templates (action : CloudInitTemplatesController.Action)
  | playbooks (change : Change)
  | vms (action : VmsController.Action)
  | openShell
  | closeShell
  deriving DecidableEq, Repr

/-- What the actions meet outside the repository, and what they draw. -/
structure ActionEnvironment where
  deployment : Deployment
  templates : CloudInitTemplatesController.Site
  playbooks : PlaybooksController.Site
  multipass : Environment
  spawn : SpawnEnvironment
  sessionId : String

/-- What an action works on. -/
abbrev Action.State : Action → Type
  | .updateSettings => Configuration
  | .webhooks _ => List Migration.Webhook
  | .profiles _ => List StoredProfile
  | .schedules _ => Database
  | .createToken | .destroyToken => Store
  | .templates _ | .playbooks _ => Disk
  | .vms _ => Host
  | .openShell | .closeShell => ShellHost

section

variable (site : ActionEnvironment) (stamp : EventStamp) (request : Request)

/-- Carry out an action. -/
def Action.perform : (action : Action) → Exec (App action.State) RubyError PUnit
  | .updateSettings => do
      let _ ← SettingsController.update site.deployment stamp request
      return ⟨⟩
  | .webhooks .create => WebhooksController.create site.deployment stamp request
  | .webhooks .update => WebhooksController.update site.deployment stamp request
  | .webhooks .destroy => WebhooksController.destroy site.deployment stamp request
  | .profiles .create => ProfilesController.create site.deployment stamp request
  | .profiles .update => ProfilesController.update site.deployment stamp request
  | .profiles .destroy => ProfilesController.destroy site.deployment stamp request
  | .schedules .create => SchedulesController.create site.deployment stamp request
  | .schedules .update => SchedulesController.update site.deployment stamp request
  | .schedules .destroy => SchedulesController.destroy site.deployment stamp request
  | .createToken => ApiTokensController.create site.deployment stamp request
  | .destroyToken => ApiTokensController.destroy site.deployment stamp request
  | .templates action => do
      let _ ← CloudInitTemplatesController.perform site.templates stamp request action
      return ⟨⟩
  | .playbooks .create => PlaybooksController.create site.playbooks stamp request
  | .playbooks .update => PlaybooksController.update site.playbooks stamp request
  | .playbooks .destroy => PlaybooksController.destroy site.playbooks stamp request
  | .vms action => VmsController.perform site.multipass stamp request action
  | .openShell =>
      ShellSessionsController.create site.multipass site.spawn site.sessionId stamp request
  | .closeShell => ShellSessionsController.destroy site.multipass stamp request

/-! ## The steps before the row -/

/-- The change succeeds, and the row is about the resource that it returns. -/
def Saved {σ : Type} (category verb : String) (body : Exec σ RubyError (Option String))
    (state : σ) (entry : AuditEntry) : Prop :=
  ∃ resource, (body state).1 = .ok (some resource) ∧
    entry = ⟨category, verb, some resource, "success", none⟩

/-- The file is changed, and the row is about its name. -/
def Stored (category verb : String) (body : Exec Disk RubyError String) (disk : Disk)
    (entry : AuditEntry) : Prop :=
  ∃ name, (body disk).1 = .ok name ∧ entry = ⟨category, verb, some name, "success", none⟩

/-- The command is carried out or fails, and there is a row in both cases. -/
def Attempted {α : Type} (verb : String) (resource : α → Option String) (detail : String)
    (named : Option String) (body : Exec Host RubyError α) (host : Host) (entry : AuditEntry) :
    Prop :=
  (∃ value, (body host).1 = .ok value ∧
    entry = ⟨"vm", verb, resource value, "success", some detail⟩) ∨
  ∃ message, (body host).1 = .error (.commandError message) ∧
    entry = ⟨"vm", verb, named, "failed", some message⟩

/-- The command is carried out. -/
def Completed {α : Type} (verb : String) (resource : Option String) (detail : α → String)
    (body : Exec Host RubyError α) (host : Host) (entry : AuditEntry) : Prop :=
  ∃ value, (body host).1 = .ok value ∧
    entry = ⟨"vm", verb, resource, "success", some (detail value)⟩

end

namespace VmsController

section

variable (env : Environment) (request : Request)

/-- What `create` does to the host. -/
def launch : Exec Host RubyError String :=
  Exec.ofExcept (launchArguments request) >>= launchVm env

/-- One line of `update_resource_config`, on the host. -/
def setting (key : String) (set : Int → Exec Host RubyError String) : Exec Host RubyError PUnit :=
  if Value.present (param request key) then do
    let value ← Exec.ofExcept (Value.toI (param request key))
    let _ ← set value
    return ⟨⟩
  else pure ⟨⟩

/-- What `update_resource_config` does to the host. -/
def resize (name : Json) : Exec Host RubyError PUnit := do
  setting request "cpus" (setVmCpus env name)
  setting request "memory_mb" (setVmMemory env name)
  setting request "disk_gb" (setVmDisk env name)

/-- The row that an action on a machine asks for, under the name of the request. -/
def AsksNamed (host : Host) (entry : AuditEntry) : Action → Prop
  | .destroy =>
      let purge := castBoolean (param request "purge")
      Completed "delete" (column env (param request "name"))
        (fun _ => if purge then "purged" else "deleted") (deleteVm env (param request "name") purge)
        host entry
  | .start => lifecycle "start" (startVm env)
  | .stop => lifecycle "stop" (stopVm env)
  | .suspend => lifecycle "suspend" (suspendVm env)
  | .recover => lifecycle "recover" (recoverVm env)
  | .clone =>
      Completed "clone" (column env (param request "name"))
          (fun dest => "→ " ++ interpolate env dest)
        (cloneVm env (param request "name") (Value.presence (param request "dest_name"))) host entry
  | .updateResourceConfig =>
      Completed "resize" (column env (param request "name")) (fun _ => "reconfigured")
        (resize env request (param request "name")) host entry
  | .create | .startAll | .stopAll | .purge => False
where
  lifecycle (verb : String) (method : Json → Exec Host RubyError String) : Prop :=
    Attempted verb (fun _ => column env (param request "name")) verb
      (column env (param request "name")) (method (param request "name")) host entry

/-- The row that an action asks for. -/
def Asks (host : Host) (entry : AuditEntry) : Action → Prop
  | .create =>
      Attempted "create" some "launched" (column env (param request "name")) (launch env request)
        host entry
  | action =>
      NameValidator.validVmName (param request "name") = true ∧
        AsksNamed env request host entry action

variable {env : Environment} {stamp : EventStamp} {request : Request} {app : App Host}

/-- A completed command is recorded; the clause for a failing one replies. -/
theorem recording_completed {α : Type} {verb : String} {resource : Option String}
    {detail : α → String} {body : Exec Host RubyError α} :
    Recording request stamp
      (rescueCommand (onState body >>= fun value =>
        emitHttp stamp request "vm" verb resource (some "success") (some (detail value)))
        fun _ => pure ⟨⟩)
      app (Completed verb resource detail body app.state) := by
  have written : Recording request stamp (onState body >>= fun value =>
      emitHttp stamp request "vm" verb resource (some "success") (some (detail value))) app
      (Completed verb resource detail body app.state) :=
    Recording.onState_bind fun value _ =>
      @Recording.emitHttp _ _ _ _ ⟨"vm", verb, resource, "success", some (detail value)⟩ rfl rfl
  refine written.rescue fun raised middle clause _ handled => ?_
  cases raised with
  | commandError message =>
      rcases Option.some.inj handled with rfl
      rfl
  | _ => cases handled

theorem recording_lifecycle {verb : String} {method : Json → Exec Host RubyError String} :
    Recording request stamp (performLifecycle env stamp request method verb) app fun entry =>
      NameValidator.validVmName (param request "name") = true ∧
        AsksNamed.lifecycle env request app.state entry verb method := by
  unfold performLifecycle withVmName
  split_ifs with valid
  · refine (@Recording.attempt _ _ request stamp app (method (param request "name"))
      (fun _ => ⟨"vm", verb, column env (param request "name"), "success", some verb⟩)
      (fun message => ⟨"vm", verb, column env (param request "name"), "failed", some message⟩)
      _ (fun _ => rfl) (fun _ => rfl) (fun _ => rfl) (fun _ => rfl) (fun _ => rfl) ?_).of_iff ?_
    · intro raised clause notCommand handled
      cases raised with
      | commandError message => exact absurd rfl (notCommand message)
      | _ => cases handled
    · intro entry
      rw [and_iff_right valid]
      rfl
  · exact (Recording.quiet rfl).of_iff fun entry => iff_of_false id fun asked => valid asked.1

theorem recording_create : Recording request stamp (create env stamp request) app
    (Attempted "create" some "launched" (column env (param request "name")) (launch env request)
      app.state) := by
  unfold create
  rw [ofExcept_bind_onState]
  refine @Recording.attempt _ _ request stamp app (launch env request)
    (fun name => ⟨"vm", "create", some name, "success", some "launched"⟩)
    (fun message => ⟨"vm", "create", column env (param request "name"), "failed", some message⟩)
    _ (fun _ => rfl) (fun _ => rfl) (fun _ => rfl) (fun _ => rfl) (fun _ => rfl) ?_
  intro raised clause notCommand handled middle
  cases raised with
  | commandError message => exact absurd rfl (notCommand message)
  | validationError name =>
      rcases Option.some.inj handled with rfl
      rfl
  | _ => cases handled

/-- An action under the name of the request that a valid name lets through. -/
theorem recording_named {body : Json → Exec (App Host) RubyError PUnit} {Named : AuditEntry → Prop}
    (recording : Recording request stamp (body (param request "name")) app Named) :
    Recording request stamp (withVmName request body) app fun entry =>
      NameValidator.validVmName (param request "name") = true ∧ Named entry := by
  unfold withVmName
  split_ifs with valid
  · exact recording.of_iff fun entry => (and_iff_right valid).symm
  · exact (Recording.quiet rfl).of_iff fun entry => iff_of_false id fun asked => valid asked.1

theorem recording_destroy : Recording request stamp (destroy env stamp request) app fun entry =>
    NameValidator.validVmName (param request "name") = true ∧
      AsksNamed env request app.state entry .destroy := by
  apply recording_named
  exact recording_completed

theorem recording_clone : Recording request stamp (clone env stamp request) app fun entry =>
    NameValidator.validVmName (param request "name") = true ∧
      AsksNamed env request app.state entry .clone := by
  apply recording_named
  exact recording_completed

theorem setIfPresent_eq_onState (key : String) (set : Int → Exec Host RubyError String) :
    setIfPresent request key set = onState (setting request key set) := by
  unfold setIfPresent setting
  split_ifs
  · funext app
    cases value : Value.toI (param request key) with
    | error raised => rfl
    | ok count =>
        change (onState (set count) >>= fun _ => pure PUnit.unit) app =
          onState (set count >>= fun _ => pure PUnit.unit) app
        rw [Exec.bind_apply, onState_apply, onState_apply, Exec.bind_apply]
        rcases set count app.state with ⟨raised | output, host⟩
        · rfl
        · rfl
  · rfl

theorem recording_resize : Recording request stamp (updateResourceConfig env stamp request) app
    fun entry => NameValidator.validVmName (param request "name") = true ∧
      Completed "resize" (column env (param request "name")) (fun _ => "reconfigured")
        (resize env request (param request "name")) app.state entry := by
  apply recording_named
  have shape : ∀ name : Json, (do
      let _ ← setIfPresent request "cpus" (setVmCpus env name)
      let _ ← setIfPresent request "memory_mb" (setVmMemory env name)
      let _ ← setIfPresent request "disk_gb" (setVmDisk env name)
      emitHttp stamp request "vm" "resize" (column env name) (some "success")
        (some "reconfigured")) =
      onState (resize env request name) >>= fun _ => emitHttp stamp request "vm" "resize"
        (column env name) (some "success") (some "reconfigured") := by
    intro name
    simp only [setIfPresent_eq_onState]
    rw [onState_bind_onState, onState_bind_onState, Exec.bind_assoc]
    rfl
  rw [shape]
  exact recording_completed

/-- A call of the client without an event leaves the log alone. -/
theorem recording_unrecorded {α : Type} {body : Exec Host RubyError α} :
    Recording request stamp (unrecorded body) app fun _ => False := by
  refine Recording.quiet ?_
  have log : ((onState body >>= fun _ => (pure PUnit.unit : Exec (App Host) RubyError PUnit))
      app).2 = (onState body app).2 := Exec.bind_state (fun _ _ => rfl) app
  have kept := congrArg App.events log
  unfold unrecorded rescueCommand
  rcases ran : (onState body >>= fun _ => (pure PUnit.unit : Exec (App Host) RubyError PUnit)) app
    with ⟨raised | value, middle⟩
  · rw [ran] at kept
    rw [Exec.rescue_error ran]
    cases raised <;> exact kept
  · rw [ran] at kept
    rw [Exec.rescue_ok ran]
    exact kept

theorem recording_perform (action : Action) :
    Recording request stamp (perform env stamp request action) app
      fun entry => Asks env request app.state entry action := by
  cases action with
  | create => exact recording_create
  | destroy => exact recording_destroy
  | start => exact recording_lifecycle
  | stop => exact recording_lifecycle
  | suspend => exact recording_lifecycle
  | recover => exact recording_lifecycle
  | clone => exact recording_clone
  | updateResourceConfig => exact recording_resize
  | startAll => exact recording_unrecorded.of_iff fun _ => iff_of_false id And.right
  | stopAll => exact recording_unrecorded.of_iff fun _ => iff_of_false id And.right
  | purge => exact recording_unrecorded.of_iff fun _ => iff_of_false id And.right

end

end VmsController

section

variable {stamp : EventStamp} {request : Request}

/-- A change that succeeds is recorded. -/
theorem recording_recordedIf {σ : Type} {app : App σ} {category verb : String}
    {body : Exec σ RubyError (Option String)} (known : CATEGORIES.contains category = true) :
    Recording request stamp (recordedIf stamp request category verb body) app
      (Saved category verb body app.state) := by
  have written : Recording request stamp (recordedIf stamp request category verb body) app
      fun entry => ∃ saved, (body app.state).1 = .ok saved ∧ ∃ resource, saved = some resource ∧
        entry = ⟨category, verb, some resource, "success", none⟩ := by
    refine Recording.onState_bind fun saved _ => ?_
    cases saved with
    | none => exact (Recording.quiet rfl).of_iff fun _ => iff_of_false id fun ⟨_, isSome, _⟩ =>
        nomatch isSome
    | some resource =>
        refine (@Recording.emitHttp _ request stamp _
          ⟨category, verb, some resource, "success", none⟩ known rfl).of_iff fun entry => ?_
        simp
  refine written.of_iff fun entry => ?_
  constructor
  · rintro ⟨_, saved, resource, rfl, asked⟩
    exact ⟨resource, saved, asked⟩
  · rintro ⟨resource, saved, asked⟩
    exact ⟨_, saved, resource, rfl, asked⟩

/-- A clause for invalid records replies. -/
theorem Recording.rescue_invalid {σ α : Type} {app : App σ} {program : Exec (App σ) RubyError α}
    {Asks : AuditEntry → Prop} (recording : Recording request stamp program app Asks)
    (reply : α) :
    Recording request stamp (Exec.rescue program fun error =>
      if error.isRecordInvalid then some (pure reply) else none) app Asks := by
  refine recording.rescue fun raised middle clause _ handled => ?_
  split_ifs at handled
  rcases Option.some.inj handled with rfl
  rfl

/-- A clause for rejected arguments leaves the log alone. -/
theorem Recording.rescue_argument {σ α : Type} {app : App σ} {program : Exec (App σ) RubyError α}
    {Asks : AuditEntry → Prop} (recording : Recording request stamp program app Asks)
    {handler : String → Exec (App σ) RubyError α}
    (quiet : ∀ message middle, (handler message middle).2.events = middle.events) :
    Recording request stamp (rescueArgument program handler) app Asks := by
  refine recording.rescue fun raised middle clause _ handled => ?_
  cases raised with
  | argumentError message =>
      rcases Option.some.inj handled with rfl
      exact quiet message middle
  | _ => cases handled

theorem recording_updateSettings {site : Deployment} {app : App Configuration} :
    Recording request stamp
      (SettingsController.update site stamp request >>= fun _ => pure PUnit.unit) app fun entry =>
        (SettingsController.save site request app.state).1 = .ok ⟨⟩ ∧
          entry = ⟨"config", "update_settings", some "self", "success", none⟩ := by
  refine (Recording.rescue_invalid ((Recording.onState_bind fun _ _ =>
    (@Recording.emitHttp _ request stamp _
      ⟨"config", "update_settings", some "self", "success", none⟩ rfl rfl).bind_pure _).of_iff
        fun entry => ?_) _).bind_pure _
  exact ⟨fun ⟨_, saved, asked⟩ => ⟨saved, asked⟩, fun ⟨saved, asked⟩ => ⟨⟨⟩, saved, asked⟩⟩

/-! ### Files -/

section Files

variable {app : App Disk} {verb : String} {body : Exec Disk RubyError String}

theorem recording_stored {category : String} (known : CATEGORIES.contains category = true) :
    Recording request stamp (onState body >>= fun name =>
      emitHttp stamp request category verb (some name) (some "success") none) app
      (Stored category verb body app.state) :=
  Recording.onState_bind fun name _ =>
    @Recording.emitHttp _ request stamp _ ⟨category, verb, some name, "success", none⟩ known rfl

theorem recording_template {notice : String → String}
    {handler : String → Exec (App Disk) RubyError CloudInitTemplatesController.Reply}
    (quiet : ∀ message middle, (handler message middle).2.events = middle.events) :
    Recording request stamp
      (rescueArgument (CloudInitTemplatesController.recorded stamp request verb body notice)
        handler >>= fun _ => pure PUnit.unit) app (Stored "config" verb body app.state) := by
  refine (Recording.rescue_argument ?_ quiet).bind_pure _
  unfold CloudInitTemplatesController.recorded
  have written : Recording request stamp (onState body >>= fun name =>
      emitHttp stamp request "config" verb (some name) (some "success") none >>= fun _ =>
        pure (CloudInitTemplatesController.Reply.notice (notice name))) app
      (Stored "config" verb body app.state) :=
    Recording.onState_bind fun name _ => Recording.bind_pure
      (@Recording.emitHttp _ request stamp _ ⟨"config", verb, some name, "success", none⟩ rfl rfl)
      fun _ => CloudInitTemplatesController.Reply.notice (notice name)
  exact written

theorem recording_playbook {handler : String → Exec (App Disk) RubyError PUnit}
    (quiet : ∀ message middle, (handler message middle).2.events = middle.events) :
    Recording request stamp
      (rescueArgument (PlaybooksController.recorded stamp request verb body) handler) app
      (Stored "ansible" verb body app.state) :=
  Recording.rescue_argument (recording_stored rfl) quiet

end Files

/-- The row that an action on a template asks for. -/
def CloudInitTemplatesController.Asks (site : CloudInitTemplatesController.Site)
    (request : Request) (disk : Disk) (entry : AuditEntry) :
    CloudInitTemplatesController.Action → Prop
  | .show | .edit => False
  | .create => Stored "config" "create_cloud_init_template" (saveTemplate site request) disk entry
  | .update => Stored "config" "update_cloud_init_template" (saveTemplate site request) disk entry
  | .destroy =>
      Stored "config" "delete_cloud_init_template" (deleteTemplate site request) disk entry

theorem CloudInitTemplatesController.recording_perform {site : CloudInitTemplatesController.Site}
    {app : App Disk} (action : CloudInitTemplatesController.Action) :
    Recording request stamp
      (CloudInitTemplatesController.perform site stamp request action >>= fun _ => pure PUnit.unit)
      app fun entry => CloudInitTemplatesController.Asks site request app.state entry action := by
  have read : Recording request stamp
      (onState (readTemplateContent site (param request "name")) >>= fun content =>
        pure (Reply.content content)) app fun _ => False := by
    refine (Recording.onState_bind fun content _ => Recording.quiet rfl).of_iff fun entry => ?_
    exact ⟨fun ⟨_, _, never⟩ => never, False.elim⟩
  cases action with
  | «show» => exact read.bind_pure _
  | edit => exact read.bind_pure _
  | create =>
      unfold CloudInitTemplatesController.perform CloudInitTemplatesController.create
      exact recording_template fun _ _ => rfl
  | update =>
      unfold CloudInitTemplatesController.perform CloudInitTemplatesController.update
      refine recording_template fun message middle => ?_
      split_ifs
      · rfl
      · rfl
  | destroy =>
      unfold CloudInitTemplatesController.perform CloudInitTemplatesController.destroy
      exact recording_template fun _ _ => rfl

/-! ### Shells -/

namespace ShellSessionsController

variable (env : Environment) (spawn : SpawnEnvironment) (sessionId : String) (request : Request)

/-- The name that `set_vm_name` finds valid. -/
def NamesVm (name : String) : Prop :=
  Value.orDefault (param request "vm_name") (param request "name") = .string name ∧
    NameValidator.VM_NAME_PATTERN name = true

/-- The row that opening a shell asks for. -/
def AsksOpen (shells : ShellHost) (entry : AuditEntry) : Prop :=
  ∃ name, NamesVm request name ∧ (requireRunningVm env name shells).1 = .ok true ∧
    (∃ ref, (Server.openSession name sessionId spawn
      (requireRunningVm env name shells).2.server).1 = .ok ref) ∧
    entry = ⟨"vm", "open_shell", some name, "success", some ("session " ++ sessionId)⟩

/-- The row that closing a shell asks for. -/
def AsksClose (shells : ShellHost) (entry : AuditEntry) : Prop :=
  ∃ name, NamesVm request name ∧
    (Server.kill (Cloudinit.toS env.toText (param request "id")) shells.server).1 = .ok ⟨⟩ ∧
    entry = ⟨"vm", "close_shell", some name, "success",
      some ("session " ++ Cloudinit.toS env.toText (param request "id"))⟩

variable {env spawn sessionId request} {stamp : EventStamp} {app : App ShellHost}

/-- An action under a valid name; there is at most one. -/
theorem recording_named {body : String → Exec (App ShellHost) RubyError PUnit}
    {Named : String → AuditEntry → Prop}
    (recording : ∀ name, Recording request stamp (body name) app (Named name)) :
    Recording request stamp (withVmName request body) app fun entry =>
      ∃ name, NamesVm request name ∧ Named name entry := by
  unfold withVmName NamesVm
  cases given : Value.orDefault (param request "vm_name") (param request "name") with
  | string name =>
      dsimp only
      split_ifs with valid
      · refine (recording name).of_iff fun entry => ?_
        constructor
        · intro asked
          exact ⟨name, ⟨rfl, valid⟩, asked⟩
        · rintro ⟨other, ⟨isName, _⟩, asked⟩
          rcases Json.string.inj isName with rfl
          exact asked
      · refine (Recording.quiet rfl).of_iff fun entry => iff_of_false id ?_
        rintro ⟨other, ⟨isName, isValid⟩, _⟩
        rcases Json.string.inj isName with rfl
        exact valid isValid
  | _ =>
      refine (Recording.quiet rfl).of_iff fun entry => iff_of_false id ?_
      rintro ⟨other, ⟨isName, _⟩, _⟩
      cases isName

/-- The part of `create` that every error ends. -/
theorem recording_open (name : String) (app : App ShellHost) : Recording request stamp
    (Exec.rescue
      (onState (Exec.zoom ShellHost.server (fun server shells => { shells with server })
        (Server.openSession name sessionId spawn)) >>= fun _ =>
        emitHttp stamp request "vm" "open_shell" (some name) (some "success")
          (some ("session " ++ sessionId)))
      fun _ => some (pure ⟨⟩)) app fun entry =>
    ∃ ref, (Server.openSession name sessionId spawn app.state.server).1 = .ok ref ∧
      entry = ⟨"vm", "open_shell", some name, "success", some ("session " ++ sessionId)⟩ := by
  refine (Recording.onState_bind fun _ _ => @Recording.emitHttp _ request stamp _
    ⟨"vm", "open_shell", some name, "success", some ("session " ++ sessionId)⟩ rfl
    rfl).rescue fun raised middle clause _ handled => ?_
  rcases Option.some.inj handled with rfl
  rfl

theorem recording_create : Recording request stamp (create env spawn sessionId stamp request) app
    (AsksOpen env spawn sessionId request app.state) := by
  refine recording_named fun name => ?_
  let opened (shells : ShellHost) (entry : AuditEntry) : Prop :=
    ∃ ref, (Server.openSession name sessionId spawn shells.server).1 = .ok ref ∧
      entry = ⟨"vm", "open_shell", some name, "success", some ("session " ++ sessionId)⟩
  refine @Recording.of_iff _ _ request stamp app _ (fun entry => ∃ running,
    (requireRunningVm env name app.state).1 = .ok running ∧ running = true ∧
      opened (requireRunningVm env name app.state).2 entry) _ ?_ fun entry => ?_
  · refine Recording.onState_bind fun running _ => ?_
    cases running with
    | true =>
        refine (recording_open name _).of_iff fun entry => ?_
        exact (and_iff_right rfl).symm
    | false =>
        refine (Recording.quiet rfl).of_iff fun entry => iff_of_false id ?_
        exact fun asked => nomatch asked.1
  · constructor
    · rintro ⟨_, ran, rfl, ref, isOpen, asked⟩
      exact ⟨ran, ⟨ref, isOpen⟩, asked⟩
    · rintro ⟨ran, ⟨ref, isOpen⟩, asked⟩
      exact ⟨true, ran, rfl, ref, isOpen, asked⟩

theorem recording_destroy : Recording request stamp (destroy env stamp request) app
    (AsksClose env request app.state) := by
  refine recording_named fun name => ?_
  refine (Recording.onState_bind fun _ _ => @Recording.emitHttp _ request stamp _
    ⟨"vm", "close_shell", some name, "success",
      some ("session " ++ Cloudinit.toS env.toText (param request "id"))⟩ rfl rfl).of_iff
    fun entry => ?_
  exact ⟨fun ⟨_, killed, asked⟩ => ⟨killed, asked⟩, fun ⟨killed, asked⟩ => ⟨⟨⟩, killed, asked⟩⟩

end ShellSessionsController

/-! ## All actions -/

/-- The row that an action asks for, once the steps before it have succeeded. -/
def Action.Asks (site : ActionEnvironment) (request : Request) :
    (action : Action) → action.State → AuditEntry → Prop
  | .updateSettings => fun tables entry =>
      (SettingsController.save site.deployment request tables).1 = .ok ⟨⟩ ∧
        entry = ⟨"config", "update_settings", some "self", "success", none⟩
  | .webhooks .create =>
      Saved "config" "create_webhook" (WebhooksController.createWebhook site.deployment request)
  | .webhooks .update =>
      Saved "config" "update_webhook" (WebhooksController.updateWebhook site.deployment request)
  | .webhooks .destroy =>
      Saved "config" "delete_webhook" (WebhooksController.destroyWebhook site.deployment request)
  | .profiles .create =>
      Saved "config" "create_profile" (ProfilesController.createProfile site.deployment request)
  | .profiles .update =>
      Saved "config" "update_profile" (ProfilesController.updateProfile site.deployment request)
  | .profiles .destroy =>
      Saved "config" "delete_profile" (ProfilesController.destroyProfile site.deployment request)
  | .schedules .create =>
      Saved "schedule" "create_schedule"
        (SchedulesController.createSchedule site.deployment request)
  | .schedules .update =>
      Saved "schedule" "update_schedule"
        (SchedulesController.updateSchedule site.deployment request)
  | .schedules .destroy =>
      Saved "schedule" "delete_schedule"
        (SchedulesController.destroySchedule site.deployment request)
  | .createToken =>
      Saved "config" "create_token" (ApiTokensController.issueToken site.deployment request)
  | .destroyToken =>
      Saved "config" "delete_token" (ApiTokensController.revokeToken site.deployment request)
  | .templates action => fun disk entry =>
      CloudInitTemplatesController.Asks site.templates request disk entry action
  | .playbooks .create =>
      Stored "ansible" "create_playbook" (PlaybooksController.savePlaybook site.playbooks request)
  | .playbooks .update =>
      Stored "ansible" "update_playbook" (PlaybooksController.savePlaybook site.playbooks request)
  | .playbooks .destroy =>
      Stored "ansible" "delete_playbook" (PlaybooksController.removePlaybook site.playbooks request)
  | .vms action => fun host entry =>
      VmsController.Asks site.multipass request host entry action
  | .openShell =>
      ShellSessionsController.AsksOpen site.multipass site.spawn site.sessionId request
  | .closeShell => ShellSessionsController.AsksClose site.multipass request

theorem recording_perform {site : ActionEnvironment} (action : Action) (app : App action.State) :
    Recording request stamp (action.perform site stamp request) app
      (action.Asks site request app.state) := by
  cases action with
  | updateSettings => exact recording_updateSettings
  | webhooks change => cases change <;> exact recording_recordedIf rfl
  | profiles change => cases change <;> exact recording_recordedIf rfl
  | schedules change => cases change <;> exact recording_recordedIf rfl
  | createToken => exact Recording.rescue_invalid (recording_recordedIf rfl) ⟨⟩
  | destroyToken => exact recording_recordedIf rfl
  | templates action => exact CloudInitTemplatesController.recording_perform action
  | playbooks change =>
      cases change with
      | create => exact recording_playbook fun _ _ => rfl
      | update =>
          refine recording_playbook fun message middle => ?_
          split_ifs
          · rfl
          · rfl
      | destroy => exact recording_playbook fun _ _ => rfl
  | vms action => exact VmsController.recording_perform action
  | openShell => exact ShellSessionsController.recording_create
  | closeShell => exact ShellSessionsController.recording_destroy

/-- The request comes as far as its row, and the drawn id is unused. -/
def Action.Records (site : ActionEnvironment) (stamp : EventStamp) (request : Request)
    (action : Action) (app : App action.State) : Prop :=
  Fresh stamp app.events ∧ ∃ entry, action.Asks site request app.state entry

/-- Two requests that differ in filtered parameters only leave the same rows precisely
if both are recorded with the same parameters or neither is recorded. -/
theorem appended_eq_iff {first second : Request} (same : SameButFiltered first second)
    (site : ActionEnvironment) (stamp other : EventStamp) (action : Action)
    (app : App action.State) :
    appended (action.perform site stamp first) app =
        appended (action.perform site other second) app ↔
      (action.Records site stamp first app ↔ action.Records site other second app) ∧
        (action.Records site stamp first app → first.params = second.params) := by
  have firstRun := @recording_perform stamp first site action app
  have secondRun := @recording_perform other second site action app
  by_cases recorded : action.Records site stamp first app
  · rcases recorded with ⟨fresh, entry, asked⟩
    have row := firstRun.appended_eq_singleton asked fresh
    constructor
    · intro equal
      have alsoRecorded : action.Records site other second app := by
        by_contra silent
        rw [row, secondRun.appended_eq_nil silent] at equal
        cases equal
      rcases alsoRecorded with ⟨otherFresh, otherEntry, otherAsked⟩
      refine ⟨iff_of_true ⟨fresh, entry, asked⟩ ⟨otherFresh, otherEntry, otherAsked⟩, fun _ => ?_⟩
      rw [row, secondRun.appended_eq_singleton otherAsked otherFresh] at equal
      exact AuditEntry.params_eq (List.singleton_inj.mp equal)
    · rintro ⟨both, params⟩
      rcases both.mp ⟨fresh, entry, asked⟩ with ⟨otherFresh, _⟩
      rcases same.eq_iff.mpr (params ⟨fresh, entry, asked⟩) with rfl
      rw [row, secondRun.appended_eq_singleton asked otherFresh]
  · rw [firstRun.appended_eq_nil recorded]
    constructor
    · intro equal
      refine ⟨iff_of_false recorded fun ⟨fresh, entry, asked⟩ => ?_, fun isRecorded => ?_⟩
      · rw [secondRun.appended_eq_singleton asked fresh] at equal
        cases equal
      · exact absurd isRecorded recorded
    · rintro ⟨both, _⟩
      rw [secondRun.appended_eq_nil fun alsoRecorded => recorded (both.mpr alsoRecorded)]

end

/-! ## A change of the password -/

/-- An installation whose calls do not fail. -/
def plainSite : ActionEnvironment where
  deployment := ⟨Migration.plainEnvironment, fun _ => "", 0, "00c0ffee", "00c0ffee"⟩
  templates := CloudInitTemplatesController.installation
  playbooks := ⟨process, some "/data", fun _ => ""⟩
  multipass := quietEnvironment
  spawn := ⟨0, none, none⟩
  sessionId := "a1"

def passwordChange (password : String) : Request :=
  ⟨"PATCH", "/settings", .object [("setting", .object [("password", .string password)])]⟩

/-- The first start of the application. -/
def freshTables : App Configuration := ⟨⟨Table.empty, Table.empty⟩, []⟩

/-- A webhook with a secret, and without a name and a URL. -/
def namelessWebhook (secret : String) : Request :=
  ⟨"POST", "/webhooks", .object [("webhook", .object [("secret", .string secret)])]⟩

/-- Two secrets in requests that are refused, and one password in two that are recorded. -/
theorem appended_eq_iff_twoSecrets :
    appended ((Action.webhooks .create).perform plainSite ⟨0, "0000"⟩ (namelessWebhook "horse"))
        ⟨[], []⟩ =
      appended ((Action.webhooks .create).perform plainSite ⟨1, "0001"⟩ (namelessWebhook "staple"))
        ⟨[], []⟩ ∧
    appended (Action.updateSettings.perform plainSite ⟨0, "0000"⟩ (passwordChange "horse"))
        freshTables =
      appended (Action.updateSettings.perform plainSite ⟨1, "0001"⟩ (passwordChange "horse"))
        freshTables := by
  constructor
  · have refused : ∀ stamp secret, (WebhooksController.createWebhook plainSite.deployment
        (namelessWebhook secret) []).1 = .ok none →
          ¬ (Action.webhooks .create).Records plainSite stamp (namelessWebhook secret)
            ⟨[], []⟩ := by
      rintro stamp secret nothing ⟨_, entry, resource, saved, _⟩
      rw [nothing] at saved
      cases saved
    have same : SameButFiltered (namelessWebhook "horse") (namelessWebhook "staple") :=
      ⟨rfl, rfl, rfl⟩
    exact (appended_eq_iff same plainSite _ _ _ _).mpr
      ⟨iff_of_false (refused _ _ rfl) (refused _ _ rfl),
        fun recorded => absurd recorded (refused _ _ rfl)⟩
  · have recorded : ∀ stamp, Action.updateSettings.Records plainSite stamp
        (passwordChange "horse") freshTables :=
      fun _ => ⟨fun _ member => absurd member List.not_mem_nil, _, rfl, rfl⟩
    have same : SameButFiltered (passwordChange "horse") (passwordChange "horse") :=
      ⟨rfl, rfl, rfl⟩
    exact (appended_eq_iff same plainSite _ _ _ _).mpr
      ⟨iff_of_true (recorded _) (recorded _), fun _ => rfl⟩

/-- Two passwords, which the rows tell apart. -/
theorem passwords_recorded :
    SameButFiltered (passwordChange "horse") (passwordChange "staple") ∧
      appended (Action.updateSettings.perform plainSite ⟨0, "0000"⟩ (passwordChange "horse"))
          freshTables ≠
        appended (Action.updateSettings.perform plainSite ⟨0, "0000"⟩ (passwordChange "staple"))
          freshTables := by
  refine ⟨⟨rfl, rfl, rfl⟩, fun same => ?_⟩
  let entry : AuditEntry := ⟨"config", "update_settings", some "self", "success", none⟩
  have rows : [entry.attributes (passwordChange "horse")] =
      [entry.attributes (passwordChange "staple")] := same
  have params := AuditEntry.params_eq (List.singleton_inj.mp rows)
  simp [passwordChange] at params

end MultipassWebui.Web
