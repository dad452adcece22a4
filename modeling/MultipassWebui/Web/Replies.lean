import MultipassWebui.Web.HostControllers
import MultipassWebui.Web.Routes
import MultipassWebui.Web.VmsController

/-!
# Replies to JSON requests

What the actions of `VmsController` and `ShellSessionsController` render for a
request in JSON.  Without their replies the actions are those of the models of
the two controllers.
-/

namespace MultipassWebui.Effect.Exec

variable {σ ε α β : Type}

/-- The computation without what it returns. -/
def forget (body : Exec σ ε α) : Exec σ ε PUnit := body >>= fun _ => pure ⟨⟩

theorem forget_bind (first : Exec σ ε β) (next : β → Exec σ ε α) :
    forget (first >>= next) = first >>= fun value => forget (next value) :=
  bind_assoc first next fun _ => (pure ⟨⟩ : Exec σ ε PUnit)

theorem forget_punit (body : Exec σ ε PUnit) : forget body = body := by
  funext state
  rw [forget, bind_apply]
  rcases body state with ⟨raised | _, middle⟩
  · rfl
  · rfl

/-- A step without a value, and then a reply. -/
theorem forget_returning (first : Exec σ ε PUnit) (reply : PUnit → α) :
    forget (first >>= fun done => pure (reply done)) = first := by
  rw [forget_bind]
  exact forget_punit first

theorem forget_rescue (body : Exec σ ε α) (handler : ε → Option (Exec σ ε α)) :
    forget (rescue body handler) =
      rescue (forget body) fun raised => (handler raised).map forget := by
  funext state
  rcases ran : body state with ⟨raised | value, middle⟩
  · have forgotten : forget body state = (.error raised, middle) := bind_error ran _
    rw [rescue_error forgotten, forget, bind_apply, rescue_error ran]
    cases handler raised with
    | none => rfl
    | some handled => rfl
  · have forgotten : forget body state = (.ok ⟨⟩, middle) := bind_ok ran _
    rw [rescue_ok forgotten, forget, bind_apply, rescue_ok ran]
    rfl

end MultipassWebui.Effect.Exec

namespace MultipassWebui.Web

open MultipassWebui.Effect
open MultipassWebui.Encoding
open MultipassWebui.Multipass
open MultipassWebui.Records
open MultipassWebui.Terminals (Server SpawnEnvironment)

inductive Reply where
  | json (status : Nat) (body : Json)
  | redirect (path : List Char)
  /-- A template, whose rendering is left out. -/
  | page

/-- `render json: { error: message }, status:` -/
def Reply.error (status : Nat) (message : String) : Reply :=
  .json status (.object [("error", .string message)])

/-- `render json: { message: }` -/
def Reply.message (message : String) : Reply := .json 200 (.object [("message", .string message)])

section

variable (env : Environment) (message : RubyError → String)
variable (stamp : EventStamp) (request : Request)

/-- `rescue Multipass::Client::CommandError => e`, with the reply for it. -/
def replyToCommandError {σ : Type} (body : Exec σ RubyError Reply) (reply : RubyError → Reply) :
    Exec σ RubyError Reply :=
  Exec.rescue body fun error => if error.isCommandError then some (pure (reply error)) else none

/-! ## Virtual machines -/

namespace VmsController

/-- `render_error`, in JSON; `message` is `e.message`. -/
def renderError (status : Nat) (error : RubyError) : Reply := .error status (message error)

/-- `set_vm_name` before an action. -/
def afterVmName {σ : Type} (body : String → Exec σ RubyError Reply) : Exec σ RubyError Reply :=
  match param request "name" with
  | .string name =>
      if NameValidator.VM_NAME_PATTERN name then body name
      else pure (renderError message 400 (.validationError name))
  | _ => pure (renderError message 400 (.validationError "nil"))

/-- `serialize_vm` -/
def serializeVm (vm : VmInfo) : Json :=
  .object [("name", vm.name), ("state", vm.state.getD .null), ("ipv4", vm.ipv4),
    ("release", vm.release), ("cpus", vm.cpus), ("memory_usage", .orNull vm.memoryUsage),
    ("memory_total", .orNull vm.memoryTotal), ("disk_usage", .orNull vm.diskUsage),
    ("disk_total", .orNull vm.diskTotal), ("snapshots", .number vm.snapshots)]

/-- `vm_path(name)` -/
def vmPath (name : String) : List Char := memberPath "vms" name

/-- `index` -/
def indexReply : Exec (App Host) RubyError Reply :=
  replyToCommandError
    (do
      let vms ← onState (listVms env)
      return .json 200 (.array (vms.map serializeVm)))
    (renderError message 500)

/-- `show` -/
def showReply : Exec (App Host) RubyError Reply :=
  afterVmName message request fun name =>
    replyToCommandError
      (do
        let vm ← onState (getVmInfo env (.string name))
        return .json 200 (serializeVm vm))
      (renderError message 404)

/-- `create` -/
def createReply : Exec (App Host) RubyError Reply :=
  Exec.rescue
    (do
      let arguments ← Exec.ofExcept (launchArguments request)
      let name ← onState (launchVm env arguments)
      emitHttp stamp request "vm" "create" (some name) (some "success") (some "launched")
      return .json 202 (.object [("name", .string name), ("state", .string "launched")]))
    fun error =>
      match error with
      | .validationError _ => some (pure (renderError message 400 error))
      | .commandError detail => some (do
          emitHttp stamp request "vm" "create" (column env (param request "name"))
            (some "failed") (some detail)
          return renderError message 500 error)
      | _ => none

/-- `destroy` -/
def destroyReply : Exec (App Host) RubyError Reply :=
  afterVmName message request fun name =>
    let purge := castBoolean (param request "purge")
    replyToCommandError
      (do
        let _ ← onState (deleteVm env (.string name) purge)
        emitHttp stamp request "vm" "delete" (some name) (some "success")
          (some (if purge then "purged" else "deleted"))
        return .message "deleted")
      (renderError message 500)

/-- `perform_lifecycle` -/
def performLifecycleReply (method : Json → Exec Host RubyError String) (actionName : String) :
    Exec (App Host) RubyError Reply :=
  afterVmName message request fun name =>
    Exec.rescue
      (do
        let _ ← onState (method (.string name))
        emitHttp stamp request "vm" actionName (some name) (some "success") (some actionName)
        return .message actionName)
      fun error =>
        match error with
        | .commandError detail => some (do
            emitHttp stamp request "vm" actionName (some name) (some "failed") (some detail)
            return renderError message 500 error)
        | _ => none

/-- `clone` -/
def cloneReply : Exec (App Host) RubyError Reply :=
  afterVmName message request fun name =>
    replyToCommandError
      (do
        let dest ← onState (cloneVm env (.string name)
          (Value.presence (param request "dest_name")))
        emitHttp stamp request "vm" "clone" (some name) (some "success")
          (some ("→ " ++ interpolate env dest))
        return .json 200 (.object [("name", dest)]))
      (renderError message 500)

/-- `resource_config` -/
def resourceConfigReply : Exec (App Host) RubyError Reply :=
  afterVmName message request fun name =>
    replyToCommandError
      (do
        let _ ← onState (getVmInfo env (.string name))
        let config ← onState (getVmConfig env (.string name))
        return .json 200 (.object [("cpus", .number config.cpus),
          ("memory_mb", .number config.memoryMb), ("disk_gb", .number config.diskGb)]))
      (renderError message 404)

/-- `update_resource_config` -/
def updateResourceConfigReply : Exec (App Host) RubyError Reply :=
  afterVmName message request fun name =>
    replyToCommandError
      (do
        let _ ← setIfPresent request "cpus" (setVmCpus env (.string name))
        let _ ← setIfPresent request "memory_mb" (setVmMemory env (.string name))
        let _ ← setIfPresent request "disk_gb" (setVmDisk env (.string name))
        emitHttp stamp request "vm" "resize" (some name) (some "success") (some "reconfigured")
        return .redirect (vmPath name))
      (renderError message 500)

/-- `start_all`, `stop_all` and `purge`, which redirect to `host_path` either way. -/
def unrecordedReply {α : Type} (body : Exec Host RubyError α) : Exec (App Host) RubyError Reply :=
  replyToCommandError
    (do
      let _ ← onState body
      return .redirect ['/'])
    fun _ => .redirect ['/']

/-- `@vm.ipv4.first` -/
def firstAddress : Json → Except RubyError PUnit
  | .array _ | .object _ | .string _ => .ok ⟨⟩
  | _ => .error (.noMethodError "first")

/-- `vnc` -/
def vncReply : Exec (App Host) RubyError Reply :=
  afterVmName message request fun name =>
    replyToCommandError
      (do
        let vm ← onState (getVmInfo env (.string name))
        let _ ← Exec.ofExcept (Value.toI (Value.orDefault (param request "port") (.number 5900)))
        let _ ← Exec.ofExcept (firstAddress vm.ipv4)
        let _ ← Exec.ofExcept (Value.toI (Value.orDefault (param request "ws_port")
          (.number 6080)))
        return .page)
      fun _ => .redirect (vmPath name)

/-- The replies of the actions that change something. -/
def performReply : Action → Exec (App Host) RubyError Reply
  | .create => createReply env message stamp request
  | .destroy => destroyReply env message stamp request
  | .start => performLifecycleReply message stamp request (startVm env) "start"
  | .stop => performLifecycleReply message stamp request (stopVm env) "stop"
  | .suspend => performLifecycleReply message stamp request (suspendVm env) "suspend"
  | .recover => performLifecycleReply message stamp request (recoverVm env) "recover"
  | .clone => cloneReply env message stamp request
  | .updateResourceConfig => updateResourceConfigReply env message stamp request
  | .startAll => unrecordedReply (Multipass.startAll env)
  | .stopAll => unrecordedReply (Multipass.stopAll env)
  | .purge => unrecordedReply (purgeDeleted env)

end VmsController

/-! ## Shells -/

variable (spawn : SpawnEnvironment) (sessionId : String)
-- `created_at` of a session in JSON.
variable (timeJson : Int → Json)

/-- A call of the client, on the machines of the shells. -/
def onHost {α : Type} (body : Exec Host RubyError α) : Exec (App ShellHost) RubyError α :=
  onState (Exec.zoom ShellHost.host (fun host shells => { shells with host }) body)

/-- A call of the registry. -/
def onServer {α : Type} (body : Exec Server RubyError α) : Exec (App ShellHost) RubyError α :=
  onState (Exec.zoom ShellHost.server (fun server shells => { shells with server }) body)

/-- An action that does not concern the shells. -/
def besideShells {α : Type} (body : Exec (App Host) RubyError α) :
    Exec (App ShellHost) RubyError α :=
  Exec.zoom (fun app => ⟨app.state.host, app.events⟩)
    (fun app whole => ⟨{ whole.state with host := app.state }, app.events⟩) body

namespace VmsController

/-- `console`, which opens a session if there is none for the machine. -/
def consoleReply : Exec (App ShellHost) RubyError Reply :=
  afterVmName message request fun name =>
    replyToCommandError
      (do
        let _ ← onHost (getVmInfo env (.string name))
        let existing ← onServer (Server.forVm name)
        match existing.head? with
        | some _ => return .page
        | none => do
            let _ ← onServer (Server.openSession name sessionId spawn)
            return .page)
      fun _ => .redirect (vmPath name)

end VmsController

namespace ShellSessionsController

/-- `set_vm_name` before an action. -/
def afterVmName (body : String → Exec (App ShellHost) RubyError Reply) :
    Exec (App ShellHost) RubyError Reply :=
  match Value.orDefault (param request "vm_name") (param request "name") with
  | .string name =>
      if NameValidator.VM_NAME_PATTERN name then body name
      else pure (.error 400 (message (.validationError name)))
  | _ => pure (.error 400 (message (.validationError "nil")))

/-- The sessions of a machine. -/
def sessionsOf (server : Server) (vmName : String) : List Json :=
  (server.keysForVm vmName).filterMap fun id => (server.sessionAt id).map fun session =>
    .object [("id", .string id), ("vm_name", .string session.vmName),
      ("created_at", timeJson session.createdAt)]

/-- `index` -/
def indexReply : Exec (App ShellHost) RubyError Reply :=
  afterVmName message request fun name => do
    let sessions ← onServer
      (Server.synchronize (Exec.gets fun server => sessionsOf timeJson server name))
    return .json 200 (.array sessions)

/-- `require_running_vm`, with the reply that ends the request, if any. -/
def refuseUnlessRunning (name : String) : Exec (App ShellHost) RubyError (Option Reply) :=
  Exec.rescue
    (do
      let vm ← onHost (getVmInfo env (.string name))
      return if vm.state.bind Json.text? = some "Running" then none
        else some (.error 409 ("VM must be Running to open a shell (current: " ++
          textOf env (vm.state.getD .null) ++ ")")))
    fun error =>
      if error.isCommandError then some (pure (some (.error 404 (message error)))) else none

/-- `create`, with the id that is drawn for the session. -/
def createReply : Exec (App ShellHost) RubyError Reply :=
  afterVmName message request fun name => do
    match ← refuseUnlessRunning env message name with
    | some refusal => return refusal
    | none =>
        Exec.rescue
          (do
            let _ ← onServer (Server.openSession name sessionId spawn)
            emitHttp stamp request "vm" "open_shell" (some name) (some "success")
              (some ("session " ++ sessionId))
            return .json 200 (.object [("id", .string sessionId), ("vm_name", .string name)]))
          fun error =>
            match error with
            | .validationError _ => some (pure (.error 400 (message error)))
            | _ => some (pure (.error 500 (message error)))

/-- `destroy` -/
def destroyReply : Exec (App ShellHost) RubyError Reply :=
  afterVmName message request fun name => do
    let id := Cloudinit.toS env.toText (param request "id")
    onServer (Server.kill id)
    emitHttp stamp request "vm" "close_shell" (some name) (some "success")
      (some ("session " ++ id))
    return .message "killed"

end ShellSessionsController

end

/-! ## Without the replies -/

section

variable {env : Environment} {message : RubyError → String}
variable {stamp : EventStamp} {request : Request}

namespace VmsController

/-- `set_vm_name` of the two models. -/
theorem forget_afterVmName (body : String → Exec (App Host) RubyError Reply)
    {plain : Json → Exec (App Host) RubyError PUnit}
    (same : ∀ name, param request "name" = .string name →
      (body name).forget = plain (.string name)) :
    (afterVmName message request body).forget = withVmName request plain := by
  rw [afterVmName, withVmName]
  cases given : param request "name" with
  | string name =>
      change Exec.forget (if _ then _ else _) = if NameValidator.VM_NAME_PATTERN name = true
        then _ else _
      by_cases valid : NameValidator.VM_NAME_PATTERN name = true
      · rw [if_pos valid, if_pos valid]
        exact same name given
      · rw [if_neg valid, if_neg valid]
        rfl
  | _ => rfl

/-- A rescued command error of the two models. -/
theorem forget_replyToCommandError {σ : Type} (body : Exec σ RubyError Reply)
    (reply : RubyError → Reply) :
    (replyToCommandError body reply).forget = rescueCommand body.forget fun _ => pure ⟨⟩ := by
  rw [replyToCommandError, Exec.forget_rescue, rescueCommand]
  congr 1
  funext error
  cases error with
  | commandError detail => rfl
  | _ => rfl

theorem forget_createReply :
    (createReply env message stamp request).forget = create env stamp request := by
  rw [createReply, create, Exec.forget_rescue]
  congr 1
  · rw [Exec.forget_bind]
    congr 1
    funext arguments
    rw [Exec.forget_bind]
    congr 1
    funext name
    exact Exec.forget_returning _ _
  · funext error
    cases error with
    | commandError detail => exact congrArg some (Exec.forget_returning _ _)
    | _ => rfl

theorem forget_performLifecycleReply (method : Json → Exec Host RubyError String)
    (actionName : String) :
    (performLifecycleReply message stamp request method actionName).forget =
      performLifecycle env stamp request method actionName := by
  rw [performLifecycleReply, performLifecycle]
  apply forget_afterVmName
  intro name _
  rw [Exec.forget_rescue, rescueCommand]
  congr 1
  · rw [Exec.forget_bind]
    congr 1
    funext _
    exact Exec.forget_returning _ _
  · funext error
    cases error with
    | commandError detail => exact congrArg some (Exec.forget_returning _ _)
    | _ => rfl

theorem forget_unrecordedReply {α : Type} (body : Exec Host RubyError α) :
    (unrecordedReply body).forget = unrecorded body := by
  rw [unrecordedReply, forget_replyToCommandError, unrecorded, Exec.forget_bind]
  rfl

/-- The actions of the model are those with their replies, forgotten. -/
theorem forget_performReply (action : Action) :
    (performReply env message stamp request action).forget = perform env stamp request action := by
  cases action with
  | create => exact forget_createReply
  | destroy =>
      rw [performReply, destroyReply, perform, destroy]
      apply forget_afterVmName
      intro name _
      rw [forget_replyToCommandError, Exec.forget_bind]
      congr 2
      funext _
      exact Exec.forget_returning _ _
  | start => exact forget_performLifecycleReply _ _
  | stop => exact forget_performLifecycleReply _ _
  | suspend => exact forget_performLifecycleReply _ _
  | recover => exact forget_performLifecycleReply _ _
  | clone =>
      rw [performReply, cloneReply, perform, clone]
      apply forget_afterVmName
      intro name _
      rw [forget_replyToCommandError, Exec.forget_bind]
      congr 2
      funext _
      exact Exec.forget_returning _ _
  | updateResourceConfig =>
      rw [performReply, updateResourceConfigReply, perform, updateResourceConfig]
      apply forget_afterVmName
      intro name _
      rw [forget_replyToCommandError, Exec.forget_bind]
      congr 2
      funext _
      rw [Exec.forget_bind]
      congr 1
      funext _
      rw [Exec.forget_bind]
      congr 1
      funext _
      exact Exec.forget_returning _ _
  | startAll => exact forget_unrecordedReply _
  | stopAll => exact forget_unrecordedReply _
  | purge => exact forget_unrecordedReply _

end VmsController

namespace ShellSessionsController

variable {spawn : SpawnEnvironment} {sessionId : String} {app : App ShellHost}

theorem forget_afterVmName (body : String → Exec (App ShellHost) RubyError Reply)
    {plain : String → Exec (App ShellHost) RubyError PUnit}
    (same : ∀ name, (body name).forget = plain name) :
    (afterVmName message request body).forget = withVmName request plain := by
  rw [afterVmName, withVmName]
  cases Value.orDefault (param request "vm_name") (param request "name") with
  | string name =>
      change Exec.forget (if _ then _ else _) = if NameValidator.VM_NAME_PATTERN name = true
        then _ else _
      by_cases valid : NameValidator.VM_NAME_PATTERN name = true
      · rw [if_pos valid, if_pos valid]
        exact same name
      · rw [if_neg valid, if_neg valid]
        rfl
  | _ => rfl

/-- The request goes on exactly if there is no reply that ends it. -/
theorem refuseUnlessRunning_apply (name : String) :
    (refuseUnlessRunning env message name app).1.map Option.isNone =
        (onState (requireRunningVm env name) app).1 ∧
      (refuseUnlessRunning env message name app).2 =
        (onState (requireRunningVm env name) app).2 := by
  rcases ran : getVmInfo env (.string name) app.state.host with ⟨raised | vm, after⟩
  · have failed : onHost (getVmInfo env (.string name)) app =
        (.error raised, { app with state := { app.state with host := after } }) := by
      rw [onHost, onState_apply, Exec.zoom_apply, ran]
    have failedPlain : Exec.zoom ShellHost.host (fun host shells => { shells with host })
        (getVmInfo env (.string name)) app.state =
        (.error raised, { app.state with host := after }) := by
      rw [Exec.zoom_apply, ran]
    rw [refuseUnlessRunning, Exec.rescue_error (Exec.bind_error failed _), onState_apply,
      requireRunningVm, Exec.rescue_error (Exec.bind_error failedPlain _)]
    cases raised with
    | commandError detail => exact ⟨rfl, rfl⟩
    | _ => exact ⟨rfl, rfl⟩
  · have returned : onHost (getVmInfo env (.string name)) app =
        (.ok vm, { app with state := { app.state with host := after } }) := by
      rw [onHost, onState_apply, Exec.zoom_apply, ran]
    have returnedPlain : Exec.zoom ShellHost.host (fun host shells => { shells with host })
        (getVmInfo env (.string name)) app.state =
        (.ok vm, { app.state with host := after }) := by
      rw [Exec.zoom_apply, ran]
    rw [refuseUnlessRunning, Exec.rescue_ok (Exec.bind_ok returned _), onState_apply,
      requireRunningVm, Exec.rescue_ok (Exec.bind_ok returnedPlain _)]
    by_cases running : vm.state.bind Json.text? = some "Running"
    · rw [if_pos running]
      exact ⟨congrArg Except.ok (decide_eq_true running).symm, rfl⟩
    · rw [if_neg running]
      exact ⟨congrArg Except.ok (decide_eq_false running).symm, rfl⟩

theorem forget_createReply :
    (createReply env message stamp request spawn sessionId).forget =
      create env spawn sessionId stamp request := by
  apply forget_afterVmName
  intro name
  rw [Exec.forget_bind]
  funext app
  rcases @refuseUnlessRunning_apply env message app name with ⟨outcome, after⟩
  rcases refused : refuseUnlessRunning env message name app with ⟨raised | refusal, middle⟩
  · rw [refused] at outcome after
    rw [Exec.bind_error refused, Exec.bind_error (Prod.ext outcome.symm after.symm)]
  · rw [refused] at outcome after
    rw [Exec.bind_ok refused, Exec.bind_ok (Prod.ext outcome.symm after.symm)]
    cases refusal with
    | some reply => rfl
    | none =>
        change Exec.forget (Exec.rescue _ _) middle =
          Exec.rescue _ (fun _ => some (pure ⟨⟩)) middle
        rw [Exec.forget_rescue]
        refine congrFun (congrArg₂ Exec.rescue ?_ ?_) middle
        · rw [Exec.forget_bind]
          congr 1
          funext _
          exact Exec.forget_returning _ _
        · funext error
          cases error with
          | validationError shown => rfl
          | _ => rfl

theorem forget_destroyReply :
    (destroyReply env message stamp request).forget = destroy env stamp request := by
  apply forget_afterVmName
  intro name
  change (onServer _ >>= fun _ => _).forget = _
  rw [Exec.forget_bind]
  congr 1
  funext _
  exact Exec.forget_returning _ _

end ShellSessionsController

end

end MultipassWebui.Web
