import MultipassWebui.Records.Database
import MultipassWebui.Web.Application

/-!
# The controller of the virtual machines

The actions of `VmsController` that change something.
-/

namespace MultipassWebui.Web

open MultipassWebui.Effect
open MultipassWebui.Encoding
open MultipassWebui.Multipass
open MultipassWebui.Records

namespace VmsController

section

variable (env : Environment) (stamp : EventStamp) (request : Request)

/-- `params[key].presence&.to_i` -/
def count (key : String) : Except RubyError (Option Int) :=
  match Value.presence (param request key) with
  | .null => .ok none
  | value => (Value.toI value).map some

/-- The arguments of `launch_vm`. -/
def launchArguments : Except RubyError LaunchArguments := do
  let cpus ← count request "cpus"
  let memoryMb ← count request "memory_mb"
  let diskGb ← count request "disk_gb"
  return { name := Value.presence (param request "name")
           release := Value.presence (param request "release")
           cpus := cpus
           memoryMb := memoryMb
           diskGb := diskGb
           cloudInitFile := Value.presence (param request "cloud_init_file")
           networkName := Value.presence (param request "network_name") }

/-- `create` -/
def create : Exec (App Host) RubyError PUnit :=
  Exec.rescue
    (do
      let arguments ← Exec.ofExcept (launchArguments request)
      let name ← onState (launchVm env arguments)
      emitHttp stamp request "vm" "create" (some name) (some "success") (some "launched"))
    fun error =>
      match error with
      | .validationError _ => some (pure ⟨⟩)
      | .commandError message =>
          some (emitHttp stamp request "vm" "create" (column env (param request "name"))
            (some "failed") (some message))
      | _ => none

/-- `set_vm_name`, which renders an error and ends the request if the name is
not valid. -/
def withVmName (body : Json → Exec (App Host) RubyError PUnit) : Exec (App Host) RubyError PUnit :=
  if NameValidator.validVmName (param request "name") then body (param request "name")
  else pure ⟨⟩

/-- `ActiveModel::Type::Boolean.new.cast` -/
def castBoolean : Json → Bool
  | .null => false
  | .bool value => value
  | .number value => value ≠ 0
  | .string text => (Records.castBoolean text).getD false
  | .array _ | .object _ => true

/-- `destroy` -/
def destroy : Exec (App Host) RubyError PUnit :=
  withVmName request fun name =>
    let purge := castBoolean (param request "purge")
    rescueCommand
      (do
        let _ ← onState (deleteVm env name purge)
        emitHttp stamp request "vm" "delete" (column env name) (some "success")
          (some (if purge then "purged" else "deleted")))
      fun _ => pure ⟨⟩

/-- `perform_lifecycle` -/
def performLifecycle (method : Json → Exec Host RubyError String) (actionName : String) :
    Exec (App Host) RubyError PUnit :=
  withVmName request fun name =>
    rescueCommand
      (do
        let _ ← onState (method name)
        emitHttp stamp request "vm" actionName (column env name) (some "success")
          (some actionName))
      fun message =>
        emitHttp stamp request "vm" actionName (column env name) (some "failed") (some message)

/-- `start` -/
def start : Exec (App Host) RubyError PUnit :=
    performLifecycle env stamp request (startVm env) "start"

/-- `stop` -/
def stop : Exec (App Host) RubyError PUnit := performLifecycle env stamp request (stopVm env) "stop"

/-- `suspend` -/
def suspend : Exec (App Host) RubyError PUnit :=
  performLifecycle env stamp request (suspendVm env) "suspend"

/-- `recover` -/
def recover : Exec (App Host) RubyError PUnit :=
  performLifecycle env stamp request (recoverVm env) "recover"

/-- `clone` -/
def clone : Exec (App Host) RubyError PUnit :=
  withVmName request fun name =>
    rescueCommand
      (do
        let dest ← onState (cloneVm env name (Value.presence (param request "dest_name")))
        emitHttp stamp request "vm" "clone" (column env name) (some "success")
          (some ("→ " ++ interpolate env dest)))
      fun _ => pure ⟨⟩

/-- One line of `update_resource_config`. -/
def setIfPresent (key : String) (set : Int → Exec Host RubyError String) :
    Exec (App Host) RubyError PUnit :=
  if Value.present (param request key) then do
    let value ← Exec.ofExcept (Value.toI (param request key))
    let _ ← onState (set value)
    return ⟨⟩
  else pure ⟨⟩

/-- `update_resource_config` -/
def updateResourceConfig : Exec (App Host) RubyError PUnit :=
  withVmName request fun name =>
    rescueCommand
      (do
        let _ ← setIfPresent request "cpus" (setVmCpus env name)
        let _ ← setIfPresent request "memory_mb" (setVmMemory env name)
        let _ ← setIfPresent request "disk_gb" (setVmDisk env name)
        emitHttp stamp request "vm" "resize" (column env name) (some "success")
          (some "reconfigured"))
      fun _ => pure ⟨⟩

/-- A call of the client without an event. -/
def unrecorded {α : Type} (body : Exec Host RubyError α) : Exec (App Host) RubyError PUnit :=
  rescueCommand
    (do
      let _ ← onState body
      return ⟨⟩)
    fun _ => pure ⟨⟩

/-- `start_all` -/
def startAll : Exec (App Host) RubyError PUnit := unrecorded (Multipass.startAll env)

/-- `stop_all` -/
def stopAll : Exec (App Host) RubyError PUnit := unrecorded (Multipass.stopAll env)

/-- `purge` -/
def purge : Exec (App Host) RubyError PUnit := unrecorded (purgeDeleted env)

/-- The actions that change something. -/
inductive Action where
  | create
  | destroy
  | start
  | stop
  | suspend
  | recover
  | clone
  | updateResourceConfig
  | startAll
  | stopAll
  | purge
  deriving DecidableEq, Repr

/-- Carry out an action. -/
def perform : Action → Exec (App Host) RubyError PUnit
  | .create => create env stamp request
  | .destroy => destroy env stamp request
  | .start => start env stamp request
  | .stop => stop env stamp request
  | .suspend => suspend env stamp request
  | .recover => recover env stamp request
  | .clone => clone env stamp request
  | .updateResourceConfig => updateResourceConfig env stamp request
  | .startAll => startAll env
  | .stopAll => stopAll env
  | .purge => purge env

end

end VmsController

end MultipassWebui.Web
