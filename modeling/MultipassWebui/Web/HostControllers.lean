import MultipassWebui.Multipass.Cloudinit
import MultipassWebui.Multipass.Playbooks
import MultipassWebui.Web.Application

/-!
# The controllers of playbooks and shell sessions

`PlaybooksController` and `ShellSessionsController`: what they change is on the
host, a file or a shell.
-/

namespace MultipassWebui.Web

open MultipassWebui.Effect
open MultipassWebui.Encoding
open MultipassWebui.Files
open MultipassWebui.Multipass
open MultipassWebui.Multipass.Playbooks
open MultipassWebui.Records
open MultipassWebui.Terminals (Server SpawnEnvironment)
open MultipassWebui.Text

/-! ## Playbooks -/

namespace PlaybooksController

/-- What the actions meet outside the repository, and the setting they read. -/
structure Site where
  kernel : Kernel
  /-- `Setting.current.playbooks_dir` -/
  playbooksDir : Option String
  /-- `to_s` of a value that is not a text. -/
  toText : Json → String

section

variable (site : Site) (stamp : EventStamp) (request : Request)

/-- `playbooks_dir` -/
def playbooksDir : Except RubyError String :=
  if present site.playbooksDir then .ok (site.playbooksDir.getD "")
  else (expandPath site.kernel.toSurroundings "~/.multipass-webui/playbooks").map text

/-- What `create` and `update` do to the disk, with the name of the playbook. -/
def savePlaybook : Exec Disk RubyError String := do
  let dir ← Exec.ofExcept (playbooksDir site)
  let name ← Exec.ofExcept (nameText "playbook" (param request "name"))
  let content := Cloudinit.toS site.toText (param request "content")
  let _ ← writePlaybook site.kernel dir name (utf8Bytes content)
  return name

/-- What `destroy` does to the disk, with the name of the playbook. -/
def removePlaybook : Exec Disk RubyError String := do
  let dir ← Exec.ofExcept (playbooksDir site)
  let name ← Exec.ofExcept (nameText "playbook" (param request "name"))
  let _ ← deletePlaybook site.kernel dir name
  return name

/-- Change the disk, and write that to the audit log. -/
def recorded (verb : String) (body : Exec Disk RubyError String) :
    Exec (App Disk) RubyError PUnit := do
  let name ← onState body
  emitHttp stamp request "ansible" verb (some name) (some "success") none

/-- `create` -/
def create : Exec (App Disk) RubyError PUnit :=
  rescueArgument (recorded stamp request "create_playbook" (savePlaybook site request))
    fun _ => pure ⟨⟩

/-- `update` -/
def update : Exec (App Disk) RubyError PUnit :=
  rescueArgument (recorded stamp request "update_playbook" (savePlaybook site request))
    fun _ =>
      if hasPath (param request "name") then pure ⟨⟩
      else Exec.raise (.argumentError "missing required keys: [:name]")

/-- `destroy` -/
def destroy : Exec (App Disk) RubyError PUnit :=
  rescueArgument (recorded stamp request "delete_playbook" (removePlaybook site request))
    fun _ => pure ⟨⟩

end

end PlaybooksController

/-! ## Shell sessions -/

/-- The machines and the registry of the shells. -/
structure ShellHost where
  host : Host
  server : Server

namespace ShellSessionsController

section

variable (env : Environment) (spawn : SpawnEnvironment) (sessionId : String)
variable (stamp : EventStamp) (request : Request)

/-- `set_vm_name`, which renders an error and ends the request if the name is not
valid. -/
def withVmName (body : String → Exec (App ShellHost) RubyError PUnit) :
    Exec (App ShellHost) RubyError PUnit :=
  match Value.orDefault (param request "vm_name") (param request "name") with
  | .string name => if NameValidator.VM_NAME_PATTERN name then body name else pure ⟨⟩
  | _ => pure ⟨⟩

/-- `require_running_vm`: whether the request goes on. -/
def requireRunningVm (name : String) : Exec ShellHost RubyError Bool :=
  Exec.rescue
    (do
      let vm ← Exec.zoom ShellHost.host (fun host shells => { shells with host })
        (getVmInfo env (.string name))
      return vm.state.bind Json.text? = some "Running")
    fun error => if error.isCommandError then some (pure false) else none

/-- `create`, with the id that is drawn for the session. -/
def create : Exec (App ShellHost) RubyError PUnit :=
  withVmName request fun name => do
    let running ← onState (requireRunningVm env name)
    if running then
      Exec.rescue
        (do
          let _ ← onState (Exec.zoom ShellHost.server (fun server shells => { shells with server })
            (Server.openSession name sessionId spawn))
          emitHttp stamp request "vm" "open_shell" (some name) (some "success")
            (some ("session " ++ sessionId)))
        fun _ => some (pure ⟨⟩)
    else pure ⟨⟩

/-- `destroy` -/
def destroy : Exec (App ShellHost) RubyError PUnit :=
  withVmName request fun name => do
    let id := Cloudinit.toS env.toText (param request "id")
    onState (Exec.zoom ShellHost.server (fun server shells => { shells with server })
      (Server.kill id))
    emitHttp stamp request "vm" "close_shell" (some name) (some "success")
      (some ("session " ++ id))

end

end ShellSessionsController

end MultipassWebui.Web
