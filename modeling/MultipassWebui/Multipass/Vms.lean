import MultipassWebui.Files.Names
import MultipassWebui.Multipass.Info
import MultipassWebui.Multipass.Sizes

/-!
# Virtual machines

`Multipass::Vms`.  A parameter that is passed on as it comes is a JSON value,
since nothing but the operation itself looks at its type.
-/

namespace MultipassWebui.Multipass

open MultipassWebui.Effect
open MultipassWebui.Effect.Value (nilOrEmpty givenAndNotEmpty requireText)
open MultipassWebui.Encoding
open MultipassWebui.Text

def DEFAULT_UBUNTU_RELEASE : String := "24.04"
def DEFAULT_CPU_CORES : Int := 2
def DEFAULT_RAM_MB : Int := 1024
def DEFAULT_DISK_GB : Int := 8
def MIN_CPU_CORES : Int := 1
def MIN_RAM_MB : Int := 512
def MIN_DISK_GB : Int := 1

section

variable (env : Environment)

/-- `list_vms` -/
def listVms : Exec Host RubyError (List VmInfo) :=
  Exec.rescue
    (do
      let output ← run env [.literal "info", .literal "--all", .literal "--format", .literal "json"]
      let resp ← parse env output
      Exec.ofExcept (parseInfoJson env resp))
    fun error =>
      if error.isCommandError then
        some (do
          let listOutput ← Exec.rescue
            (run env [.literal "list", .literal "--format", .literal "json"])
            fun second => if second.isCommandError then some (Exec.raise error) else none
          let resp ← parse env listOutput
          let vms ← Exec.ofExcept (parseListJsonBasic resp)
          Exec.ofExcept (sortByName vms))
      else none

/-- `get_vm_info` -/
def getVmInfo (name : Json) : Exec Host RubyError VmInfo := do
  let name ← NameValidator.validateVmName name
  let output ← run env [.literal "info", .given name, .literal "--format", .literal "json"]
  let resp ← parse env output
  let vms ← Exec.ofExcept (parseInfoJson env resp)
  match vms.find? fun vm => vm.name.text? = some name with
  | some vm => pure vm
  | none => Exec.raise (.argumentError ("VM " ++ name ++ " not found in info response"))

/-! ## Launching and cloning -/

/-- Where the copy of a cloud-init file is staged. -/
def stagedPath (srcPath : String) : String :=
  let dir := if env.snapDirExists then "/var/snap/multipass/common" else env.tmpdir
  Files.join dir ("passgo-cloud-init-" ++ Files.basename srcPath)

/-- `copy_for_snap` -/
def copyForSnap (srcPath : String) : Exec Host RubyError String := fun host =>
  match host.files.get? srcPath, env.readError srcPath with
  | none, _ => (.error (.systemCallError "ENOENT"), host)
  | some _, some raised => (.error raised, host)
  | some data, none =>
      let dst := stagedPath env srcPath
      match env.writeError dst with
      | some ⟨raised, none⟩ => (.error raised, host)
      | some ⟨raised, some written⟩ =>
          (.error raised, { host with files := host.files.insert dst written })
      | none =>
          (.ok dst, { host with files := host.files.insert dst data, lastCloudInitTmp := some dst })

/-- `FileUtils.rm_f(@last_cloud_init_tmp) if defined?(@last_cloud_init_tmp)` -/
def removeStaged : Exec Host RubyError PUnit := fun host =>
  match host.lastCloudInitTmp with
  | some dst =>
      if env.removeFails dst then (.ok ⟨⟩, host)
      else (.ok ⟨⟩, { host with files := host.files.delete dst })
  | none => (.ok ⟨⟩, host)

/-- The keyword arguments of `launch_vm`. -/
structure LaunchArguments where
  name : Json
  release : Json
  cpus : Option Int
  memoryMb : Option Int
  diskGb : Option Int
  cloudInitFile : Json
  networkName : Json

/-- A missing number, and one below the minimum, is replaced by the default. -/
def orDefault (minimum default : Int) : Option Int → Int
  | none => default
  | some value => if value < minimum then default else value

/-- The flags of the resources. -/
def resourceFlags (arguments : LaunchArguments) (name : String) : List Word :=
  [.literal "launch", .literal "--name", .given name,
    .literal "--cpus", .given (toString (orDefault MIN_CPU_CORES DEFAULT_CPU_CORES arguments.cpus)),
    .literal "--memory",
    .given (toString (orDefault MIN_RAM_MB DEFAULT_RAM_MB arguments.memoryMb) ++ "M"),
    .literal "--disk",
    .given (toString (orDefault MIN_DISK_GB DEFAULT_DISK_GB arguments.diskGb) ++ "G")]

/-- The flag of the network. -/
def networkFlags (networkName : Json) : List Word :=
  match networkName with
  | .null | .string "" | .string "nat" => []
  | .string "bridged" => [.literal "--bridged"]
  | network => [.literal "--network", .given (interpolate env network)]

/-- The staged copy of the cloud-init file and its flag. -/
def cloudInitFlags (cloudInitFile : Json) : Exec Host RubyError (List Word) := do
  if ← Exec.ofExcept (nilOrEmpty cloudInitFile) then return []
  else do
    let srcPath ← Exec.ofExcept (requireText cloudInitFile)
    let tmpFile ← copyForSnap env srcPath
    return [.literal "--cloud-init", .given tmpFile]

/-- The release, as the last element of the argv. -/
def releaseWord (release : Json) : Exec Host RubyError Word := do
  if ← Exec.ofExcept (nilOrEmpty release) then return .literal DEFAULT_UBUNTU_RELEASE
  else do
    let text ← Exec.ofExcept (requireText release)
    return .given text

/-- The name that `launch_vm` uses. -/
def launchName (name : Json) : Exec Host RubyError String := do
  if ← Exec.ofExcept (nilOrEmpty name) then
    NameValidator.validateVmName (.string (randomVmName env))
  else NameValidator.validateVmName name

/-- `launch_vm`.  A release that is no text gets as far as the runner, which
cannot build an argv from it. -/
def launchVm (arguments : LaunchArguments) : Exec Host RubyError String := do
  let name ← launchName env arguments.name
  let _ ← Exec.ofExcept (nilOrEmpty arguments.release)
  let cloudInit ← cloudInitFlags env arguments.cloudInitFile
  let _ ← Exec.ensure
    (do
      let release ← releaseWord arguments.release
      run env (resourceFlags arguments name ++ cloudInit ++
          networkFlags env arguments.networkName ++
        [release]))
    (removeStaged env)
  return name

/-- `clone_vm` -/
def cloneVm (source destName : Json) : Exec Host RubyError Json := do
  let source ← NameValidator.validateVmName source
  if ← Exec.ofExcept (givenAndNotEmpty destName) then do
    let dest ← NameValidator.validateVmName destName
    let _ ← run env [.literal "clone", .given source, .literal "--name", .given dest]
    return destName
  else do
    let _ ← run env [.literal "clone", .given source]
    return destName

/-! ## Lifecycle -/

/-- A command with nothing but a verb and a name. -/
def lifecycle (verb : String) (name : Json) : Exec Host RubyError String := do
  let name ← NameValidator.validateVmName name
  run env [.literal verb, .given name]

/-- `start_vm` -/
def startVm (name : Json) : Exec Host RubyError String := lifecycle env "start" name

/-- `stop_vm` -/
def stopVm (name : Json) : Exec Host RubyError String := lifecycle env "stop" name

/-- `suspend_vm` -/
def suspendVm (name : Json) : Exec Host RubyError String := lifecycle env "suspend" name

/-- `recover_vm` -/
def recoverVm (name : Json) : Exec Host RubyError String := lifecycle env "recover" name

/-- `get_raw_info` -/
def getRawInfo (name : Json) : Exec Host RubyError String := lifecycle env "info" name

/-- `delete_vm` -/
def deleteVm (name : Json) (purge : Bool) : Exec Host RubyError String := do
  let name ← NameValidator.validateVmName name
  run env ([.literal "delete", .given name] ++ if purge then [.literal "--purge"] else [])

/-- `purge_deleted` -/
def purgeDeleted : Exec Host RubyError String := run env [.literal "purge"]

/-- One round of `run_all_in_state`, with the error it collects. -/
def runOne (state : String) (block : Json → Exec Host RubyError String) (vm : VmInfo) :
    Exec Host RubyError (List String) :=
  if vm.state.bind Json.text? = some state then
    Exec.rescue (do
      let _ ← block vm.name
      pure [])
      fun error =>
        match error with
        | .commandError message => some (pure [interpolate env vm.name ++ ": " ++ message])
        | _ => none
  else pure []

/-- The loop of `run_all_in_state`, with the collected errors. -/
def runEach (state : String) (block : Json → Exec Host RubyError String) :
    List VmInfo → Exec Host RubyError (List String)
  | [] => pure []
  | vm :: rest => do
      let errors ← runOne env state block vm
      let more ← runEach state block rest
      return errors ++ more

/-- `run_all_in_state` -/
def runAllInState (state : String) (block : Json → Exec Host RubyError String) :
    Exec Host RubyError PUnit := do
  let vms ← listVms env
  let errors ← runEach env state block vms
  if errors.isEmpty then pure ⟨⟩
  else Exec.raise (.commandError (commandMessage ["bulk"] 1 ("; ".intercalate errors)))

/-- `start_all` -/
def startAll : Exec Host RubyError PUnit := runAllInState env "Stopped" (startVm env)

/-- `stop_all` -/
def stopAll : Exec Host RubyError PUnit := runAllInState env "Running" (stopVm env)

/-! ## Configuration and status -/

/-- `exec_in_vm` -/
def execInVm (vmName : Json) (command : List String) : Exec Host RubyError String := do
  let vmName ← NameValidator.validateVmName vmName
  run env ([.literal "exec", .given vmName, .literal "--"] ++ command.map Word.given)

/-- Configured resources. -/
structure VmConfig where
  cpus : Int
  memoryMb : Int
  diskGb : Int

/-- `get_vm_config` -/
def getVmConfig (name : Json) : Exec Host RubyError VmConfig := do
  let name ← NameValidator.validateVmName name
  let cpuStr ← run env [.literal "get", .given ("local." ++ name ++ ".cpus")]
  let memStr ← run env [.literal "get", .given ("local." ++ name ++ ".memory")]
  let diskStr ← run env [.literal "get", .given ("local." ++ name ++ ".disk")]
  let memoryMb ← Exec.ofExcept (parseMemoryToMb memStr)
  let diskGb ← Exec.ofExcept (parseDiskToGb diskStr)
  return ⟨toI (strip cpuStr).toList, memoryMb, diskGb⟩

/-- One `set` command. -/
def setVm (key unit : String) (name : Json) (value : Int) : Exec Host RubyError String := do
  let name ← NameValidator.validateVmName name
  run env [.literal "set",
    .given ("local." ++ name ++ "." ++ key ++ "=" ++ toString value ++ unit)]

/-- `set_vm_cpus` -/
def setVmCpus (name : Json) (cpus : Int) : Exec Host RubyError String :=
    setVm env "cpus" "" name cpus

/-- `set_vm_memory` -/
def setVmMemory (name : Json) (memoryMb : Int) : Exec Host RubyError String :=
  setVm env "memory" "M" name memoryMb

/-- `set_vm_disk` -/
def setVmDisk (name : Json) (diskGb : Int) : Exec Host RubyError String :=
  setVm env "disk" "G" name diskGb

structure CloudInitStatus where
  status : Json
  detail : Json
  errors : Json
  output : Option String

/-- `Types::CloudInitStatus.new(status: "pending", detail: "Waiting for VM to be ready...")` -/
def CloudInitStatus.pending : CloudInitStatus :=
  ⟨.string "pending", .string "Waiting for VM to be ready...", .array [], none⟩

/-- `sh -c script` inside a machine. -/
def shell (vmName script : String) : Exec Host RubyError String :=
  run env [.literal "exec", .given vmName, .literal "--", .literal "sh", .literal "-c",
    .literal script]

/-- The status in the answer of cloud-init.  The `rescue` covers the parsing only. -/
def readStatus (jsonOutput : String) : Except RubyError CloudInitStatus :=
  if strip jsonOutput = "" then .ok .pending
  else do
    let parsed :=
      match env.parseJson jsonOutput with
      | .ok document => document
      | .error _ => .object []
    let extendedStatus ← Value.index "extended_status" parsed
    let status ← Value.index "status" parsed
    let detail ← Value.index "detail" parsed
    let errors ← Value.index "errors" parsed
    return {
      status := Value.orDefault (Value.presence extendedStatus)
        (Value.orDefault status CloudInitStatus.pending.status)
      detail
      errors := Value.orDefault errors (.array [])
      output := none }

/-- `get_cloud_init_status` -/
def getCloudInitStatus (vmName : Json) : Exec Host RubyError CloudInitStatus := do
  let vmName ← NameValidator.validateVmName vmName
  let jsonOutput ← Exec.rescue
    (do return some (← shell env vmName "cloud-init status --format json 2>/dev/null; exit 0"))
    fun error => if error.isCommandError then some (pure none) else none
  match jsonOutput with
  | none => return .pending
  | some jsonOutput => do
      let result ← Exec.ofExcept (readStatus env jsonOutput)
      let logOutput ← Exec.rescue
        (shell env vmName "tail -n 50 /var/log/cloud-init-output.log 2>/dev/null; exit 0")
        fun error => if error.isCommandError then some (pure "") else none
      return { result with output := if logOutput = "" then result.output else some logOutput }

end

end MultipassWebui.Multipass
