import MultipassWebui.Multipass.Created
import MultipassWebui.Multipass.Vms

/-!
# Snapshots, mounts and transfers

`Multipass::Snapshots`, `Multipass::Mounts`, `Multipass::Transfers`,
`Multipass::Networks` and `Multipass::Images`.  A transfer spawns its process
without the runner of the client; what it copies is not part of the model.
-/

namespace MultipassWebui.Multipass

open MultipassWebui.Effect
open MultipassWebui.Effect.Value (givenAndNotEmpty requireText)
open MultipassWebui.Encoding

structure SnapshotInfo where
  instanceName : String
  name : String
  parent : Option Json
  comment : Option Json
  created : String
  children : Json

/-- The entry of one snapshot in the answer of `info --snapshots`. -/
def parseSnapshot (env : Environment) (vmName name : String) (entry : Json) :
    Except RubyError SnapshotInfo := do
  match entry with
  | .object fields =>
      let created ← parseMultipassCreated env.zone
        ((Json.field? "created" (.object fields)).getD .null)
      return { instanceName := vmName
               name := name
               parent := Json.field? "parent" (.object fields)
               comment := Json.field? "comment" (.object fields)
               created := created
               children := ((Json.field? "children" (.object fields)).filter Value.truthy).getD
                 (.array []) }
  | _ => .error (.noMethodError "[]")

/-- The snapshots in the answer of `info --snapshots`. -/
def parseSnapshots (env : Environment) (vmName : String) (resp : Json) :
    Except RubyError (List SnapshotInfo) := do
  let vm ← fetch vmName (.object []) (← fetch "info" (.object []) resp)
  match ← fetch "snapshots" (.object []) vm with
  | .object fields => fields.mapM fun field => parseSnapshot env vmName field.1 field.2
  | .array [] => .ok []
  | .string "" => .ok []
  | _ => .error (.noMethodError "map")

/-- An element of a list in an answer. -/
def element (item : Json) (key : String) : Except RubyError (Option Json) :=
  match item with
  | .object fields => .ok (Json.field? key (.object fields))
  | _ => .error (.noMethodError "[]")

structure NetworkInfo where
  name : Option Json
  type : Option Json
  description : Option Json

def parseNetworks (resp : Json) : Except RubyError (List NetworkInfo) := do
  match ← fetch "list" (.array []) resp with
  | .array items => items.mapM fun net =>
      return ⟨← element net "name", ← element net "type", ← element net "description"⟩
  | .object [] => .ok []
  | _ => .error (.noMethodError "map")

structure ImageInfo where
  name : String
  aliases : Json
  os : Option Json
  release : Option Json
  remote : Option Json
  version : Option Json
  isImage : Bool

/-- The entries of one kind in the answer of `find`. -/
def parseImages (isImage : Bool) (images : Json) : Except RubyError (List ImageInfo) :=
  match images with
  | .object fields => fields.mapM fun field =>
      return { name := field.1
               aliases := ((← element field.2 "aliases").filter Value.truthy).getD (.array [])
               os := ← element field.2 "os"
               release := ← element field.2 "release"
               remote := ← element field.2 "remote"
               version := ← element field.2 "version"
               isImage := isImage }
  | .array [] => .ok []
  | _ => .error (.noMethodError "each")

/-- Images come before blueprints, and each kind in the order of the names. -/
def imageOrder (first second : ImageInfo) : Bool :=
  if first.isImage = second.isImage then first.name ≤ second.name else first.isImage

section

variable (env : Environment)

/-- `list_snapshots` -/
def listSnapshots (vmName : Json) : Exec Host RubyError (List SnapshotInfo) := do
  let vmName ← NameValidator.validateVmName vmName
  let output ← run env [.literal "info", .given vmName, .literal "--snapshots",
    .literal "--format", .literal "json"]
  let resp ← parse env output
  Exec.ofExcept (parseSnapshots env vmName resp)

/-- `create_snapshot` -/
def createSnapshot (vmName snapshotName comment : Json) : Exec Host RubyError String := do
  let vmName ← NameValidator.validateVmName vmName
  let snapshotName ← NameValidator.validateVmName snapshotName
  let commented ← Exec.ofExcept (givenAndNotEmpty comment)
  run env ([.literal "snapshot", .literal "--name", .given snapshotName] ++
    (if commented then [.literal "--comment", .given (interpolate env comment)] else []) ++
    [.given vmName])

/-- A command on one snapshot. -/
def onSnapshot (verb flag : String) (vmName snapshotName : Json) :
    Exec Host RubyError String := do
  let vmName ← NameValidator.validateVmName vmName
  let snapshotName ← NameValidator.validateVmName snapshotName
  run env [.literal verb, .literal flag, .given (vmName ++ "." ++ snapshotName)]

/-- `restore_snapshot` -/
def restoreSnapshot (vmName snapshotName : Json) : Exec Host RubyError String :=
  onSnapshot env "restore" "--destructive" vmName snapshotName

/-- `delete_snapshot` -/
def deleteSnapshot (vmName snapshotName : Json) : Exec Host RubyError String :=
  onSnapshot env "delete" "--purge" vmName snapshotName

/-- `list_mounts` -/
def listMounts (vmName : Json) : Exec Host RubyError (List MountInfo) := do
  return (← getVmInfo env vmName).mounts

/-- `add_mount`.  A source that is no text gets as far as the runner, which
cannot build an argv from it. -/
def addMount (vmName source target : Json) : Exec Host RubyError String := do
  let vmName ← NameValidator.validateVmName vmName
  let source ← Exec.ofExcept (requireText source)
  run env [.literal "mount", .given source, .given (vmName ++ ":" ++ interpolate env target)]

/-- `remove_mount` -/
def removeMount (vmName target : Json) : Exec Host RubyError String := do
  let vmName ← NameValidator.validateVmName vmName
  run env [.literal "umount", .given (vmName ++ ":" ++ interpolate env target)]

/-- `transfer_from_vm` -/
def transferFromVm (vmName remotePath : Json) : Exec Host RubyError PUnit := do
  let vmName ← NameValidator.validateVmName vmName
  let _ ← capture env [.literal "transfer", .given (vmName ++ ":" ++ interpolate env remotePath),
    .literal "-"]
  return ⟨⟩

/-- `transfer_to_vm` -/
def transferToVm (vmName remotePath : Json) : Exec Host RubyError PUnit := do
  let vmName ← NameValidator.validateVmName vmName
  let _ ← capture env [.literal "transfer", .literal "-",
    .given (vmName ++ ":" ++ interpolate env remotePath)]
  return ⟨⟩

/-- `list_networks` -/
def listNetworks : Exec Host RubyError (List NetworkInfo) := do
  let output ← run env [.literal "networks", .literal "--format", .literal "json"]
  let resp ← parse env output
  Exec.ofExcept (parseNetworks resp)

/-- `find_images` -/
def findImages : Exec Host RubyError (List ImageInfo) := do
  let output ← run env [.literal "find", .literal "--format", .literal "json"]
  let resp ← parse env output
  let images ← Exec.ofExcept (fetch "images" (.object []) resp >>= parseImages true)
  let blueprints ← Exec.ofExcept
    (fetch "blueprints (deprecated)" (.object []) resp >>= parseImages false)
  return (images ++ blueprints).mergeSort imageOrder

end

end MultipassWebui.Multipass
