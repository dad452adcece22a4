import MultipassWebui.Multipass.Cloudinit
import MultipassWebui.Web.Application

/-!
# The controller of the cloud-init templates

`CloudInitTemplatesController`.  Names reach the disk by two ways: those of
templates that users keep are sanitized, those of built-in templates are put
behind the path of the built-in directory as they come.
-/

namespace MultipassWebui.Web.CloudInitTemplatesController

open MultipassWebui.Effect
open MultipassWebui.Encoding
open MultipassWebui.Files
open MultipassWebui.Multipass
open MultipassWebui.Multipass.Cloudinit
open MultipassWebui.Records
open MultipassWebui.Text

/-- What the actions meet outside the repository, and the setting they read. -/
structure Site where
  kernel : Kernel
  /-- `Rails.root` -/
  root : String
  /-- `Setting.current.cloud_init_dir` -/
  cloudInitDir : Option String
  /-- `to_s` of a value that is not a text. -/
  toText : Json → String
  /-- Why `YAML.safe_load` fails. -/
  yamlError : Json → Option RubyError

/-- What an action replies. -/
inductive Reply where
  /-- The content of a template, plain or in the form. -/
  | content (content : List UInt8)
  | notice (message : String)
  | alert (message : String)
  deriving DecidableEq, Repr

section

variable (site : Site) (stamp : EventStamp) (request : Request)

/-- `cloud_init_dir` -/
def cloudInitDir : Except RubyError String :=
  if present site.cloudInitDir then .ok (site.cloudInitDir.getD "")
  else (expandPath site.kernel.toSurroundings "~/.multipass-webui/cloud-init").map text

/-- `builtin_path("")` -/
def BUILTIN : String := "builtin:"

/-- The directory of the built-in templates. -/
def builtinDir : String := site.root ++ "/app/views/cloud_init_templates/builtin"

/-- The name of a built-in template, without the prefix. -/
def builtinName (name : String) : Option String :=
  if BUILTIN.toList <+: name.toList then some (String.ofList (name.toList.drop BUILTIN.length))
  else none

/-- `builtin_path` -/
def builtinPath (name : String) : String := BUILTIN ++ name

/-- `end_with?(".yml", ".yaml")` -/
def isYamlName (name : String) : Bool :=
  ".yml".toList.isSuffixOf name.toList || ".yaml".toList.isSuffixOf name.toList

/-- `builtin_templates` -/
def builtinTemplates : Exec Disk RubyError (List TemplateOption) := do
  if ← dirExist site.kernel (builtinDir site) then
    let names ← children site.kernel (builtinDir site)
    return ((names.mergeSort fun first second => first ≤ second).filter isYamlName).map fun name =>
      { label := builtinPath name, path := builtinPath name, builtIn := true }
  else return []

/-- `user_templates` -/
def userTemplates : Exec Disk RubyError (List TemplateOption) := do
  let dir ← Exec.ofExcept (cloudInitDir site)
  if ← dirExist site.kernel dir then scanCloudInitTemplates site.kernel [dir] else return []

/-- `index` -/
def index : Exec Disk RubyError (List TemplateOption) := do
  let builtin ← builtinTemplates site
  let user ← userTemplates site
  return (builtin ++ user).mergeSort fun first second => first.label ≤ second.label

/-- `read_template_content` -/
def readTemplateContent (name : Json) : Exec Disk RubyError (List UInt8) :=
  match name with
  | .string name =>
      match builtinName name with
      | some actual =>
          if null ∈ actual.toList then
            Exec.raise (.argumentError "pathname contains null byte")
          else read site.kernel (builtinDir site ++ "/" ++ actual)
      | none => do
          let dir ← Exec.ofExcept (cloudInitDir site)
          readCloudInitTemplate site.kernel dir name
  | _ => Exec.raise (.noMethodError "start_with?")

/-- `show` -/
def «show» : Exec (App Disk) RubyError Reply := do
  let content ← onState (readTemplateContent site (param request "name"))
  return .content content

/-- `edit` -/
def edit : Exec (App Disk) RubyError Reply := do
  let content ← onState (readTemplateContent site (param request "name"))
  return .content content

/-- What `create` and `update` do to the disk, with the name of the template. -/
def saveTemplate : Exec Disk RubyError String := do
  let content := param request "content"
  let _ ← Exec.ofExcept (validateCloudInitYaml site.toText site.yamlError content)
  let dir ← Exec.ofExcept (cloudInitDir site)
  let name ← Exec.ofExcept (nameText "template" (param request "name"))
  let _ ← writeCloudInitTemplate site.kernel dir name (utf8Bytes (toS site.toText content))
  return name

/-- Change the disk, and write that to the audit log. -/
def recorded (verb : String) (body : Exec Disk RubyError String) (notice : String → String) :
    Exec (App Disk) RubyError Reply := do
  let name ← onState body
  emitHttp stamp request "config" verb (some name) (some "success") none
  return .notice (notice name)

/-- `create` -/
def create : Exec (App Disk) RubyError Reply :=
  rescueArgument
    (recorded stamp request "create_cloud_init_template" (saveTemplate site request)
      fun name => "Created " ++ name ++ ".")
    fun message => pure (.alert message)

/-- `update` -/
def update : Exec (App Disk) RubyError Reply :=
  rescueArgument
    (recorded stamp request "update_cloud_init_template" (saveTemplate site request)
      fun name => "Saved " ++ name ++ ".")
    fun message =>
      if hasPath (param request "name") then pure (.alert message)
      else Exec.raise (.argumentError "missing required keys: [:name]")

/-- What `destroy` does to the disk. -/
def deleteTemplate : Exec Disk RubyError String := do
  let dir ← Exec.ofExcept (cloudInitDir site)
  let name ← Exec.ofExcept (nameText "template" (param request "name"))
  let _ ← deleteCloudInitTemplate site.kernel dir name
  return name

/-- `destroy` -/
def destroy : Exec (App Disk) RubyError Reply :=
  rescueArgument
    (recorded stamp request "delete_cloud_init_template" (deleteTemplate site request)
      fun name => "Deleted " ++ name ++ ".")
    fun message => pure (.alert message)

end

inductive Action where
  | «show»
  | edit
  | create
  | update
  | destroy
  deriving DecidableEq, Repr

/-- Carry out an action. -/
def perform (site : Site) (stamp : EventStamp) (request : Request) :
    Action → Exec (App Disk) RubyError Reply
  | .show => «show» site request
  | .edit => edit site request
  | .create => create site stamp request
  | .update => update site stamp request
  | .destroy => destroy site stamp request

/-! ## The three ways to a content -/

section

variable {site : Site} {name actual : String}

/-- A name without the prefix is one of the user's templates. -/
theorem readTemplateContent_user (user : builtinName name = none) :
    readTemplateContent site (.string name) =
      Exec.ofExcept (cloudInitDir site) >>= fun dir =>
        readCloudInitTemplate site.kernel dir name := by
  simp only [readTemplateContent, user]

theorem readTemplateContent_null (builtin : builtinName name = some actual)
    (hasNull : null ∈ actual.toList) :
    readTemplateContent site (.string name) =
      Exec.raise (.argumentError "pathname contains null byte") := by
  simp only [readTemplateContent, builtin, if_pos hasNull]

theorem readTemplateContent_builtin (builtin : builtinName name = some actual)
    (noNull : null ∉ actual.toList) :
    readTemplateContent site (.string name) =
      read site.kernel (builtinDir site ++ "/" ++ actual) := by
  simp only [readTemplateContent, builtin, if_neg noNull]

/-- A path with a null byte leads nowhere. -/
theorem not_located_builtin (hasNull : null ∈ actual.toList) (tree : Tree) (place : Place) :
    locate site.kernel tree (builtinDir site ++ "/" ++ actual) ≠ .ok place := by
  have isIn : null ∈ (builtinDir site ++ "/" ++ actual).toList := by
    rw [String.toList_append]
    exact List.mem_append_right _ hasNull
  rw [locate, if_pos isIn]
  intro located
  cases located

end

end MultipassWebui.Web.CloudInitTemplatesController
