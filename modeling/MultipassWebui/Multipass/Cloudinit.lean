import MultipassWebui.Encoding.Utf8
import MultipassWebui.Multipass.NamedFiles

/-!
# Cloud-init templates

`Multipass::Cloudinit`.  Parsing a document as YAML is code outside the
repository; what counts is whether it fails.
-/

namespace MultipassWebui.Multipass.Cloudinit

open MultipassWebui.Effect
open MultipassWebui.Encoding
open MultipassWebui.Files
open MultipassWebui.Text

/-- `to_s` of a parameter; `toText` is that of a value that is not a text. -/
def toS (toText : Json → String) : Json → String
  | .null => ""
  | .string text => text
  | value => toText value

/-- `validate_cloud_init_yaml!` -/
def validateCloudInitYaml (toText : Json → String) (yamlError : Json → Option RubyError)
    (content : Json) : Except RubyError PUnit :=
  let trimmed := strip (toS toText content)
  if trimmed = "" then .error (.argumentError "content is empty")
  else if strip (String.ofList (trimmed.toList.takeWhile (· ≠ '\n'))) ≠ "#cloud-config" then
    .error (.argumentError "first line must be '#cloud-config'")
  else
    match yamlError content with
    | some raised => .error raised
    | none => .ok ⟨⟩

/-- `sanitize_template_name!` -/
def sanitizeTemplateName (around : Surroundings) (baseDir name : String) :
    Except RubyError String :=
  sanitizeName "template" around baseDir name

/-! ## Finding templates -/

/-- `Types::TemplateOption` -/
structure TemplateOption where
  label : String
  path : String
  builtIn : Bool := false
  deriving DecidableEq, Repr

/-- `line.strip == "#cloud-config"`; a line that is not well encoded cannot be
stripped. -/
def isHeaderLine (line : List UInt8) : Except RubyError Bool :=
  match decodeUtf8 line with
  | some line => .ok (strip line = "#cloud-config")
  | none => .error (.argumentError "invalid byte sequence in UTF-8")

/-- The options that were found, and with them the keys of `seen`. -/
structure Found where
  options : List TemplateOption
  distinct : (options.map TemplateOption.path).Nodup

/-- `seen.key?` -/
def Found.seen (found : Found) : List String := found.options.map TemplateOption.path

def Found.none : Found := ⟨[], List.nodup_nil⟩

def Found.add (found : Found) (entry absPath : String) (fresh : absPath ∉ found.seen) : Found where
  options := found.options ++ [{ label := entry, path := absPath }]
  distinct := by
    rw [List.map_append, List.map_singleton, List.nodup_append]
    refine ⟨found.distinct, List.nodup_singleton _, ?_⟩
    intro path member other isNew same
    have isPath : path = absPath := same.trans (List.mem_singleton.mp isNew)
    rw [isPath] at member
    exact fresh member

section

variable (kernel : Kernel)

/-- `cloud_config_header?` -/
def cloudConfigHeader (path : String) : Exec Disk RubyError Bool :=
  Exec.rescue
    (do
      let content ← read kernel path
      match gets content with
      | none => return false
      | some line => Exec.ofExcept (isHeaderLine line))
    fun error => if error.isSystemCallError then some (pure false) else none

/-- The names of templates end in `.yml` or `.yaml`. -/
def scanEntry (dir entry : String) (found : Found) : Exec Disk RubyError Found := do
  if entry = "." || entry = ".." then return found
  else
    let path := join dir entry
    let tree ← Exec.gets Disk.tree
    if isDirectoryAt kernel tree path || !endsInYaml entry.toList then return found
    else
      let absPath ← Exec.ofExcept ((expandPath kernel.toSurroundings path).map text)
      if seen : absPath ∈ found.seen then return found
      else if ← cloudConfigHeader kernel absPath then return found.add entry absPath seen
      else return found

def scanEntries (dir : String) : List String → Found → Exec Disk RubyError Found
  | [], found => return found
  | entry :: rest, found => do
      let found ← scanEntry kernel dir entry found
      scanEntries dir rest found

/-- An unreadable directory is skipped. -/
def scanDirectory (dir : String) (found : Found) : Exec Disk RubyError Found := do
  let entries ← Exec.rescue
    (do return some (← entries kernel dir))
    fun error => if error.isSystemCallError then some (pure none) else none
  match entries with
  | none => return found
  | some entries => scanEntries kernel dir entries found

def scanDirectories : List String → Found → Exec Disk RubyError Found
  | [], found => return found
  | dir :: rest, found => do
      let found ← scanDirectory kernel dir found
      scanDirectories rest found

/-- `scan_cloud_init_templates` -/
def scanCloudInitTemplates (searchDirs : List String) :
    Exec Disk RubyError (List TemplateOption) := do
  let found ← scanDirectories kernel searchDirs .none
  return found.options

end

/-! ## Templates under names -/

section

variable (kernel : Kernel) (baseDir name : String)

/-- `read_cloud_init_template` -/
def readCloudInitTemplate : Exec Disk RubyError (List UInt8) :=
  readNamed "template" kernel baseDir name

/-- `write_cloud_init_template` -/
def writeCloudInitTemplate (content : List UInt8) : Exec Disk RubyError Nat :=
  writeNamed "template" kernel baseDir name content

/-- `delete_cloud_init_template` -/
def deleteCloudInitTemplate : Exec Disk RubyError Nat :=
  deleteNamed "template" kernel baseDir name

end

end MultipassWebui.Multipass.Cloudinit
