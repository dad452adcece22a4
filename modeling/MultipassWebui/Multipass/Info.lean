import MultipassWebui.Effect.Values
import MultipassWebui.Multipass.Client
import MultipassWebui.Numbers.Decimal

/-!
# The answers of `info` and `list`

`Types::VmInfo`, and how the entries of the two documents become one.  The
entries are read field by field; a field that is absent, null or of another
type than expected is met by the message that is sent to it.
-/

namespace MultipassWebui.Multipass

open MultipassWebui.Effect
open MultipassWebui.Encoding
open MultipassWebui.Numbers
open MultipassWebui.Text

/-- `Types::MountInfo` -/
structure MountInfo where
  sourcePath : Json
  targetPath : Json
  uidMaps : Json
  gidMaps : Json

/-- `Types::VmInfo` -/
structure VmInfo where
  name : Json
  state : Option Json
  snapshots : Int := 0
  ipv4 : Json := .array []
  release : Json := .null
  imageHash : Json := .null
  cpus : Json := .null
  load : Option String := none
  diskUsage : Option String := none
  diskTotal : Option String := none
  memoryUsage : Option String := none
  memoryTotal : Option String := none
  memoryUsageRaw : Option Int := none
  memoryTotalRaw : Option Int := none
  diskUsageRaw : Option Int := none
  diskTotalRaw : Option Int := none
  mounts : List MountInfo := []

/-- `"#{value}"` -/
def interpolate (env : Environment) : Json → String
  | .string text => text
  | value => env.toText value

/-- `to_s` -/
def textOf (env : Environment) : Json → String
  | .null => ""
  | value => interpolate env value

/-- `sort_by` with a text for the key, which cannot be compared with anything else. -/
def sortByText {α : Type} (key : α → Json) (rows : List α) : Except RubyError (List α) :=
  if rows.all fun row => (key row).text?.isSome then
    .ok (rows.mergeSort fun first second =>
      (key first).text?.getD "" ≤ (key second).text?.getD "")
  else if rows.length ≤ 1 || rows.all fun row => !(key row).text?.isSome then .ok rows
  else .error (.argumentError "comparison of NilClass with String failed")

/-- `sort_by(&:name)` -/
def sortByName (vms : List VmInfo) : Except RubyError (List VmInfo) := sortByText VmInfo.name vms

/-! ## The fields of an entry -/

/-- A floating-point number with a fixed number of places. -/
def formatDouble (places : ℕ) : Double → String
  | .finite value _ => fixed places value
  | .infinite negative => (if negative then "-" else "") ++ "Inf"

/-- `format_bytes` -/
def formatBytes (bytes : Int) : String :=
  if 1024 * 1024 * 1024 ≤ bytes then
    formatDouble 1 ((Double.ofRat bytes).times (1 / (1024 * 1024 * 1024))) ++ " GiB"
  else if 1024 * 1024 ≤ bytes then
    formatDouble 1 ((Double.ofRat bytes).times (1 / (1024 * 1024))) ++ " MiB"
  else toString bytes ++ " B"

section

variable (env : Environment)

/-- One of the three numbers of the load. -/
def formatLoad : Json → Except RubyError String
  | .number value =>
      .ok (if value.den = 1 then fixed 2 value else formatDouble 2 (Double.ofRat value))
  | .string text =>
      match env.parseFloat text with
      | some value => .ok (formatDouble 2 (Double.ofRat value))
      | none => .error (.argumentError "invalid value for Float()")
  | _ => .error (.typeError "can't convert into Float")

/-- The load, which is an array of three numbers or is left out. -/
def parseLoad : Json → Except RubyError (Option String)
  | .array [one, five, fifteen] => do
      let one ← formatLoad env one
      let five ← formatLoad env five
      let fifteen ← formatLoad env fifteen
      return some (one ++ " " ++ five ++ " " ++ fifteen)
  | _ => .ok none

/-- A number of bytes of a disk, which counts if it is positive. -/
def diskBytes (key : String) (disk : Json) : Except RubyError (Option Int) := do
  let bytes := toI (strip (textOf env (← Value.index key disk))).toList
  return if 0 < bytes then some bytes else none

/-- The used and the total bytes of the first disk. -/
def parseDisks : Json → Except RubyError (Option Int × Option Int)
  | .null | .object [] => .ok (none, none)
  | .object ((_, disk) :: _) => do
      let used ← diskBytes env "used" disk
      let total ← diskBytes env "total" disk
      return (used, total)
  | _ => .error (.noMethodError "each_value")

/-- `fetch("memory", {}).fetch(key, 0).to_i` -/
def memoryBytes (key : String) : Json → Except RubyError Int
  | .object fields => Value.toI (((Json.object fields).field? key).getD (.number 0))
  | .array _ => .error (.typeError "no implicit conversion of String into Integer")
  | _ => .error (.noMethodError "fetch")

end

/-- The entry of one mount. -/
def parseMount (target mount : Json) : Except RubyError MountInfo := do
  let sourcePath ← Value.index "source_path" mount
  let uidMaps ← Value.index "uid_mappings" mount
  let gidMaps ← Value.index "gid_mappings" mount
  return ⟨sourcePath, target, Value.orDefault uidMaps (.array []),
    Value.orDefault gidMaps (.array [])⟩

/-- The mounts of a machine, ordered by their target. -/
def parseMounts (mounts : Json) : Except RubyError (List MountInfo) := do
  let entries ← Value.elements mounts
  let parsed ← entries.mapM fun entry => parseMount (Value.pair entry).1 (Value.pair entry).2
  sortByText MountInfo.targetPath parsed

@[simp]
theorem parseMounts_null : parseMounts .null = .ok [] := by
  simp [parseMounts, Value.elements, sortByText, bind, Except.bind, pure, Except.pure]

section

variable (env : Environment)

/-- `detail[key]` -/
def get (key : String) (fields : List (String × Json)) : Json :=
  ((Json.object fields).field? key).getD .null

/-- What is known of a machine once the fields that can fail have been read. -/
def assemble (name : String) (fields : List (String × Json)) (load : Option String)
    (disk : Option Int × Option Int) (used total : Int) (mounts : List MountInfo) : VmInfo where
  name := .string name
  state := (Json.object fields).field? "state"
  snapshots := toI (strip (textOf env (get "snapshot_count" fields))).toList
  ipv4 := Value.orDefault (get "ipv4" fields) (.array [])
  release :=
    if Value.present (get "release" fields) then get "release" fields
    else .string (textOf env (get "image_release" fields))
  imageHash := get "image_hash" fields
  cpus := get "cpu_count" fields
  load := load
  diskUsage := disk.1.map formatBytes
  diskTotal := disk.2.map formatBytes
  memoryUsage := some (formatBytes used)
  memoryTotal := some (formatBytes total)
  memoryUsageRaw := some used
  memoryTotalRaw := some total
  diskUsageRaw := disk.1
  diskTotalRaw := disk.2
  mounts := mounts

/-- `detail.fetch("memory", {})` -/
def memoryOf (fields : List (String × Json)) : Json :=
  ((Json.object fields).field? "memory").getD (.object [])

/-- The entry of one machine in the answer of `info`. -/
def parseDetail (name : String) : Json → Except RubyError VmInfo
  | .object fields => do
      let load ← parseLoad env (get "load" fields)
      let disk ← parseDisks env (get "disks" fields)
      let used ← memoryBytes "used" (memoryOf fields)
      let total ← memoryBytes "total" (memoryOf fields)
      let mounts ← parseMounts (get "mounts" fields)
      return assemble env name fields load disk used total mounts
  | _ => .error (.noMethodError "[]")

/-- The entry of one machine in the answer of `list`. -/
def parseListed : Json → Except RubyError VmInfo
  | .object fields =>
      .ok {
        name := get "name" fields
        state := (Json.object fields).field? "state"
        ipv4 := Value.orDefault (get "ipv4" fields) (.array [])
        release := get "release" fields }
  | _ => .error (.noMethodError "[]")

/-! ## The documents -/

/-- `resp.fetch(key, empty)` -/
def fetch (key : String) (empty : Json) : Json → Except RubyError Json
  | .object fields => .ok ((Json.field? key (.object fields)).getD empty)
  | _ => .error (.noMethodError "fetch")

/-- `parse_info_json` -/
def parseInfoJson (resp : Json) : Except RubyError (List VmInfo) := do
  match ← fetch "info" (.object []) resp with
  | .object fields => sortByName (← fields.mapM fun field => parseDetail env field.1 field.2)
  | .array [] => .ok []
  | _ => .error (.noMethodError "map")

/-- `parse_list_json_basic` -/
def parseListJsonBasic (resp : Json) : Except RubyError (List VmInfo) := do
  match ← fetch "list" (.array []) resp with
  | .array items => items.mapM parseListed
  | .object [] => .ok []
  | _ => .error (.noMethodError "map")

/-- The answer of `info` is read entry by entry, and then ordered. -/
theorem parseInfoJson_of_object {env : Environment} {resp : Json}
    {fields : List (String × Json)} (isInfo : resp.field? "info" = some (.object fields)) :
    parseInfoJson env resp =
      (fields.mapM fun field => parseDetail env field.1 field.2) >>= sortByName := by
  cases resp with
  | object entries => simp only [parseInfoJson, fetch, isInfo]; rfl
  | _ => cases isInfo

/-- The fields that can fail decide whether an entry is read. -/
theorem parseDetail_of_parts {env : Environment} {fields : List (String × Json)} (name : String)
    {load : Option String} {disk : Option Int × Option Int} {used total : Int}
    {mounts : List MountInfo} (isLoad : parseLoad env (get "load" fields) = .ok load)
    (isDisk : parseDisks env (get "disks" fields) = .ok disk)
    (isUsed : memoryBytes "used" (memoryOf fields) = .ok used)
    (isTotal : memoryBytes "total" (memoryOf fields) = .ok total)
    (isMounts : parseMounts (get "mounts" fields) = .ok mounts) :
    parseDetail env name (.object fields) =
      .ok (assemble env name fields load disk used total mounts) := by
  simp only [parseDetail, isLoad, isDisk, isUsed, isTotal, isMounts]
  rfl

end

end MultipassWebui.Multipass
