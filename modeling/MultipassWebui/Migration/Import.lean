import MultipassWebui.Effect.Core
import MultipassWebui.Migration.Tables

/-!
# The migration task

`db:migrate_from_go_config`: the sections of `config.json` are imported one after
another within a transaction, and then the lines of `events.jsonl`, each on its
own.
-/

namespace MultipassWebui.Migration

open MultipassWebui.Auth (Crypto VmDefault)
open MultipassWebui.Effect
open MultipassWebui.Encoding
open MultipassWebui.Records (FieldError validate Table Seeding EventStamp CATEGORIES ACTORS RESULTS)
open MultipassWebui.Text

/-- What the task rests on: the parser, the casts and the password digest. -/
structure Environment where
  /-- `JSON.parse`; `none` is a `JSON::ParserError`. -/
  parse : String → Option Json
  casts : Casts
  crypto : Crypto

/-- The clock of a run, and the ids that it draws for the lines. -/
structure Run where
  now : Int
  draw : Nat → EventStamp

section

variable (env : Environment) (run : Run)

/-! ## Settings -/

/-- `/\A[a-zA-Z0-9_-]+\z/` -/
def matchesUsername (username : String) : Bool :=
  !username.isEmpty &&
    username.toList.all fun char => isAlnum char || char = '_' || char = '-'

/-- The validations of `Setting`. -/
def Setting.errors (setting : Setting) : List FieldError :=
  presence "username" setting.username ++
    validate "username" "only letters, digits, hyphens, underscores"
      (matchesUsername setting.username) ++
    presence "password" setting.passwordDigest

/-- The row that `Setting.current` creates. -/
def Setting.seed : Setting :=
  ⟨"admin", env.crypto.passwordDigest "admin", some "", some "", some "", some false⟩

/-- `current`: the first row is there afterwards. -/
def current {ρ : Type} (seed : ρ) (table : Table ρ) : Table ρ :=
  if table.rows.isEmpty then table.insert seed else table

/-- `update!` of the first row. -/
def updateSetting (change : Setting → Setting) (settings : Table Setting) :
    Except RubyError (Table Setting) :=
  match settings.first with
  | none => .error (.noMethodError "update!")
  | some row =>
      if (change row.2).errors.isEmpty then .ok (settings.updateFirst change)
      else .error .recordInvalid

/-- `to_s.start_with?("$2")`, which no value but a text passes. -/
def isBcrypt : Json → Bool
  | .string text => "$2".toList.isPrefixOf text.toList
  | _ => false

/-- The row with the password digest assigned. -/
def Setting.withDigest (password : Json) (setting : Setting) : Setting :=
  { setting with passwordDigest := orEmpty (env.casts.text password) }

/-- The row with the user name and the password digest assigned. -/
def Setting.withLogin (username password : Json) (setting : Setting) : Setting :=
  { setting with
    username := orEmpty (env.casts.text (Value.orDefault username (.string "admin")))
    passwordDigest := orEmpty (env.casts.text password) }

/-- The row with the configuration of the host assigned. -/
def Setting.withHost (cloudInitDir cloudInitRepo playbooksDir trustProxy : Json)
    (setting : Setting) : Setting :=
  { setting with
    cloudInitDir := env.casts.text (Value.orDefault cloudInitDir (.string ""))
    cloudInitRepo := env.casts.text (Value.orDefault cloudInitRepo (.string ""))
    playbooksDir := env.casts.text (Value.orDefault playbooksDir (.string ""))
    trustProxy := env.casts.boolean (Value.orDefault trustProxy (.bool false)) }

/-- `install_bcrypt_hash!` of a password that is a digest already. -/
def installBcryptHash (password : Json) (settings : Table Setting) :
    Except RubyError (Table Setting) :=
  if isBcrypt password then updateSetting (Setting.withDigest env password) settings
  else .ok settings

def importSettings (cfg : Json) (settings : Table Setting) : Except RubyError (Table Setting) := do
  let username ← Value.index "username" cfg
  let password ← Value.index "password" cfg
  let settings ← updateSetting (Setting.withLogin env username password)
    (current (Setting.seed env) settings)
  let settings ← installBcryptHash env password settings
  let cloudInitDir ← Value.index "cloud_init_dir" cfg
  let cloudInitRepo ← Value.index "cloud_init_repo" cfg
  let playbooksDir ← Value.index "playbooks_dir" cfg
  let trustProxy ← Value.index "trust_proxy" cfg
  updateSetting (Setting.withHost env cloudInitDir cloudInitRepo playbooksDir trustProxy) settings

/-! ## VM defaults -/

/-- `value || default` in an integer column that must not be null. -/
def integerOr (default : Nat) (value : Json) : Except RubyError Int :=
  match env.casts.integer (Value.orDefault value (.number default)) with
  | none => .error (.standardError "NOT NULL constraint failed")
  | some value => if inRange (some value) then .ok value else .error (.standardError "out of range")

def importVmDefaults (cfg : Json) (vmDefaults : Table VmDefault) :
    Except RubyError (Table VmDefault) := do
  let values ← Value.index "vm_defaults" cfg
  if Value.truthy values then do
    let cpus ← integerOr env 2 (← Value.index "cpus" values)
    let memoryMb ← integerOr env 1024 (← Value.index "memory_mb" values)
    let diskGb ← integerOr env 8 (← Value.index "disk_gb" values)
    let sshPublicKey ← textAt env.casts values "ssh_public_key"
    let sshPrivateKey ← textAt env.casts values "ssh_private_key"
    return (current VmDefault.seed vmDefaults).updateFirst fun _ =>
      ⟨cpus, memoryMb, diskGb, sshPublicKey, sshPrivateKey⟩
  else return vmDefaults

/-! ## The sections with rows -/

/-- What the loop over a section runs through. -/
def sectionOf (name : String) (cfg : Json) : Except RubyError (List Json) := do
  Value.elements (← Value.index name cfg)

def importGroups (cfg : Json) (groups : Table Group) : Except RubyError (Table Group) := do
  (groupSeeding env.casts).seed (← sectionOf "groups" cfg).zipIdx groups

/-- A section whose entries are looked up and created one by one. -/
def importRows {ρ : Type} (seeding : Seeding Json ρ RubyError) (name : String) (cfg : Json)
    (table : Table ρ) : Except RubyError (Table ρ) := do
  seeding.seed (← sectionOf name cfg) table

/-- The body of the transaction. -/
def importSections (cfg : Json) (tables : Tables) : Except RubyError Tables := do
  let settings ← importSettings env cfg tables.settings
  let vmDefaults ← importVmDefaults env cfg tables.vmDefaults
  let groups ← importGroups env cfg tables.groups
  let grouped ← importRows (vmGroupSeeding env.casts groups) "vm_groups" cfg tables.assignments
  let assignments ← importRows (vmTemplateSeeding env.casts) "vm_templates" cfg grouped
  let profiles ← importRows (profileSeeding env.casts) "profiles" cfg tables.profiles
  let schedules ← importRows (scheduleSeeding env.casts) "schedules" cfg tables.schedules
  let apiTokens ←
    importRows (apiTokenSeeding env.casts run.now) "api_tokens" cfg tables.apiTokens
  let webhooks ← importRows (webhookSeeding env.casts run.now) "webhooks" cfg tables.webhooks
  return { tables with
    settings, vmDefaults, groups, assignments, profiles, schedules, apiTokens, webhooks }

/-- `ActiveRecord::Base.transaction do … end` -/
def importConfig (cfg : Json) : Exec Tables RubyError PUnit :=
  Exec.transaction do
    let tables ← Exec.gets id
    let imported ← Exec.ofExcept (importSections env run cfg tables)
    Exec.modify fun _ => imported

/-! ## Events -/

/-- The validations of `Event`. -/
def eventErrors (category actor : String) (result : Option String) : List FieldError :=
  validate "category" "is not included in the list" (CATEGORIES.contains category) ++
    validate "actor" "is not included in the list" (ACTORS.contains actor) ++
    validate "result" "is not included in the list"
      (result.all fun result => RESULTS.contains result)

/-- The row for a line, under the id that it gives or the one that was drawn. -/
def buildEvent (stamp : EventStamp) (ev : Json) : Except RubyError Event := do
  let id := (← textAt env.casts ev "id").getD stamp.id
  let category := orEmpty (← textAt env.casts ev "category")
  let action ← textAt env.casts ev "action"
  let actor := orEmpty (← textAt env.casts ev "actor")
  let resource ← textAt env.casts ev "resource"
  let result ← textAt env.casts ev "result"
  let detail ← textAt env.casts ev "detail"
  let endpoint ← textAt env.casts ev "endpoint"
  let payload ← Value.index "payload" ev
  let createdAt ← (Value.index "timestamp" ev).map env.casts.time
  if (eventErrors category actor result).isEmpty then
    match action with
    | none => .error (.standardError "NOT NULL constraint failed: events.action")
    | some action =>
        return { id, category, action, actor, resource, result, detail, endpoint, payload
                 createdAt := createdAt.getD run.now }
  else .error .recordInvalid

/-- `Event.find_or_create_by!(id:) { … }`.  A drawn id that is taken violates the
primary key; that is rescued by another lookup, which finds nothing. -/
def eventSeeding : Seeding (Json × EventStamp) Event RubyError where
  lookup entry := textAt env.casts entry.1 "id"
  build entry events := do
    let event ← buildEvent env run entry.2 entry.1
    if events.any fun other => other.id = event.id then .error .recordNotFound
    else return event
  key := Event.id

/-- `Event.find_or_create_by!` on the table. -/
def createEvent (stamp : EventStamp) (ev : Json) : Exec (Table Event) RubyError PUnit := do
  let events ← Exec.gets id
  let after ← Exec.ofExcept ((eventSeeding env run).findOrCreate (ev, stamp) events)
  Exec.modify fun _ => after

/-- The block of `File.foreach`: parse errors and invalid records are skipped. -/
def importLine (stamp : EventStamp) (line : String) : Exec (Table Event) RubyError PUnit :=
  if (strip line).isEmpty then pure ⟨⟩
  else
    match env.parse line with
    | none => pure ⟨⟩
    | some ev =>
        Exec.rescue (createEvent env run stamp ev) fun error =>
          if error.isRecordInvalid then some (pure ⟨⟩) else none

/-- `File.foreach`, from the line with the given number on. -/
def importEvents : Nat → List String → Exec (Table Event) RubyError PUnit
  | _, [] => pure ⟨⟩
  | number, line :: rest => do
      importLine env run (run.draw number) line
      importEvents (number + 1) rest

/-! ## The task -/

/-- The two files, as far as they exist. -/
structure Files where
  config : Option String
  events : Option (List String)

/-- `db:migrate_from_go_config` -/
def migrate (files : Files) : Exec Tables RubyError PUnit :=
  match files.config with
  | none => Exec.raise (.standardError "config.json not found")
  | some text =>
      match env.parse text with
      | none => Exec.raise (.standardError "JSON::ParserError")
      | some cfg => do
          importConfig env run cfg
          match files.events with
          | none => pure ⟨⟩
          | some lines =>
              Exec.zoom Tables.events (fun events tables => { tables with events })
                (importEvents env run 0 lines)

end

end MultipassWebui.Migration
