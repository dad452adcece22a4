import MultipassWebui.Multipass.Cloudinit
import MultipassWebui.Web.StrongParameters

/-!
# The controllers of the configuration

`SettingsController#update`, and the actions of the controllers of webhooks,
profiles, schedules and API tokens that change something.
-/

namespace MultipassWebui.Web

open MultipassWebui.Auth (Crypto Store VmDefault)
open MultipassWebui.Effect
open MultipassWebui.Encoding
open MultipassWebui.Migration (Casts Setting Profile Webhook orEmpty presence inRange slugErrors
  atLeast subsetErrors matchesHttp current)
open MultipassWebui.Records
open MultipassWebui.Text

/-- What the actions meet outside the repository, and what they draw. -/
structure Deployment where
  env : Migration.Environment
  /-- `to_s` of a value that is not a text. -/
  toText : Json → String
  now : Int
  /-- `SecureRandom.hex` of an `id_slug`. -/
  slugHex : String
  /-- `SecureRandom.hex` of a token. -/
  tokenHex : String

/-- A column of texts, which the validations do not tell from the empty one if it is
absent. -/
def textColumn (casts : Casts) (value : Json) : String := orEmpty (casts.text value)

section

variable (site : Deployment) (stamp : EventStamp) (request : Request)

/-- Change a table, and write that to the audit log if it was changed. -/
def recordedIf {σ : Type} (category verb : String) (body : Exec σ RubyError (Option String)) :
    Exec (App σ) RubyError PUnit := do
  match ← onState body with
  | some resource => emitHttp stamp request category verb (some resource) (some "success") none
  | none => pure ⟨⟩

/-! ## Settings -/

structure Configuration where
  settings : Table Setting
  vmDefaults : Table VmDefault

namespace SettingsController

/-- `password=`, which asks a value other than `nil` whether it is empty. -/
def assignedPassword (p : Permitted) : Except RubyError (Option String) :=
  match p.lookup "password" with
  | none => .ok none
  | some (.string text) => .ok (some text)
  | some _ => .error (.noMethodError "empty?")

/-- `setting_params` -/
def settingParams : Except RubyError Permitted := do
  let p ← requirePermit request "setting"
    ["username", "password", "cloud_init_dir", "playbooks_dir", "trust_proxy"] []
  return if Value.present (p.get "password") then p else p.delete "password"

/-- The row with the parameters assigned. -/
def assign (p : Permitted) (password : Option String) (setting : Setting) : Setting :=
  { setting with
    username := p.assign "username" (textColumn site.env.casts) setting.username
    passwordDigest := (password.map site.env.crypto.passwordDigest).getD setting.passwordDigest
    cloudInitDir := p.assign "cloud_init_dir" site.env.casts.text setting.cloudInitDir
    playbooksDir := p.assign "playbooks_dir" site.env.casts.text setting.playbooksDir
    trustProxy := p.assign "trust_proxy" site.env.casts.boolean setting.trustProxy }

/-- The validation of `has_secure_password` that bounds the length. -/
def passwordErrors (password : Option String) : List FieldError :=
  validate "password" "is too long" (password.all fun text => text.utf8ByteSize ≤ 72)

/-- `@setting.update!(setting_params)` -/
def updateSetting (settings : Table Setting) : Except RubyError (Table Setting) := do
  let p ← settingParams request
  let password ← assignedPassword p
  if (passwordErrors password).isEmpty then
    Migration.updateSetting (assign site p password) settings
  else .error .recordInvalid

/-- An integer column that must not be null, after the assignment. -/
def requiredInteger (p : Permitted) (key : String) (column : Int) : Except RubyError Int :=
  match p.assign key site.env.casts.integer (some column) with
  | none => .error (.standardError ("NOT NULL constraint failed: vm_defaults." ++ key))
  | some value =>
      if inRange (some value) then .ok value else .error (.standardError "out of range")

/-- `update!` of the defaults, which have no validations. -/
def updateVmDefaults (vmDefaults : Table VmDefault) : Except RubyError (Table VmDefault) := do
  let p ← requirePermit request "vm_defaults"
    ["cpus", "memory_mb", "disk_gb", "ssh_public_key", "ssh_private_key"] []
  match vmDefaults.first with
  | none => .error (.noMethodError "update!")
  | some row => do
      let cpus ← requiredInteger site p "cpus" row.2.cpus
      let memoryMb ← requiredInteger site p "memory_mb" row.2.memoryMb
      let diskGb ← requiredInteger site p "disk_gb" row.2.diskGb
      return vmDefaults.updateFirst fun old =>
        { cpus, memoryMb, diskGb
          sshPublicKey := p.assign "ssh_public_key" site.env.casts.text old.sshPublicKey
          sshPrivateKey := p.assign "ssh_private_key" site.env.casts.text old.sshPrivateKey }

/-- One of the two parts of `update`, which is left out without its parameters:
`current`, and then `update!`. -/
def savePart {ρ : Type} (seed : ρ) (key : String)
    (body : Table ρ → Except RubyError (Table ρ)) : Exec (Table ρ) RubyError PUnit :=
  if Value.present (param request key) then do
    Exec.modify (current seed)
    let rows ← Exec.gets id
    let saved ← Exec.ofExcept (body rows)
    Exec.modify fun _ => saved
  else pure ⟨⟩

/-- What `update` does to the tables. -/
def save : Exec Configuration RubyError PUnit := do
  Exec.modify fun tables =>
    { tables with settings := current (Setting.seed site.env) tables.settings }
  Exec.zoom Configuration.settings (fun settings tables => { tables with settings })
    (savePart request (Setting.seed site.env) "setting" (updateSetting site request))
  Exec.zoom Configuration.vmDefaults (fun vmDefaults tables => { tables with vmDefaults })
    (savePart request VmDefault.seed "vm_defaults" (updateVmDefaults site request))

/-- What the settings page shows after the redirect. -/
inductive Flash where
  | notice (message : String)
  /-- The errors of the record. -/
  | alert
  deriving DecidableEq, Repr

/-- `update` -/
def update : Exec (App Configuration) RubyError Flash :=
  Exec.rescue
    (do
      onState (save site request)
      emitHttp stamp request "config" "update_settings" (some "self") (some "success") none
      return .notice "Settings saved.")
    fun error => if error.isRecordInvalid then some (pure .alert) else none

end SettingsController

/-! ## Webhooks -/

namespace WebhooksController

/-- The validations of `Webhook` that concern one row. -/
def errors (webhook : Webhook) : List FieldError :=
  presence "id_slug" webhook.idSlug ++ presence "name" webhook.name ++
    presence "url" webhook.url ++
    validate "url" "must be http(s)://" (matchesHttp webhook.url) ++
    subsetErrors "categories" CATEGORIES webhook.categories ++
    subsetErrors "results" RESULTS webhook.results

/-- `webhook_params` -/
def webhookParams : Except RubyError Permitted := do
  let p ← requirePermit request "webhook" ["name", "url", "enabled", "secret"]
    ["categories", "results"]
  let p := p.put "categories" (.array ((p.items "categories").filter Value.present))
  return p.put "results" (.array ((p.items "results").filter Value.present))

def assign (p : Permitted) (webhook : Webhook) : Webhook :=
  { webhook with
    name := p.assign "name" (textColumn site.env.casts) webhook.name
    url := p.assign "url" (textColumn site.env.casts) webhook.url
    enabled := p.assign "enabled" site.env.casts.boolean webhook.enabled
    categories := p.assign "categories" id webhook.categories
    results := p.assign "results" id webhook.results
    secret := p.assign "secret" site.env.casts.text webhook.secret }

/-- A new row, with the defaults of the columns. -/
def blankWebhook : Webhook :=
  { idSlug := "wh_" ++ site.slugHex, name := "", url := "", enabled := some true
    categories := .null, results := .null, secret := none, createdAt := site.now }

def createWebhook : Exec (List Webhook) RubyError (Option String) := do
  let p ← Exec.ofExcept (webhookParams request)
  let saved ← saveNew Webhook.idSlug errors (fun _ => .ok ⟨⟩) (assign site p (blankWebhook site))
  return saved.map Webhook.idSlug

/-- The parameters of `update`: a blank secret leaves the old one. -/
def updates (p : Permitted) (webhook : Webhook) : Permitted :=
  if !Value.present (p.get "secret") && present webhook.secret then p.delete "secret" else p

def updateWebhook : Exec (List Webhook) RubyError (Option String) := do
  let webhook ← findRow Webhook.idSlug (textColumn site.env.casts (param request "id"))
  let p ← Exec.ofExcept (webhookParams request)
  let saved ← saveChanged Webhook.idSlug errors (fun _ => .ok ⟨⟩)
    (assign site (updates p webhook) webhook)
  return saved.map Webhook.idSlug

def destroyWebhook : Exec (List Webhook) RubyError (Option String) := do
  let webhook ← findRow Webhook.idSlug (textColumn site.env.casts (param request "id"))
  destroyRow Webhook.idSlug webhook
  return some webhook.idSlug

/-- `create` -/
def create : Exec (App (List Webhook)) RubyError PUnit :=
  recordedIf stamp request "config" "create_webhook" (createWebhook site request)

/-- `update` -/
def update : Exec (App (List Webhook)) RubyError PUnit :=
  recordedIf stamp request "config" "update_webhook" (updateWebhook site request)

/-- `destroy` -/
def destroy : Exec (App (List Webhook)) RubyError PUnit :=
  recordedIf stamp request "config" "delete_webhook" (destroyWebhook site request)

end WebhooksController

/-! ## Profiles -/

/-- A row of `profiles`. -/
structure StoredProfile extends Profile where
  builtin : Option Bool
  deriving DecidableEq, Repr

namespace ProfilesController

/-- The validation of a number, of the assigned value if there is one. -/
def bound (p : Permitted) (field : String) (limit : Nat) (column : Option Int) :
    List FieldError :=
  match p.lookup field with
  | some value => atLeast site.env.casts field limit value
  | none =>
      validate field ("must be greater than or equal to " ++ toString limit)
        (column.all fun value => (limit : Int) ≤ value)

/-- The validations of `Profile` that concern one row. -/
def errors (p : Permitted) (profile : StoredProfile) : List FieldError :=
  slugErrors profile.idSlug ++ presence "name" profile.name ++
    bound site p "cpus" 1 profile.cpus ++ bound site p "memory_mb" 512 profile.memoryMb ++
    bound site p "disk_gb" 1 profile.diskGb

/-- What writing the columns raises. -/
def stored (profile : StoredProfile) : Except RubyError PUnit :=
  if inRange profile.cpus && inRange profile.memoryMb && inRange profile.diskGb then .ok ⟨⟩
  else .error (.standardError "out of range")

/-- `profile_params` -/
def profileParams : Except RubyError Permitted :=
  requirePermit request "profile"
    ["name", "release", "cpus", "memory_mb", "disk_gb", "cloud_init", "network", "playbook",
      "group_name"] []

def assign (p : Permitted) (profile : StoredProfile) : StoredProfile :=
  { profile with
    name := p.assign "name" (textColumn site.env.casts) profile.name
    release := p.assign "release" site.env.casts.text profile.release
    cpus := p.assign "cpus" site.env.casts.integer profile.cpus
    memoryMb := p.assign "memory_mb" site.env.casts.integer profile.memoryMb
    diskGb := p.assign "disk_gb" site.env.casts.integer profile.diskGb
    cloudInit := p.assign "cloud_init" site.env.casts.text profile.cloudInit
    network := p.assign "network" site.env.casts.text profile.network
    playbook := p.assign "playbook" site.env.casts.text profile.playbook
    groupName := p.assign "group_name" site.env.casts.text profile.groupName }

/-- A character of a name after `downcase.gsub(/[^a-z0-9_-]/, "-")`.  Two characters
that are not ASCII have an ASCII letter among their lower case. -/
def slugChars (char : Char) : List Char :=
  if char.toNat = 0x212A then ['k']
  else if char.toNat = 0x130 then ['i', '-']
  else if isAlnum char || char = '_' || char = '-' then [char.toLower]
  else ['-']

/-- The second `gsub`: several hyphens in a row become one. -/
def squeezeHyphens : List Char → List Char
  | '-' :: '-' :: rest => squeezeHyphens ('-' :: rest)
  | char :: rest => char :: squeezeHyphens rest
  | [] => []

/-- `generate_id_slug` -/
def generateIdSlug (name : String) : String :=
  let base := String.ofList (squeezeHyphens (name.toList.flatMap slugChars))
  (if blank base then "profile" else base) ++ "-" ++ site.slugHex

/-- A new row, with the defaults of the columns. -/
def blankProfile (idSlug : String) : StoredProfile :=
  { idSlug, name := "", release := none, cpus := none, memoryMb := none, diskGb := none
    cloudInit := none, network := none, playbook := none, groupName := none
    builtin := some false }

/-- `params[:profile][:name].to_s` -/
def profileName : String :=
  Multipass.Cloudinit.toS site.toText
    (((param request "profile").field? "name").getD .null)

def createProfile : Exec (List StoredProfile) RubyError (Option String) := do
  let p ← Exec.ofExcept (profileParams request)
  let idSlug := generateIdSlug site (profileName site request)
  let saved ← saveNew (fun row => row.idSlug) (errors site p) stored
    (assign site p (blankProfile idSlug))
  return saved.map fun row => row.idSlug

def updateProfile : Exec (List StoredProfile) RubyError (Option String) := do
  let profile ← findRow (fun row => row.idSlug) (textColumn site.env.casts (param request "id"))
  let p ← Exec.ofExcept (profileParams request)
  let saved ← saveChanged (fun row => row.idSlug) (errors site p) stored (assign site p profile)
  return saved.map fun row => row.idSlug

/-- A built-in profile stays. -/
def destroyProfile : Exec (List StoredProfile) RubyError (Option String) := do
  let profile ← findRow (fun row => row.idSlug) (textColumn site.env.casts (param request "id"))
  if profile.builtin = some true then pure none
  else do
    destroyRow (fun row => row.idSlug) profile
    return some profile.idSlug

/-- `create` -/
def create : Exec (App (List StoredProfile)) RubyError PUnit :=
  recordedIf stamp request "config" "create_profile" (createProfile site request)

/-- `update` -/
def update : Exec (App (List StoredProfile)) RubyError PUnit :=
  recordedIf stamp request "config" "update_profile" (updateProfile site request)

/-- `destroy` -/
def destroy : Exec (App (List StoredProfile)) RubyError PUnit :=
  recordedIf stamp request "config" "delete_profile" (destroyProfile site request)

end ProfilesController

/-! ## Schedules -/

namespace SchedulesController

/-- The submitted parameters.  A value that is not a text is assigned as its text. -/
def scheduleForm : Except RubyError ScheduleForm := do
  let p ← requirePermit request "schedule"
    ["name", "enabled", "action", "time", "target_mode", "group_name", "playbook"]
    ["days", "vm_names"]
  let text := fun key => (p.lookup key).map (textColumn site.env.casts)
  let days ← (p.items "days").mapM fun day => (Value.toI day).map toString
  let vmNames := ((p.items "vm_names").filter Value.present).map (textColumn site.env.casts)
  return {
    name := text "name"
    enabled := text "enabled"
    action := text "action"
    time := text "time"
    groupName := text "group_name"
    playbook := text "playbook"
    days := (p.lookup "days").map fun _ => days
    vmNames := (p.lookup "vm_names").map fun _ => vmNames }

def createSchedule : Exec Database RubyError (Option String) := do
  let form ← Exec.ofExcept (scheduleForm site request)
  let slug := "sch_" ++ site.slugHex
  let db ← Exec.gets id
  Exec.modify fun db => db.createSchedule slug form
  return if (form.build slug).errors.isEmpty &&
      db.schedules.all (fun sched => sched.idSlug ≠ slug) then some slug
    else none

/-- `Schedule.find` -/
def findSchedule : Exec Database RubyError Schedule := do
  let slug := textColumn site.env.casts (param request "id")
  match ← Exec.gets fun db => db.schedules.find? fun sched => sched.idSlug = slug with
  | some sched => return sched
  | none => Exec.raise .recordNotFound

def updateSchedule : Exec Database RubyError (Option String) := do
  let sched ← findSchedule site request
  let form ← Exec.ofExcept (scheduleForm site request)
  Exec.modify fun db => db.updateSchedule sched.idSlug form
  return if (form.assign sched.toScheduleAttributes).errors.isEmpty then some sched.idSlug
    else none

def destroySchedule : Exec Database RubyError (Option String) := do
  let sched ← findSchedule site request
  Exec.modify fun db => db.destroySchedule sched.idSlug
  return some sched.idSlug

/-- `create` -/
def create : Exec (App Database) RubyError PUnit :=
  recordedIf stamp request "schedule" "create_schedule" (createSchedule site request)

/-- `update` -/
def update : Exec (App Database) RubyError PUnit :=
  recordedIf stamp request "schedule" "update_schedule" (updateSchedule site request)

/-- `destroy` -/
def destroy : Exec (App Database) RubyError PUnit :=
  recordedIf stamp request "schedule" "delete_schedule" (destroySchedule site request)

end SchedulesController

/-! ## API tokens -/

namespace ApiTokensController

/-- `params[:name].presence || raise(…)`, then `ApiToken.issue!(name:)` -/
def issueToken : Exec Store RubyError (Option String) :=
  if Value.present (param request "name") then do
    let name := textColumn site.env.casts (param request "name")
    let _ ← Auth.ApiToken.issue site.env.crypto name site.slugHex site.tokenHex
    return some name
  else Exec.raise Auth.ApiToken.invalidMessage

def revokeToken : Exec Store RubyError (Option String) := do
  let token ← Auth.ApiToken.revoke (textColumn site.env.casts (param request "id"))
  return some token.name

/-- `create` -/
def create : Exec (App Store) RubyError PUnit :=
  Exec.rescue (recordedIf stamp request "config" "create_token" (issueToken site request))
    fun error => if error.isRecordInvalid then some (pure ⟨⟩) else none

/-- `destroy` -/
def destroy : Exec (App Store) RubyError PUnit :=
  recordedIf stamp request "config" "delete_token" (revokeToken site request)

end ApiTokensController

end

end MultipassWebui.Web
