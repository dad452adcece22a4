import MultipassWebui.Auth.Singletons
import MultipassWebui.Effect.Fallible
import MultipassWebui.Effect.Values
import MultipassWebui.Records.Schema
import MultipassWebui.Records.Seeding

/-!
# The tables that the migration fills

The rows of the tables with all the columns that the import writes, the casts
from JSON values to columns, and for each table how an entry of the old
configuration becomes a row: what it is looked up by, what is assigned, and the
validations.
-/

namespace MultipassWebui.Migration

open MultipassWebui.Auth (VmDefault)
open MultipassWebui.Effect
open MultipassWebui.Encoding
open MultipassWebui.Records (FieldError validate matchesIdSlug groupErrors assignmentErrors Table
  Seeding CATEGORIES ACTORS RESULTS ACTIONS)
open MultipassWebui.Text

/-- The casts of the column types.  The lookup by a value casts it the same way. -/
structure Casts where
  text : Json → Option String
  integer : Json → Option Int
  /-- The number that a numericality validation sees. -/
  numeric : Json → Option Rat
  boolean : Json → Option Bool
  time : Json → Option Int
  text_string : ∀ value, text (.string value) = some value
  text_null : text .null = none

/-! ## Rows -/

structure Setting where
  username : String
  passwordDigest : String
  cloudInitDir : Option String
  cloudInitRepo : Option String
  playbooksDir : Option String
  trustProxy : Option Bool
  deriving DecidableEq, Repr

structure Group where
  name : String
  position : Int
  deriving DecidableEq, Repr

structure VmAssignment where
  vmName : String
  groupId : Option Nat
  isTemplate : Bool
  deriving DecidableEq, Repr

structure Profile where
  idSlug : String
  name : String
  release : Option String
  cpus : Option Int
  memoryMb : Option Int
  diskGb : Option Int
  cloudInit : Option String
  network : Option String
  playbook : Option String
  groupName : Option String
  deriving DecidableEq, Repr

structure Schedule where
  idSlug : String
  name : String
  enabled : Option Bool
  action : String
  time : String
  days : Json
  targetMode : String
  vmNames : Json
  groupName : Option String
  playbook : Option String

structure ApiToken where
  idSlug : String
  name : String
  tokenPrefix : String
  sha256Digest : String
  createdAt : Int
  deriving DecidableEq, Repr

structure Webhook where
  idSlug : String
  name : String
  url : String
  enabled : Option Bool
  categories : Json
  results : Json
  secret : Option String
  createdAt : Int

structure Event where
  id : String
  category : String
  action : String
  actor : String
  resource : Option String
  result : Option String
  detail : Option String
  endpoint : Option String
  payload : Json
  createdAt : Int

structure Tables where
  settings : Table Setting
  vmDefaults : Table VmDefault
  groups : Table Group
  assignments : Table VmAssignment
  profiles : Table Profile
  schedules : Table Schedule
  apiTokens : Table ApiToken
  webhooks : Table Webhook
  events : Table Event

def Tables.empty : Tables :=
  ⟨Table.empty, Table.empty, Table.empty, Table.empty, Table.empty, Table.empty, Table.empty,
    Table.empty, Table.empty⟩

/-! ## Assignments of columns -/

/-- The row if it has no errors. -/
def ifValid {ρ : Type} (errors : List FieldError) (row : ρ) : Except RubyError ρ :=
  if errors.isEmpty then .ok row else .error .recordInvalid

/-- An absent text column is the empty text for the validations, which do not tell
the two apart. -/
def orEmpty (text : Option String) : String := text.getD ""

/-- `presence: true` -/
def presence (field text : String) : List FieldError :=
  validate field "can't be blank" (!blank text)

/-- The range of an integer column: eight bytes in SQLite. -/
def inRange (value : Option Int) : Bool :=
  value.all fun value => -9223372036854775808 ≤ value && value < 9223372036854775808

/-- `value.is_a?(Array) && value.any?`, which looks for a true element. -/
def anyTrue : Json → Bool
  | .array items => items.any Value.truthy
  | _ => false

/-- `return unless value.is_a?(Array)`, then `(value - list).any?`; the message goes
on with the values. -/
def subsetErrors (field : String) (list : List String) : Json → List FieldError
  | .array items =>
      validate field "unknown"
        (items.all fun item => !Value.truthy item || (item.text?).any fun text =>
            list.contains text)
  | _ => []

section

variable (casts : Casts)

/-- The cast text of `entry[field]`. -/
def textAt (entry : Json) (field : String) : Except RubyError (Option String) :=
  (Value.index field entry).map casts.text

/-- The numericality validations, with `allow_nil`. -/
def atLeast (field : String) (bound : Nat) (value : Json) : List FieldError :=
  match casts.integer value, casts.numeric value with
  | none, _ => []
  | some _, none => [⟨field, "is not a number"⟩]
  | some _, some number =>
      validate field ("must be greater than or equal to " ++ toString bound) (bound ≤ number)

/-! ## Groups and assignments -/

/-- `Group.find_or_create_by!(name:) { |g| g.position = i }` -/
def groupSeeding : Seeding (Json × Nat) Group RubyError where
  lookup entry := .ok (casts.text entry.1)
  build entry _ :=
    let name := orEmpty (casts.text entry.1)
    ifValid (groupErrors name) ⟨name, entry.2⟩
  key := Group.name

/-- `Group.find_by(name:)`, and its key. -/
def findGroup (groups : Table Group) (name : Option String) : Option Nat :=
  (groups.rows.find? fun row => some row.2.name = name).map Prod.fst

/-- `VmAssignment.find_or_create_by!(vm_name:) { |a| a.group = group }` -/
def vmGroupSeeding (groups : Table Group) : Seeding Json VmAssignment RubyError where
  lookup entry := .ok (casts.text (Value.pair entry).1)
  build entry _ :=
    let vmName := orEmpty (casts.text (Value.pair entry).1)
    let group := findGroup groups (casts.text (Value.pair entry).2)
    ifValid (assignmentErrors vmName) ⟨vmName, group, false⟩
  key := VmAssignment.vmName

/-- `VmAssignment.find_or_create_by!(vm_name:) { |a| a.is_template = true }` -/
def vmTemplateSeeding : Seeding Json VmAssignment RubyError where
  lookup entry := .ok (casts.text (Value.pair entry).1)
  build entry _ :=
    let vmName := orEmpty (casts.text (Value.pair entry).1)
    ifValid (assignmentErrors vmName) ⟨vmName, none, true⟩
  key := VmAssignment.vmName

/-! ## Profiles and schedules -/

/-- The validations of an `id_slug` with a format. -/
def slugErrors (idSlug : String) : List FieldError :=
  presence "id_slug" idSlug ++ validate "id_slug" "is invalid" (matchesIdSlug idSlug)

def buildProfile (p : Json) : Except RubyError Profile := do
  let idSlug := orEmpty (← textAt casts p "id")
  let name := orEmpty (← textAt casts p "name")
  let release ← textAt casts p "release"
  let cpus ← Value.index "cpus" p
  let memoryMb ← Value.index "memory_mb" p
  let diskGb ← Value.index "disk_gb" p
  let cloudInit ← textAt casts p "cloud_init"
  let network ← textAt casts p "network"
  let playbook ← textAt casts p "playbook"
  let groupName ← textAt casts p "group"
  let profile ← ifValid
    (slugErrors idSlug ++ presence "name" name ++ atLeast casts "cpus" 1 cpus ++
      atLeast casts "memory_mb" 512 memoryMb ++ atLeast casts "disk_gb" 1 diskGb)
    { idSlug, name, release, cloudInit, network, playbook, groupName
      cpus := casts.integer cpus
      memoryMb := casts.integer memoryMb
      diskGb := casts.integer diskGb : Profile }
  if inRange profile.cpus && inRange profile.memoryMb && inRange profile.diskGb then
    return profile
  else .error (.standardError "out of range")

def profileSeeding : Seeding Json Profile RubyError where
  lookup p := textAt casts p "id"
  build p _ := buildProfile casts p
  key := Profile.idSlug

/-- `has_targets?` -/
def hasTargets (groupName : Option String) (vmNames : Json) : List FieldError :=
  validate "base" "must have a target group or list of VMs" (present groupName || anyTrue vmNames)

def buildSchedule (s : Json) : Except RubyError Schedule := do
  let idSlug := orEmpty (← textAt casts s "id")
  let name := orEmpty (← textAt casts s "name")
  let enabled ← (Value.index "enabled" s).map casts.boolean
  let action := orEmpty (← textAt casts s "action")
  let time := orEmpty (← textAt casts s "time")
  let days ← Value.index "days" s
  let group ← Value.index "group" s
  let targetMode := if Value.present group then "group" else "vms"
  let vmNames ← Value.index "vms" s
  let groupName := casts.text group
  let playbook ← textAt casts s "playbook"
  ifValid
    (slugErrors idSlug ++ presence "name" name ++
      validate "action" "is not included in the list" (ACTIONS.contains action) ++
      validate "time" "must be HH:MM" (matchesClock time) ++ hasTargets groupName vmNames)
    { idSlug, name, enabled, action, time, days, targetMode, vmNames, groupName, playbook }

def scheduleSeeding : Seeding Json Schedule RubyError where
  lookup s := textAt casts s "id"
  build s _ := buildSchedule casts s
  key := Schedule.idSlug

/-! ## Tokens and webhooks -/

/-- The row of a token, before the validations; a missing time is the current one. -/
def tokenAttributes (now : Int) (t : Json) : Except RubyError ApiToken := do
  let idSlug := orEmpty (← textAt casts t "id")
  let name := orEmpty (← textAt casts t "name")
  let tokenPrefix := orEmpty (← textAt casts t "prefix")
  let sha256Digest := orEmpty (← textAt casts t "hash")
  let createdAt ← (Value.index "created_at" t).map casts.time
  return { idSlug, name, tokenPrefix, sha256Digest, createdAt := createdAt.getD now }

/-- The validations of a token, among the tokens that are there. -/
def tokenErrors (token : ApiToken) (tokens : List ApiToken) : List FieldError :=
  presence "id_slug" token.idSlug ++ presence "name" token.name ++
    validate "name" "has already been taken" (tokens.all fun other => other.name ≠ token.name) ++
    validate "name" "is too long (maximum is 64 characters)" (token.name.length ≤ 64) ++
    presence "prefix" token.tokenPrefix ++ presence "sha256_digest" token.sha256Digest ++
    validate "sha256_digest" "has already been taken"
      (tokens.all fun other => other.sha256Digest ≠ token.sha256Digest)

def apiTokenSeeding (now : Int) : Seeding Json ApiToken RubyError where
  lookup t := textAt casts t "id"
  build t tokens := do
    let token ← tokenAttributes casts now t
    ifValid (tokenErrors token tokens) token
  key := ApiToken.idSlug

/-- `%r{\Ahttps?://}` -/
def matchesHttp (url : String) : Bool :=
  "http://".toList.isPrefixOf url.toList || "https://".toList.isPrefixOf url.toList

def buildWebhook (now : Int) (w : Json) : Except RubyError Webhook := do
  let idSlug := orEmpty (← textAt casts w "id")
  let name := orEmpty (← textAt casts w "name")
  let url := orEmpty (← textAt casts w "url")
  let enabled ← (Value.index "enabled" w).map casts.boolean
  let categories ← Value.index "categories" w
  let results ← Value.index "results" w
  let secret ← textAt casts w "secret"
  let createdAt ← (Value.index "created_at" w).map casts.time
  ifValid
    (presence "id_slug" idSlug ++ presence "name" name ++ presence "url" url ++
      validate "url" "must be http(s)://" (matchesHttp url) ++
      subsetErrors "categories" CATEGORIES categories ++
      subsetErrors "results" RESULTS results)
    { idSlug, name, url, enabled, categories, results, secret, createdAt := createdAt.getD now }

def webhookSeeding (now : Int) : Seeding Json Webhook RubyError where
  lookup w := textAt casts w "id"
  build w _ := buildWebhook casts now w
  key := Webhook.idSlug

end

/-! ## The key of a row -/

section Keys

theorem ifValid_eq_ok_iff {ρ : Type} {errors : List FieldError} {row valid : ρ} :
    ifValid errors row = .ok valid ↔ errors = [] ∧ valid = row := by
  unfold ifValid
  cases errors with
  | nil => simp [eq_comm]
  | cons error rest => simp

/-- A text that is not blank was there. -/
theorem eq_some_of_presence (field : String) {text : Option String}
    (valid : presence field (orEmpty text) = []) : text = some (orEmpty text) := by
  cases text with
  | some text => rfl
  | none =>
      rw [presence, Records.validate_eq_nil_iff] at valid
      exact absurd valid (by decide)

variable {casts : Casts}

theorem keyed_groupSeeding : (groupSeeding casts).Keyed := by
  intro entry rows row built
  rcases ifValid_eq_ok_iff.mp built with ⟨valid, rfl⟩
  have hasName := (List.append_eq_nil_iff.mp valid).1
  exact congrArg Except.ok (eq_some_of_presence "name" hasName)

theorem keyed_vmGroupSeeding (groups : Table Group) : (vmGroupSeeding casts groups).Keyed := by
  intro entry rows row built
  rcases ifValid_eq_ok_iff.mp built with ⟨valid, rfl⟩
  exact congrArg Except.ok (eq_some_of_presence "vm_name" valid)

theorem keyed_vmTemplateSeeding : (vmTemplateSeeding casts).Keyed := by
  intro entry rows row built
  rcases ifValid_eq_ok_iff.mp built with ⟨valid, rfl⟩
  exact congrArg Except.ok (eq_some_of_presence "vm_name" valid)

theorem keyed_profileSeeding : (profileSeeding casts).Keyed := by
  intro p rows row built
  change buildProfile casts p = .ok row at built
  simp only [buildProfile, bind_eq_ok_iff] at built
  rcases built with ⟨idSlug, isId, name, _, _, _, cpus, _, memoryMb, _, diskGb, _, _, _, _, _, _, _,
    _, _, profile, valid, ranged⟩
  rcases ifValid_eq_ok_iff.mp valid with ⟨errors, rfl⟩
  split_ifs at ranged
  cases ranged
  simp only [List.append_eq_nil_iff, slugErrors] at errors
  exact isId.trans (congrArg Except.ok (eq_some_of_presence "id_slug" errors.1.1.1.1.1))

theorem keyed_scheduleSeeding : (scheduleSeeding casts).Keyed := by
  intro s rows row built
  change buildSchedule casts s = .ok row at built
  simp only [buildSchedule, bind_eq_ok_iff] at built
  rcases built with ⟨idSlug, isId, name, _, enabled, _, action, _, time, _, days, _, group, _,
    vmNames, _, playbook, _, valid⟩
  rcases ifValid_eq_ok_iff.mp valid with ⟨errors, rfl⟩
  simp only [List.append_eq_nil_iff, slugErrors] at errors
  exact isId.trans (congrArg Except.ok (eq_some_of_presence "id_slug" errors.1.1.1.1.1))

theorem tokenAttributes_idSlug {now : Int} {t : Json} {token : ApiToken}
    (attributes : tokenAttributes casts now t = .ok token) :
    ∃ idSlug, textAt casts t "id" = .ok idSlug ∧ token.idSlug = orEmpty idSlug := by
  simp only [tokenAttributes, bind_eq_ok_iff] at attributes
  rcases attributes with ⟨idSlug, isId, _, _, _, _, _, _, _, _, isToken⟩
  cases isToken
  exact ⟨idSlug, isId, rfl⟩

theorem keyed_apiTokenSeeding (now : Int) : (apiTokenSeeding casts now).Keyed := by
  intro t tokens row built
  rcases bind_eq_ok_iff.mp built with ⟨token, attributes, valid⟩
  rcases ifValid_eq_ok_iff.mp valid with ⟨errors, rfl⟩
  rcases tokenAttributes_idSlug attributes with ⟨idSlug, isId, same⟩
  simp only [tokenErrors, List.append_eq_nil_iff, same] at errors
  change textAt casts t "id" = .ok (some row.idSlug)
  rw [isId, same]
  exact congrArg Except.ok (eq_some_of_presence "id_slug" errors.1.1.1.1.1.1)

theorem keyed_webhookSeeding (now : Int) : (webhookSeeding casts now).Keyed := by
  intro w rows row built
  change buildWebhook casts now w = .ok row at built
  simp only [buildWebhook, bind_eq_ok_iff] at built
  rcases built with ⟨idSlug, isId, name, _, url, _, enabled, _, categories, _,
      results, _, secret, _,
    createdAt, _, valid⟩
  rcases ifValid_eq_ok_iff.mp valid with ⟨errors, rfl⟩
  simp only [List.append_eq_nil_iff] at errors
  exact isId.trans (congrArg Except.ok (eq_some_of_presence "id_slug" errors.1.1.1.1.1))

end Keys

end MultipassWebui.Migration
