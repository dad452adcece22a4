import MultipassWebui.Migration.Import
import MultipassWebui.Records.Rows

/-!
# What the import of a configuration loses

On an empty database the sections of a configuration arrive in full, each row
with the fields of the first entry of its key, as long as no two entries claim
one assignment.  The sections of groups and of templates share the assignments,
and an entry that finds the row of its machine leaves it as it is.
-/

namespace MultipassWebui.Migration

open MultipassWebui.Effect
open MultipassWebui.Encoding
open MultipassWebui.Records (Table Seeding)

/-! ## What should arrive -/

/-- The entries of a section: the elements of an array, the pairs of an object. -/
def entriesOf (name : String) (cfg : Json) : List Json :=
  match Value.index name cfg with
  | .ok (.array items) => items
  | .ok (.object fields) => fields.map fun field => .array [.string field.1, field.2]
  | _ => []

section

variable (casts : Casts)

/-- The machine of an entry of `vm_groups` or `vm_templates`. -/
def vmOf (entry : Json) : Option String := casts.text (Value.pair entry).1

/-- The group of an entry of `vm_groups`. -/
def groupOf (entry : Json) : Option String := casts.text (Value.pair entry).2

/-- The id of an entry of another section. -/
def idOf (entry : Json) : Option String := (Value.index "id" entry).toOption.bind casts.text

/-- The name is on the list of groups. -/
def Listed (cfg : Json) (name : String) : Prop :=
  ∃ entry ∈ entriesOf "groups" cfg, casts.text entry = some name

/-- The machine's assignment belongs to the group. -/
def Belongs (after : Tables) (vm name : String) : Prop :=
  ∃ assignment ∈ after.assignments.values, assignment.vmName = vm ∧
    ∃ row ∈ after.groups.rows, row.2.name = name ∧ assignment.groupId = some row.1

/-- The machine's assignment is a template. -/
def IsTemplate (after : Tables) (vm : String) : Prop :=
  ∃ assignment ∈ after.assignments.values, assignment.vmName = vm ∧ assignment.isTemplate = true

/-- A column holds the cast of a field of the entry. -/
def Column {α : Type} (cast : Json → α) (entry : Json) (field : String) (column : α) : Prop :=
  ∃ value, Value.index field entry = .ok value ∧ cast value = column

/-- A profile with the fields of an entry. -/
structure ProfileFrom (entry : Json) (row : Profile) : Prop where
  idSlug : Column casts.text entry "id" (some row.idSlug)
  name : Column casts.text entry "name" (some row.name)
  release : Column casts.text entry "release" row.release
  cpus : Column casts.integer entry "cpus" row.cpus
  memoryMb : Column casts.integer entry "memory_mb" row.memoryMb
  diskGb : Column casts.integer entry "disk_gb" row.diskGb
  cloudInit : Column casts.text entry "cloud_init" row.cloudInit
  network : Column casts.text entry "network" row.network
  playbook : Column casts.text entry "playbook" row.playbook
  groupName : Column casts.text entry "group" row.groupName

/-- A schedule with the fields of an entry; its targets are a group if there is one. -/
structure ScheduleFrom (entry : Json) (row : Schedule) : Prop where
  idSlug : Column casts.text entry "id" (some row.idSlug)
  name : Column casts.text entry "name" (some row.name)
  enabled : Column casts.boolean entry "enabled" row.enabled
  action : Column casts.text entry "action" (some row.action)
  time : Column casts.text entry "time" (some row.time)
  days : Column id entry "days" row.days
  targetMode : ∃ group, Value.index "group" entry = .ok group ∧
    row.targetMode = if Value.present group then "group" else "vms"
  vmNames : Column id entry "vms" row.vmNames
  groupName : Column casts.text entry "group" row.groupName
  playbook : Column casts.text entry "playbook" row.playbook

/-- A token with the fields of an entry; without a time it is created now. -/
structure TokenFrom (now : Int) (entry : Json) (row : ApiToken) : Prop where
  idSlug : Column casts.text entry "id" (some row.idSlug)
  name : Column casts.text entry "name" (some row.name)
  tokenPrefix : Column casts.text entry "prefix" (some row.tokenPrefix)
  sha256Digest : Column casts.text entry "hash" (some row.sha256Digest)
  createdAt : Column (fun value => (casts.time value).getD now) entry "created_at" row.createdAt

/-- A webhook with the fields of an entry; without a time it is created now. -/
structure WebhookFrom (now : Int) (entry : Json) (row : Webhook) : Prop where
  idSlug : Column casts.text entry "id" (some row.idSlug)
  name : Column casts.text entry "name" (some row.name)
  url : Column casts.text entry "url" (some row.url)
  enabled : Column casts.boolean entry "enabled" row.enabled
  categories : Column id entry "categories" row.categories
  results : Column id entry "results" row.results
  secret : Column casts.text entry "secret" row.secret
  createdAt : Column (fun value => (casts.time value).getD now) entry "created_at" row.createdAt

/-- All the sections have arrived: the assignments of groups and templates, and for
each listed group, profile, schedule, token and webhook one row, which has the
fields of its first entry. -/
structure Imported (now : Int) (cfg : Json) (after : Tables) : Prop where
  grouped : ∀ entry ∈ entriesOf "vm_groups" cfg, ∀ vm ∈ vmOf casts entry,
    ∀ name ∈ groupOf casts entry, Listed casts cfg name → Belongs after vm name
  templates : ∀ entry ∈ entriesOf "vm_templates" cfg, ∀ vm ∈ vmOf casts entry,
    IsTemplate after vm
  groups : List.Forall₂
    (fun entry group => casts.text entry.1 = some group.name ∧ group.position = entry.2)
    (Seeding.firsts (fun entry => casts.text entry.1) [] (entriesOf "groups" cfg).zipIdx)
    after.groups.values
  profiles : List.Forall₂ (ProfileFrom casts)
    (Seeding.firsts (idOf casts) [] (entriesOf "profiles" cfg)) after.profiles.values
  schedules : List.Forall₂ (ScheduleFrom casts)
    (Seeding.firsts (idOf casts) [] (entriesOf "schedules" cfg)) after.schedules.values
  apiTokens : List.Forall₂ (TokenFrom casts now)
    (Seeding.firsts (idOf casts) [] (entriesOf "api_tokens" cfg)) after.apiTokens.values
  webhooks : List.Forall₂ (WebhookFrom casts now)
    (Seeding.firsts (idOf casts) [] (entriesOf "webhooks" cfg)) after.webhooks.values

/-- No two entries claim an assignment for different ends: no machine is in both
sections, and where `vm_groups` names one twice, the first entry has the group. -/
structure Compatible (cfg : Json) : Prop where
  apart : ∀ entry ∈ entriesOf "vm_templates" cfg, ∀ vm ∈ vmOf casts entry,
    ∀ other ∈ entriesOf "vm_groups" cfg, vmOf casts other ≠ some vm
  agree : ∀ entry ∈ entriesOf "vm_groups" cfg, ∀ vm ∈ vmOf casts entry,
    ∀ name ∈ groupOf casts entry, Listed casts cfg name →
      ∀ first ∈ (entriesOf "vm_groups" cfg).find? (fun other => vmOf casts other = some vm),
        groupOf casts first = some name

end

/-! ## The columns of a row -/

section Columns

variable {casts : Casts} {now : Int} {entry : Json}

/-- A cast text is the field, cast. -/
theorem column_of_textAt {field : String} {text : Option String}
    (read : textAt casts entry field = .ok text) : Column casts.text entry field text := by
  rw [textAt] at read
  cases found : Value.index field entry with
  | error raised =>
      rw [found] at read
      cases read
  | ok value =>
      rw [found] at read
      exact ⟨value, found, Except.ok.inj read⟩

theorem idOf_of_textAt {key : Option String} (looked : textAt casts entry "id" = .ok key) :
    idOf casts entry = key := by
  rcases column_of_textAt looked with ⟨value, found, rfl⟩
  rw [idOf, found]
  rfl

/-- A text that is not blank is the field, cast. -/
theorem column_of_presence {field label : String} {text : Option String}
    (read : textAt casts entry field = .ok text) (shown : presence label (orEmpty text) = []) :
    Column casts.text entry field (some (orEmpty text)) := by
  rw [← eq_some_of_presence label shown]
  exact column_of_textAt read

/-- A text that passes a validation which the empty text does not is the field, cast. -/
theorem column_of_validate {field label message : String} {text : Option String}
    {passes : String → Bool} (read : textAt casts entry field = .ok text)
    (valid : Records.validate label message (passes (orEmpty text)) = [])
    (notEmpty : passes "" = false) : Column casts.text entry field (some (orEmpty text)) := by
  cases text with
  | some text => exact column_of_textAt read
  | none =>
      rw [Records.validate_eq_nil_iff] at valid
      cases notEmpty.symm.trans valid

theorem column_of_map {α : Type} {cast : Json → α} {field : String} {column : α}
    (read : (Value.index field entry).map cast = .ok column) : Column cast entry field column := by
  cases found : Value.index field entry with
  | error raised =>
      rw [found] at read
      cases read
  | ok value =>
      rw [found] at read
      exact ⟨value, found, Except.ok.inj read⟩

theorem profileFrom_of_built {row : Profile} (built : buildProfile casts entry = .ok row) :
    ProfileFrom casts entry row := by
  simp only [buildProfile, bind_eq_ok_iff] at built
  rcases built with ⟨idSlug, isId, name, isName, release, isRelease, cpus, isCpus, memoryMb,
    isMemory, diskGb, isDisk, cloudInit, isCloudInit, network, isNetwork, playbook, isPlaybook,
    groupName, isGroup, profile, valid, ranged⟩
  rcases ifValid_eq_ok_iff.mp valid with ⟨errors, rfl⟩
  split_ifs at ranged
  cases ranged
  simp only [List.append_eq_nil_iff, slugErrors] at errors
  rcases errors with ⟨⟨⟨⟨⟨hasId, _⟩, hasName⟩, _⟩, _⟩, _⟩
  exact ⟨column_of_presence isId hasId, column_of_presence isName hasName,
    column_of_textAt isRelease, ⟨cpus, isCpus, rfl⟩, ⟨memoryMb, isMemory, rfl⟩,
    ⟨diskGb, isDisk, rfl⟩, column_of_textAt isCloudInit, column_of_textAt isNetwork,
    column_of_textAt isPlaybook, column_of_textAt isGroup⟩

theorem scheduleFrom_of_built {row : Schedule} (built : buildSchedule casts entry = .ok row) :
    ScheduleFrom casts entry row := by
  simp only [buildSchedule, bind_eq_ok_iff] at built
  rcases built with ⟨idSlug, isId, name, isName, enabled, isEnabled, action, isAction, time, isTime,
    days, isDays, group, isGroup, vmNames, isVms, playbook, isPlaybook, valid⟩
  rcases ifValid_eq_ok_iff.mp valid with ⟨errors, rfl⟩
  simp only [List.append_eq_nil_iff, slugErrors] at errors
  rcases errors with ⟨⟨⟨⟨⟨hasId, _⟩, hasName⟩, isKnown⟩, isClock⟩, _⟩
  exact ⟨column_of_presence isId hasId, column_of_presence isName hasName,
    column_of_map isEnabled, column_of_validate isAction isKnown (by decide),
    column_of_validate isTime isClock (by decide), ⟨days, isDays, rfl⟩, ⟨group, isGroup, rfl⟩,
    ⟨vmNames, isVms, rfl⟩, ⟨group, isGroup, rfl⟩, column_of_textAt isPlaybook⟩

theorem tokenFrom_of_built {row : ApiToken} {tokens : List ApiToken}
    (attributes : tokenAttributes casts now entry = .ok row) (valid : tokenErrors row tokens = []) :
    TokenFrom casts now entry row := by
  simp only [tokenAttributes, bind_eq_ok_iff] at attributes
  rcases attributes with ⟨idSlug, isId, name, isName, tokenPrefix, isPrefix, digest, isDigest,
    createdAt, isTime, isToken⟩
  cases isToken
  simp only [tokenErrors, List.append_eq_nil_iff] at valid
  rcases valid with ⟨⟨⟨⟨⟨⟨hasId, hasName⟩, _⟩, _⟩, hasPrefix⟩, hasDigest⟩, _⟩
  rcases column_of_map isTime with ⟨value, read, rfl⟩
  exact ⟨column_of_presence isId hasId, column_of_presence isName hasName,
    column_of_presence isPrefix hasPrefix, column_of_presence isDigest hasDigest,
    ⟨value, read, rfl⟩⟩

theorem webhookFrom_of_built {row : Webhook} (built : buildWebhook casts now entry = .ok row) :
    WebhookFrom casts now entry row := by
  simp only [buildWebhook, bind_eq_ok_iff] at built
  rcases built with ⟨idSlug, isId, name, isName, url, isUrl, enabled, isEnabled, categories,
    isCategories, results, isResults, secret, isSecret, createdAt, isTime, valid⟩
  rcases ifValid_eq_ok_iff.mp valid with ⟨errors, rfl⟩
  simp only [List.append_eq_nil_iff] at errors
  rcases errors with ⟨⟨⟨⟨⟨hasId, hasName⟩, hasUrl⟩, _⟩, _⟩, _⟩
  rcases column_of_map isTime with ⟨value, read, rfl⟩
  exact ⟨column_of_presence isId hasId, column_of_presence isName hasName,
    column_of_presence isUrl hasUrl, column_of_map isEnabled, ⟨categories, isCategories, rfl⟩,
    ⟨results, isResults, rfl⟩, column_of_textAt isSecret, ⟨value, read, rfl⟩⟩

end Columns

/-! ## The sections of a completed import -/

/-- What each section left when the import completes. -/
structure Completed (env : Environment) (run : Run) (cfg : Json) (before after : Tables) :
    Prop where
  settings : importSettings env cfg before.settings = .ok after.settings
  vmDefaults : importVmDefaults env cfg before.vmDefaults = .ok after.vmDefaults
  groups : (groupSeeding env.casts).seed (entriesOf "groups" cfg).zipIdx before.groups =
    .ok after.groups
  assignments : ∃ grouped,
    (vmGroupSeeding env.casts after.groups).seed (entriesOf "vm_groups" cfg)
      before.assignments = .ok grouped ∧
    (vmTemplateSeeding env.casts).seed (entriesOf "vm_templates" cfg) grouped =
      .ok after.assignments
  profiles : (profileSeeding env.casts).seed (entriesOf "profiles" cfg) before.profiles =
    .ok after.profiles
  schedules : (scheduleSeeding env.casts).seed (entriesOf "schedules" cfg) before.schedules =
    .ok after.schedules
  apiTokens : (apiTokenSeeding env.casts run.now).seed (entriesOf "api_tokens" cfg)
    before.apiTokens = .ok after.apiTokens
  webhooks : (webhookSeeding env.casts run.now).seed (entriesOf "webhooks" cfg)
    before.webhooks = .ok after.webhooks
  events : after.events = before.events
  readable : ∀ name ∈ ["groups", "vm_groups", "vm_templates", "profiles", "schedules",
    "api_tokens", "webhooks"], ∃ entries, sectionOf name cfg = .ok entries

section Completion

variable {env : Environment} {run : Run} {cfg : Json} {before after : Tables}

/-- The loop over a section runs through its entries. -/
theorem entriesOf_of_sectionOf {name : String} {entries : List Json}
    (read : sectionOf name cfg = .ok entries) : entriesOf name cfg = entries := by
  rcases bind_eq_ok_iff.mp read with ⟨value, found, elements⟩
  rw [entriesOf, found]
  cases value <;> cases elements <;> rfl

theorem importRows_eq_ok_iff {ρ : Type} {seeding : Seeding Json ρ RubyError} {name : String}
    {table imported : Table ρ} :
    importRows seeding name cfg table = .ok imported ↔
      (∃ entries, sectionOf name cfg = .ok entries) ∧
        seeding.seed (entriesOf name cfg) table = .ok imported := by
  rw [importRows, bind_eq_ok_iff]
  cases read : sectionOf name cfg with
  | error raised => simp
  | ok entries => simp [entriesOf_of_sectionOf read]

theorem importGroups_eq_ok_iff {groups imported : Table Group} :
    importGroups env cfg groups = .ok imported ↔
      (∃ entries, sectionOf "groups" cfg = .ok entries) ∧
        (groupSeeding env.casts).seed (entriesOf "groups" cfg).zipIdx groups = .ok imported := by
  rw [importGroups, bind_eq_ok_iff]
  cases read : sectionOf "groups" cfg with
  | error raised => simp
  | ok entries => simp [entriesOf_of_sectionOf read]

theorem importSections_eq_ok_iff :
    importSections env run cfg before = .ok after ↔ Completed env run cfg before after := by
  simp only [importSections, bind_eq_ok_iff, importRows_eq_ok_iff, importGroups_eq_ok_iff]
  constructor
  · rintro ⟨settings, isSettings, vmDefaults, isDefaults, groups, ⟨readGroups, isGroups⟩, grouped,
      ⟨readVmGroups, isGrouped⟩, assignments, ⟨readTemplates, isAssignments⟩, profiles,
      ⟨readProfiles, isProfiles⟩, schedules, ⟨readSchedules, isSchedules⟩, apiTokens,
      ⟨readTokens, isTokens⟩, webhooks, ⟨readWebhooks, isWebhooks⟩, final⟩
    cases final
    exact ⟨isSettings, isDefaults, isGroups, ⟨grouped, isGrouped, isAssignments⟩, isProfiles,
      isSchedules, isTokens, isWebhooks, rfl, by
        simp only [List.mem_cons, List.not_mem_nil, or_false]
        rintro name (rfl | rfl | rfl | rfl | rfl | rfl | rfl) <;> assumption⟩
  · rintro ⟨isSettings, isDefaults, isGroups, ⟨grouped, isGrouped, isAssignments⟩, isProfiles,
      isSchedules, isTokens, isWebhooks, events, readable⟩
    refine ⟨_, isSettings, _, isDefaults, _, ⟨readable _ (by simp), isGroups⟩, _,
      ⟨readable _ (by simp), isGrouped⟩, _, ⟨readable _ (by simp), isAssignments⟩, _,
      ⟨readable _ (by simp), isProfiles⟩, _, ⟨readable _ (by simp), isSchedules⟩, _,
      ⟨readable _ (by simp), isTokens⟩, _, ⟨readable _ (by simp), isWebhooks⟩, ?_⟩
    rw [← events]
    rfl

theorem importConfig_apply (env : Environment) (run : Run) (cfg : Json) (before : Tables) :
    importConfig env run cfg before =
      match importSections env run cfg before with
      | .ok after => (.ok ⟨⟩, after)
      | .error raised => (.error raised, before) := by
  rw [importConfig, Exec.transaction, Exec.bind_ok (Exec.gets_apply _ _)]
  cases imported : importSections env run cfg before with
  | ok after =>
      have returned : Exec.ofExcept (importSections env run cfg (id before)) before =
          (.ok after, before) := by simp [imported]
      rw [Exec.bind_ok returned]
      rfl
  | error raised =>
      have failed : Exec.ofExcept (importSections env run cfg (id before)) before =
          (.error raised, before) := by simp [imported]
      rw [Exec.bind_error failed]

/-- The import completes, or it raises and nothing is stored. -/
theorem importConfig_cases (env : Environment) (run : Run) (cfg : Json) (before : Tables) :
    (∃ after, importConfig env run cfg before = (.ok ⟨⟩, after) ∧
      Completed env run cfg before after) ∨
    ∃ raised, importConfig env run cfg before = (.error raised, before) := by
  rw [importConfig_apply]
  cases imported : importSections env run cfg before with
  | ok after => exact Or.inl ⟨after, rfl, importSections_eq_ok_iff.mp imported⟩
  | error raised => exact Or.inr ⟨raised, rfl⟩

end Completion

/-! ## On an empty database -/

section Empty

variable {env : Environment} {run : Run} {cfg : Json} {after : Tables}

/-- A first entry whose machine is the given one. -/
theorem exists_first {entries : List Json} {vm : String} {casts : Casts} {other : Json}
    (member : other ∈ entries) (named : vmOf casts other = some vm) :
    ∃ first, entries.find? (fun other => decide (vmOf casts other = some vm)) = some first := by
  apply Option.isSome_iff_exists.mp
  rw [List.find?_isSome]
  exact ⟨other, member, decide_eq_true named⟩

/-- The names of the groups are distinct. -/
theorem Completed.distinct_groups (completed : Completed env run cfg Tables.empty after) :
    (after.groups.values.map Group.name).Nodup :=
  Seeding.nodup_seed keyed_groupSeeding completed.groups List.nodup_nil

theorem Completed.exists_group (completed : Completed env run cfg Tables.empty after)
    {name : String} (listed : Listed env.casts cfg name) :
    ∃ row ∈ after.groups.rows, row.2.name = name := by
  rcases listed with ⟨entry, member, named⟩
  rcases List.mem_iff_getElem?.mp member with ⟨i, atI⟩
  have indexed : (entry, i) ∈ (entriesOf "groups" cfg).zipIdx := by
    rw [List.mem_zipIdx_iff_getElem?]
    exact atI
  rcases Seeding.covered_seed keyed_groupSeeding completed.groups _ indexed with
    ⟨group, isGroup, looked⟩
  rcases List.mem_map.mp isGroup with ⟨row, isRow, rfl⟩
  refine ⟨row, isRow, ?_⟩
  have same : env.casts.text entry = some row.2.name := Except.ok.inj looked
  rw [named] at same
  exact (Option.some.inj same).symm

/-- The lookup by a name finds the row of the name. -/
theorem findGroup_eq_some_iff {groups : Table Group}
    (distinct : (groups.values.map Group.name).Nodup) {name : Option String} {id : Nat} :
    findGroup groups name = some id ↔ ∃ row ∈ groups.rows, some row.2.name = name ∧ row.1 = id := by
  constructor
  · intro isFound
    rcases Option.map_eq_some_iff.mp isFound with ⟨row, found, same⟩
    have selected := List.find?_some found
    exact ⟨row, List.mem_of_find?_eq_some found, of_decide_eq_true selected, same⟩
  · rintro ⟨row, member, rfl, rfl⟩
    have pairs : (groups.rows.map fun row => row.2.name).Nodup := by
      rw [Table.values, List.map_map] at distinct
      exact distinct
    have found : groups.rows.find? (fun other => decide (some other.2.name = some row.2.name)) =
        some row := by
      apply Records.Rows.find?_eq_some_of_unique member (by simp)
      intro other otherMember sameName
      exact List.inj_on_of_nodup_map pairs otherMember member
        (Option.some.inj (of_decide_eq_true sameName))
    rw [findGroup, found]
    rfl

/-- The assignments that the section of groups leaves, and the final ones. -/
structure Assigned (env : Environment) (cfg : Json) (groups : Table Group)
    (grouped final : Table VmAssignment) : Prop where
  byGroup : (vmGroupSeeding env.casts groups).seed (entriesOf "vm_groups" cfg) Table.empty =
    .ok grouped
  byTemplate : (vmTemplateSeeding env.casts).seed (entriesOf "vm_templates" cfg) grouped = .ok final

variable {groups : Table Group} {grouped final : Table VmAssignment}

/-- A machine has one assignment. -/
theorem Assigned.distinct (assigned : Assigned env cfg groups grouped final) :
    (final.values.map VmAssignment.vmName).Nodup := by
  have first : (grouped.values.map VmAssignment.vmName).Nodup :=
    Seeding.nodup_seed (keyed_vmGroupSeeding groups) assigned.byGroup List.nodup_nil
  exact Seeding.nodup_seed keyed_vmTemplateSeeding assigned.byTemplate first

/-- A machine in `vm_groups` is assigned by its first entry there, and is no
template. -/
theorem Assigned.of_group (assigned : Assigned env cfg groups grouped final) {vm : String}
    {first : Json} (isFirst : (entriesOf "vm_groups" cfg).find?
      (fun other => decide (vmOf env.casts other = some vm)) = some first) :
    ∃ assignment ∈ final.values, assignment.vmName = vm ∧
      assignment.groupId = findGroup groups (groupOf env.casts first) ∧
      assignment.isTemplate = false := by
  have looked : (fun entry => decide
      (((vmGroupSeeding env.casts groups).lookup entry).toOption = some (some vm))) =
      fun other => decide (vmOf env.casts other = some vm) := by
    funext entry
    exact decide_eq_decide.mpr (by simp [vmGroupSeeding, vmOf, Except.toOption])
  rw [← looked] at isFirst
  rcases Seeding.exists_row_of_first (keyed_vmGroupSeeding groups) assigned.byGroup isFirst
    (by simp) with ⟨row, member, named, _, built⟩
  rcases ifValid_eq_ok_iff.mp built with ⟨_, rfl⟩
  exact ⟨_, Seeding.mem_values_seed assigned.byTemplate member, named, rfl, rfl⟩

/-- A machine that is in `vm_templates` only is a template. -/
theorem Assigned.of_template (assigned : Assigned env cfg groups grouped final) {vm : String}
    {entry : Json} (member : entry ∈ entriesOf "vm_templates" cfg)
    (named : vmOf env.casts entry = some vm)
    (absent : ∀ other ∈ entriesOf "vm_groups" cfg, vmOf env.casts other ≠ some vm) :
    ∃ assignment ∈ final.values, assignment.vmName = vm ∧ assignment.isTemplate = true := by
  rcases exists_first member named with ⟨first, isFirst⟩
  have looked : (fun entry => decide
      (((vmTemplateSeeding env.casts).lookup entry).toOption = some (some vm))) =
      fun other => decide (vmOf env.casts other = some vm) := by
    funext entry
    exact decide_eq_decide.mpr (by simp [vmTemplateSeeding, vmOf, Except.toOption])
  have unassigned : vm ∉ grouped.values.map VmAssignment.vmName := by
    intro seen
    rcases List.mem_map.mp seen with ⟨row, isRow, rfl⟩
    rcases Seeding.origin_of_mem assigned.byGroup isRow with old | ⟨other, isOther, _, built⟩
    · cases old
    · have isKey := keyed_vmGroupSeeding groups other _ row built
      exact absent other isOther (Except.ok.inj isKey)
  rw [← looked] at isFirst
  rcases Seeding.exists_row_of_first keyed_vmTemplateSeeding assigned.byTemplate isFirst
    unassigned with
    ⟨row, isRow, isVm, _, built⟩
  rcases ifValid_eq_ok_iff.mp built with ⟨_, rfl⟩
  exact ⟨_, isRow, isVm, rfl⟩

/-- The assignment of a machine is the only one. -/
theorem Assigned.unique (assigned : Assigned env cfg groups grouped final)
    {first second : VmAssignment} (isFirst : first ∈ final.values)
    (isSecond : second ∈ final.values) (same : first.vmName = second.vmName) : first = second :=
  List.inj_on_of_nodup_map assigned.distinct isFirst isSecond same

theorem Completed.assigned (completed : Completed env run cfg Tables.empty after) :
    ∃ grouped, Assigned env cfg after.groups grouped after.assignments := by
  rcases completed.assignments with ⟨grouped, byGroup, byTemplate⟩
  exact ⟨grouped, byGroup, byTemplate⟩

/-- A machine of `vm_groups` belongs to a listed group precisely if its first entry
names the group. -/
theorem Completed.belongs_iff (completed : Completed env run cfg Tables.empty after)
    {vm name : String} {first : Json} (isFirst : (entriesOf "vm_groups" cfg).find?
      (fun other => decide (vmOf env.casts other = some vm)) = some first)
    (listed : Listed env.casts cfg name) :
    Belongs after vm name ↔ groupOf env.casts first = some name := by
  rcases completed.assigned with ⟨grouped, assigned⟩
  rcases assigned.of_group isFirst with ⟨assignment, member, isVm, groupId, _⟩
  rcases completed.exists_group listed with ⟨row, isRow, named⟩
  constructor
  · rintro ⟨other, isOther, otherVm, otherRow, isOtherRow, otherName, otherGroup⟩
    have same := assigned.unique isOther member (otherVm.trans isVm.symm)
    rw [same, groupId, findGroup_eq_some_iff completed.distinct_groups] at otherGroup
    rcases otherGroup with ⟨found, isFound, foundName, foundKey⟩
    have sameRow : found = otherRow := by
      have keys : (after.groups.rows.map Prod.fst).Nodup :=
        List.pairwise_map.mpr (after.groups.ascending.imp fun less => Nat.ne_of_lt less)
      exact List.inj_on_of_nodup_map keys isFound isOtherRow foundKey
    rw [← foundName, sameRow, otherName]
  · intro isGroup
    refine ⟨assignment, member, isVm, row, isRow, named, ?_⟩
    rw [groupId, isGroup]
    exact (findGroup_eq_some_iff completed.distinct_groups).mpr
      ⟨row, isRow, congrArg some named, rfl⟩

/-- A machine of `vm_templates` is a template precisely if it is not in `vm_groups`. -/
theorem Completed.isTemplate_iff (completed : Completed env run cfg Tables.empty after)
    {vm : String} {entry : Json} (member : entry ∈ entriesOf "vm_templates" cfg)
    (named : vmOf env.casts entry = some vm) :
    IsTemplate after vm ↔
      ∀ other ∈ entriesOf "vm_groups" cfg, vmOf env.casts other ≠ some vm := by
  rcases completed.assigned with ⟨grouped, assigned⟩
  constructor
  · rintro ⟨assignment, isAssignment, isVm, template⟩ other isOther otherVm
    rcases exists_first isOther otherVm with ⟨first, isFirst⟩
    rcases assigned.of_group isFirst with ⟨row, isRow, rowVm, _, notTemplate⟩
    rw [assigned.unique isAssignment isRow (isVm.trans rowVm.symm), notTemplate] at template
    cases template
  · exact assigned.of_template member named

/-- A section that starts from an empty table leaves the rows of the first entries. -/
theorem forall₂_of_seed {α ρ : Type} {seeding : Seeding α ρ RubyError} (keyed : seeding.Keyed)
    {keyOf : α → Option String}
    (looks : ∀ entry key, seeding.lookup entry = .ok key → keyOf entry = key)
    {row : α → ρ → Prop}
    (same : ∀ entry rows built, seeding.build entry rows = .ok built → row entry built)
    {entries : List α} {imported : Table ρ}
    (seeded : seeding.seed entries Table.empty = .ok imported) :
    List.Forall₂ row (Seeding.firsts keyOf [] entries) imported.values := by
  rcases Seeding.forall₂_firsts keyed looks same seeded with ⟨new, values, rows⟩
  rw [values]
  exact rows

/-- A completed import has brought everything precisely if the entries are
compatible. -/
theorem Completed.imported_iff (completed : Completed env run cfg Tables.empty after) :
    Imported env.casts run.now cfg after ↔ Compatible env.casts cfg := by
  constructor
  · intro imported
    constructor
    · intro entry member vm named
      exact (completed.isTemplate_iff member named).mp (imported.templates entry member vm named)
    · intro entry member vm named name isGroup listed first isFirst
      exact (completed.belongs_iff isFirst listed).mp
        (imported.grouped entry member vm named name isGroup listed)
  · intro compatible
    constructor
    · intro entry member vm named name isGroup listed
      rcases exists_first member named with ⟨first, isFirst⟩
      exact (completed.belongs_iff isFirst listed).mpr
        (compatible.agree entry member vm named name isGroup listed first isFirst)
    · intro entry member vm named
      exact (completed.isTemplate_iff member named).mpr (compatible.apart entry member vm named)
    · refine forall₂_of_seed keyed_groupSeeding (fun _ _ looked => Except.ok.inj looked) ?_
        completed.groups
      intro entry rows group built
      have named := keyed_groupSeeding entry rows group built
      rcases ifValid_eq_ok_iff.mp built with ⟨_, rfl⟩
      exact ⟨Except.ok.inj named, rfl⟩
    · exact forall₂_of_seed keyed_profileSeeding (fun _ _ => idOf_of_textAt)
        (fun _ _ _ built => profileFrom_of_built built) completed.profiles
    · exact forall₂_of_seed keyed_scheduleSeeding (fun _ _ => idOf_of_textAt)
        (fun _ _ _ built => scheduleFrom_of_built built) completed.schedules
    · refine forall₂_of_seed (keyed_apiTokenSeeding run.now) (fun _ _ => idOf_of_textAt) ?_
        completed.apiTokens
      intro entry rows token built
      rcases bind_eq_ok_iff.mp built with ⟨attributes, isToken, valid⟩
      rcases ifValid_eq_ok_iff.mp valid with ⟨errors, rfl⟩
      exact tokenFrom_of_built isToken errors
    · exact forall₂_of_seed (keyed_webhookSeeding run.now) (fun _ _ => idOf_of_textAt)
        (fun _ _ _ built => webhookFrom_of_built built) completed.webhooks

/-- An object names no machine twice, so its entries agree. -/
theorem agree_of_object {casts : Casts} {fields : List (String × Json)}
    (isObject : Value.index "vm_groups" cfg = .ok (.object fields))
    (distinct : (fields.map Prod.fst).Nodup) {vm : String} {first other : Json}
    (isFirst : (entriesOf "vm_groups" cfg).find?
      (fun entry => decide (vmOf casts entry = some vm)) = some first)
    (member : other ∈ entriesOf "vm_groups" cfg) (named : vmOf casts other = some vm) :
    first = other := by
  have entries : entriesOf "vm_groups" cfg =
      fields.map fun field => .array [.string field.1, field.2] := by
    rw [entriesOf, isObject]
  have isVm := List.find?_some isFirst
  rw [entries] at isFirst member
  rcases List.mem_map.mp (List.mem_of_find?_eq_some isFirst) with ⟨field, isField, rfl⟩
  rcases List.mem_map.mp member with ⟨otherField, isOther, rfl⟩
  have keys : field.1 = otherField.1 := by
    have firstVm := of_decide_eq_true isVm
    simp only [vmOf, Value.pair, casts.text_string] at firstVm named
    exact (Option.some.inj firstVm).trans (Option.some.inj named).symm
  rw [List.inj_on_of_nodup_map distinct isField isOther keys]

/-- In an object the entries of `vm_groups` can only be incompatible with those of
`vm_templates`. -/
theorem compatible_iff_of_object {casts : Casts} {fields : List (String × Json)}
    (isObject : Value.index "vm_groups" cfg = .ok (.object fields))
    (distinct : (fields.map Prod.fst).Nodup) :
    Compatible casts cfg ↔ ∀ entry ∈ entriesOf "vm_templates" cfg, ∀ vm ∈ vmOf casts entry,
      ∀ other ∈ entriesOf "vm_groups" cfg, vmOf casts other ≠ some vm := by
  constructor
  · exact Compatible.apart
  · intro apart
    refine ⟨apart, ?_⟩
    intro entry member vm named name isGroup _ first isFirst
    rw [agree_of_object isObject distinct isFirst member named]
    exact isGroup

end Empty

/-- On an empty database an import that raises stores nothing, and one that
completes has brought everything precisely if the entries are compatible; where
`vm_groups` is an object, precisely if no machine is in both sections. -/
theorem importConfig_faithful_iff (env : Environment) (run : Run) (cfg : Json) :
    (∀ raised after, importConfig env run cfg Tables.empty = (.error raised, after) →
      after = Tables.empty) ∧
    (∀ after, importConfig env run cfg Tables.empty = (.ok ⟨⟩, after) →
      (Imported env.casts run.now cfg after ↔ Compatible env.casts cfg)) ∧
    ∀ fields, Value.index "vm_groups" cfg = .ok (.object fields) →
      (fields.map Prod.fst).Nodup → (Compatible env.casts cfg ↔
        ∀ entry ∈ entriesOf "vm_templates" cfg, ∀ vm ∈ vmOf env.casts entry,
          ∀ other ∈ entriesOf "vm_groups" cfg, vmOf env.casts other ≠ some vm) := by
  rw [← and_assoc]
  refine ⟨?_, fun fields isObject distinct => compatible_iff_of_object isObject distinct⟩
  rcases importConfig_cases env run cfg Tables.empty with
      ⟨stored, outcome, completed⟩ | ⟨_, outcome⟩
  · rw [outcome]
    constructor
    · intro raised after failed
      cases congrArg Prod.fst failed
    · intro after returned
      cases congrArg Prod.snd returned
      exact completed.imported_iff
  · rw [outcome]
    constructor
    · intro raised after failed
      exact (congrArg Prod.snd failed).symm
    · intro after returned
      cases congrArg Prod.fst returned

/-! ## Two configurations -/

/-- The casts of texts, truth values and whole numbers. -/
def plainCasts : Casts where
  text
    | .null => none
    | .bool value => some (if value then "t" else "f")
    | .number value => some (toString value.num)
    | .string text => some text
    | .array _ | .object _ => some ""
  integer
    | .number value => some value.num
    | _ => none
  numeric
    | .number value => some value
    | _ => none
  boolean
    | .bool value => some value
    | _ => none
  time _ := none
  text_string _ := rfl
  text_null := rfl

def plainEnvironment : Environment := ⟨fun _ => none, plainCasts, ⟨id, id, fun _ _ => true⟩⟩

def plainRun : Run := ⟨0, fun number => ⟨number, "0000"⟩⟩

/-- A group of one machine, and one template. -/
def configWith (template : String) : Json :=
  .object
    [("password", .string "$2b$12$digest"),
      ("groups", .array [.string "web"]),
      ("vm_groups", .object [("front", .string "web")]),
      ("vm_templates", .object [(template, .bool true)])]

theorem importConfig_faithful_iff_apart :
    ∃ after, importConfig plainEnvironment plainRun (configWith "base") Tables.empty =
        (.ok ⟨⟩, after) ∧
      (Imported plainCasts 0 (configWith "base") after ↔
        Compatible plainCasts (configWith "base")) :=
  ⟨_, rfl, (importConfig_faithful_iff plainEnvironment plainRun (configWith "base")).2.1 _ rfl⟩

/-- The template is also a machine of the group: its assignment is no template. -/
theorem groupedTemplate_lost :
    ∃ after, importConfig plainEnvironment plainRun (configWith "front") Tables.empty =
        (.ok ⟨⟩, after) ∧ ¬ Imported plainCasts 0 (configWith "front") after := by
  refine ⟨_, rfl, fun imported => ?_⟩
  have template := imported.templates (.array [.string "front", .bool true])
    List.mem_cons_self "front" rfl
  rcases template with ⟨assignment, member, _, isTemplate⟩
  have only : assignment = ⟨"front", some 1, false⟩ := List.mem_singleton.mp member
  rw [only] at isTemplate
  cases isTemplate

end MultipassWebui.Migration
