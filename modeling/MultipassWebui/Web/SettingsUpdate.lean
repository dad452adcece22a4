import MultipassWebui.Migration.Idempotent
import MultipassWebui.Web.ConfigurationControllers
import MultipassWebui.Web.Recording

/-!
# Saving the settings

`update` writes two rows and one event, each on its own.  The validations of the
settings are rescued.  The defaults have none: what their columns reject comes out
of the database, unrescued, when the settings are stored already.
-/

namespace MultipassWebui.Web.SettingsController

open MultipassWebui.Auth (VmDefault)
open MultipassWebui.Effect
open MultipassWebui.Encoding
open MultipassWebui.Migration (Casts Setting current inRange exists_first_current
  current_of_first)
open MultipassWebui.Records
open MultipassWebui.Text

/-! ## Forms -/

/-- A group of parameters as a form submits it: absent, or texts by their names. -/
def IsForm (value : Json) : Prop :=
  value = .null ∨
    ∃ fields, value = .object fields ∧ ∀ field ∈ fields, ∃ text, field.2 = .string text

/-- The fields of a group. -/
def formFields : Json → Permitted
  | .object fields => fields
  | _ => []

/-- The password that a form sets: a blank one is none. -/
def newPassword (p : Permitted) : Option String :=
  match p.lookup "password" with
  | some (.string text) => if blank text then none else some text
  | _ => none

section

variable {request : Request}

/-- A filter that lets a name through leaves its value. -/
theorem lookup_filter_of_passed (p : Permitted) (passes : String × Json → Bool) (name : String)
    (passed : ∀ field ∈ p, field.1 = name → passes field = true) :
    (p.filter passes).lookup name = p.lookup name := by
  induction p with
  | nil => rfl
  | cons field rest inductionHypothesis =>
      have tail := inductionHypothesis fun other member =>
        passed other (List.mem_cons_of_mem field member)
      rcases field with ⟨key, value⟩
      by_cases named : key = name
      · rw [List.filter_cons_of_pos (passed (key, value) List.mem_cons_self named), named,
          List.lookup_cons_self, List.lookup_cons_self]
      · have apart : (name == key) = false := beq_false_of_ne (Ne.symm named)
        simp only [List.lookup_cons, apart, ← tail]
        rw [List.filter_cons]
        split
        · rw [List.lookup_cons, apart]
        · rfl

theorem lookup_delete_of_ne (p : Permitted) {key name : String} (apart : name ≠ key) :
    (p.delete key).lookup name = p.lookup name := by
  refine lookup_filter_of_passed p _ name fun field _ named => ?_
  rw [named]
  exact decide_eq_true apart

theorem lookup_delete_self (p : Permitted) (key : String) : (p.delete key).lookup key = none := by
  rw [List.lookup_eq_none_iff]
  intro field member
  have other := of_decide_eq_true (List.mem_filter.mp member).2
  exact bne_iff_ne.mpr (Ne.symm other)

/-- The permitted fields of a form are as they were submitted. -/
theorem requirePermit_of_form {key : String} (scalars : List String)
    (form : IsForm (param request key)) (given : Value.present (param request key) = true) :
    ∃ p, requirePermit request key scalars [] = .ok p ∧
      ∀ name ∈ scalars, p.lookup name = (formFields (param request key)).lookup name := by
  rcases form with absent | ⟨fields, isObject, texts⟩
  · rw [absent] at given
    cases given
  · let passes (field : String × Json) : Bool :=
      scalars.contains field.1 && isScalar field.2 ||
        ([] : List String).contains field.1 && isScalarList field.2
    rw [isObject] at given
    refine ⟨fields.filter passes, ?_, fun name allowed => ?_⟩
    · unfold requirePermit
      rw [isObject]
      exact if_pos given
    · rw [isObject]
      refine lookup_filter_of_passed fields passes name fun field member named => ?_
      rcases texts field member with ⟨text, isText⟩
      simp [passes, named, allowed, isText, isScalar]

/-- A password that is present is a text that is not blank. -/
theorem newPassword_of_present {value : Json} (form : IsForm value)
    (present : Value.present ((formFields value).get "password") = true) :
    ∃ text, (formFields value).lookup "password" = some (.string text) ∧
      newPassword (formFields value) = some text := by
  unfold Permitted.get at present
  rcases form with absent | ⟨fields, isObject, texts⟩
  · rw [absent] at present
    cases present
  · rw [isObject] at present ⊢
    change Value.present ((fields.lookup "password").getD .null) = true at present
    cases found : fields.lookup "password" with
    | none =>
        rw [found] at present
        cases present
    | some field =>
        rcases List.lookup_eq_some_iff.mp found with ⟨before, after, isFields, _⟩
        rcases texts ("password", field) (by rw [isFields]; simp) with ⟨text, rfl⟩
        rw [found] at present
        have shown : blank text = false := by simpa [Value.present] using present
        exact ⟨text, found, by simp [newPassword, formFields, found, shown]⟩

theorem newPassword_of_absent {p : Permitted}
    (absent : Value.present (p.get "password") = false) : newPassword p = none := by
  unfold newPassword
  cases found : p.lookup "password" with
  | none => rfl
  | some field =>
      cases field with
      | string text =>
          rw [Permitted.get, found] at absent
          have shown : blank text = true := by simpa [Value.present] using absent
          exact if_pos shown
      | _ => rfl

/-- The parameters of the settings are those of the form, and so is the password. -/
theorem settingParams_of_form (form : IsForm (param request "setting"))
    (given : Value.present (param request "setting") = true) :
    ∃ p, settingParams request = .ok p ∧
      (∀ name ∈ ["username", "cloud_init_dir", "playbooks_dir", "trust_proxy"],
        p.lookup name = (formFields (param request "setting")).lookup name) ∧
      assignedPassword p = .ok (newPassword (formFields (param request "setting"))) := by
  rcases requirePermit_of_form
      ["username", "password", "cloud_init_dir", "playbooks_dir", "trust_proxy"] form given with
    ⟨p, permitted, same⟩
  have password := same "password" (by decide)
  have listed : ∀ name ∈ ["username", "cloud_init_dir", "playbooks_dir", "trust_proxy"],
      name ∈ ["username", "password", "cloud_init_dir", "playbooks_dir", "trust_proxy"] ∧
        name ≠ "password" := by decide
  have outcome : settingParams request =
      .ok (if Value.present (p.get "password") then p else p.delete "password") := by
    rw [settingParams, permitted]
    rfl
  have isGet : p.get "password" = (formFields (param request "setting")).get "password" := by
    rw [Permitted.get, password, Permitted.get]
  cases present : Value.present (p.get "password") with
  | true =>
      rw [isGet] at present
      rcases newPassword_of_present form present with ⟨text, found, isNew⟩
      rw [outcome, isGet, present]
      refine ⟨p, rfl, fun name member => same name (listed name member).1, ?_⟩
      rw [isNew, assignedPassword, password, found]
  | false =>
      rw [outcome, present]
      refine ⟨p.delete "password", rfl, fun name member => ?_, ?_⟩
      · exact (lookup_delete_of_ne p (listed name member).2).trans
          (same name (listed name member).1)
      · rw [isGet] at present
        rw [newPassword_of_absent present, assignedPassword, lookup_delete_self]

end

/-! ## The two rows -/

/-- The columns of the defaults after the assignment of a form. -/
structure Assigned (casts : Casts) (p : Permitted) (old new : VmDefault) : Prop where
  cpus : p.assign "cpus" casts.integer (some old.cpus) = some new.cpus
  memoryMb : p.assign "memory_mb" casts.integer (some old.memoryMb) = some new.memoryMb
  diskGb : p.assign "disk_gb" casts.integer (some old.diskGb) = some new.diskGb
  sshPublicKey : p.assign "ssh_public_key" casts.text old.sshPublicKey = new.sshPublicKey
  sshPrivateKey : p.assign "ssh_private_key" casts.text old.sshPrivateKey = new.sshPrivateKey

/-- The columns of the settings after the assignment of a form; no column of a
repository is in it. -/
structure SettingAssigned (site : Deployment) (p : Permitted) (old new : Setting) : Prop where
  username : p.assign "username" site.env.casts.text (some old.username) = some new.username
  password : ∀ password ∈ newPassword p,
    new.passwordDigest = site.env.crypto.passwordDigest password
  passwordKept : newPassword p = none → new.passwordDigest = old.passwordDigest
  cloudInitDir : p.assign "cloud_init_dir" site.env.casts.text old.cloudInitDir = new.cloudInitDir
  cloudInitRepo : new.cloudInitRepo = old.cloudInitRepo
  playbooksDir : p.assign "playbooks_dir" site.env.casts.text old.playbooksDir = new.playbooksDir
  trustProxy : p.assign "trust_proxy" site.env.casts.boolean old.trustProxy = new.trustProxy

/-- A value that a `NOT NULL` integer column takes. -/
def Fits (value : Option Int) : Prop := ∃ whole, value = some whole ∧ inRange (some whole) = true

/-- The columns of the defaults take what a form assigns to them. -/
structure Storable (casts : Casts) (p : Permitted) (old : VmDefault) : Prop where
  cpus : Fits (p.assign "cpus" casts.integer (some old.cpus))
  memoryMb : Fits (p.assign "memory_mb" casts.integer (some old.memoryMb))
  diskGb : Fits (p.assign "disk_gb" casts.integer (some old.diskGb))

/-- The settings pass their validations with a form assigned. -/
structure Valid (site : Deployment) (p : Permitted) (old : Setting) : Prop where
  password : passwordErrors (newPassword p) = []
  row : ∀ new, SettingAssigned site p old new → new.errors = []

section

variable {site : Deployment} {request : Request}

/-- The fields of a form are texts. -/
theorem text_of_form {value field : Json} {name : String} (form : IsForm value)
    (found : (formFields value).lookup name = some field) : ∃ text, field = .string text := by
  rcases form with rfl | ⟨fields, rfl, texts⟩
  · cases found
  · rcases List.lookup_eq_some_iff.mp found with ⟨before, after, isFields, _⟩
    have member : (name, field) ∈ formFields (.object fields) := by
      rw [isFields]
      simp
    exact texts (name, field) member

/-- A form assigns one row. -/
theorem settingAssigned_iff {value : Json} (form : IsForm value) {old new : Setting} :
    SettingAssigned site (formFields value) old new ↔
      new = assign site (formFields value) (newPassword (formFields value)) old := by
  have username : (formFields value).assign "username" site.env.casts.text (some old.username) =
      some ((formFields value).assign "username" (textColumn site.env.casts) old.username) := by
    unfold Permitted.assign
    cases found : (formFields value).lookup "username" with
    | none => rfl
    | some field =>
        rcases text_of_form form found with ⟨text, rfl⟩
        simp [textColumn, Migration.orEmpty, site.env.casts.text_string]
  constructor
  · intro assigned
    have digest : new.passwordDigest =
        ((newPassword (formFields value)).map site.env.crypto.passwordDigest).getD
          old.passwordDigest := by
      cases password : newPassword (formFields value) with
      | none => exact assigned.passwordKept password
      | some text => exact assigned.password text password
    cases new
    simp only [assign, Setting.mk.injEq]
    exact ⟨(Option.some.inj (username.symm.trans assigned.username)).symm, digest,
      assigned.cloudInitDir.symm, assigned.cloudInitRepo, assigned.playbooksDir.symm,
      assigned.trustProxy.symm⟩
  · rintro rfl
    refine ⟨username, ?_, ?_, rfl, rfl, rfl, rfl⟩
    · intro password given
      simp only [assign, Option.mem_def.mp given, Option.map_some, Option.getD_some]
    · intro none
      simp only [assign, none, Option.map_none, Option.getD_none]

/-- The settings are stored if they are valid, and a record is invalid otherwise. -/
theorem updateSetting_cases {settings : Table Setting} {row : Nat × Setting}
    (isFirst : settings.first = some row) (form : IsForm (param request "setting"))
    (given : Value.present (param request "setting") = true) :
    (Valid site (formFields (param request "setting")) row.2 ∧
      updateSetting site request settings = .ok (settings.updateFirst
        (assign site (formFields (param request "setting"))
          (newPassword (formFields (param request "setting")))))) ∨
    (¬ Valid site (formFields (param request "setting")) row.2 ∧
      updateSetting site request settings = .error .recordInvalid) := by
  rcases settingParams_of_form form given with ⟨p, permitted, same, password⟩
  have assignedRow := fun new => @settingAssigned_iff site _ form row.2 new
  generalize formFields (param request "setting") = submitted at same password assignedRow ⊢
  have assigned : assign site p (newPassword submitted) =
      assign site submitted (newPassword submitted) := by
    funext setting
    simp only [assign, Permitted.assign, same "username" (by decide),
      same "cloud_init_dir" (by decide), same "playbooks_dir" (by decide),
      same "trust_proxy" (by decide)]
  have outcome : updateSetting site request settings =
      if (passwordErrors (newPassword submitted)).isEmpty then
        Migration.updateSetting (assign site submitted (newPassword submitted)) settings
      else .error .recordInvalid := by
    rw [updateSetting, permitted, ← assigned]
    change (assignedPassword p >>= _) = _
    rw [password]
    rfl
  rw [outcome, Migration.updateSetting, isFirst]
  by_cases short : passwordErrors (newPassword submitted) = []
  · rw [if_pos (by rw [short]; rfl)]
    by_cases valid : (assign site submitted (newPassword submitted) row.2).errors = []
    · refine Or.inl ⟨⟨short, fun new assigned => ?_⟩, if_pos (by rw [valid]; rfl)⟩
      rw [(assignedRow _).mp assigned]
      exact valid
    · exact Or.inr ⟨fun isValid => valid (isValid.row _ ((assignedRow _).mpr rfl)),
        if_neg (by rwa [List.isEmpty_iff])⟩
  · exact Or.inr ⟨fun isValid => short isValid.password, if_neg (by rwa [List.isEmpty_iff])⟩

/-- What a required column does not take raises an error that is no invalid record. -/
theorem requiredInteger_cases (p : Permitted) (key : String) (column : Int) :
    (¬ Fits (p.assign key site.env.casts.integer (some column)) ∧
      ∃ message, requiredInteger site p key column = .error (.standardError message)) ∨
    ∃ value, p.assign key site.env.casts.integer (some column) = some value ∧
      inRange (some value) = true ∧ requiredInteger site p key column = .ok value := by
  unfold requiredInteger
  cases assigned : p.assign key site.env.casts.integer (some column) with
  | none =>
      refine Or.inl ⟨?_, _, rfl⟩
      rintro ⟨value, isValue, _⟩
      cases isValue
  | some value =>
      by_cases fits : inRange (some value) = true
      · exact Or.inr ⟨value, rfl, fits, if_pos fits⟩
      · refine Or.inl ⟨?_, _, if_neg fits⟩
        rintro ⟨other, isOther, inside⟩
        rcases Option.some.inj isOther with rfl
        exact fits inside

/-- The columns are taken from the form, one after another. -/
theorem updateVmDefaults_of_form {vmDefaults : Table VmDefault} {row : Nat × VmDefault}
    (isFirst : vmDefaults.first = some row) (form : IsForm (param request "vm_defaults"))
    (given : Value.present (param request "vm_defaults") = true) {submitted : Permitted}
    (isSubmitted : formFields (param request "vm_defaults") = submitted) :
    updateVmDefaults site request vmDefaults = (do
      let cpus ← requiredInteger site submitted "cpus" row.2.cpus
      let memoryMb ← requiredInteger site submitted "memory_mb" row.2.memoryMb
      let diskGb ← requiredInteger site submitted "disk_gb" row.2.diskGb
      return vmDefaults.updateFirst fun old =>
        { cpus, memoryMb, diskGb
          sshPublicKey := submitted.assign "ssh_public_key" site.env.casts.text old.sshPublicKey
          sshPrivateKey :=
            submitted.assign "ssh_private_key" site.env.casts.text old.sshPrivateKey }) := by
  rcases requirePermit_of_form
      ["cpus", "memory_mb", "disk_gb", "ssh_public_key", "ssh_private_key"] form given with
    ⟨p, permitted, same⟩
  rw [isSubmitted] at same
  have assigned : ∀ {α : Type} (cast : Json → α) (column : α),
      ∀ name ∈ ["cpus", "memory_mb", "disk_gb", "ssh_public_key", "ssh_private_key"],
        p.assign name cast column = submitted.assign name cast column := by
    intro α cast column name member
    rw [Permitted.assign, same name member, Permitted.assign]
  have required : ∀ column, ∀ name ∈ ["cpus", "memory_mb", "disk_gb"],
      requiredInteger site p name column = requiredInteger site submitted name column := by
    intro column name member
    rw [requiredInteger, assigned _ _ name (List.mem_append_left _ member), requiredInteger]
  rw [updateVmDefaults, permitted, isFirst]
  simp only [← required _ _ (by decide : "cpus" ∈ ["cpus", "memory_mb", "disk_gb"]),
    ← required _ _ (by decide : "memory_mb" ∈ ["cpus", "memory_mb", "disk_gb"]),
    ← required _ _ (by decide : "disk_gb" ∈ ["cpus", "memory_mb", "disk_gb"]),
    ← assigned _ _ "ssh_public_key" (by decide), ← assigned _ _ "ssh_private_key" (by decide)]
  rfl

/-- The defaults are stored if their columns take them, and an error that is no
invalid record is raised otherwise. -/
theorem updateVmDefaults_cases {vmDefaults : Table VmDefault} {row : Nat × VmDefault}
    (isFirst : vmDefaults.first = some row) (form : IsForm (param request "vm_defaults"))
    (given : Value.present (param request "vm_defaults") = true) :
    (Storable site.env.casts (formFields (param request "vm_defaults")) row.2 ∧
      ∃ change, Assigned site.env.casts (formFields (param request "vm_defaults")) row.2
          (change row.2) ∧
        updateVmDefaults site request vmDefaults = .ok (vmDefaults.updateFirst change)) ∨
    (¬ Storable site.env.casts (formFields (param request "vm_defaults")) row.2 ∧
      ∃ message, updateVmDefaults site request vmDefaults = .error (.standardError message)) := by
  generalize isSubmitted : formFields (param request "vm_defaults") = submitted
  rw [updateVmDefaults_of_form isFirst form given isSubmitted]
  rcases @requiredInteger_cases site submitted "cpus" row.2.cpus with
    ⟨never, message, raised⟩ | ⟨cpus, isCpus, cpusFits, cpusOk⟩
  · exact Or.inr ⟨fun storable => never storable.cpus, message, by rw [raised]; rfl⟩
  rcases @requiredInteger_cases site submitted "memory_mb" row.2.memoryMb with
    ⟨never, message, raised⟩ | ⟨memoryMb, isMemory, memoryFits, memoryOk⟩
  · exact Or.inr ⟨fun storable => never storable.memoryMb, message, by rw [cpusOk, raised]; rfl⟩
  rcases @requiredInteger_cases site submitted "disk_gb" row.2.diskGb with
    ⟨never, message, raised⟩ | ⟨diskGb, isDisk, diskFits, diskOk⟩
  · exact Or.inr
      ⟨fun storable => never storable.diskGb, message, by rw [cpusOk, memoryOk, raised]; rfl⟩
  let change (old : VmDefault) : VmDefault :=
    { cpus, memoryMb, diskGb
      sshPublicKey := submitted.assign "ssh_public_key" site.env.casts.text old.sshPublicKey
      sshPrivateKey := submitted.assign "ssh_private_key" site.env.casts.text old.sshPrivateKey }
  have storable : Storable site.env.casts submitted row.2 :=
    ⟨⟨cpus, isCpus, cpusFits⟩, ⟨memoryMb, isMemory, memoryFits⟩, ⟨diskGb, isDisk, diskFits⟩⟩
  refine Or.inl ⟨storable, change, ⟨isCpus, isMemory, isDisk, rfl, rfl⟩, ?_⟩
  rw [cpusOk, memoryOk, diskOk]
  rfl

end

/-! ## Both rows and the event -/

/-- Both groups are applied, to the rows that a first access finds or creates. -/
structure Applied (site : Deployment) (request : Request) (before after : Configuration) :
    Prop where
  settings : Value.present (param request "setting") = true →
    ∃ row change, (current (Setting.seed site.env) before.settings).first = some row ∧
      SettingAssigned site (formFields (param request "setting")) row.2 (change row.2) ∧
      after.settings = (current (Setting.seed site.env) before.settings).updateFirst change
  settingsKept : Value.present (param request "setting") = false →
    after.settings = current (Setting.seed site.env) before.settings
  vmDefaults : Value.present (param request "vm_defaults") = true →
    ∃ row change, (current VmDefault.seed before.vmDefaults).first = some row ∧
      Assigned site.env.casts (formFields (param request "vm_defaults")) row.2 (change row.2) ∧
      after.vmDefaults = (current VmDefault.seed before.vmDefaults).updateFirst change
  vmDefaultsKept : Value.present (param request "vm_defaults") = false →
    after.vmDefaults = before.vmDefaults

/-- The tables hold the same rows, those of a first access included. -/
structure SameRows (site : Deployment) (before after : Configuration) : Prop where
  settings : current (Setting.seed site.env) after.settings =
    current (Setting.seed site.env) before.settings
  vmDefaults : current VmDefault.seed after.vmDefaults = current VmDefault.seed before.vmDefaults

/-- What `update` writes to the audit log. -/
def updateEntry : AuditEntry := ⟨"config", "update_settings", some "self", "success", none⟩

/-- Both groups are applied, one event is appended and the request ends with a notice,
or the rows and the log stay as they are and it ends with an alert. -/
def SavesAllOrNothing (site : Deployment) (stamp : EventStamp) (request : Request)
    (app : App Configuration) : Prop :=
  ∃ after, update site stamp request app = (.ok (.notice "Settings saved."), after) ∧
      Applied site request app.state after.state ∧
      (∃ event : Event, event.toEventAttributes = updateEntry.attributes request ∧
        after.events = app.events ++ [event]) ∨
    update site stamp request app = (.ok .alert, after) ∧
      SameRows site app.state after.state ∧ after.events = app.events

/-- The submitted settings, if there are any, pass the validations. -/
def Accepted (site : Deployment) (request : Request) (tables : Configuration) : Prop :=
  Value.present (param request "setting") = true →
    ∀ row, (current (Setting.seed site.env) tables.settings).first = some row →
      Valid site (formFields (param request "setting")) row.2

/-- The columns take the submitted defaults, if there are any. -/
def Takable (site : Deployment) (request : Request) (tables : Configuration) : Prop :=
  Value.present (param request "vm_defaults") = true →
    ∀ row, (current VmDefault.seed tables.vmDefaults).first = some row →
      Storable site.env.casts (formFields (param request "vm_defaults")) row.2

section

variable {site : Deployment} {request : Request}

theorem current_current {ρ : Type} (seed : ρ) (table : Table ρ) :
    current seed (current seed table) = current seed table := by
  rcases exists_first_current seed table with ⟨row, isFirst⟩
  exact current_of_first seed isFirst

/-- A part whose parameters are given ends as its body does, on the table with its
first row. -/
theorem savePart_of_given {ρ : Type} (seed : ρ) {key : String}
    (body : Table ρ → Except RubyError (Table ρ)) (rows : Table ρ)
    (given : Value.present (param request key) = true) :
    savePart request seed key body rows =
      match body (current seed rows) with
      | .ok saved => (.ok ⟨⟩, saved)
      | .error raised => (.error raised, current seed rows) := by
  rw [savePart, if_pos given, Exec.bind_ok (Exec.modify_apply _ _),
    Exec.bind_ok (Exec.gets_apply _ _)]
  cases outcome : body (current seed rows) with
  | ok saved =>
      rw [Exec.bind_ok (by rw [Exec.ofExcept_apply, id, outcome])]
      rfl
  | error raised => rw [Exec.bind_error (by rw [Exec.ofExcept_apply, id, outcome])]

theorem savePart_of_absent {ρ : Type} (seed : ρ) {key : String}
    (body : Table ρ → Except RubyError (Table ρ)) (rows : Table ρ)
    (absent : Value.present (param request key) = false) :
    savePart request seed key body rows = (.ok ⟨⟩, rows) := by
  rw [savePart, absent]
  rfl

/-- `save` is stopped by the first part that raises. -/
theorem save_apply (tables : Configuration) :
    save site request tables =
      match savePart request (Setting.seed site.env) "setting" (updateSetting site request)
        (current (Setting.seed site.env) tables.settings) with
      | (.error raised, settings) => (.error raised, ⟨settings, tables.vmDefaults⟩)
      | (.ok _, settings) =>
          match savePart request VmDefault.seed "vm_defaults" (updateVmDefaults site request)
            tables.vmDefaults with
          | (outcome, vmDefaults) => (outcome, ⟨settings, vmDefaults⟩) := by
  rw [save, Exec.bind_ok (Exec.modify_apply _ _), Exec.bind_apply, Exec.zoom_apply]
  rcases savePart request (Setting.seed site.env) "setting" (updateSetting site request)
    (current (Setting.seed site.env) tables.settings) with ⟨raised | ⟨⟩, settings⟩
  · rfl
  · rfl

/-- Rejected settings leave their table, and others are stored. -/
theorem settingPart_cases (form : IsForm (param request "setting")) (tables : Configuration) :
    (¬ Accepted site request tables ∧
      savePart request (Setting.seed site.env) "setting" (updateSetting site request)
        (current (Setting.seed site.env) tables.settings) =
        (.error .recordInvalid, current (Setting.seed site.env) tables.settings)) ∨
    (Accepted site request tables ∧ ∃ after,
      savePart request (Setting.seed site.env) "setting" (updateSetting site request)
        (current (Setting.seed site.env) tables.settings) = (.ok ⟨⟩, after) ∧
      (Value.present (param request "setting") = true →
        ∃ row change, (current (Setting.seed site.env) tables.settings).first = some row ∧
          SettingAssigned site (formFields (param request "setting")) row.2 (change row.2) ∧
          after = (current (Setting.seed site.env) tables.settings).updateFirst change) ∧
      (Value.present (param request "setting") = false →
        after = current (Setting.seed site.env) tables.settings)) := by
  cases given : Value.present (param request "setting") with
  | false =>
      refine Or.inr ⟨?_, _, savePart_of_absent _ _ _ given, nofun, fun _ => rfl⟩
      intro present
      rw [given] at present
      cases present
  | true =>
      rcases exists_first_current (Setting.seed site.env) tables.settings with ⟨row, isFirst⟩
      rw [savePart_of_given _ _ _ given, current_current]
      rcases @updateSetting_cases site request _ row isFirst form given with
        ⟨valid, stored⟩ | ⟨invalid, raised⟩
      · refine Or.inr ⟨?_, _, by rw [stored],
          fun _ => ⟨row, _, isFirst, (settingAssigned_iff form).mpr rfl, rfl⟩, nofun⟩
        intro _ other isOther
        rcases Option.some.inj (isFirst.symm.trans isOther) with rfl
        exact valid
      · exact Or.inl ⟨fun accepted => invalid (accepted given row isFirst), by rw [raised]⟩

/-- What the columns of the defaults do not take raises, and the rest is stored. -/
theorem vmDefaultsPart_cases (form : IsForm (param request "vm_defaults"))
    (tables : Configuration) :
    (¬ Takable site request tables ∧ ∃ message after,
      savePart request VmDefault.seed "vm_defaults" (updateVmDefaults site request)
        tables.vmDefaults = (.error (.standardError message), after)) ∨
    (Takable site request tables ∧ ∃ after,
      savePart request VmDefault.seed "vm_defaults" (updateVmDefaults site request)
        tables.vmDefaults = (.ok ⟨⟩, after) ∧
      (Value.present (param request "vm_defaults") = true →
        ∃ row change, (current VmDefault.seed tables.vmDefaults).first = some row ∧
          Assigned site.env.casts (formFields (param request "vm_defaults")) row.2
            (change row.2) ∧
          after = (current VmDefault.seed tables.vmDefaults).updateFirst change) ∧
      (Value.present (param request "vm_defaults") = false → after = tables.vmDefaults)) := by
  cases given : Value.present (param request "vm_defaults") with
  | false =>
      refine Or.inr ⟨?_, _, savePart_of_absent _ _ _ given, nofun, fun _ => rfl⟩
      intro present
      rw [given] at present
      cases present
  | true =>
      rcases exists_first_current VmDefault.seed tables.vmDefaults with ⟨row, isFirst⟩
      rw [savePart_of_given _ _ _ given]
      rcases @updateVmDefaults_cases site request _ row isFirst form given with
        ⟨storable, change, assigned, stored⟩ | ⟨never, message, raised⟩
      · refine Or.inr ⟨?_, _, by rw [stored], fun _ => ⟨row, change, isFirst, assigned, rfl⟩, nofun⟩
        intro _ other isOther
        rcases Option.some.inj (isFirst.symm.trans isOther) with rfl
        exact storable
      · exact Or.inl
          ⟨fun takable => never (takable given row isFirst), message, _, by rw [raised]⟩

/-- What `save` comes to. -/
theorem save_cases (settingForm : IsForm (param request "setting"))
    (defaultsForm : IsForm (param request "vm_defaults")) (tables : Configuration) :
    (¬ Accepted site request tables ∧ ∃ after, SameRows site tables after ∧
      save site request tables = (.error .recordInvalid, after)) ∨
    (Accepted site request tables ∧ ¬ Takable site request tables ∧ ∃ message after,
      save site request tables = (.error (.standardError message), after)) ∨
    (Accepted site request tables ∧ Takable site request tables ∧ ∃ after,
      Applied site request tables after ∧ save site request tables = (.ok ⟨⟩, after)) := by
  rw [save_apply]
  rcases @settingPart_cases site request settingForm tables with
    ⟨rejected, raised⟩ | ⟨accepted, settings, stored, applied, kept⟩
  · rw [raised]
    exact Or.inl ⟨rejected, ⟨current (Setting.seed site.env) tables.settings, tables.vmDefaults⟩,
      ⟨current_current _ _, rfl⟩, rfl⟩
  rw [stored]
  rcases @vmDefaultsPart_cases site request defaultsForm tables with
    ⟨never, message, vmDefaults, raised⟩ | ⟨takable, vmDefaults, saved, changed, left⟩
  · rw [raised]
    exact Or.inr (Or.inl ⟨accepted, never, message, _, rfl⟩)
  · rw [saved]
    exact Or.inr (Or.inr ⟨accepted, takable, _, ⟨applied, kept, changed, left⟩, rfl⟩)

/-- What `update` comes to: the rejected settings are the only failure it rescues. -/
theorem update_cases (settingForm : IsForm (param request "setting"))
    (defaultsForm : IsForm (param request "vm_defaults")) (stamp : EventStamp)
    (app : App Configuration) :
    (¬ Accepted site request app.state ∧ ∃ after, SameRows site app.state after.state ∧
      after.events = app.events ∧ update site stamp request app = (.ok .alert, after)) ∨
    (Accepted site request app.state ∧
      ¬ (Takable site request app.state ∧ Fresh stamp app.events) ∧ ∃ raised after,
      update site stamp request app = (.error raised, after)) ∨
    (Accepted site request app.state ∧ Takable site request app.state ∧
      Fresh stamp app.events ∧ ∃ after, Applied site request app.state after.state ∧
      (∃ event : Event, event.toEventAttributes = updateEntry.attributes request ∧
        after.events = app.events ++ [event]) ∧
      update site stamp request app = (.ok (.notice "Settings saved."), after)) := by
  unfold update
  rcases @save_cases site request settingForm defaultsForm app.state with
    ⟨rejected, after, same, saved⟩ | ⟨accepted, never, message, after, saved⟩ |
      ⟨accepted, takable, after, applied, saved⟩
  · have raised : onState (save site request) app =
        (.error .recordInvalid, { app with state := after }) := by rw [onState_apply, saved]
    refine Or.inl ⟨rejected, { app with state := after }, same, rfl, ?_⟩
    rw [Exec.rescue_error (Exec.bind_error raised _)]
    rfl
  · have raised : onState (save site request) app =
        (.error (.standardError message), { app with state := after }) := by
      rw [onState_apply, saved]
    refine Or.inr (Or.inl ⟨accepted, fun both => never both.1, .standardError message,
      { app with state := after }, ?_⟩)
    rw [Exec.rescue_error (Exec.bind_error raised _)]
    rfl
  · have stored : onState (save site request) app = (.ok ⟨⟩, { app with state := after }) := by
      rw [onState_apply, saved]
    rcases @emitHttp_cases _ request stamp { app with state := after } updateEntry rfl rfl with
      ⟨fresh, event, attributes, emitted⟩ | ⟨used, emitted⟩
    · refine Or.inr (Or.inr ⟨accepted, takable, fresh, ⟨after, app.events ++ [event]⟩, applied,
        ⟨event, attributes, rfl⟩, ?_⟩)
      exact Exec.rescue_ok ((Exec.bind_ok stored _).trans (Exec.bind_ok emitted _)) _
    · refine Or.inr (Or.inl ⟨accepted, fun both => used both.2, .recordNotUnique "events.id",
        { app with state := after }, ?_⟩)
      rw [Exec.rescue_error ((Exec.bind_ok stored _).trans (Exec.bind_error emitted _))]
      rfl

end

/-- A request that raises redirects nowhere. -/
theorem not_savesAllOrNothing_of_raised {site : Deployment} {stamp : EventStamp}
    {request : Request} {app middle : App Configuration} {raised : RubyError}
    (updated : update site stamp request app = (.error raised, middle)) :
    ¬ SavesAllOrNothing site stamp request app := by
  rintro ⟨after, ⟨ended, _⟩ | ⟨ended, _⟩⟩
  · rw [updated] at ended
    cases congrArg Prod.fst ended
  · rw [updated] at ended
    cases congrArg Prod.fst ended

/-- Saving is all or nothing if and only if the settings are rejected, or the columns
take the defaults and the drawn id is unused. -/
theorem savesAllOrNothing_iff (site : Deployment) (stamp : EventStamp) (request : Request)
    (app : App Configuration) (settingForm : IsForm (param request "setting"))
    (defaultsForm : IsForm (param request "vm_defaults")) :
    SavesAllOrNothing site stamp request app ↔
      (Accepted site request app.state →
        Takable site request app.state ∧ Fresh stamp app.events) := by
  rcases @update_cases site request settingForm defaultsForm stamp app with
    ⟨rejected, after, same, log, updated⟩ | ⟨accepted, never, raised, after, updated⟩ |
      ⟨_, takable, fresh, after, applied, recorded, updated⟩
  · exact iff_of_true ⟨after, Or.inr ⟨updated, same, log⟩⟩ fun accepted => absurd accepted rejected
  · refine iff_of_false ?_ fun condition => never (condition accepted)
    exact not_savesAllOrNothing_of_raised updated
  · exact iff_of_true ⟨after, Or.inl ⟨updated, applied, recorded⟩⟩ fun _ => ⟨takable, fresh⟩

/-! ## Two forms -/

/-- A first start, and the casts of what a form submits. -/
def formSite : Deployment where
  env :=
    { Migration.plainEnvironment with
      casts :=
        { Migration.plainCasts with
          integer := fun value =>
            match value with
            | .string text => if blank text then none else some (toI text.toList)
            | .number value => some value.num
            | _ => none } }
  toText _ := ""
  now := 0
  slugHex := "00c0ffee"
  tokenHex := "00c0ffee"

/-- A new user name, and a number of processors. -/
def settingsForm (username cpus : String) : Request :=
  ⟨"PATCH", "/settings", .object
    [("setting", .object [("username", .string username)]),
      ("vm_defaults", .object [("cpus", .string cpus)])]⟩

theorem isForm_singleton (name text : String) : IsForm (.object [(name, .string text)]) := by
  refine Or.inr ⟨_, rfl, fun field member => ⟨text, ?_⟩⟩
  rw [List.mem_singleton.mp member]

def emptyConfiguration : App Configuration := ⟨⟨Table.empty, Table.empty⟩, []⟩

/-- Four processors. -/
theorem savesAllOrNothing_iff_four :
    IsForm (param (settingsForm "root2" "4") "setting") ∧
      IsForm (param (settingsForm "root2" "4") "vm_defaults") ∧
      (SavesAllOrNothing formSite ⟨0, "00"⟩ (settingsForm "root2" "4") emptyConfiguration ↔
        (Accepted formSite (settingsForm "root2" "4") emptyConfiguration.state →
          Takable formSite (settingsForm "root2" "4") emptyConfiguration.state ∧
            Fresh ⟨0, "00"⟩ emptyConfiguration.events)) :=
  ⟨isForm_singleton _ _, isForm_singleton _ _,
    savesAllOrNothing_iff formSite ⟨0, "00"⟩ (settingsForm "root2" "4") emptyConfiguration
      (isForm_singleton _ _) (isForm_singleton _ _)⟩

/-- The number is left blank: the user name is stored, and the request fails. -/
theorem blankNumber_halfSaved :
    (∃ after, update formSite ⟨0, "00"⟩ (settingsForm "root2" "") emptyConfiguration =
        (.error (.standardError "NOT NULL constraint failed: vm_defaults.cpus"), after) ∧
      after.state.settings.values.map Setting.username = ["root2"] ∧
      after.state.vmDefaults.values = [VmDefault.seed] ∧ after.events = []) ∧
    ¬ SavesAllOrNothing formSite ⟨0, "00"⟩ (settingsForm "root2" "") emptyConfiguration := by
  have failed : ∃ after, update formSite ⟨0, "00"⟩ (settingsForm "root2" "") emptyConfiguration =
        (.error (.standardError "NOT NULL constraint failed: vm_defaults.cpus"), after) ∧
      after.state.settings.values.map Setting.username = ["root2"] ∧
      after.state.vmDefaults.values = [VmDefault.seed] ∧ after.events = [] :=
    ⟨_, rfl, rfl, rfl, rfl⟩
  refine ⟨failed, ?_⟩
  rcases failed with ⟨after, ran, _⟩
  exact not_savesAllOrNothing_of_raised ran

end MultipassWebui.Web.SettingsController
