import Mathlib.Data.Set.Finite.Basic
import MultipassWebui.Migration.Faithful

/-!
# Running the migration twice

The sections of the configuration look every entry up by its key, so a second
run finds what the first one created.  The lines of the event log are looked up
by their id; a line without one finds nothing, and a new id is drawn for it on
every run.
-/

namespace MultipassWebui.Migration

open MultipassWebui.Auth (VmDefault)
open MultipassWebui.Effect
open MultipassWebui.Encoding
open MultipassWebui.Records (Table Seeding EventStamp)
open MultipassWebui.Text

/-! ## The configuration -/

section Configuration

variable {env : Environment} {run : Run} {cfg : Json} {before after : Tables}

/-- An update that changes nothing of the first row changes nothing. -/
theorem updateFirst_of_fixed {ρ : Type} {table : Table ρ} {row : Nat × ρ} {change : ρ → ρ}
    (isFirst : table.first = some row) (fixed : change row.2 = row.2) :
    table.updateFirst change = table := by
  rcases List.head?_eq_some_iff.mp isFirst with ⟨rest, rows⟩
  have same : table.rows.modifyHead (fun row => (row.1, change row.2)) = table.rows := by
    rw [rows, List.modifyHead_cons, fixed]
  rcases table with ⟨tableRows, sequence, ascending, fresh⟩
  simp only [Table.updateFirst] at same ⊢
  congr 1

theorem first_updateFirst {ρ : Type} {table : Table ρ} {row : Nat × ρ} (change : ρ → ρ)
    (isFirst : table.first = some row) :
    (table.updateFirst change).first = some (row.1, change row.2) := by
  rcases List.head?_eq_some_iff.mp isFirst with ⟨rest, rows⟩
  change (table.rows.modifyHead fun row => (row.1, change row.2)).head? = _
  rw [rows]
  rfl

theorem current_of_first {ρ : Type} {table : Table ρ} {row : Nat × ρ} (seed : ρ)
    (isFirst : table.first = some row) : current seed table = table := by
  rcases List.head?_eq_some_iff.mp isFirst with ⟨rest, rows⟩
  rw [current, rows]
  rfl

theorem exists_first_current {ρ : Type} (seed : ρ) (table : Table ρ) :
    ∃ row, (current seed table).first = some row := by
  unfold current Table.first
  cases rows : table.rows with
  | nil =>
      exact ⟨(table.sequence, seed), by simp [Table.insert, rows]⟩
  | cons row rest => exact ⟨row, by simp [rows]⟩

theorem updateSetting_eq_ok_iff {change : Setting → Setting} {settings updated : Table Setting} :
    updateSetting change settings = .ok updated ↔
      ∃ row, settings.first = some row ∧ (change row.2).errors = [] ∧
        updated = settings.updateFirst change := by
  unfold updateSetting
  cases settings.first with
  | none => simp
  | some row =>
      cases errors : (change row.2).errors with
      | nil => simp [errors, eq_comm (a := updated)]
      | cons error rest => simp [errors]

/-- An update that changes nothing of a valid first row succeeds and changes
nothing. -/
theorem updateSetting_of_fixed {change : Setting → Setting} {settings : Table Setting}
    {row : Nat × Setting} (isFirst : settings.first = some row) (valid : row.2.errors = [])
    (fixed : change row.2 = row.2) : updateSetting change settings = .ok settings :=
  updateSetting_eq_ok_iff.mpr
    ⟨row, isFirst, by rw [fixed, valid], (updateFirst_of_fixed isFirst fixed).symm⟩

/-- The settings hold what they would be set to. -/
theorem importSettings_again {settings imported : Table Setting}
    (first : importSettings env cfg settings = .ok imported) :
    importSettings env cfg imported = .ok imported := by
  simp only [importSettings, bind_eq_ok_iff] at first
  rcases first with ⟨username, isUsername, password, isPassword, named, isNamed, hashed, isHashed,
    cloudInitDir, isDir, cloudInitRepo, isRepo, playbooksDir, isPlaybooks, trustProxy, isTrust,
    isLast⟩
  rcases updateSetting_eq_ok_iff.mp isNamed with ⟨row, isRow, _, rfl⟩
  -- The first row has the user name and the digest, with or without the second update.
  have holds : ∃ setting, hashed.first = some setting ∧
      setting.2.username =
        orEmpty (env.casts.text (Value.orDefault username (.string "admin"))) ∧
      setting.2.passwordDigest = orEmpty (env.casts.text password) := by
    unfold installBcryptHash at isHashed
    split_ifs at isHashed
    · rcases updateSetting_eq_ok_iff.mp isHashed with ⟨middle, isMiddle, _, rfl⟩
      rw [first_updateFirst _ isRow] at isMiddle
      cases isMiddle
      exact ⟨_, first_updateFirst _ (first_updateFirst _ isRow), rfl, rfl⟩
    · cases isHashed
      exact ⟨_, first_updateFirst _ isRow, rfl, rfl⟩
  rcases holds with ⟨setting, isSetting, hasName, hasDigest⟩
  rcases updateSetting_eq_ok_iff.mp isLast with ⟨found, isFound, valid, rfl⟩
  rw [isSetting] at isFound
  cases isFound
  let host := Setting.withHost env cloudInitDir cloudInitRepo playbooksDir trustProxy
  have final : (hashed.updateFirst host).first = some (setting.1, host setting.2) :=
    first_updateFirst host isSetting
  have login : Setting.withLogin env username password (host setting.2) = host setting.2 := by
    simp only [host, Setting.withLogin, Setting.withHost, hasName, hasDigest]
  have digest : Setting.withDigest env password (host setting.2) = host setting.2 := by
    simp only [host, Setting.withDigest, Setting.withHost, hasDigest]
  simp only [importSettings, bind_eq_ok_iff]
  refine ⟨username, isUsername, password, isPassword, hashed.updateFirst host, ?_,
    hashed.updateFirst host, ?_, cloudInitDir, isDir, cloudInitRepo, isRepo, playbooksDir,
    isPlaybooks, trustProxy, isTrust, ?_⟩
  · rw [current_of_first _ final]
    exact updateSetting_of_fixed final valid login
  · unfold installBcryptHash
    split_ifs
    · exact updateSetting_of_fixed final valid digest
    · rfl
  · exact updateSetting_of_fixed final valid rfl

theorem importVmDefaults_again {vmDefaults imported : Table VmDefault}
    (first : importVmDefaults env cfg vmDefaults = .ok imported) :
    importVmDefaults env cfg imported = .ok imported := by
  simp only [importVmDefaults, bind_eq_ok_iff] at first ⊢
  rcases first with ⟨values, isValues, stored⟩
  refine ⟨values, isValues, ?_⟩
  split_ifs at stored ⊢
  · simp only [bind_eq_ok_iff] at stored ⊢
    rcases stored with ⟨cpusValue, isCpusValue, cpus, isCpus, memoryValue, isMemoryValue, memoryMb,
      isMemory, diskValue, isDiskValue, diskGb, isDisk, publicKey, isPublic, privateKey, isPrivate,
      isStored⟩
    cases isStored
    refine ⟨cpusValue, isCpusValue, cpus, isCpus, memoryValue, isMemoryValue, memoryMb, isMemory,
      diskValue, isDiskValue, diskGb, isDisk, publicKey, isPublic, privateKey, isPrivate, ?_⟩
    rcases exists_first_current VmDefault.seed vmDefaults with ⟨row, isRow⟩
    have final := first_updateFirst
      (fun _ => (⟨cpus, memoryMb, diskGb, publicKey, privateKey⟩ : VmDefault)) isRow
    rw [current_of_first _ final, updateFirst_of_fixed final rfl]
    rfl
  · rfl

/-- A second import finds everything that the first one left. -/
theorem Completed.repeated (completed : Completed env run cfg before after) (again : Run) :
    Completed env again cfg after after := by
  rcases completed.assignments with ⟨grouped, byGroup, byTemplate⟩
  have groupsCovered := Seeding.covered_seed (keyed_vmGroupSeeding after.groups) byGroup
  have templatesCovered := Seeding.covered_seed keyed_vmTemplateSeeding byTemplate
  -- The clock plays no part in the lookups.
  have tokensCovered : (apiTokenSeeding env.casts again.now).Covered
      (entriesOf "api_tokens" cfg) after.apiTokens := fun entry member =>
    Seeding.covered_seed (keyed_apiTokenSeeding run.now) completed.apiTokens entry member
  have webhooksCovered : (webhookSeeding env.casts again.now).Covered
      (entriesOf "webhooks" cfg) after.webhooks := fun entry member =>
    Seeding.covered_seed (keyed_webhookSeeding run.now) completed.webhooks entry member
  exact {
    settings := importSettings_again completed.settings
    vmDefaults := importVmDefaults_again completed.vmDefaults
    groups := Seeding.seed_of_covered (Seeding.covered_seed keyed_groupSeeding completed.groups)
    assignments := ⟨after.assignments,
      Seeding.seed_of_covered (groupsCovered.mono fun _ => Seeding.mem_values_seed byTemplate),
      Seeding.seed_of_covered templatesCovered⟩
    profiles := Seeding.seed_of_covered
      (Seeding.covered_seed keyed_profileSeeding completed.profiles)
    schedules := Seeding.seed_of_covered
      (Seeding.covered_seed keyed_scheduleSeeding completed.schedules)
    apiTokens := Seeding.seed_of_covered tokensCovered
    webhooks := Seeding.seed_of_covered webhooksCovered
    events := rfl
    readable := completed.readable }

end Configuration

/-! ## The lines of the event log -/

section Lines

variable (env : Environment)

/-- The cast text of a field that can be read. -/
def fieldText (ev : Json) (field : String) : Option String :=
  match textAt env.casts ev field with
  | .ok text => text
  | .error _ => none

/-- The fields of a line pass the validations of `Event`. -/
def accepted (ev : Json) : Bool :=
  (eventErrors (orEmpty (fieldText env ev "category")) (orEmpty (fieldText env ev "actor"))
    (fieldText env ev "result")).isEmpty

/-- A line that gives a valid event without an id. -/
def Anonymous (line : String) : Prop :=
  (strip line).isEmpty = false ∧
    ∃ ev ∈ env.parse line, textAt env.casts ev "id" = .ok none ∧ accepted env ev = true

section Reading

variable {env} {run : Run} {stamp : EventStamp} {ev : Json} {id : Option String}

/-- A value that answers one key answers all of them. -/
theorem index_readable {key : String} {value : Json} (readable : Value.index key ev = .ok value)
    (other : String) : ∃ found, Value.index other ev = .ok found := by
  cases ev with
  | object fields => exact ⟨_, rfl⟩
  | string text => exact ⟨_, rfl⟩
  | null => cases readable
  | bool value => cases readable
  | number value => cases readable
  | array items => cases readable

theorem textAt_readable (readable : textAt env.casts ev "id" = .ok id) (field : String) :
    textAt env.casts ev field = .ok (fieldText env ev field) := by
  unfold textAt at readable
  cases isId : Value.index "id" ev with
  | error raised =>
      rw [isId] at readable
      cases readable
  | ok value =>
      rcases index_readable isId field with ⟨found, isFound⟩
      rw [fieldText, textAt, isFound]
      rfl

/-- The row for a line that can be read: it depends on the clock and on the drawn
id, but whether there is one does not. -/
theorem buildEvent_readable (run : Run) (stamp : EventStamp)
    (readable : textAt env.casts ev "id" = .ok id) :
    ∃ event : Event, event.id = id.getD stamp.id ∧
      buildEvent env run stamp ev =
        if accepted env ev then
          if (fieldText env ev "action").isSome then .ok event
          else .error (.standardError "NOT NULL constraint failed: events.action")
        else .error .recordInvalid := by
  unfold textAt at readable
  cases isId : Value.index "id" ev with
  | error raised =>
      rw [isId] at readable
      cases readable
  | ok value =>
      have readable' : textAt env.casts ev "id" = .ok id := by
        rw [textAt, isId, ← readable, isId]
      rcases index_readable isId "payload" with ⟨payload, isPayload⟩
      rcases index_readable isId "timestamp" with ⟨timestamp, isTimestamp⟩
      refine ⟨{
        id := id.getD stamp.id
        category := orEmpty (fieldText env ev "category")
        action := orEmpty (fieldText env ev "action")
        actor := orEmpty (fieldText env ev "actor")
        resource := fieldText env ev "resource"
        result := fieldText env ev "result"
        detail := fieldText env ev "detail"
        endpoint := fieldText env ev "endpoint"
        payload := payload
        createdAt := (env.casts.time timestamp).getD run.now }, rfl, ?_⟩
      unfold buildEvent
      rw [readable']
      simp only [textAt_readable readable', isPayload, isTimestamp, Except.map, bind, Except.bind,
        accepted]
      cases fieldText env ev "action" with
      | none => rfl
      | some action => rfl

/-- What `find_or_create_by!` comes to for an event that can be read. -/
theorem findOrCreate_readable (run : Run) (stamp : EventStamp) (events : Table Event)
    (readable : textAt env.casts ev "id" = .ok id) :
    ∃ event : Event, event.id = id.getD stamp.id ∧
      (eventSeeding env run).findOrCreate (ev, stamp) events =
        if (eventSeeding env run).found events.values id then .ok events
        else if accepted env ev then
          if (fieldText env ev "action").isSome then
            if events.values.any fun other => other.id = event.id then .error .recordNotFound
            else .ok (events.insert event)
          else .error (.standardError "NOT NULL constraint failed: events.action")
        else .error .recordInvalid := by
  rcases buildEvent_readable run stamp readable with ⟨event, isId, built⟩
  refine ⟨event, isId, ?_⟩
  rw [Seeding.findOrCreate, show (eventSeeding env run).lookup (ev, stamp) = .ok id from readable]
  simp only [bind, Except.bind]
  cases (eventSeeding env run).found events.values id with
  | true => rfl
  | false =>
      simp only [eventSeeding, built, bind, Except.bind]
      cases accepted env ev with
      | false => rfl
      | true =>
          cases (fieldText env ev "action").isSome with
          | false => rfl
          | true =>
              simp only [if_true]
              cases events.values.any fun other => decide (other.id = event.id) with
              | false => rfl
              | true => rfl

/-- A line that is neither blank nor malformed: invalid records are skipped. -/
theorem importLine_apply {line : String} (events : Table Event)
    (filled : (strip line).isEmpty = false) (parsed : env.parse line = some ev) :
    importLine env run stamp line events =
      match (eventSeeding env run).findOrCreate (ev, stamp) events with
      | .ok after => (.ok ⟨⟩, after)
      | .error raised =>
          if raised.isRecordInvalid then (.ok ⟨⟩, events) else (.error raised, events) := by
  rw [importLine, filled, if_neg Bool.false_ne_true, parsed]
  simp only [Exec.rescue, createEvent, Exec.bind_ok (Exec.gets_apply _ _), id_eq]
  cases created : (eventSeeding env run).findOrCreate (ev, stamp) events with
  | ok after => rfl
  | error raised =>
      simp only [Exec.bind_apply, Exec.ofExcept_apply]
      split_ifs <;> rfl

/-- Reading an event fails with an exception that is not rescued. -/
theorem not_recordInvalid_of_unreadable {raised : RubyError}
    (unreadable : textAt env.casts ev "id" = .error raised) : raised.isRecordInvalid = false := by
  cases ev <;> cases unreadable <;> rfl

end Reading

section Runs

variable {env} {run again : Run} {stamp other : EventStamp} {line : String} {lines : List String}
variable {events middle after final : Table Event}

/-- Whatever its outcome, a line only appends. -/
theorem values_importLine (env : Environment) (run : Run) (stamp : EventStamp) (line : String)
    (events : Table Event) :
    ∃ new, (importLine env run stamp line events).2.values = events.values ++ new := by
  have same : ∃ new, events.values = events.values ++ new := ⟨[], (List.append_nil _).symm⟩
  cases filled : (strip line).isEmpty with
  | true =>
      rw [importLine, filled]
      exact same
  | false =>
      cases parsed : env.parse line with
      | none =>
          rw [importLine, filled, if_neg Bool.false_ne_true, parsed]
          exact same
      | some ev =>
          rw [importLine_apply events filled parsed]
          cases created : (eventSeeding env run).findOrCreate (ev, stamp) events with
          | ok after => exact Seeding.values_findOrCreate created
          | error raised =>
              dsimp only
              split_ifs <;> exact same

theorem values_importEvents (env : Environment) (run : Run) (number : Nat) (lines : List String)
    (events : Table Event) :
    ∃ new, (importEvents env run number lines events).2.values = events.values ++ new := by
  induction lines generalizing number events with
  | nil => exact ⟨[], (List.append_nil _).symm⟩
  | cons line rest ih =>
      rcases values_importLine env run (run.draw number) line events with ⟨first, values⟩
      rw [importEvents, Exec.bind_apply]
      rcases imported : importLine env run (run.draw number) line events with ⟨outcome, middle⟩
      rw [imported] at values
      cases outcome with
      | error raised => exact ⟨first, values⟩
      | ok _ =>
          rcases ih (number + 1) middle with ⟨others, later⟩
          exact ⟨first ++ others, by rw [later, values, List.append_assoc]⟩

theorem importEvents_cons_eq_ok_iff {number : Nat} :
    importEvents env run number (line :: lines) events = (.ok ⟨⟩, after) ↔
      ∃ middle, importLine env run (run.draw number) line events = (.ok ⟨⟩, middle) ∧
        importEvents env run (number + 1) lines middle = (.ok ⟨⟩, after) := by
  rw [importEvents, Exec.bind_apply]
  rcases imported : importLine env run (run.draw number) line events with ⟨outcome, middle⟩
  cases outcome with
  | error raised => simp
  | ok value => simp

theorem mem_values_importEvents {number : Nat} {event : Event}
    (completed : importEvents env run number lines events = (.ok ⟨⟩, after))
    (member : event ∈ events.values) : event ∈ after.values := by
  rcases values_importEvents env run number lines events with ⟨new, values⟩
  rw [completed] at values
  rw [values]
  exact List.mem_append_left _ member

/-- An event that was accepted in a run that completed has an action. -/
theorem isSome_action_of_completed {ev : Json} {id : Option String}
    (filled : (strip line).isEmpty = false) (parsed : env.parse line = some ev)
    (readable : textAt env.casts ev "id" = .ok id)
    (notFound : (eventSeeding env run).found events.values id = false)
    (isAccepted : accepted env ev = true)
    (completed : importLine env run stamp line events = (.ok ⟨⟩, after)) :
    (fieldText env ev "action").isSome = true ∧
      ∃ event ∈ after.values, event.id = id.getD stamp.id := by
  rcases findOrCreate_readable run stamp events readable with
    ⟨event, isId, created⟩
  rw [importLine_apply events filled parsed, created] at completed
  simp only [notFound, isAccepted, Bool.false_eq_true, if_false, if_true] at completed
  cases present : (fieldText env ev "action").isSome with
  | false =>
      rw [present] at completed
      cases congrArg Prod.fst completed
  | true =>
      refine ⟨rfl, event, ?_, isId⟩
      simp only [present, if_true] at completed
      cases taken : events.values.any fun other => decide (other.id = event.id) with
      | true =>
          rw [taken] at completed
          cases congrArg Prod.fst completed
      | false =>
          simp only [taken, Bool.false_eq_true, if_false] at completed
          rcases (Prod.mk.inj completed).2 with rfl
          rw [Table.values_insert]
          exact List.mem_append_right _ (List.mem_singleton_self event)

/-- An accepted line whose id no event has after a run that completed has none. -/
theorem anonymous_of_missing {ev : Json} {id : Option String}
    (filled : (strip line).isEmpty = false) (parsed : env.parse line = some ev)
    (readable : textAt env.casts ev "id" = .ok id) (isAccepted : accepted env ev = true)
    (completed : importLine env run stamp line events = (.ok ⟨⟩, after))
    (missing : ∀ event ∈ after.values, some event.id ≠ id) : Anonymous env line := by
  rcases values_importLine env run stamp line events with ⟨new, values⟩
  rw [completed] at values
  have notFound : (eventSeeding env run).found events.values id = false := by
    rw [Bool.eq_false_iff]
    intro found
    rcases Seeding.found_iff.mp found with ⟨event, member, same⟩
    refine missing event ?_ same
    rw [values]
    exact List.mem_append_left _ member
  rcases isSome_action_of_completed filled parsed readable notFound isAccepted completed with
    ⟨_, made, member, sameId⟩
  cases id with
  | none => exact ⟨filled, ev, parsed, readable, isAccepted⟩
  | some id => exact absurd (congrArg some sameId) (missing made member)

/-- A line that is not anonymous does nothing once its run has completed. -/
theorem importLine_again (again : Run) (other : EventStamp) (identified : ¬ Anonymous env line)
    (completed : importLine env run stamp line events = (.ok ⟨⟩, after))
    (kept : ∀ event ∈ after.values, event ∈ final.values) :
    importLine env again other line final = (.ok ⟨⟩, final) := by
  cases filled : (strip line).isEmpty with
  | true =>
      rw [importLine, filled]
      rfl
  | false =>
      cases parsed : env.parse line with
      | none =>
          rw [importLine, filled, if_neg Bool.false_ne_true, parsed]
          rfl
      | some ev =>
          cases readable : textAt env.casts ev "id" with
          | error raised =>
              have failed : (eventSeeding env run).findOrCreate (ev, stamp) events =
                  .error raised := by
                rw [Seeding.findOrCreate,
                  show (eventSeeding env run).lookup (ev, stamp) = _ from readable]
                rfl
              rw [importLine_apply events filled parsed, failed] at completed
              simp only [not_recordInvalid_of_unreadable readable] at completed
              cases congrArg Prod.fst completed
          | ok id =>
              rcases findOrCreate_readable again other final readable with
                ⟨event, _, created⟩
              rw [importLine_apply final filled parsed, created]
              cases isFound : (eventSeeding env again).found final.values id with
              | true => rfl
              | false =>
                  -- What is not found now was not found then, and was not created either.
                  have missing : ∀ event ∈ after.values, some event.id ≠ id := by
                    intro event member same
                    have found : (eventSeeding env again).found final.values id = true :=
                      Seeding.found_iff.mpr ⟨event, kept event member, same⟩
                    rw [isFound] at found
                    cases found
                  cases isAccepted : accepted env ev with
                  | false => rfl
                  | true =>
                      have anonymous : Anonymous env line :=
                        anonymous_of_missing filled parsed readable isAccepted completed missing
                      exact absurd anonymous identified

/-- An anonymous line appends an event under the id that is drawn for it. -/
theorem importLine_anonymous (again : Run) (anonymous : Anonymous env line)
    (completed : importLine env run stamp line events = (.ok ⟨⟩, after))
    (fresh : ∀ event ∈ final.values, event.id ≠ other.id) :
    ∃ event, importLine env again other line final = (.ok ⟨⟩, final.insert event) := by
  rcases anonymous with ⟨filled, ev, parsed, readable, isAccepted⟩
  have never : ∀ (run : Run) (events : Table Event),
      (eventSeeding env run).found events.values none = false := by
    intro run events
    rw [Bool.eq_false_iff]
    intro found
    rcases Seeding.found_iff.mp found with ⟨event, _, same⟩
    cases same
  have present := (isSome_action_of_completed filled parsed readable (never run events) isAccepted
    completed).1
  rcases findOrCreate_readable again other final readable with
    ⟨event, isId, created⟩
  have unused : (final.values.any fun old => decide (old.id = event.id)) = false := by
    rw [List.any_eq_false]
    intro old member
    rw [decide_eq_true_eq, isId]
    exact fresh old member
  refine ⟨event, ?_⟩
  rw [importLine_apply final filled parsed, created, never again final, isAccepted, present, unused]
  rfl

/-- Without anonymous lines a second pass over the log stores nothing. -/
theorem importEvents_again {number : Nat}
    (identified : ∀ line ∈ lines, ¬ Anonymous env line)
    (completed : importEvents env run number lines events = (.ok ⟨⟩, after))
    (kept : ∀ event ∈ after.values, event ∈ final.values) :
    importEvents env again number lines final = (.ok ⟨⟩, final) := by
  induction lines generalizing number events with
  | nil => rfl
  | cons line rest ih =>
      rcases importEvents_cons_eq_ok_iff.mp completed with ⟨middle, first, later⟩
      refine importEvents_cons_eq_ok_iff.mpr ⟨final, ?_, ?_⟩
      · refine importLine_again again _ (identified line List.mem_cons_self) first
          fun event member => ?_
        exact kept event (mem_values_importEvents later member)
      · exact ih (fun line member => identified line (List.mem_cons_of_mem _ member)) later

/-- An anonymous line appends on every pass that draws new ids. -/
theorem importEvents_of_anonymous (again : Run) {number : Nat}
    (anonymous : ∃ line ∈ lines, Anonymous env line)
    (completed : importEvents env run number lines events = (.ok ⟨⟩, after))
    (kept : ∀ event ∈ after.values, event ∈ final.values)
    (fresh : ∀ number, ∀ event ∈ final.values, event.id ≠ (again.draw number).id) :
    ∃ event new, (importEvents env again number lines final).2.values =
      final.values ++ event :: new := by
  induction lines generalizing number events with
  | nil =>
      rcases anonymous with ⟨line, member, _⟩
      cases member
  | cons line rest ih =>
      rcases importEvents_cons_eq_ok_iff.mp completed with ⟨middle, first, later⟩
      rw [importEvents]
      by_cases isAnonymous : Anonymous env line
      · rcases importLine_anonymous again isAnonymous first (fresh number) with
          ⟨event, appended⟩
        rcases values_importEvents env again (number + 1) rest (final.insert event) with
          ⟨new, values⟩
        refine ⟨event, new, ?_⟩
        rw [Exec.bind_ok appended, values, Table.values_insert, List.append_assoc,
          List.singleton_append]
      · have unchanged := importLine_again again (again.draw number) isAnonymous first
          fun event member => kept event (mem_values_importEvents later member)
        have others : ∃ line ∈ rest, Anonymous env line := by
          rcases anonymous with ⟨other, member, otherAnonymous⟩
          rcases List.mem_cons.mp member with rfl | member
          · exact absurd otherAnonymous isAnonymous
          · exact ⟨other, member, otherAnonymous⟩
        rw [Exec.bind_ok unchanged]
        exact ih others later

end Runs

end Lines

/-! ## New ids -/

theorem EventStamp.id_injective (suffix : String) :
    Function.Injective fun seconds : Nat => EventStamp.id ⟨seconds, suffix⟩ := by
  intro seconds other same
  have digits : (seconds : Int).repr = (other : Int).repr := by
    simpa [EventStamp.id, String.append_assoc] using same
  change seconds.repr = other.repr at digits
  have chars : Nat.toDigits 10 seconds = Nat.toDigits 10 other := by
    rw [← Nat.toList_repr, ← Nat.toList_repr, digits]
  rw [← @Nat.ofDigitChars_ten_toDigits seconds, chars, Nat.ofDigitChars_ten_toDigits]

/-- The clock moves on, so there is always an id that no event has. -/
theorem exists_fresh_stamp (events : List Event) :
    ∃ stamp : EventStamp, ∀ event ∈ events, event.id ≠ stamp.id := by
  have infinite := Set.infinite_range_of_injective (EventStamp.id_injective "0000")
  rcases infinite.exists_notMem_finite (List.finite_toSet (events.map Event.id)) with
    ⟨id, ⟨seconds, rfl⟩, unused⟩
  refine ⟨⟨seconds, "0000"⟩, fun event member same => unused ?_⟩
  exact List.mem_map.mpr ⟨event, member, same⟩

/-! ## The whole task -/

section Task

variable {env : Environment} {run again : Run} {files : Files} {before after : Tables}

/-- Once the configuration is imported, the rest of the task is the log. -/
theorem migrate_apply {cfg : Json} {configured : Tables}
    (parsed : files.config.bind env.parse = some cfg)
    (completed : Completed env run cfg before configured) :
    migrate env run files before =
      ((importEvents env run 0 (files.events.getD []) configured.events).1,
        { configured with
          events := (importEvents env run 0 (files.events.getD []) configured.events).2 }) := by
  rcases Option.bind_eq_some_iff.mp parsed with ⟨text, isText, isCfg⟩
  have imported : importConfig env run cfg before = (.ok ⟨⟩, configured) := by
    rw [importConfig_apply, importSections_eq_ok_iff.mpr completed]
  rw [migrate, isText]
  dsimp only
  rw [isCfg]
  dsimp only
  rw [Exec.bind_ok imported]
  cases files.events with
  | none => rfl
  | some lines => rfl

/-- A migration that completes has imported the configuration and every line. -/
theorem migrate_completed (completed : migrate env run files before = (.ok ⟨⟩, after)) :
    ∃ cfg configured, files.config.bind env.parse = some cfg ∧
      Completed env run cfg before configured ∧
      importEvents env run 0 (files.events.getD []) configured.events = (.ok ⟨⟩, after.events) ∧
      after = { configured with events := after.events } := by
  cases isText : files.config with
  | none =>
      rw [migrate, isText] at completed
      cases congrArg Prod.fst completed
  | some text =>
      cases isCfg : env.parse text with
      | none =>
          rw [migrate, isText] at completed
          simp only [isCfg] at completed
          cases congrArg Prod.fst completed
      | some cfg =>
          rcases importConfig_cases env run cfg before with
            ⟨configured, _, isConfigured⟩ | ⟨raised, failed⟩
          · have parsed : files.config.bind env.parse = some cfg := by
              rw [isText]
              exact isCfg
            rw [migrate_apply parsed isConfigured] at completed
            rcases Prod.mk.inj completed with ⟨outcome, rfl⟩
            exact ⟨cfg, configured, isCfg, isConfigured, Prod.ext outcome rfl, rfl⟩
          · rw [migrate, isText] at completed
            simp only [isCfg, Exec.bind_error failed] at completed
            cases congrArg Prod.fst completed

/-- A completed migration is repeated without effect, whatever the clock and the
drawn ids are, precisely if no line of the log is anonymous. -/
theorem migrate_again_iff (env : Environment) (run : Run) (files : Files) (before after : Tables)
    (completed : migrate env run files before = (.ok ⟨⟩, after)) :
    (∀ again, (migrate env again files after).2 = after) ↔
      ∀ line ∈ files.events.getD [], ¬ Anonymous env line := by
  rcases migrate_completed completed with ⟨cfg, configured, parsed, config, events, rest⟩
  have repeated : ∀ again, Completed env again cfg after after := by
    intro again
    rw [rest]
    exact { config.repeated again with events := rfl }
  constructor
  · intro unchanged line member anonymous
    rcases exists_fresh_stamp after.events.values with ⟨stamp, fresh⟩
    -- A second run whose clock has moved on draws an id that is not stored yet.
    let again : Run := ⟨run.now, fun _ => stamp⟩
    rcases importEvents_of_anonymous again ⟨line, member, anonymous⟩ events
      (fun _ kept => kept) (fun _ => fresh) with ⟨event, new, appended⟩
    have same := congrArg (fun tables => tables.events.values.length) (unchanged again)
    rw [migrate_apply parsed (repeated again)] at same
    simp only [appended, List.length_append, List.length_cons] at same
    omega
  · intro identified again
    rw [migrate_apply parsed (repeated again),
      importEvents_again identified events fun _ kept => kept]

end Task

/-! ## Logs of one line -/

/-- A configuration that has only a digest. -/
def digestText : String := "\x7b\"password\":\"$2b$12$digest\"\x7d"

/-- The start of a machine, under an id. -/
def identifiedLine : String :=
  "\x7b\"id\":\"7-ab12\",\"category\":\"vm\",\"actor\":\"user\",\"action\":\"start\"\x7d"

/-- The start of a machine, without an id. -/
def anonymousLine : String :=
  "\x7b\"category\":\"vm\",\"actor\":\"user\",\"action\":\"start\"\x7d"

def startFields : List (String × Json) :=
  [("category", .string "vm"), ("actor", .string "user"), ("action", .string "start")]

/-- The parser on the three texts. -/
def startEnvironment : Environment :=
  { plainEnvironment with
    parse := fun text =>
      if text = digestText then some (.object [("password", .string "$2b$12$digest")])
      else if text = identifiedLine then some (.object (("id", .string "7-ab12") :: startFields))
      else if text = anonymousLine then some (.object startFields)
      else none }

def filesWith (line : String) : Files := ⟨some digestText, some [line]⟩

/-- A line with an id is stored once. -/
theorem migrate_again_iff_identified :
    ∃ after, migrate startEnvironment plainRun (filesWith identifiedLine) Tables.empty =
        (.ok ⟨⟩, after) ∧
      ((∀ again, (migrate startEnvironment again (filesWith identifiedLine) after).2 = after) ↔
        ∀ line ∈ [identifiedLine], ¬ Anonymous startEnvironment line) :=
  ⟨_, rfl, migrate_again_iff startEnvironment plainRun (filesWith identifiedLine)
      Tables.empty _ rfl⟩

/-- A line without an id is stored a second time. -/
theorem anonymousLine_duplicated :
    ∃ after again, migrate startEnvironment plainRun (filesWith anonymousLine) Tables.empty =
        (.ok ⟨⟩, after) ∧
      (migrate startEnvironment again (filesWith anonymousLine) after).2 ≠ after := by
  refine ⟨_, ⟨60, fun number => ⟨60 + number, "0000"⟩⟩, rfl, fun same => ?_⟩
  have count := congrArg (fun tables => tables.events.values.length) same
  cases count

end MultipassWebui.Migration
