import MultipassWebui.Web.LaunchRequests

/-!
# The limits of the resources

A launch replaces values below the limits.  The commands that resize a machine
carry what was asked for.
-/

namespace MultipassWebui.Web.VmsController

open MultipassWebui.Effect
open MultipassWebui.Encoding
open MultipassWebui.Multipass
open MultipassWebui.Records
open MultipassWebui.Text

/-- The constant for resized machines, which no operation uses. -/
def MIN_RESIZE_RAM_MB : Int := 256

/-- The setting and the value of `set local.NAME.SETTING=VALUE`. -/
def settingValue (word : String) : String × Int :=
  (String.ofList ((word.toList.takeWhile (· ≠ '=')).rtakeWhile (· ≠ '.')),
    toI ((word.toList.dropWhile (· ≠ '=')).drop 1))

/-- The limit of a setting. -/
def minimumOf : String → Option Int
  | "cpus" => some MIN_CPU_CORES
  | "memory" => some MIN_RESIZE_RAM_MB
  | "disk" => some MIN_DISK_GB
  | _ => none

/-- The command is a launch or sets a resource, with values that reach the limits. -/
def WithinLimits : List String → Prop
  | ["set", word] => ∃ minimum, minimumOf (settingValue word).1 = some minimum ∧
      minimum ≤ (settingValue word).2
  | argv => ∃ carried, launchResources argv = some carried ∧ MIN_CPU_CORES ≤ carried.cpus ∧
      MIN_RAM_MB ≤ carried.memoryMb ∧ MIN_DISK_GB ≤ carried.diskGb

/-- Every command that an action issues is within the limits. -/
def KeepsLimits (env : Environment) (stamp : EventStamp) (request : Request) (action : Action)
    (app : App Host) : Prop :=
  ∀ added, (perform env stamp request action app).2.state.commands = app.state.commands ++ added →
    ∀ command ∈ added, WithinLimits (command.argv.map Word.text)

/-! ## A launch -/

theorem le_orDefault {minimum default : Int} (reaches : minimum ≤ default) (given : Option Int) :
    minimum ≤ orDefault minimum default given := by
  cases given with
  | none => exact reaches
  | some value =>
      rw [orDefault]
      split
      · exact reaches
      · exact not_lt.mp ‹_›

section

variable {env : Environment} {stamp : EventStamp} {request : Request} {app : App Host}

/-- A launch is within the limits, since the constants of the client are. -/
theorem withinLimits_of_issued {argv : List Word}
    (issued : Issued env request app.state .create argv) :
    WithinLimits (argv.map Word.text) := by
  rcases launchResources_of_issued issued with ⟨arguments, _, carried⟩
  have isLaunch : ∀ words : List String, launchResources words = some (resourcesOf arguments) →
      WithinLimits words := by
    intro words isCarried
    unfold WithinLimits
    split
    · cases isCarried
    · exact ⟨_, isCarried, le_orDefault (by decide) _, le_orDefault (by decide) _,
        le_orDefault (by decide) _⟩
  exact isLaunch _ carried

theorem create_keepsLimits : KeepsLimits env stamp request .create app := by
  intro added isAdded command member
  rcases @create_commands env stamp request app with
    ⟨argv, succeeded, issued, commands⟩ | ⟨_, commands⟩
  · obtain rfl := List.append_cancel_left (commands.symm.trans isAdded)
    rw [List.mem_singleton.mp member]
    exact withinLimits_of_issued issued
  · obtain rfl : [] = added :=
      List.append_cancel_left (((List.append_nil _).trans commands.symm).trans isAdded)
    cases member

end

/-! ## Setting resources -/

/-- A field of the form that resizes a machine. -/
structure ResizeField where
  key : String
  setting : String
  unit : String
  minimum : Int

def RESIZE_FIELDS : List ResizeField :=
  [⟨"cpus", "cpus", "", MIN_CPU_CORES⟩, ⟨"memory_mb", "memory", "M", MIN_RESIZE_RAM_MB⟩,
    ⟨"disk_gb", "disk", "G", MIN_DISK_GB⟩]

/-- The command that sets a resource. -/
def setArgv (text : String) (field : ResizeField) (value : Int) : List Word :=
  [.literal "set",
    .given ("local." ++ text ++ "." ++ field.setting ++ "=" ++ toString value ++ field.unit)]

/-- What is asked for reaches the limits, as far as the commands before succeed. -/
def ReachesLimits (env : Environment) (request : Request) (text : String) :
    Nat → List ResizeField → Prop
  | _, [] => True
  | position, field :: rest =>
      if Value.present (param request field.key) then
        ∀ value, Value.toI (param request field.key) = .ok value →
          field.minimum ≤ value ∧ (succeeds env position (setArgv text field value) = true →
            ReachesLimits env request text (position + 1) rest)
      else ReachesLimits env request text position rest

/-- The commands that are issued until one fails. -/
def reached (env : Environment) : Nat → List (Except RubyError (List Word)) → List Command
  | position, .ok argv :: rest =>
      ⟨argv, succeeds env position argv⟩ ::
        if succeeds env position argv then reached env (position + 1) rest else []
  | _, _ => []

section

variable {env : Environment} {stamp : EventStamp} {request : Request}

theorem issueEach_commands (lines : List (Except RubyError (List Word))) (app : App Host) :
    (issueEach env lines app).2.state.commands =
      app.state.commands ++ reached env app.state.commands.length lines := by
  induction lines generalizing app with
  | nil => exact (List.append_nil _).symm
  | cons line rest ih =>
      cases line with
      | error raised => exact (List.append_nil _).symm
      | ok argv =>
          cases success : succeeds env app.state.commands.length argv with
          | true =>
              obtain ⟨stdout, ran⟩ := run_of_success success
              have issued : onState (run env argv) app =
                  (.ok stdout, { app with state := app.state.issue argv true }) := by
                rw [onState_apply, ran]
              have step : issueEach env (.ok argv :: rest) app =
                  issueEach env rest { app with state := app.state.issue argv true } :=
                Exec.bind_ok issued _
              rw [step, ih, reached, success]
              simp [Host.issue]
          | false =>
              obtain ⟨raised, ran⟩ := run_of_failure success
              have issued : onState (run env argv) app =
                  (.error raised, { app with state := app.state.issue argv false }) := by
                rw [onState_apply, ran]
              have step : issueEach env (.ok argv :: rest) app =
                  (.error raised, { app with state := app.state.issue argv false }) :=
                Exec.bind_error issued _
              rw [step, reached, success]
              rfl

/-- The characters of a name separate it from what surrounds it. -/
theorem plain_of_isVmName {text : String} (named : IsVmName text) :
    '=' ∉ text.toList := by
  obtain ⟨first, rest, shape, head, others, _⟩ := named
  rw [shape]
  intro member
  rcases List.mem_cons.mp member with isFirst | inRest
  · rw [← isFirst] at head
    exact absurd head (by decide)
  · rcases others _ inRest with alnum | isHyphen
    · exact absurd alnum (by decide)
    · exact absurd isHyphen (by decide)

/-- The setting and the value of the command are those it was made of. -/
theorem settingValue_setArgv {text : String} (named : IsVmName text) {field : ResizeField}
    (member : field ∈ RESIZE_FIELDS) (value : Int) :
    settingValue ("local." ++ text ++ "." ++ field.setting ++ "=" ++ toString value ++ field.unit) =
      (field.setting, value) := by
  have plain : ('=' ∉ field.setting.toList ∧ '.' ∉ field.setting.toList) ∧
      EndsNumber field.unit.toList := by
    have table : RESIZE_FIELDS.all (fun field => decide (('=' ∉ field.setting.toList ∧
        '.' ∉ field.setting.toList) ∧ EndsNumber field.unit.toList)) = true := by decide
    exact of_decide_eq_true (List.all_eq_true.mp table field member)
  let before := "local.".toList ++ text.toList ++ '.' :: field.setting.toList
  have chars : ("local." ++ text ++ "." ++ field.setting ++ "=" ++ toString value ++
      field.unit).toList = before ++ '=' :: ((toString value).toList ++ field.unit.toList) := by
    simp [before]
  have noEquals : ∀ char ∈ before, decide (char ≠ '=') = true := by
    intro char isIn
    refine decide_eq_true ?_
    rintro rfl
    simp only [before, List.mem_append, List.mem_cons] at isIn
    rcases isIn with (inLocal | inName) | isDot | inSetting
    · exact absurd inLocal (by decide)
    · exact plain_of_isVmName named inName
    · exact absurd isDot (by decide)
    · exact plain.1.1 inSetting
  have name : before.rtakeWhile (· ≠ '.') = field.setting.toList := by
    have noDot : ∀ char ∈ field.setting.toList.reverse, decide (char ≠ '.') = true := by
      intro char isIn
      refine decide_eq_true ?_
      rintro rfl
      exact plain.1.2 (List.mem_reverse.mp isIn)
    simp only [before, List.rtakeWhile, List.reverse_append, List.reverse_cons, List.append_assoc]
    rw [List.takeWhile_append_of_pos noDot]
    simp
  rw [settingValue, chars, List.takeWhile_append_of_pos noEquals,
    List.dropWhile_append_of_pos noEquals, List.takeWhile_cons_of_neg (by simp), List.append_nil,
    name, String.ofList_toList, List.dropWhile_cons_of_neg (by simp), List.drop_one, List.tail_cons,
    toI_toString_append value plain.2]

/-- A command that sets a resource is within the limits if its value is. -/
theorem withinLimits_setArgv_iff {text : String} (named : IsVmName text) {field : ResizeField}
    (member : field ∈ RESIZE_FIELDS) (value : Int) :
    WithinLimits ((setArgv text field value).map Word.text) ↔ field.minimum ≤ value := by
  have minimum : minimumOf field.setting = some field.minimum := by
    simp only [RESIZE_FIELDS, List.mem_cons, List.not_mem_nil, or_false] at member
    rcases member with rfl | rfl | rfl <;> rfl
  change (∃ minimum, minimumOf (settingValue _).1 = some minimum ∧ minimum ≤ (settingValue _).2) ↔ _
  simp only [Word.text, settingValue_setArgv named member, minimum]
  simp

/-- The command that a field asks for. -/
def fieldLine (request : Request) (text : String) (field : ResizeField) :
    List (Except RubyError (List Word)) :=
  settingLine request text field.key field.setting field.unit

theorem reached_withinLimits_iff {text : String} (named : IsVmName text)
    {fields : List ResizeField} (known : ∀ field ∈ fields, field ∈ RESIZE_FIELDS) (position : ℕ) :
    (∀ command ∈ reached env position (fields.flatMap (fieldLine request text)),
        WithinLimits (command.argv.map Word.text)) ↔
      ReachesLimits env request text position fields := by
  induction fields generalizing position with
  | nil => exact iff_of_true nofun trivial
  | cons field rest ih =>
      have later := ih fun other member => known other (List.mem_cons_of_mem _ member)
      rw [List.flatMap_cons, fieldLine, settingLine, ReachesLimits]
      split
      · cases given : Value.toI (param request field.key) with
        | error raised =>
            refine iff_of_true ?_ nofun
            exact fun command member => absurd member List.not_mem_nil
        | ok value =>
            have limit := withinLimits_setArgv_iff named (known field List.mem_cons_self) value
            change (∀ command ∈ ⟨setArgv text field value, _⟩ ::
              if succeeds env position (setArgv text field value) then
                reached env (position + 1) (rest.flatMap (fieldLine request text))
              else [], WithinLimits (command.argv.map Word.text)) ↔ _
            rw [List.forall_mem_cons, limit]
            constructor
            · rintro ⟨reaches, others⟩ other same
              obtain rfl := Except.ok.inj same
              refine ⟨reaches, fun success => ?_⟩
              rw [if_pos success] at others
              exact (later (position + 1)).mp others
            · intro reaches
              rcases reaches value rfl with ⟨reachesOwn, others⟩
              refine ⟨reachesOwn, ?_⟩
              split
              · exact (later (position + 1)).mpr (others ‹_›)
              · exact fun command member => absurd member List.not_mem_nil
      · exact later position

theorem update_commands {text : String} (named : Named (param request "name") text)
    (app : App Host) :
    (perform env stamp request .updateResourceConfig app).2.state.commands =
      app.state.commands ++
        reached env app.state.commands.length (RESIZE_FIELDS.flatMap (fieldLine request text)) := by
  have lines : requested request text = RESIZE_FIELDS.flatMap (fieldLine request text) := by
    simp [requested, RESIZE_FIELDS, fieldLine]
  rw [perform_updateResourceConfig named, rescueCommand_state, ← lines, ← issueEach_commands]
  rcases ran : issueEach env (requested request text) app with ⟨raised | ⟨⟩, middle⟩
  · rw [Exec.bind_error ran]
  · rw [Exec.bind_ok ran, emitHttp_state]

end

/-- A launch keeps the limits, and a request to resize keeps them if and only if
what it asks for reaches them. -/
theorem keepsLimits_iff (env : Environment) (stamp : EventStamp) (request : Request)
    (app : App Host) :
    KeepsLimits env stamp request .create app ∧
      (KeepsLimits env stamp request .updateResourceConfig app ↔
        ∀ text, Named (param request "name") text →
          ReachesLimits env request text app.state.commands.length RESIZE_FIELDS) := by
  refine ⟨create_keepsLimits, ?_⟩
  by_cases valid : ∃ text, Named (param request "name") text
  · rcases valid with ⟨text, named⟩
    have commands := @update_commands env stamp request text named app
    have within := @reached_withinLimits_iff env request text named.2 RESIZE_FIELDS
      (fun _ member => member) app.state.commands.length
    constructor
    · intro keeps other otherNamed
      rw [Named.unique named otherNamed]
      exact within.mp (keeps _ commands)
    · intro reaches added isAdded
      obtain rfl := List.append_cancel_left (commands.symm.trans isAdded)
      exact within.mpr (reaches text named)
  · refine iff_of_true ?_ fun text named => absurd ⟨text, named⟩ valid
    intro added isAdded command member
    have silent : (perform env stamp request .updateResourceConfig app).2 = app := by
      rw [perform, updateResourceConfig, withVmName_invalid valid]
      rfl
    rw [silent] at isAdded
    obtain rfl : [] = added := List.append_cancel_left ((List.append_nil _).trans isAdded)
    cases member

/-- A request to resize a machine to one mebibyte. -/
def shrinkRequest : Request :=
  ⟨"PATCH", "/vms/web/resource_config",
    .object [("name", .string "web"), ("memory_mb", .string "1")]⟩

/-- The memory that is asked for is passed on, whatever it is. -/
theorem shrink_not_keepsLimits :
    (perform quietEnvironment ⟨0, "00"⟩ shrinkRequest .updateResourceConfig
      ⟨freshHost, []⟩).2.state.commands =
        [⟨[.literal "set", .given "local.web.memory=1M"], true⟩] ∧
    ¬ KeepsLimits quietEnvironment ⟨0, "00"⟩ shrinkRequest .updateResourceConfig
      ⟨freshHost, []⟩ := by
  have commands : (perform quietEnvironment ⟨0, "00"⟩ shrinkRequest .updateResourceConfig
      ⟨freshHost, []⟩).2.state.commands =
        [⟨[.literal "set", .given "local.web.memory=1M"], true⟩] := by decide +kernel
  refine ⟨commands, fun keeps => ?_⟩
  rcases keeps _ commands _ (List.mem_singleton.mpr rfl) with ⟨minimum, isMinimum, reaches⟩
  have one : settingValue "local.web.memory=1M" = ("memory", 1) := by decide +kernel
  change minimumOf (settingValue "local.web.memory=1M").1 = some minimum at isMinimum
  change minimum ≤ (settingValue "local.web.memory=1M").2 at reaches
  rw [one] at isMinimum reaches
  cases isMinimum
  exact absurd reaches (by decide)

end MultipassWebui.Web.VmsController
