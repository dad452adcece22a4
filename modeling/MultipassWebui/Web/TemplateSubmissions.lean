import MultipassWebui.Multipass.SavedTemplates
import MultipassWebui.Web.Recording
import MultipassWebui.Web.TemplateAccess

/-!
# Submitted templates

`create` and `update` report the exceptions of one class.  The checks of the
header and of the name raise that class; the parser of YAML has its own.
-/

namespace MultipassWebui.Web.CloudInitTemplatesController

open MultipassWebui.Effect
open MultipassWebui.Encoding
open MultipassWebui.Files
open MultipassWebui.Multipass
open MultipassWebui.Multipass.Cloudinit
open MultipassWebui.Records
open MultipassWebui.Text

/-- The two actions that submit a template. -/
inductive Submission where
  | create
  | update
  deriving DecidableEq, Repr

def Submission.action : Submission → Action
  | .create => .create
  | .update => .update

/-- What the audit log calls the submission. -/
def Submission.verb : Submission → String
  | .create => "create_cloud_init_template"
  | .update => "update_cloud_init_template"

/-- The exceptions of `YAML.safe_load`; none of them is an `ArgumentError`. -/
def IsPsych (raised : RubyError) : Prop :=
  raised = .standardError "Psych::SyntaxError" ∨ raised = .standardError "Psych::DisallowedClass" ∨
    raised = .standardError "Psych::BadAlias"

theorem IsPsych.ne_argumentError {raised : RubyError} (psych : IsPsych raised) (message : String) :
    raised ≠ .argumentError message := by
  rcases psych with rfl | rfl | rfl <;> nofun

/-- The first line of the stripped content is the header. -/
def HasFirstLine (content : String) : Prop :=
  stripChars (firstLine (stripChars content.toList)) = HEADER

instance (content : String) : Decidable (HasFirstLine content) :=
  inferInstanceAs (Decidable (_ = _))

section

variable (site : Site) (name : String) (content : String)

/-- The path of the template that a submission is to save, after all checks. -/
def checked : Except RubyError String := do
  let _ ← validateCloudInitYaml site.toText site.yamlError (.string content)
  let dir ← cloudInitDir site
  sanitizeTemplateName site.kernel.toSurroundings dir name

/-- A home that is not known is an argument error, the parser raises its own
exceptions, and the calls that save a template succeed. -/
structure CallsSucceed (disk : Disk) : Prop where
  home : ∀ user raised, site.kernel.home user = .error raised →
    ∃ message, raised = .argumentError message
  yaml : ∀ value raised, site.yamlError value = some raised → IsPsych raised
  files : ∀ dir path, cloudInitDir site = .ok dir →
    sanitizeTemplateName site.kernel.toSurroundings dir name = .ok path →
    ∃ middle count after, mkdirP site.kernel dir disk = (.ok ⟨⟩, middle) ∧
      write site.kernel path (utf8Bytes content) middle = (.ok count, after)

/-- The file holds the content, and the log one row more. -/
structure SavedAndLogged (request : Request) (verb : String) (before after : App Disk)
    (reply : Except RubyError Reply) : Prop where
  noticed : ∃ message, reply = .ok (.notice message)
  saved : ∃ dir path, cloudInitDir site = .ok dir ∧
    Saved site.kernel dir name (utf8Bytes content) after.state path
  logged : ∃ event : Event, after.events = before.events ++ [event] ∧
    event.toEventAttributes =
      httpAttributes request "config" verb (some name) (some "success") none

end

/-- The submission is reported, and nothing has changed. -/
structure Reported (before after : App Disk) (reply : Except RubyError Reply) : Prop where
  alerted : ∃ message, reply = .ok (.alert message)
  unchanged : after = before

/-- A submission is saved or reported, and its content fails the validation with
an argument error only. -/
structure EndsWell (site : Site) (stamp : EventStamp) (request : Request)
    (submission : Submission) (name content : String) (app : App Disk) : Prop where
  ends : SavedAndLogged site name content request submission.verb app
      (perform site stamp request submission.action app).2
      (perform site stamp request submission.action app).1 ∨
    Reported app (perform site stamp request submission.action app).2
      (perform site stamp request submission.action app).1
  validates : ∀ raised,
    validateCloudInitYaml.{0} site.toText site.yamlError (.string content) = .error raised →
      ∃ message, raised = .argumentError message

/-! ## The checks -/

section

variable {site : Site} {name content : String}

/-- The validation rejects a first line, or leaves it to the parser. -/
theorem validateCloudInitYaml_cases (toText : Json → String)
    (yamlError : Json → Option RubyError) (content : String) :
    (¬ HasFirstLine content ∧ ∃ message,
      validateCloudInitYaml.{0} toText yamlError (.string content) =
        .error (.argumentError message)) ∨
    (HasFirstLine content ∧
      validateCloudInitYaml.{0} toText yamlError (.string content) =
        match yamlError (.string content) with
        | some raised => .error raised
        | none => .ok ⟨⟩) := by
  have isFirst : HasFirstLine content ↔ strip (String.ofList
      ((strip content).toList.takeWhile (· ≠ '\n'))) = "#cloud-config" := by
    rw [strip_eq_header_iff, toList_strip]
    rfl
  unfold validateCloudInitYaml
  dsimp only [toS]
  by_cases empty : strip content = ""
  · refine Or.inl ⟨fun first => ?_, _, if_pos empty⟩
    have nothing : stripChars content.toList = [] :=
      (toList_strip content).symm.trans (by rw [empty, String.toList_empty])
    rw [HasFirstLine, nothing] at first
    cases first
  · rw [if_neg empty]
    by_cases first : HasFirstLine content
    · exact Or.inr ⟨first, if_neg (not_not.mpr (isFirst.mp first))⟩
    · exact Or.inl ⟨first, _, if_pos fun same => first (isFirst.mpr same)⟩

/-- Outside of the home directory, expanding a path fails on its characters. -/
theorem expandPath_error {around : Surroundings} {path : String} {raised : RubyError}
    (home : ∀ user raised, around.home user = .error raised →
      ∃ message, raised = .argumentError message)
    (failed : expandPath around path = .error raised) :
    ∃ message, raised = .argumentError message := by
  have fromPlace : ∀ start path, expandFrom start path = .error raised →
      ∃ message, raised = .argumentError message := by
    intro start path failed
    unfold expandFrom at failed
    split at failed
    · cases failed
      exact ⟨_, rfl⟩
    · cases failed
  unfold expandPath at failed
  split at failed
  · rename_i rest _
    cases known : around.home (String.ofList (rest.takeWhile (· ≠ '/'))) with
    | error other =>
        rw [known] at failed
        cases failed
        exact home _ _ known
    | ok directory =>
        rw [known] at failed
        dsimp only [bind, Except.bind] at failed
        split at failed
        · exact fromPlace _ _ failed
        · cases failed
          exact ⟨_, rfl⟩
  · exact fromPlace _ _ failed

/-- The home directory is the only call that the directory of the templates needs. -/
theorem cloudInitDir_error {raised : RubyError}
    (home : ∀ user raised, site.kernel.home user = .error raised →
      ∃ message, raised = .argumentError message)
    (failed : cloudInitDir site = .error raised) : ∃ message, raised = .argumentError message := by
  unfold cloudInitDir at failed
  split at failed
  · cases failed
  · cases expanded : expandPath site.kernel.toSurroundings "~/.multipass-webui/cloud-init" with
    | ok place =>
        rw [expanded] at failed
        cases failed
    | error other =>
        rw [expanded] at failed
        cases failed
        exact expandPath_error home expanded

/-- A name is rejected with an argument error. -/
theorem sanitizeTemplateName_error {around : Surroundings} {dir : String} {raised : RubyError}
    (home : ∀ user raised, around.home user = .error raised →
      ∃ message, raised = .argumentError message)
    (failed : sanitizeTemplateName around dir name = .error raised) :
    ∃ message, raised = .argumentError message := by
  by_cases accepted : Accepted name
  · cases expanded : expandPath around dir with
    | ok base =>
        cases failed.symm.trans (sanitizeName_of_accepted accepted expanded)
    | error other =>
        unfold sanitizeTemplateName sanitizeName at failed
        rw [if_neg accepted.clean.1.1, if_neg accepted.1, if_pos accepted.2, expanded] at failed
        cases failed
        exact expandPath_error home expanded
  · rcases @sanitizeName_of_not_accepted "template" around dir name accepted with
      ⟨message, rejected⟩
    cases failed.symm.trans rejected
    exact ⟨message, rfl⟩

/-- The name has a path in the directory of the templates. -/
def HasPath (site : Site) (name path : String) : Prop :=
  ∃ dir, cloudInitDir site = .ok dir ∧
    sanitizeTemplateName site.kernel.toSurroundings dir name = .ok path

/-- The checks end with an argument error, with an exception of the parser, or
with the path of the template. -/
inductive Checks (site : Site) (name content : String) : Prop where
  | argument (message : String)
      (outcome : checked site name content = .error (.argumentError message))
      (parses : HasFirstLine content → site.yamlError (.string content) = none)
      (noPath : HasFirstLine content → ∀ path, ¬ HasPath site name path)
  | psych (raised : RubyError) (outcome : checked site name content = .error raised)
      (first : HasFirstLine content) (failed : site.yamlError (.string content) = some raised)
  | path (path : String) (outcome : checked site name content = .ok path)
      (first : HasFirstLine content) (parses : site.yamlError (.string content) = none)
      (hasPath : HasPath site name path)

theorem checks (home : ∀ user raised, site.kernel.home user = .error raised →
      ∃ message, raised = .argumentError message) (name content : String) :
    Checks site name content := by
  rcases validateCloudInitYaml_cases site.toText site.yamlError content with
    ⟨noFirst, message, rejected⟩ | ⟨first, validated⟩
  · refine .argument message ?_ (fun first => absurd first noFirst)
      (fun first => absurd first noFirst)
    rw [checked, rejected]
    rfl
  · cases parsed : site.yamlError (.string content) with
    | some raised =>
        rw [parsed] at validated
        refine .psych raised ?_ first parsed
        rw [checked, validated]
        rfl
    | none =>
        rw [parsed] at validated
        have rest : checked site name content = (cloudInitDir site >>= fun dir =>
            sanitizeTemplateName site.kernel.toSurroundings dir name) := by
          rw [checked, validated]
          rfl
        cases configured : cloudInitDir site with
        | error raised =>
            rcases cloudInitDir_error home configured with ⟨message, rfl⟩
            rw [configured] at rest
            refine .argument message rest (fun _ => parsed) ?_
            rintro _ path ⟨dir, isDir, _⟩
            cases configured.symm.trans isDir
        | ok dir =>
            rw [configured] at rest
            cases sanitized : sanitizeTemplateName site.kernel.toSurroundings dir name with
            | ok path =>
                exact .path path (rest.trans sanitized) first parsed ⟨dir, configured, sanitized⟩
            | error raised =>
                rcases sanitizeTemplateName_error home sanitized with ⟨message, rfl⟩
                refine .argument message (rest.trans sanitized) (fun _ => parsed) ?_
                rintro _ path ⟨other, isDir, isPath⟩
                cases configured.symm.trans isDir
                cases sanitized.symm.trans isPath

/-! ## Saving -/

variable {request : Request} {disk : Disk}

theorem saveTemplate_eq (named : param request "name" = .string name)
    (filled : param request "content" = .string content) :
    saveTemplate site request = (do
      let _ ← Exec.ofExcept (validateCloudInitYaml site.toText site.yamlError (.string content))
      let dir ← Exec.ofExcept (cloudInitDir site)
      let _ ← writeCloudInitTemplate site.kernel dir name (utf8Bytes content)
      return name) := by
  unfold saveTemplate
  rw [named, filled]
  rfl

/-- A check that fails leaves the disk alone. -/
theorem saveTemplate_of_error (named : param request "name" = .string name)
    (filled : param request "content" = .string content) {raised : RubyError}
    (failed : checked site name content = .error raised) :
    saveTemplate site request disk = (.error raised, disk) := by
  rw [saveTemplate_eq named filled]
  unfold checked at failed
  cases validated : validateCloudInitYaml site.toText site.yamlError (.string content) with
  | error other =>
      rw [validated] at failed
      cases failed
      rfl
  | ok _ =>
      rw [validated] at failed
      cases configured : cloudInitDir site with
      | error other =>
          rw [configured] at failed
          cases failed
          rfl
      | ok dir =>
          rw [configured] at failed
          have rejected : sanitizeName "template" site.kernel.toSurroundings dir name =
              .error raised := failed
          have written : writeCloudInitTemplate site.kernel dir name (utf8Bytes content) disk =
              (.error raised, disk) := by
            rw [writeCloudInitTemplate, writeNamed,
              Exec.bind_error (by rw [Exec.ofExcept_apply, rejected])]
          exact Exec.bind_error written _

/-- What passes the checks is saved. -/
theorem saveTemplate_of_ok (named : param request "name" = .string name)
    (filled : param request "content" = .string content)
    (succeed : CallsSucceed site name content disk) {path : String}
    (passed : checked site name content = .ok path) :
    ∃ after, saveTemplate site request disk = (.ok name, after) ∧
      ∃ dir path, cloudInitDir site = .ok dir ∧
        Saved site.kernel dir name (utf8Bytes content) after path := by
  unfold checked at passed
  cases validated : validateCloudInitYaml site.toText site.yamlError (.string content) with
  | error other =>
      rw [validated] at passed
      cases passed
  | ok _ =>
      rw [validated] at passed
      cases configured : cloudInitDir site with
      | error other =>
          rw [configured] at passed
          cases passed
      | ok dir =>
          rw [configured] at passed
          have sanitized : sanitizeTemplateName site.kernel.toSurroundings dir name = .ok path :=
            passed
          rcases succeed.files dir path configured sanitized with
            ⟨middle, count, after, made, wrote⟩
          have written : writeCloudInitTemplate site.kernel dir name (utf8Bytes content) disk =
              (.ok count, after) := by
            rw [writeCloudInitTemplate, writeNamed,
              Exec.bind_ok (by rw [Exec.ofExcept_apply]; exact congrArg (·, disk) sanitized),
              Exec.bind_ok made, wrote]
          rcases saved_of_written written with ⟨other, saved⟩
          refine ⟨after, ?_, dir, other, rfl, saved⟩
          rw [saveTemplate_eq named filled, validated, configured]
          exact Exec.bind_ok written _

/-! ## The actions -/

variable {stamp : EventStamp} {app : App Disk}

/-- What an action does about an argument error. -/
def Submission.handler (request : Request) (message : String) :
    Submission → Exec (App Disk) RubyError Reply
  | .create => pure (.alert message)
  | .update =>
      if hasPath (param request "name") then pure (.alert message)
      else Exec.raise (.argumentError "missing required keys: [:name]")

/-- What an action says when a template is saved. -/
def Submission.saying (name : String) : Submission → String
  | .create => "Created " ++ name ++ "."
  | .update => "Saved " ++ name ++ "."

theorem perform_submission (submission : Submission) :
    perform site stamp request submission.action =
      rescueArgument (recorded stamp request submission.verb (saveTemplate site request)
        fun name => submission.saying name) fun message => submission.handler request message := by
  cases submission <;> rfl

/-- A body that raises is not recorded. -/
theorem recorded_of_error {verb : String} {body : Exec Disk RubyError String}
    {notice : String → String} {raised : RubyError}
    (failed : body app.state = (.error raised, app.state)) :
    recorded stamp request verb body notice app = (.error raised, app) := by
  have reached : onState body app = (.error raised, app) := by
    rw [onState_apply, failed]
  rw [recorded, Exec.bind_error reached]

/-- A body that returns is recorded, if the drawn id is unused. -/
theorem recorded_of_ok {verb given : String} {body : Exec Disk RubyError String}
    {notice : String → String} {after : Disk} (returned : body app.state = (.ok given, after)) :
    (Fresh stamp app.events ∧ ∃ event : Event,
      event.toEventAttributes =
        httpAttributes request "config" verb (some given) (some "success") none ∧
      recorded stamp request verb body notice app =
        (.ok (.notice (notice given)), ⟨after, app.events ++ [event]⟩)) ∨
    (¬ Fresh stamp app.events ∧ recorded stamp request verb body notice app =
      (.error (.recordNotUnique "events.id"), ⟨after, app.events⟩)) := by
  have reached : onState body app = (.ok given, { app with state := after }) := by
    rw [onState_apply, returned]
  let entry : AuditEntry := ⟨"config", verb, some given, "success", none⟩
  rw [recorded, Exec.bind_ok reached]
  rcases @emitHttp_cases Disk request stamp { app with state := after } entry rfl rfl with
    ⟨fresh, event, attributes, emitted⟩ | ⟨used, emitted⟩
  · exact Or.inl ⟨fresh, event, attributes, Exec.bind_ok emitted _⟩
  · exact Or.inr ⟨used, Exec.bind_error emitted _⟩

/-- An argument error of a check is handled, and nothing has been done. -/
theorem perform_of_argumentError {submission : Submission}
    (named : param request "name" = .string name)
    (filled : param request "content" = .string content) {message : String}
    (failed : checked site name content = .error (.argumentError message)) :
    perform site stamp request submission.action app =
      submission.handler request message app := by
  have raised := @recorded_of_error request stamp app submission.verb (saveTemplate site request)
    (fun name => submission.saying name) _ (saveTemplate_of_error named filled failed)
  rw [perform_submission, rescueArgument, Exec.rescue_error raised]

/-- Another exception of a check escapes. -/
theorem perform_of_error {submission : Submission} (named : param request "name" = .string name)
    (filled : param request "content" = .string content) {raised : RubyError}
    (failed : checked site name content = .error raised)
    (other : ∀ message, raised ≠ .argumentError message) :
    perform site stamp request submission.action app = (.error raised, app) := by
  have escaped := @recorded_of_error request stamp app submission.verb (saveTemplate site request)
    (fun name => submission.saying name) _ (saveTemplate_of_error named filled failed)
  rw [perform_submission, rescueArgument, Exec.rescue_error escaped]
  split
  · rename_i message isHandled
    split at isHandled
    · exact absurd rfl (other _)
    · cases isHandled
  · rfl

/-- What is saved is recorded, if the drawn id is unused. -/
theorem perform_of_ok {submission : Submission} (named : param request "name" = .string name)
    (filled : param request "content" = .string content)
    (succeed : CallsSucceed site name content app.state) {path : String}
    (passed : checked site name content = .ok path) :
    (Fresh stamp app.events ∧ SavedAndLogged site name content request submission.verb app
        (perform site stamp request submission.action app).2
        (perform site stamp request submission.action app).1) ∨
      ¬ Fresh stamp app.events ∧
        (perform site stamp request submission.action app).1 =
          .error (.recordNotUnique "events.id") := by
  rcases saveTemplate_of_ok named filled succeed passed with ⟨after, returned, dir, other, saved⟩
  rw [perform_submission, rescueArgument]
  rcases @recorded_of_ok request stamp app submission.verb name (saveTemplate site request)
    (fun name => submission.saying name) after returned with
    ⟨fresh, event, attributes, done⟩ | ⟨used, done⟩
  · rw [Exec.rescue_ok done]
    exact Or.inl ⟨fresh, ⟨_, rfl⟩, ⟨dir, other, saved⟩, event, rfl, attributes⟩
  · rw [Exec.rescue_error done]
    exact Or.inr ⟨used, rfl⟩

/-- When a submission ends well: the parser accepts what has the header, the drawn
id is unused when there is something to record, and an update has a name. -/
structure Orderly (site : Site) (stamp : EventStamp) (submission : Submission)
    (name content : String) (events : List Event) : Prop where
  parses : HasFirstLine content → site.yamlError (.string content) = none
  fresh : HasFirstLine content → ∀ path, HasPath site name path → Fresh stamp events
  named : submission = .update → name ≠ ""

theorem not_hasPath_empty (path : String) : ¬ HasPath site "" path := by
  rintro ⟨dir, _, sanitized⟩
  cases sanitized

/-- What the parser accepts is rejected by argument errors only. -/
theorem argumentError_of_parses (parses : HasFirstLine content →
      site.yamlError (.string content) = none) {raised : RubyError}
    (failed : validateCloudInitYaml.{0} site.toText site.yamlError (.string content) =
      .error raised) :
    ∃ message, raised = .argumentError message := by
  rcases validateCloudInitYaml_cases site.toText site.yamlError content with
    ⟨_, message, rejected⟩ | ⟨first, validated⟩
  · cases failed.symm.trans rejected
    exact ⟨message, rfl⟩
  · rw [parses first] at validated
    cases failed.symm.trans validated

/-- An action that raises does not end well. -/
theorem not_endsWell_of_error {submission : Submission} {raised : RubyError}
    (failed : (perform site stamp request submission.action app).1 = .error raised) :
    ¬ EndsWell site stamp request submission name content app := by
  rintro ⟨saved | reported, _⟩
  · rcases saved.noticed with ⟨message, noticed⟩
    cases failed.symm.trans noticed
  · rcases reported.alerted with ⟨message, alerted⟩
    cases failed.symm.trans alerted

theorem hasPath_of_ne_empty (filled : name ≠ "") : hasPath (.string name) = true := by
  unfold hasPath
  split
  · rename_i isNull
    cases isNull
  · rename_i isEmpty
    cases isEmpty
    exact absurd rfl filled
  · rfl

/-- An argument error ends in an alert if an update has a name. -/
theorem handler_of_routed {submission : Submission} (named : param request "name" = .string name)
    (routed : submission = .update → name ≠ "") (message : String) :
    submission.handler request message app = (.ok (.alert message), app) := by
  cases submission with
  | create => rfl
  | update =>
      rw [Submission.handler, named, if_pos (hasPath_of_ne_empty (routed rfl))]
      rfl

end

/-- A submission ends well if and only if it is orderly. -/
theorem endsWell_iff (site : Site) (stamp : EventStamp) (request : Request)
    (submission : Submission) (name content : String) (app : App Disk)
    (named : param request "name" = .string name)
    (filled : param request "content" = .string content)
    (succeed : CallsSucceed site name content app.state) :
    EndsWell site stamp request submission name content app ↔
      Orderly site stamp submission name content app.events := by
  cases checks succeed.home name content with
  | argument message outcome parses noPath =>
      have handled := @perform_of_argumentError site name content request stamp app submission
        named filled message outcome
      have fresh : HasFirstLine content → ∀ path, HasPath site name path →
          Fresh stamp app.events :=
        fun first path isPath => absurd isPath (noPath first path)
      by_cases routed : submission = .update → name ≠ ""
      · rw [handler_of_routed named routed message] at handled
        have alerted : Reported app (perform site stamp request submission.action app).2
            (perform site stamp request submission.action app).1 := by
          rw [handled]
          exact ⟨⟨message, rfl⟩, rfl⟩
        exact iff_of_true ⟨Or.inr alerted, fun _ => argumentError_of_parses parses⟩
          ⟨parses, fresh, routed⟩
      · rw [Classical.not_imp, not_not] at routed
        rcases routed with ⟨rfl, rfl⟩
        have raised : (perform site stamp request Submission.update.action app).1 =
            .error (.argumentError "missing required keys: [:name]") := by
          rw [handled, Submission.handler, named]
          rfl
        exact iff_of_false (not_endsWell_of_error raised) fun orderly => orderly.named rfl rfl
  | psych raised outcome first failed =>
      have psych := succeed.yaml _ _ failed
      have escaped := @perform_of_error site name content request stamp app submission named filled
        raised outcome psych.ne_argumentError
      have notParsed : ¬ Orderly site stamp submission name content app.events := by
        intro orderly
        cases failed.symm.trans (orderly.parses first)
      exact iff_of_false (not_endsWell_of_error (congrArg Prod.fst escaped)) notParsed
  | path path outcome first parses isPath =>
      have routed : submission = .update → name ≠ "" := by
        rintro _ rfl
        exact not_hasPath_empty path isPath
      rcases @perform_of_ok site name content request stamp app submission named filled succeed path
        outcome with ⟨fresh, saved⟩ | ⟨used, failed⟩
      · exact iff_of_true ⟨Or.inl saved, fun _ => argumentError_of_parses fun _ => parses⟩
          ⟨fun _ => parses, fun _ _ _ => fresh, routed⟩
      · exact iff_of_false (not_endsWell_of_error failed) fun orderly =>
          used (orderly.fresh first path isPath)

/-- A request that submits a template. -/
def submitRequest (name content : String) : Request :=
  ⟨"POST", "/cloud_init_templates", .object [("name", .string name), ("content", .string content)]⟩

theorem callsSucceed_installation :
    CallsSucceed installation "web.yml" "#cloud-config\n" installed where
  home := nofun
  yaml := nofun
  files := by
    intro dir path configured sanitized
    cases configured
    have isPath : sanitizeTemplateName installation.kernel.toSurroundings "/data" "web.yml" =
        .ok "/data/web.yml" := by decide +kernel
    cases sanitized.symm.trans isPath
    exact ⟨_, _, _, rfl, rfl⟩

theorem endsWell_iff_web :
    EndsWell installation ⟨0, "00"⟩ (submitRequest "web.yml" "#cloud-config\n") .create "web.yml"
        "#cloud-config\n" ⟨installed, []⟩ ↔
      Orderly installation ⟨0, "00"⟩ .create "web.yml" "#cloud-config\n" [] :=
  endsWell_iff installation ⟨0, "00"⟩ (submitRequest "web.yml" "#cloud-config\n") .create "web.yml"
    "#cloud-config\n" ⟨installed, []⟩ rfl rfl callsSucceed_installation

/-- The parser of the installation meets a list that is not closed. -/
def brokenYaml : Site :=
  { installation with yamlError := fun _ => some (.standardError "Psych::SyntaxError") }

/-- Content with the header that is no YAML makes the action raise. -/
theorem brokenYaml_raises :
    (perform brokenYaml ⟨0, "00"⟩ (submitRequest "web.yml" "#cloud-config\na: [") .create
      ⟨installed, []⟩).1 = .error (.standardError "Psych::SyntaxError") ∧
    ¬ EndsWell brokenYaml ⟨0, "00"⟩ (submitRequest "web.yml" "#cloud-config\na: [") .create
      "web.yml" "#cloud-config\na: [" ⟨installed, []⟩ := by
  have first : HasFirstLine "#cloud-config\na: [" := by decide
  rcases validateCloudInitYaml_cases brokenYaml.toText brokenYaml.yamlError
    "#cloud-config\na: [" with ⟨noFirst, _⟩ | ⟨_, validated⟩
  · exact absurd first noFirst
  · have outcome : checked brokenYaml "web.yml" "#cloud-config\na: [" =
        .error (.standardError "Psych::SyntaxError") := by
      rw [checked, validated]
      rfl
    have escaped := @perform_of_error brokenYaml "web.yml" "#cloud-config\na: ["
      (submitRequest "web.yml" "#cloud-config\na: [") ⟨0, "00"⟩ ⟨installed, []⟩ .create rfl rfl
      (.standardError "Psych::SyntaxError") outcome nofun
    have failed := congrArg Prod.fst escaped
    refine ⟨failed, ?_⟩
    rintro ⟨saved | reported, _⟩
    · rcases saved.noticed with ⟨message, noticed⟩
      cases failed.symm.trans noticed
    · rcases reported.alerted with ⟨message, alerted⟩
      cases failed.symm.trans alerted

end MultipassWebui.Web.CloudInitTemplatesController
