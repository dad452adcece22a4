import MultipassWebui.Effect.Fallible
import MultipassWebui.Multipass.Names
import MultipassWebui.Text.Lines

/-!
# The status of cloud-init

What `get_cloud_init_status` makes of the answers of its two commands.  The lookups
after the parsing are not rescued, so that the shape of the document decides whether
there is a status at all.
-/

namespace MultipassWebui.Multipass

open MultipassWebui.Effect
open MultipassWebui.Encoding
open MultipassWebui.Text

/-! ## Documents -/

/-- A document in which the status can be looked up: an object, or a text that does not
hold the key. -/
def HasLookup : Json → Prop
  | .object _ => True
  | .string text => ¬ "status".toList <:+: text.toList
  | _ => False

/-- The status that a document stands for. -/
def statusOf : Json → Json
  | .object fields =>
      let entry := fun key => ((Json.object fields).field? key).getD .null
      Value.orDefault (Value.presence (entry "extended_status"))
        (Value.orDefault (entry "status") (.string "pending"))
  | _ => .string "pending"

/-- What the first command returned, or nothing if it failed, as a status. -/
def expectedStatus (env : Environment) (answer : Option String) : Json :=
  match answer with
  | none => .string "pending"
  | some text =>
      if text = "" then .string "pending"
      else
        match env.parseJson text with
        | .ok document => statusOf document
        | .error _ => .string "pending"

/-- What the second command returned, if it was issued. -/
def expectedOutput (first second : Option String) : Option String :=
  match first with
  | none => none
  | some _ => second.filter fun text => text ≠ ""

/-- The first command failed, or it printed nothing, no document, or a document in which
the status can be looked up. -/
def Readable (env : Environment) (answer : Option String) : Prop :=
  ∀ text document, answer = some text → text ≠ "" → env.parseJson text = .ok document →
    HasLookup document

/-! ## The lookups -/

variable {env : Environment}

/-- `"status"` is part of `"extended_status"`. -/
theorem not_infix_extended {text : List Char} (absent : ¬ "status".toList <:+: text) :
    ¬ "extended_status".toList <:+: text := by
  intro extended
  apply absent
  have part : "status".toList <:+: "extended_status".toList := by decide
  exact part.trans extended

/-- The lookups in a document return its status, or they raise, or the document is a text
that holds the key and they return the key. -/
theorem readStatus_document {text : String} {document : Json} (given : strip text ≠ "")
    (parsed : env.parseJson text = .ok document) :
    (HasLookup document → ∃ result, readStatus env text = .ok result ∧
      result.status = statusOf document) ∧
    (¬ HasLookup document → ∀ result, readStatus env text = .ok result →
      result.status ≠ statusOf document) := by
  rw [readStatus, if_neg given, parsed]
  cases document with
  | null => exact ⟨False.elim, fun _ _ returned => by cases returned⟩
  | bool value => exact ⟨False.elim, fun _ _ returned => by cases returned⟩
  | number value => exact ⟨False.elim, fun _ _ returned => by cases returned⟩
  | array items => exact ⟨False.elim, fun _ _ returned => by cases returned⟩
  | object fields => exact ⟨fun _ => ⟨_, rfl, rfl⟩, fun absent => absurd trivial absent⟩
  | string content =>
      constructor
      · intro absent
        refine ⟨_, rfl, ?_⟩
        change Value.orDefault (Value.presence (if _ then _ else _))
          (Value.orDefault (if _ then _ else _) _) = _
        rw [if_neg (not_infix_extended absent), if_neg absent]
        rfl
      · intro held result returned
        rcases Except.ok.inj returned with rfl
        change Value.orDefault (Value.presence (if _ then _ else _))
          (Value.orDefault (if _ then _ else _) _) ≠ Json.string "pending"
        rw [if_pos (not_not.mp held)]
        by_cases extended : "extended_status".toList <:+: content.toList
        · rw [if_pos extended]
          intro same
          have key : Value.orDefault (Value.presence (.string "extended_status"))
              (Value.orDefault (.string "status") CloudInitStatus.pending.status) =
                .string "extended_status" := rfl
          rw [key] at same
          exact absurd (Json.string.inj same) (by decide)
        · rw [if_neg extended]
          intro same
          exact absurd (Json.string.inj same) (by decide)

theorem readStatus_no_document {text : String} {raised : RubyError} (given : strip text ≠ "")
    (refused : env.parseJson text = .error raised) :
    ∃ result, readStatus env text = .ok result ∧ result.status = .string "pending" := by
  rw [readStatus, if_neg given, refused]
  exact ⟨_, rfl, rfl⟩

/-- The output is not among what the first command says. -/
theorem output_readStatus {text : String} {result : CloudInitStatus}
    (returned : readStatus env text = .ok result) : result.output = none := by
  rw [readStatus] at returned
  split at returned
  · rw [← Except.ok.inj returned]
    rfl
  · rcases bind_eq_ok_iff.mp returned with ⟨_, _, afterExtended⟩
    rcases bind_eq_ok_iff.mp afterExtended with ⟨_, _, afterStatus⟩
    rcases bind_eq_ok_iff.mp afterStatus with ⟨_, _, afterDetail⟩
    rcases bind_eq_ok_iff.mp afterDetail with ⟨_, _, afterErrors⟩
    rw [← Except.ok.inj afterErrors]

/-- What the first command printed is read as expected exactly if it is readable. -/
theorem readStatus_iff {text : String} (stripped : strip text = text) :
    (∃ result, readStatus env text = .ok result ∧
        result.status = expectedStatus env (some text)) ↔
      Readable env (some text) := by
  by_cases empty : text = ""
  · subst empty
    constructor
    · intro _ other document isText given
      exact absurd (Option.some.inj isText).symm given
    · intro _
      exact ⟨.pending, rfl, rfl⟩
  · have given : strip text ≠ "" := by rwa [stripped]
    rw [expectedStatus, if_neg empty]
    cases parsed : env.parseJson text with
    | error raised =>
        constructor
        · intro _ other document isText _ isDocument
          rcases Option.some.inj isText with rfl
          rw [parsed] at isDocument
          cases isDocument
        · intro _
          exact readStatus_no_document given parsed
    | ok document =>
        have outcome := readStatus_document given parsed
        constructor
        · rintro ⟨result, returned, isStatus⟩ other otherDocument isText _ isDocument
          rcases Option.some.inj isText with rfl
          rw [parsed] at isDocument
          rcases Except.ok.inj isDocument with rfl
          by_contra unreadable
          exact outcome.2 unreadable result returned isStatus
        · intro readable
          exact outcome.1 (readable text document rfl empty parsed)

/-! ## The commands -/

/-- What a command returns to its caller, if it succeeds. -/
def answer (env : Environment) (position : Nat) (argv : List Word) : Option String :=
  match env.runner position (argv.map Word.text) with
  | .ok ⟨stdout, _, true, _⟩ => some (strip stdout)
  | _ => none

theorem strip_of_answer {position : Nat} {argv : List Word} {text : String}
    (answered : answer env position argv = some text) : strip text = text := by
  rw [answer] at answered
  split at answered
  · rw [← Option.some.inj answered, strip_strip]
  · cases answered

/-- The command is run: it fails with an exit status or it returns its output. -/
def Runs (env : Environment) (position : Nat) (argv : List Word) : Prop :=
  ∃ result, env.runner position (argv.map Word.text) = .ok result

theorem run_of_runs {host : Host} {argv : List Word} (runs : Runs env host.commands.length argv) :
    (∃ text, answer env host.commands.length argv = some text ∧
      run env argv host = (.ok text, host.issue argv true)) ∨
    (answer env host.commands.length argv = none ∧
      ∃ message, run env argv host = (.error (.commandError message), host.issue argv false)) := by
  rcases runs with ⟨⟨stdout, stderr, _ | _, exitstatus⟩, ran⟩
  · refine Or.inr ⟨by rw [answer, ran],
      commandMessage (argv.map Word.text) exitstatus stderr, Exec.bind_error ?_ _⟩
    rw [capture, ran]
  · refine Or.inl ⟨strip stdout, by rw [answer, ran], Exec.bind_ok ?_ _⟩
    rw [capture, ran]

/-- The argv of a script inside a machine. -/
def shellArgv (vmName script : String) : List Word :=
  [.literal "exec", .given vmName, .literal "--", .literal "sh", .literal "-c", .literal script]

/-- The first command, which asks for the status. -/
def statusArgv (vmName : String) : List Word :=
  shellArgv vmName "cloud-init status --format json 2>/dev/null; exit 0"

/-- The second command, which asks for the end of the log. -/
def logArgv (vmName : String) : List Word :=
  shellArgv vmName "tail -n 50 /var/log/cloud-init-output.log 2>/dev/null; exit 0"

/-- The result does not depend on which of the two commands fails, but on what they
return: the status on the first, the output on the second. -/
def FollowsAnswers (env : Environment) (vmName : String) (host : Host) : Prop :=
  let first := answer env host.commands.length (statusArgv vmName)
  let second := answer env (host.commands.length + 1) (logArgv vmName)
  ∃ result after, getCloudInitStatus env (.string vmName) host = (.ok result, after) ∧
    result.status = expectedStatus env first ∧ result.output = expectedOutput first second

variable {vmName : String} {host : Host}

/-- The rescue of a failed command. -/
def otherwise {α : Type} (fallback : α) (error : RubyError) : Option (Exec Host RubyError α) :=
  if error.isCommandError then some (pure fallback) else none

/-- A script whose failure is rescued; `body` wraps what it returns. -/
theorem rescued_run {α : Type} {argv : List Word} (runs : Runs env host.commands.length argv)
    (wrap : String → α) (fallback : α) {body : Exec Host RubyError α}
    (returns : ∀ text after, run env argv host = (.ok text, after) →
      body host = (.ok (wrap text), after))
    (raises : ∀ raised after, run env argv host = (.error raised, after) →
      body host = (.error raised, after)) :
    ∃ succeeded, Exec.rescue body (otherwise fallback) host =
      (.ok (((answer env host.commands.length argv).map wrap).getD fallback),
        host.issue argv succeeded) := by
  rcases run_of_runs runs with ⟨text, answered, ran⟩ | ⟨unanswered, message, ran⟩
  · refine ⟨true, ?_⟩
    rw [answered]
    exact Exec.rescue_ok (returns text _ ran) _
  · refine ⟨false, ?_⟩
    rw [unanswered, Exec.rescue_error (raises _ _ ran)]
    rfl

theorem rescued_status (runs : Runs env host.commands.length (statusArgv vmName)) :
    ∃ succeeded, Exec.rescue
        (do return some (← shell env vmName
          "cloud-init status --format json 2>/dev/null; exit 0"))
        (otherwise none) host =
      (.ok (answer env host.commands.length (statusArgv vmName)),
        host.issue (statusArgv vmName) succeeded) := by
  have rescued := rescued_run runs some none (fun _ _ ran => Exec.bind_ok ran _)
    (fun _ _ ran => Exec.bind_error ran _)
  have whole : ((answer env host.commands.length (statusArgv vmName)).map some).getD none =
      answer env host.commands.length (statusArgv vmName) := by
    cases answer env host.commands.length (statusArgv vmName) with
    | none => rfl
    | some text => rfl
  rw [whole] at rescued
  exact rescued

theorem rescued_log (runs : Runs env host.commands.length (logArgv vmName)) :
    ∃ succeeded, Exec.rescue
        (shell env vmName "tail -n 50 /var/log/cloud-init-output.log 2>/dev/null; exit 0")
        (otherwise "") host =
      (.ok ((answer env host.commands.length (logArgv vmName)).getD ""),
        host.issue (logArgv vmName) succeeded) := by
  have rescued := rescued_run runs id "" (fun _ _ ran => ran) (fun _ _ ran => ran)
  rw [Option.map_id] at rescued
  exact rescued

/-- Without an answer to the first command the status is pending. -/
theorem getCloudInitStatus_of_none (valid : IsVmName vmName)
    (runs : Runs env host.commands.length (statusArgv vmName))
    (unanswered : answer env host.commands.length (statusArgv vmName) = none) :
    ∃ after, getCloudInitStatus env (.string vmName) host = (.ok .pending, after) := by
  rcases rescued_status runs with ⟨succeeded, rescued⟩
  rw [unanswered] at rescued
  refine ⟨host.issue (statusArgv vmName) succeeded, ?_⟩
  rw [getCloudInitStatus, validateVmName_of_valid valid, Exec.pure_bind]
  exact Exec.bind_ok rescued _

/-- The result with what the second command returned. -/
def withLog (logOutput : Option String) (result : CloudInitStatus) : CloudInitStatus :=
  { result with output :=
      if logOutput.getD "" = "" then result.output else some (logOutput.getD "") }

theorem output_withLog {result : CloudInitStatus} (unset : result.output = none) (text : String)
    (log : Option String) : (withLog log result).output = expectedOutput (some text) log := by
  rw [withLog, unset, expectedOutput]
  cases log with
  | none => rfl
  | some log =>
      by_cases empty : log = ""
      · subst empty
        rfl
      · rw [Option.filter_some, Option.getD_some, if_neg empty, if_pos (by simp [empty])]

/-- With an answer it is what the answer reads as, and the output is added. -/
theorem getCloudInitStatus_of_some (valid : IsVmName vmName)
    (runs : Runs env host.commands.length (statusArgv vmName))
    (runsLog : Runs env (host.commands.length + 1) (logArgv vmName)) {text : String}
    (answered : answer env host.commands.length (statusArgv vmName) = some text) :
    ∃ after, getCloudInitStatus env (.string vmName) host =
      ((readStatus env text).map
        (withLog (answer env (host.commands.length + 1) (logArgv vmName))), after) := by
  rcases rescued_status runs with ⟨succeeded, rescued⟩
  rw [answered] at rescued
  have length : (host.issue (statusArgv vmName) succeeded).commands.length =
      host.commands.length + 1 := by
    rw [Host.issue, List.length_append]
    rfl
  rw [← length] at runsLog ⊢
  rcases rescued_log runsLog with ⟨logSucceeded, rescuedLog⟩
  rw [getCloudInitStatus, validateVmName_of_valid valid, Exec.pure_bind]
  cases outcome : readStatus env text with
  | error raised =>
      refine ⟨host.issue (statusArgv vmName) succeeded, (Exec.bind_ok rescued _).trans ?_⟩
      apply Exec.bind_error
      rw [outcome, Exec.ofExcept_apply]
  | ok result =>
      refine ⟨(host.issue (statusArgv vmName) succeeded).issue (logArgv vmName) logSucceeded,
        (Exec.bind_ok rescued _).trans ?_⟩
      have returned : (Exec.ofExcept (readStatus env text) :
          Exec Host RubyError CloudInitStatus) (host.issue (statusArgv vmName) succeeded) =
          (.ok result, host.issue (statusArgv vmName) succeeded) := by
        rw [outcome, Exec.ofExcept_apply]
      refine (Exec.bind_ok returned _).trans ?_
      exact Exec.bind_ok rescuedLog _

/-- For a valid name and commands that run, there is a status, and it follows their
answers, exactly if the first answer is readable. -/
theorem getCloudInitStatus_follows_iff (valid : IsVmName vmName)
    (runs : Runs env host.commands.length (statusArgv vmName))
    (runsLog : Runs env (host.commands.length + 1) (logArgv vmName)) :
    FollowsAnswers env vmName host ↔
      Readable env (answer env host.commands.length (statusArgv vmName)) := by
  rw [FollowsAnswers]
  cases answered : answer env host.commands.length (statusArgv vmName) with
  | none =>
      rcases getCloudInitStatus_of_none valid runs answered with ⟨after, returned⟩
      constructor
      · intro _ text _ isText
        cases isText
      · intro _
        exact ⟨.pending, after, returned, rfl, rfl⟩
  | some text =>
      rcases getCloudInitStatus_of_some valid runs runsLog answered with ⟨after, whole⟩
      rw [← readStatus_iff (strip_of_answer answered), whole]
      constructor
      · rintro ⟨result, other, returned, isStatus, _⟩
        cases isRead : readStatus env text with
        | error raised =>
            rw [isRead] at returned
            cases returned
        | ok read =>
            rw [isRead] at returned
            cases returned
            exact ⟨read, rfl, isStatus⟩
      · rintro ⟨read, isRead, isStatus⟩
        rw [isRead]
        have unset := output_readStatus isRead
        exact ⟨_, after, rfl, isStatus, output_withLog unset text _⟩

/-- A machine whose commands print one text, which parses as a document. -/
def printing (stdout : String) (document : Json) : Environment :=
  { quietEnvironment with
    runner := fun _ _ => .ok ⟨stdout, "", true, 0⟩
    parseJson := fun text =>
      if text = stdout then .ok document else .error (.standardError "unexpected token") }

/-- A machine on which cloud-init is done. -/
theorem getCloudInitStatus_follows_iff_done :
    ∃ result after, getCloudInitStatus
        (printing "\x7b\"status\": \"done\"\x7d" (.object [("status", .string "done")]))
        (.string "web") freshHost = (.ok result, after) ∧
      result.status = .string "done" := by
  have valid : IsVmName "web" := (vmNamePattern_iff _).mp (by decide)
  have follows := (@getCloudInitStatus_follows_iff
    (printing "\x7b\"status\": \"done\"\x7d" (.object [("status", .string "done")])) "web"
    freshHost valid ⟨_, rfl⟩ ⟨_, rfl⟩).mpr
  have readable : Readable (printing "\x7b\"status\": \"done\"\x7d"
      (.object [("status", .string "done")])) (some "\x7b\"status\": \"done\"\x7d") := by
    rintro text document ⟨⟩ _ ⟨⟩
    trivial
  rcases follows readable with ⟨result, after, returned, isStatus, _⟩
  exact ⟨result, after, returned, isStatus⟩

/-- An answer that is an array, on which the lookup raises. -/
theorem array_raises :
    ¬ ∀ (env : Environment) (vmName : String) (host : Host), IsVmName vmName →
      Runs env host.commands.length (statusArgv vmName) →
      Runs env (host.commands.length + 1) (logArgv vmName) →
      ∃ result, (getCloudInitStatus env (.string vmName) host).1 = .ok result := by
  intro always
  have valid : IsVmName "web" := (vmNamePattern_iff _).mp (by decide)
  rcases always (printing "[]" (.array [])) "web" freshHost valid ⟨_, rfl⟩ ⟨_, rfl⟩ with
    ⟨result, returned⟩
  cases returned

end MultipassWebui.Multipass
