import MultipassWebui.Multipass.Bulk
import MultipassWebui.Web.VmsController

/-!
# The audit rows of the virtual machines

A request that changed something through multipass is to leave a row in the
audit log.  When it does is read off the answers of the runner: an action with
one command writes its row after the command, three commands in a row may stop
half way, and the actions on all machines write none.
-/

namespace MultipassWebui.Web

open MultipassWebui.Effect
open MultipassWebui.Effect.Value (nilOrEmpty givenAndNotEmpty)
open MultipassWebui.Encoding
open MultipassWebui.Multipass
open MultipassWebui.Records

/-- The verbs that change a machine. -/
def STATE_CHANGING : List String :=
  ["launch", "delete", "start", "stop", "suspend", "recover", "clone", "set", "purge"]

def verb (argv : List Word) : String := (argv.map Word.text).headD ""

/-- A command that changed something. -/
def changes (command : Command) : Bool :=
  command.succeeded && STATE_CHANGING.contains (verb command.argv)

/-- A command that was added changed something. -/
def Changed (before after : Host) : Prop :=
  ∃ added, after.commands = before.commands ++ added ∧ ∃ command ∈ added, changes command = true

/-- A row for an action on machines was appended. -/
def Recorded (action : String) (before after : List Event) : Prop :=
  ∃ added, after = before ++ added ∧ ∃ event ∈ added, event.category = "vm" ∧ event.action = action

section

variable {before after : Host}

theorem changed_none (same : after.commands = before.commands) : ¬ Changed before after := by
  rintro ⟨added, commands, command, member, _⟩
  obtain rfl := List.append_cancel_left
    ((List.append_nil before.commands).trans (same.symm.trans commands))
  cases member

theorem changed_one {command : Command} (issued : after.commands = before.commands ++ [command]) :
    Changed before after ↔ changes command = true := by
  constructor
  · rintro ⟨added, commands, other, member, changed⟩
    obtain rfl := List.append_cancel_left (issued.symm.trans commands)
    rwa [List.mem_singleton.mp member] at changed
  · exact fun changed => ⟨[command], issued, command, List.mem_singleton.mpr rfl, changed⟩

theorem not_recorded (action : String) (events : List Event) : ¬ Recorded action events events := by
  rintro ⟨added, extended, event, member, _⟩
  obtain rfl := List.append_cancel_left ((List.append_nil events).trans extended)
  cases member

end

namespace VmsController

/-- The action that the row is about. -/
def Action.event : Action → String
  | create => "create"
  | destroy => "delete"
  | start => "start"
  | stop => "stop"
  | suspend => "suspend"
  | recover => "recover"
  | clone => "clone"
  | updateResourceConfig => "resize"
  | startAll => "start_all"
  | stopAll => "stop_all"
  | purge => "purge"

section

variable (env : Environment) (stamp : EventStamp) (request : Request)

/-- A request that changed something left a row for its action. -/
def AuditComplete (action : Action) (app : App Host) : Prop :=
  Changed app.state (perform env stamp request action app).2.state →
    Recorded action.event app.events (perform env stamp request action app).2.events

/-! ## One command -/

/-- The command of an action that issues one. -/
def Issued (host : Host) (action : Action) (argv : List Word) : Prop :=
  match action with
  | .create => ∃ arguments name flags release, launchArguments request = .ok arguments ∧
      LaunchesAs env arguments.name name ∧ StagesAs env host arguments.cloudInitFile flags ∧
      ReleasesAs arguments.release release ∧ argv = launchArgv env arguments name flags release
  | .destroy => ∃ text, Named (param request "name") text ∧
      argv = [.literal "delete", .given text] ++
        if castBoolean (param request "purge") then [.literal "--purge"] else []
  | .start => ∃ text, Named (param request "name") text ∧ argv = [.literal "start", .given text]
  | .stop => ∃ text, Named (param request "name") text ∧ argv = [.literal "stop", .given text]
  | .suspend => ∃ text, Named (param request "name") text ∧
      argv = [.literal "suspend", .given text]
  | .recover => ∃ text, Named (param request "name") text ∧
      argv = [.literal "recover", .given text]
  | .clone => ∃ text, Named (param request "name") text ∧
      ((givenAndNotEmpty (Value.presence (param request "dest_name")) = .ok false ∧
          argv = [.literal "clone", .given text]) ∨
        ∃ dest, Named (Value.presence (param request "dest_name")) dest ∧
          argv = [.literal "clone", .given text, .literal "--name", .given dest])
  | .purge => argv = [.literal "purge"]
  | .updateResourceConfig | .startAll | .stopAll => False

/-- A call of the client that issues one command and raises unless it succeeds,
or raises before it issues any. -/
def IssuesOne {α : Type} (body : Exec Host RubyError α) (host : Host)
    (issued : List Word → Prop) : Prop :=
  (∃ argv, issued argv ∧ (∀ other, issued other → other = argv) ∧
      (body host).2.commands =
        host.commands ++ [⟨argv, succeeds env host.commands.length argv⟩] ∧
      if succeeds env host.commands.length argv then ∃ value, (body host).1 = .ok value
      else ∃ raised, (body host).1 = .error raised) ∨
    (∀ argv, ¬ issued argv) ∧ (body host).2.commands = host.commands ∧
      ∃ raised, (body host).1 = .error raised

section

variable {env stamp request} {α : Type} {app : App Host} {body : Exec Host RubyError α}

/-- What an action leaves behind whose call of the client raised. -/
theorem rescue_raised {after : Host} {raised : RubyError}
    (next : α → Exec (App Host) RubyError PUnit)
    {handler : RubyError → Option (Exec (App Host) RubyError PUnit)}
    (quiet : ∀ error, ∀ handled ∈ handler error, ∀ app, (handled app).2.state = app.state)
    (failed : body app.state = (.error raised, after)) :
    (Exec.rescue (onState body >>= next) handler app).2.state = after := by
  have program : (onState body >>= next) app = (.error raised, { app with state := after }) := by
    rw [Exec.bind_apply, onState_apply, failed]
  rw [Exec.rescue_error program]
  cases handles : handler raised with
  | none => rfl
  | some handled => exact quiet raised handled handles _

/-- A handler that only renders leaves everything as the body left it. -/
theorem rescueCommand_state (program : Exec (App Host) RubyError PUnit) :
    (rescueCommand program (fun _ => pure ⟨⟩) app).2 = (program app).2 := by
  unfold rescueCommand
  rcases ran : program app with ⟨outcome, after⟩
  cases outcome with
  | ok value => rw [Exec.rescue_ok ran]
  | error raised =>
      rw [Exec.rescue_error ran]
      cases raised <;> rfl

/-- An action that writes its row after its command is complete unless the
command succeeds and the id of the row is taken. -/
theorem complete_one_iff {issued : List Word → Prop} (one : IssuesOne env body app.state issued)
    (changing : ∀ argv, issued argv → STATE_CHANGING.contains (verb argv) = true)
    {handler : RubyError → Option (Exec (App Host) RubyError PUnit)}
    (quiet : ∀ error, ∀ handled ∈ handler error, ∀ app, (handled app).2.state = app.state)
    (passes : handler (.recordNotUnique "events.id") = none) (action : String)
    (resource detail : α → Option String) {program : Exec (App Host) RubyError PUnit}
    (shape : program = Exec.rescue (do
      let value ← onState body
      emitHttp stamp request "vm" action (resource value) (some "success") (detail value))
      handler) :
    (Changed app.state (program app).2.state → Recorded action app.events (program app).2.events) ↔
      ∀ argv, issued argv → succeeds env app.state.commands.length argv = true →
        Fresh stamp app.events := by
  subst shape
  rcases one with ⟨argv, isIssued, unique, commands, outcome⟩ | ⟨none, commands, raised, failed⟩
  · cases success : succeeds env app.state.commands.length argv with
    | true =>
        rw [success] at commands
        obtain ⟨value, returned⟩ := by simpa only [success, if_true] using outcome
        have ran : onState body app = (.ok value, { app with state := (body app.state).2 }) := by
          rw [onState_apply, returned]
        have changed : changes ⟨argv, true⟩ = true := changing argv isIssued
        have bound := Exec.bind_ok ran fun value =>
          emitHttp stamp request "vm" action (resource value) (some "success") (detail value)
        by_cases fresh : Fresh stamp app.events
        · refine ⟨fun _ _ _ _ => fresh, fun _ _ => ?_⟩
          have emitted := emitHttp_of_fresh { app with state := (body app.state).2 }
            request action (resource value) (detail value)
                (show CATEGORIES.contains "vm" = true by decide)
            (show RESULTS.contains "success" = true by decide) fresh
          have program := Exec.rescue_ok (bound.trans emitted) handler
          rw [program]
          exact ⟨_, rfl, _, List.mem_singleton.mpr rfl, rfl, rfl⟩
        · have emitted := emitHttp_of_used { app with state := (body app.state).2 }
            request action (resource value) (detail value)
                (show CATEGORIES.contains "vm" = true by decide)
            (show RESULTS.contains "success" = true by decide) fresh
          have program := Exec.rescue_error (bound.trans emitted) handler
          rw [passes] at program
          rw [program]
          constructor
          · intro complete
            exact absurd (complete ((changed_one commands).mpr changed)) (not_recorded _ _)
          · intro free
            exact absurd (free argv isIssued success) fresh
    | false =>
        rw [success] at commands
        obtain ⟨raised, failed⟩ := by
          simpa only [success, Bool.false_eq_true, if_false] using outcome
        rw [rescue_raised _ quiet (Prod.ext failed rfl), changed_one commands]
        refine ⟨fun _ other isOther succeeded => ?_, fun _ changed => by cases changed⟩
        rw [unique other isOther, success] at succeeded
        cases succeeded
  · rw [rescue_raised _ quiet (Prod.ext failed rfl)]
    exact ⟨fun _ argv isIssued => absurd isIssued (none argv),
      fun _ changed => absurd changed (changed_none commands)⟩

theorem withVmName_valid {text : String} (named : Named (param request "name") text)
    (body : Json → Exec (App Host) RubyError PUnit) :
    withVmName request body = body (param request "name") :=
  if_pos (validVmName_iff.mpr ⟨text, named⟩)

theorem withVmName_invalid (invalid : ¬ ∃ text, Named (param request "name") text)
    (body : Json → Exec (App Host) RubyError PUnit) : withVmName request body = pure ⟨⟩ :=
  if_neg fun valid => invalid (validVmName_iff.mp valid)

/-! ## The commands of each action -/

theorem Named.unique {name : Json} {text other : String} (named : Named name text)
    (otherNamed : Named name other) : other = text :=
  Json.string.inj (otherNamed.1.symm.trans named.1)

theorem run_outcome (argv : List Word) (host : Host) :
    (run env argv host).2.commands =
        host.commands ++ [⟨argv, succeeds env host.commands.length argv⟩] ∧
      if succeeds env host.commands.length argv then ∃ value, (run env argv host).1 = .ok value
      else ∃ raised, (run env argv host).1 = .error raised := by
  cases success : succeeds env host.commands.length argv with
  | true =>
      obtain ⟨stdout, ran⟩ := run_of_success success
      rw [ran]
      exact ⟨rfl, stdout, rfl⟩
  | false =>
      obtain ⟨raised, ran⟩ := run_of_failure success
      rw [ran]
      exact ⟨rfl, raised, rfl⟩

/-- A call that validates a name and then issues one command. -/
theorem issuesOne_validated {β : Type} {name : Json} {next : String → Exec Host RubyError β}
    {issued : String → List Word → Prop} {host : Host}
    (one : ∀ text, Named name text → IssuesOne env (next text) host (issued text)) :
    IssuesOne env (NameValidator.validateVmName name >>= next) host
      fun argv => ∃ text, Named name text ∧ issued text argv := by
  by_cases valid : ∃ text, Named name text
  · obtain ⟨text, named⟩ := valid
    have only : ∀ argv, (∃ text, Named name text ∧ issued text argv) ↔ issued text argv := by
      intro argv
      refine ⟨?_, fun isIssued => ⟨text, named, isIssued⟩⟩
      rintro ⟨other, otherNamed, isIssued⟩
      rwa [Named.unique named otherNamed] at isIssued
    have after := one text named
    rw [named.1, validateVmName_of_valid named.2, Exec.pure_bind]
    rw [← named.1]
    simpa only [IssuesOne, only] using after
  · obtain ⟨shown, raises⟩ :=
      validateVmName_of_invalid fun text isText isName => valid ⟨text, isText, isName⟩
    rw [raises]
    exact Or.inr ⟨fun argv ⟨text, named, _⟩ => valid ⟨text, named⟩, rfl, _, rfl⟩

theorem issuesOne_run (argv : List Word) (host : Host) :
    IssuesOne env (run env argv) host fun issued => issued = argv :=
  Or.inl ⟨argv, rfl, fun _ same => same, run_outcome argv host⟩

theorem IssuesOne.of_iff {body : Exec Host RubyError α} {host : Host}
    {issued other : List Word → Prop} (one : IssuesOne env body host issued)
    (same : ∀ argv, other argv ↔ issued argv) : IssuesOne env body host other := by
  simpa only [IssuesOne, same] using one

/-- What is returned after the command does not matter. -/
theorem IssuesOne.returning {β : Type} {body : Exec Host RubyError α} {host : Host}
    {issued : List Word → Prop} (one : IssuesOne env body host issued) (value : β) :
    IssuesOne env (body >>= fun _ => pure value) host issued := by
  have state := congrArg Prod.snd (Exec.bind_pure_apply body (fun _ => value) host)
  have outcome := congrArg Prod.fst (Exec.bind_pure_apply body (fun _ => value) host)
  unfold IssuesOne
  rw [state, outcome]
  rcases one with ⟨argv, isIssued, unique, commands, answered⟩ | ⟨none, commands, raised, failed⟩
  · refine Or.inl ⟨argv, isIssued, unique, commands, ?_⟩
    by_cases success : succeeds env host.commands.length argv = true
    · rw [if_pos success] at answered ⊢
      obtain ⟨returned, same⟩ := answered
      exact ⟨value, by rw [same]; rfl⟩
    · rw [if_neg success] at answered ⊢
      obtain ⟨raised, same⟩ := answered
      exact ⟨raised, by rw [same]; rfl⟩
  · exact Or.inr ⟨none, commands, raised, by rw [failed]; rfl⟩

theorem issuesOne_cloneVm {source destName : Json} (host : Host) :
    IssuesOne env (cloneVm env source destName) host fun argv => ∃ text, Named source text ∧
      ((givenAndNotEmpty destName = .ok false ∧ argv = [.literal "clone", .given text]) ∨
        ∃ dest, Named destName dest ∧
          argv = [.literal "clone", .given text, .literal "--name", .given dest]) := by
  refine issuesOne_validated fun text named => ?_
  have given : ∀ {dest}, Named destName dest → givenAndNotEmpty destName = .ok true := by
    rintro dest ⟨rfl, destNamed⟩
    have nonempty : nilOrEmpty (.string dest) = .ok false :=
      congrArg Except.ok (decide_eq_false destNamed.ne_empty)
    refine (if_pos rfl).trans ?_
    rw [nonempty]
    rfl
  cases wanted : givenAndNotEmpty destName with
  | error raised =>
      refine Or.inr ⟨?_, rfl, raised, rfl⟩
      rintro argv (⟨omitted, _⟩ | ⟨dest, destNamed, _⟩)
      · cases omitted
      · cases wanted.symm.trans (given destNamed)
  | ok isGiven =>
      cases isGiven with
      | true =>
          show IssuesOne env (NameValidator.validateVmName destName >>= fun dest =>
            run env [.literal "clone", .given text, .literal "--name", .given dest] >>= fun _ =>
              pure destName) host _
          refine IssuesOne.of_iff
            (issuesOne_validated fun dest _ => (issuesOne_run _ host).returning destName) ?_
          intro argv
          refine ⟨?_, Or.inr⟩
          rintro (⟨omitted, _⟩ | both)
          · cases omitted
          · exact both
      | false =>
          show IssuesOne env (run env [.literal "clone", .given text] >>= fun _ =>
            pure destName) host _
          apply IssuesOne.of_iff ((issuesOne_run _ host).returning destName)
          intro argv
          refine ⟨?_, fun same => Or.inl ⟨rfl, same⟩⟩
          rintro (⟨_, same⟩ | ⟨dest, destNamed, _⟩)
          · exact same
          · cases wanted.symm.trans (given destNamed)

theorem issuesOne_launchVm {arguments : LaunchArguments} (host : Host) :
    IssuesOne env (launchVm env arguments) host fun argv => ∃ name flags release,
      LaunchesAs env arguments.name name ∧ StagesAs env host arguments.cloudInitFile flags ∧
      ReleasesAs arguments.release release ∧
      argv = launchArgv env arguments name flags release := by
  rcases launchVm_apply env host arguments with
    ⟨name, flags, release, named, staged, released, commands, outcome⟩ | ⟨none, commands, failed⟩
  · refine Or.inl ⟨_, ⟨name, flags, release, named, staged, released, rfl⟩, ?_, commands, ?_⟩
    · rintro other ⟨otherName, otherFlags, otherRelease, otherNamed, otherStaged,
        otherReleased, rfl⟩
      rw [named.unique otherNamed, staged.unique otherStaged, released.unique otherReleased]
    · by_cases success : succeeds env host.commands.length
          (launchArgv env arguments name flags release) = true
      · rw [if_pos success] at outcome ⊢
        exact ⟨name, outcome⟩
      · rw [if_neg success] at outcome ⊢
        exact outcome
  · refine Or.inr ⟨?_, commands, failed⟩
    rintro argv ⟨name, flags, release, named, staged, released, _⟩
    exact none name flags release ⟨named, staged, released⟩

/-! ## Several commands -/

/-- The command that a line of `update_resource_config` asks for. -/
def settingLine (request : Request) (text key setting unit : String) :
    List (Except RubyError (List Word)) :=
  if Value.present (param request key) then
    [(Value.toI (param request key)).map fun value => [.literal "set",
      .given ("local." ++ text ++ "." ++ setting ++ "=" ++ toString value ++ unit)]]
  else []

/-- The commands that `update_resource_config` asks for. -/
def requested (request : Request) (text : String) : List (Except RubyError (List Word)) :=
  settingLine request text "cpus" "cpus" "" ++ settingLine request text "memory_mb" "memory" "M" ++
    settingLine request text "disk_gb" "disk" "G"

/-- Issue commands until one fails. -/
def issueEach (env : Environment) : List (Except RubyError (List Word)) →
    Exec (App Host) RubyError PUnit
  | [] => pure ⟨⟩
  | line :: rest => do
      let argv ← Exec.ofExcept line
      let _ ← onState (run env argv)
      issueEach env rest

/-- The first command succeeds. -/
def firstSucceeds (env : Environment) (position : Nat) :
    List (Except RubyError (List Word)) → Bool
  | .ok argv :: _ => succeeds env position argv
  | _ => false

/-- All commands succeed. -/
def allSucceed (env : Environment) (position : Nat) : List (Except RubyError (List Word)) → Bool
  | [] => true
  | .ok argv :: rest => succeeds env position argv && allSucceed env (position + 1) rest
  | .error _ :: _ => false

theorem issueEach_append : ∀ first second : List (Except RubyError (List Word)),
    issueEach env (first ++ second) = issueEach env first >>= fun _ => issueEach env second
  | [], second => rfl
  | line :: rest, second => by
      simp only [List.cons_append, issueEach, Exec.bind_assoc, issueEach_append rest second]

theorem setIfPresent_eq {text key setting unit : String}
    (named : Named (param request "name") text) :
    setIfPresent request key (setVm env setting unit (param request "name")) =
      issueEach env (settingLine request text key setting unit) := by
  have set : ∀ value, setVm env setting unit (param request "name") value =
      run env [.literal "set",
        .given ("local." ++ text ++ "." ++ setting ++ "=" ++ toString value ++ unit)] := by
    intro value
    rw [setVm, named.1, validateVmName_of_valid named.2, Exec.pure_bind]
  unfold setIfPresent settingLine
  split
  · cases Value.toI (param request key) with
    | error raised => rfl
    | ok value =>
        funext app
        simp only [set]
        rfl
  · rfl

/-- How far a list of commands gets. -/
theorem issueEach_apply : ∀ (lines : List (Except RubyError (List Word))) (app : App Host),
    (∀ argv, .ok argv ∈ lines → STATE_CHANGING.contains (verb argv) = true) →
    ∃ added after, (issueEach env lines app).2 = { app with state := after } ∧
      after.commands = app.state.commands ++ added ∧
      ((∃ command ∈ added, changes command = true) ↔
        firstSucceeds env app.state.commands.length lines = true) ∧
      if allSucceed env app.state.commands.length lines then (issueEach env lines app).1 = .ok ⟨⟩
      else ∃ raised, (issueEach env lines app).1 = .error raised
  | [], app, _ => by
      refine ⟨[], app.state, rfl, (List.append_nil _).symm, ?_, rfl⟩
      simp [firstSucceeds]
  | .error raised :: rest, app, _ => by
      refine ⟨[], app.state, rfl, (List.append_nil _).symm, ?_, raised, rfl⟩
      simp [firstSucceeds]
  | .ok argv :: rest, app, changing => by
      have set := changing argv (List.mem_cons_self ..)
      cases success : succeeds env app.state.commands.length argv with
      | true =>
          obtain ⟨stdout, ran⟩ := run_of_success success
          let next : App Host := { app with state := app.state.issue argv true }
          have step : issueEach env (.ok argv :: rest) app = issueEach env rest next := by
            have issued : onState (run env argv) app = (.ok stdout, next) := by
              rw [onState_apply, ran]
            exact Exec.bind_ok issued _
          obtain ⟨added, after, state, commands, _, outcome⟩ := issueEach_apply rest next
            fun other member => changing other (List.mem_cons_of_mem _ member)
          have length : next.state.commands.length = app.state.commands.length + 1 := by
            simp [next, Host.issue]
          rw [step]
          refine ⟨⟨argv, true⟩ :: added, after, state, ?_, ?_, ?_⟩
          · rw [commands]
            exact List.append_assoc ..
          · refine ⟨fun _ => success, fun _ => ⟨_, List.mem_cons_self .., ?_⟩⟩
            exact set
          · rw [length] at outcome
            simp only [allSucceed, success, Bool.true_and]
            exact outcome
      | false =>
          obtain ⟨raised, ran⟩ := run_of_failure success
          have step : issueEach env (.ok argv :: rest) app =
              (.error raised, { app with state := app.state.issue argv false }) := by
            have issued : onState (run env argv) app =
                (.error raised, { app with state := app.state.issue argv false }) := by
              rw [onState_apply, ran]
            exact Exec.bind_error issued _
          rw [step]
          refine ⟨[⟨argv, false⟩], _, rfl, rfl, ?_, ?_⟩
          · simp [changes, firstSucceeds, success]
          · simp only [allSucceed, success, Bool.false_and, Bool.false_eq_true, if_false]
            exact ⟨raised, rfl⟩

theorem requested_changing {text : String} :
    ∀ argv, .ok argv ∈ requested request text → STATE_CHANGING.contains (verb argv) = true := by
  have line : ∀ {key setting unit argv}, .ok argv ∈ settingLine request text key setting unit →
      STATE_CHANGING.contains (verb argv) = true := by
    intro key setting unit argv member
    unfold settingLine at member
    split at member
    · have same := List.mem_singleton.mp member
      cases value : Value.toI (param request key) with
      | error raised =>
          rw [value] at same
          cases same
      | ok count =>
          rw [value] at same
          rw [Except.ok.inj same]
          show STATE_CHANGING.contains "set" = true
          decide
    · cases member
  intro argv member
  rcases List.mem_append.mp member with early | third
  · rcases List.mem_append.mp early with first | second
    · exact line first
    · exact line second
  · exact line third

/-- `update_resource_config` issues the commands that are asked for, and then
writes its row. -/
theorem perform_updateResourceConfig {text : String} (named : Named (param request "name") text) :
    perform env stamp request .updateResourceConfig =
      rescueCommand (issueEach env (requested request text) >>= fun _ =>
        emitHttp stamp request "vm" "resize" (column env (param request "name")) (some "success")
          (some "reconfigured")) fun _ => pure ⟨⟩ := by
  simp only [perform, updateResourceConfig, withVmName_valid named, requested,
    issueEach_append, ← setIfPresent_eq named, Exec.bind_assoc]
  rfl

/-- `update_resource_config` is complete unless its first command succeeds and
a later one does not, or the id of the row is taken. -/
theorem complete_update_iff {text : String} (named : Named (param request "name") text) :
    AuditComplete env stamp request .updateResourceConfig app ↔
      (firstSucceeds env app.state.commands.length (requested request text) = true →
        allSucceed env app.state.commands.length (requested request text) = true ∧
          Fresh stamp app.events) := by
  unfold AuditComplete
  rw [perform_updateResourceConfig named, rescueCommand_state]
  obtain ⟨added, after, state, commands, changed, outcome⟩ :=
    issueEach_apply (requested request text) app requested_changing
  have changedIff : Changed app.state after ↔
      firstSucceeds env app.state.commands.length (requested request text) = true := by
    rw [← changed]
    constructor
    · rintro ⟨other, otherCommands, change⟩
      obtain rfl := List.append_cancel_left (commands.symm.trans otherCommands)
      exact change
    · exact fun change => ⟨added, commands, change⟩
  by_cases all : allSucceed env app.state.commands.length (requested request text) = true
  · rw [if_pos all] at outcome
    have bound := Exec.bind_ok (Prod.ext outcome state) fun _ =>
      emitHttp stamp request "vm" "resize" (column env (param request "name")) (some "success")
        (some "reconfigured")
    by_cases fresh : Fresh stamp app.events
    · have emitted := emitHttp_of_fresh { app with state := after } request "resize"
        (column env (param request "name")) (some "reconfigured")
        (show CATEGORIES.contains "vm" = true by decide)
        (show RESULTS.contains "success" = true by decide) fresh
      rw [bound, emitted]
      exact ⟨fun _ _ => ⟨all, fresh⟩, fun _ _ => ⟨_, rfl, _, List.mem_singleton.mpr rfl, rfl, rfl⟩⟩
    · have emitted := emitHttp_of_used { app with state := after } request "resize"
        (column env (param request "name")) (some "reconfigured")
        (show CATEGORIES.contains "vm" = true by decide)
        (show RESULTS.contains "success" = true by decide) fresh
      rw [bound, emitted, changedIff]
      exact ⟨fun complete first => absurd (complete first) (not_recorded _ _),
        fun holds first => absurd (holds first).2 fresh⟩
  · rw [if_neg all] at outcome
    obtain ⟨raised, failed⟩ := outcome
    rw [Exec.bind_error (Prod.ext failed state), changedIff]
    exact ⟨fun complete first => absurd (complete first) (not_recorded _ _),
      fun holds first => absurd (holds first).1 all⟩

/-! ## Commands on all machines -/

/-- A command of the loop over all machines succeeds. -/
def anySucceeds (env : Environment) (state word : String) : Nat → List VmInfo → Bool
  | _, [] => false
  | position, vm :: rest =>
      if vm.state.bind Json.text? ≠ some state then anySucceeds env state word position rest
      else if !NameValidator.validVmName vm.name then false
      else
        match env.runner position [word, vm.name.text?.getD ""] with
        | .ok result => result.success || anySucceeds env state word (position + 1) rest
        | .error error => error.isCommandError && anySucceeds env state word (position + 1) rest

/-- One round of the loop ends with an error that is collected, or ends the loop. -/
theorem runEach_next {state : String} {block : Json → Exec Host RubyError String} {vm : VmInfo}
    {rest : List VmInfo} {host middle : Host} {errors : List String}
    (ran : runOne env state block vm host = (.ok errors, middle)) :
    (runEach env state block (vm :: rest) host).2 = (runEach env state block rest middle).2 := by
  have bound := Exec.bind_ok ran fun errors => runEach env state block rest >>= fun more =>
    pure (errors ++ more)
  apply (congrArg Prod.snd bound).trans
  rw [Exec.bind_pure_apply]

theorem runEach_stop {state : String} {block : Json → Exec Host RubyError String} {vm : VmInfo}
    {rest : List VmInfo} {host middle : Host} {raised : RubyError}
    (ran : runOne env state block vm host = (.error raised, middle)) :
    (runEach env state block (vm :: rest) host).2 = middle :=
  congrArg Prod.snd (Exec.bind_error ran fun errors => runEach env state block rest >>= fun more =>
    pure (errors ++ more))

/-- A round on a machine in the state, with a valid name. -/
theorem runOne_apply {state text : String} (word : String) {vm : VmInfo} {host : Host}
    (inState : vm.state.bind Json.text? = some state) (named : Named vm.name text) :
    match env.runner host.commands.length [word, text] with
    | .ok result => ∃ errors, runOne env state (lifecycle env word) vm host =
        (.ok errors, host.issue [.literal word, .given text] result.success)
    | .error error =>
        if error.isCommandError then ∃ errors, runOne env state (lifecycle env word) vm host =
          (.ok errors, host.issue [.literal word, .given text] false)
        else runOne env state (lifecycle env word) vm host =
          (.error error, host.issue [.literal word, .given text] false) := by
  have started : lifecycle env word vm.name = run env [.literal word, .given text] := by
    rw [lifecycle, named.1, validateVmName_of_valid named.2, Exec.pure_bind]
  unfold runOne
  rw [if_pos inState, started]
  rcases answer : env.runner host.commands.length [word, text] with error | ⟨out, err, _ | _, exit⟩
  · have ran : run env [.literal word, .given text] host =
        (.error error, host.issue [.literal word, .given text] false) := by
      refine Exec.bind_error ?_ _
      unfold capture
      simp only [List.map_cons, List.map_nil, Word.text, answer]
    have round := Exec.bind_error ran fun _ => (pure [] : Exec Host RubyError (List String))
    rw [Exec.rescue_error round]
    cases error <;> first | exact rfl | exact ⟨_, rfl⟩
  · have ran : run env [.literal word, .given text] host =
        (.error (.commandError (commandMessage [word, text] exit err)),
          host.issue [.literal word, .given text] false) := by
      refine Exec.bind_error ?_ _
      unfold capture
      simp only [List.map_cons, List.map_nil, Word.text, answer]
    have round := Exec.bind_error ran fun _ => (pure [] : Exec Host RubyError (List String))
    exact ⟨_, Exec.rescue_error round _⟩
  · have ran : run env [.literal word, .given text] host =
        (.ok (Text.strip out), host.issue [.literal word, .given text] true) := by
      refine Exec.bind_ok ?_ _
      unfold capture
      simp only [List.map_cons, List.map_nil, Word.text, answer]
    have round := Exec.bind_ok ran fun _ => (pure [] : Exec Host RubyError (List String))
    exact ⟨_, Exec.rescue_ok round _⟩

/-- A round on a machine in the state whose name is not valid. -/
theorem runOne_of_invalid {state : String} (word : String) {vm : VmInfo}
    (inState : vm.state.bind Json.text? = some state) (invalid : ¬ ∃ text, Named vm.name text)
    (host : Host) :
    ∃ raised, runOne env state (lifecycle env word) vm host = (.error raised, host) := by
  obtain ⟨shown, raises⟩ :=
    validateVmName_of_invalid fun text isText isName => invalid ⟨text, isText, isName⟩
  refine ⟨.validationError shown, ?_⟩
  unfold runOne lifecycle
  rw [if_pos inState, raises]
  rfl

/-- A command of a round comes before those of the later rounds. -/
theorem runEach_issued {state word text : String} (changing : STATE_CHANGING.contains word = true)
    {vm : VmInfo} {rest : List VmInfo} {host : Host} {succeeded : Bool} {errors : List String}
    (ran : runOne env state (lifecycle env word) vm host =
      (.ok errors, host.issue [.literal word, .given text] succeeded))
    (later : ∃ added, (runEach env state (lifecycle env word) rest
        (host.issue [.literal word, .given text] succeeded)).2.commands =
          (host.issue [.literal word, .given text] succeeded).commands ++ added ∧
        ((∃ command ∈ added, changes command = true) ↔
          anySucceeds env state word
            (host.issue [.literal word, .given text] succeeded).commands.length rest = true)) :
    ∃ added, (runEach env state (lifecycle env word) (vm :: rest) host).2.commands =
        host.commands ++ added ∧
      ((∃ command ∈ added, changes command = true) ↔
        (succeeded || anySucceeds env state word (host.commands.length + 1) rest) = true) := by
  obtain ⟨added, commands, changed⟩ := later
  have length : (host.issue [.literal word, .given text] succeeded).commands.length =
      host.commands.length + 1 := by simp [Host.issue]
  have first : changes ⟨[.literal word, .given text], succeeded⟩ = succeeded := by
    rw [changes, show verb [.literal word, .given text] = word from rfl, changing, Bool.and_true]
  refine ⟨⟨[.literal word, .given text], succeeded⟩ :: added, ?_, ?_⟩
  · rw [runEach_next ran, commands]
    exact List.append_assoc ..
  · rw [← length, Bool.or_eq_true, ← changed]
    simp only [List.mem_cons, exists_eq_or_imp, first]

theorem runEach_apply {state word : String} (changing : STATE_CHANGING.contains word = true) :
    ∀ (vms : List VmInfo) (host : Host),
      ∃ added, (runEach env state (lifecycle env word) vms host).2.commands =
          host.commands ++ added ∧
        ((∃ command ∈ added, changes command = true) ↔
          anySucceeds env state word host.commands.length vms = true)
  | [], host => ⟨[], (List.append_nil _).symm, by simp [anySucceeds]⟩
  | vm :: rest, host => by
      by_cases inState : vm.state.bind Json.text? = some state
      · by_cases valid : ∃ text, Named vm.name text
        · have pattern := validVmName_iff.mpr valid
          obtain ⟨text, named⟩ := valid
          have round := @runOne_apply env state text word vm host inState named
          have given : vm.name.text?.getD "" = text := by
            rw [named.1]
            rfl
          simp only [anySucceeds, inState, ne_eq, not_true_eq_false, if_false, pattern,
            Bool.not_true, Bool.false_eq_true, given]
          have goOn := fun {succeeded errors} ran =>
            @runEach_issued env state word text changing vm rest host succeeded errors ran
              (runEach_apply changing rest _)
          rcases answer : env.runner host.commands.length [word, text] with error | result
          · rw [answer] at round
            by_cases handled : error.isCommandError = true
            · obtain ⟨errors, ran⟩ := by simpa only [handled, if_true] using round
              simpa only [handled, Bool.true_and, Bool.false_or] using goOn ran
            · have ran := by simpa only [handled, if_false] using round
              refine ⟨[⟨[.literal word, .given text], false⟩], by rw [runEach_stop ran]; rfl, ?_⟩
              simp [handled, changes]
          · rw [answer] at round
            obtain ⟨errors, ran⟩ := round
            exact goOn ran
        · obtain ⟨raised, ran⟩ := @runOne_of_invalid env state word vm inState valid host
          have pattern : NameValidator.validVmName vm.name = false :=
            Bool.eq_false_iff.mpr fun matched => valid (validVmName_iff.mp matched)
          refine ⟨[], by rw [runEach_stop ran, List.append_nil], ?_⟩
          simp [anySucceeds, inState, pattern]
      · have ran := @runOne_of_other env state vm host inState (lifecycle env word)
        obtain ⟨added, commands, changed⟩ := runEach_apply changing rest host
        refine ⟨added, by rw [runEach_next ran, commands], changed.trans ?_⟩
        simp [anySucceeds, inState]

/-- The loop over all machines changes something if one of its commands
succeeds; listing the machines does not. -/
theorem runAllInState_changed {state word : String}
    (changing : STATE_CHANGING.contains word = true) (host : Host) :
    Changed host (runAllInState env state (lifecycle env word) host).2 ↔
      ∃ vms, (listVms env host).1 = .ok vms ∧
        anySucceeds env state word (listVms env host).2.commands.length vms = true := by
  obtain ⟨listed, listCommands, each⟩ := @issues_listVms env ListCommands (fun _ => id) host
  have idle : ∀ command ∈ listed, changes command = false := by
    rintro ⟨argv, succeeded⟩ member
    rcases each _ member with same | same
    · obtain rfl : argv = _ := same
      cases succeeded <;> rfl
    · obtain rfl : argv = _ := same
      cases succeeded <;> rfl
  have counted : ∀ {after : Host} {added : List Command},
      after.commands = (listVms env host).2.commands ++ added →
      (Changed host after ↔ ∃ command ∈ added, changes command = true) := by
    intro after added commands
    rw [listCommands, List.append_assoc] at commands
    constructor
    · rintro ⟨other, otherCommands, command, member, change⟩
      obtain rfl := List.append_cancel_left (commands.symm.trans otherCommands)
      rcases List.mem_append.mp member with old | new
      · rw [idle command old] at change
        cases change
      · exact ⟨command, new, change⟩
    · rintro ⟨command, member, change⟩
      exact ⟨_, commands, command, List.mem_append_right _ member, change⟩
  unfold runAllInState
  rcases answer : listVms env host with ⟨_ | vms, middle⟩
  · rw [Exec.bind_error answer]
    rw [answer] at counted
    rw [counted (List.append_nil _).symm]
    simp
  · rw [answer] at counted
    obtain ⟨added, commands, changed⟩ := runEach_apply changing vms middle
    rw [Exec.bind_ok answer, Exec.bind_state ?_, counted commands, changed]
    · simp
    · intro errors state
      split <;> rfl

/-! ## When a row is written -/

/-- When an action that changed something leaves a row.  An action with one
command needs an unused id for its row; `update_resource_config` needs, once
its first command succeeds, that the others succeed as well; and the actions
that write no row must not change anything. -/
def RowWritten (env : Environment) (stamp : EventStamp) (request : Request) (app : App Host) :
    Action → Prop
  | .updateResourceConfig => ∀ text, Named (param request "name") text →
      firstSucceeds env app.state.commands.length (requested request text) = true →
        allSucceed env app.state.commands.length (requested request text) = true ∧
          Fresh stamp app.events
  | .startAll => ∀ vms, (listVms env app.state).1 = .ok vms →
      anySucceeds env "Stopped" "start" (listVms env app.state).2.commands.length vms = false
  | .stopAll => ∀ vms, (listVms env app.state).1 = .ok vms →
      anySucceeds env "Running" "stop" (listVms env app.state).2.commands.length vms = false
  | .purge => succeeds env app.state.commands.length [.literal "purge"] = false
  | action => ∀ argv, Issued env request app.state action argv →
      succeeds env app.state.commands.length argv = true → Fresh stamp app.events

/-- An action on a machine does nothing without a valid name. -/
theorem complete_unnamed {action : Action} {program : Json → Exec (App Host) RubyError PUnit}
    (shape : perform env stamp request action = withVmName request program)
    (invalid : ¬ ∃ text, Named (param request "name") text) :
    AuditComplete env stamp request action app := by
  unfold AuditComplete
  rw [shape, withVmName_invalid invalid]
  exact fun changed => absurd changed (changed_none rfl)

/-- An action that writes no row is complete if it changes nothing. -/
theorem complete_unrecorded {action : Action}
    (shape : perform env stamp request action = unrecorded body) :
    AuditComplete env stamp request action app ↔ ¬ Changed app.state (body app.state).2 := by
  have state : (perform env stamp request action app).2 =
      { app with state := (body app.state).2 } := by
    rw [shape, unrecorded, rescueCommand_state, Exec.bind_state (fun _ _ => rfl)]
    rfl
  unfold AuditComplete
  rw [state]
  exact ⟨fun complete changed => absurd (complete changed) (not_recorded _ _),
    fun unchanged changed => absurd changed unchanged⟩

/-- The handlers of the actions write rows at most. -/
theorem rescueCommand_quiet {render : String → Exec (App Host) RubyError PUnit}
    (quiet : ∀ message app, (render message app).2.state = app.state) :
    ∀ error : RubyError, ∀ handled ∈ (match error with
      | .commandError message => some (render message)
      | _ => none : Option (Exec (App Host) RubyError PUnit)),
      ∀ app, (handled app).2.state = app.state := by
  intro error handled member app
  split at member
  · obtain rfl := Option.mem_some_iff.mp member
    exact quiet _ app
  · cases member

theorem complete_lifecycle_iff {action : Action} {word : String}
    {method : Json → Exec Host RubyError String}
    (shape : perform env stamp request action = performLifecycle env stamp request method word)
    (isMethod : method = lifecycle env word) (event : action.event = word)
    (changing : STATE_CHANGING.contains word = true) :
    AuditComplete env stamp request action app ↔
      ∀ argv, (∃ text, Named (param request "name") text ∧
          argv = [.literal word, .given text]) →
        succeeds env app.state.commands.length argv = true → Fresh stamp app.events := by
  by_cases valid : ∃ text, Named (param request "name") text
  · obtain ⟨text, named⟩ := valid
    subst isMethod
    unfold AuditComplete
    rw [event]
    refine complete_one_iff (issuesOne_validated fun text _ => issuesOne_run _ app.state) ?_
      (rescueCommand_quiet fun _ app => emitHttp_state _ _ _ _ app) rfl word _ _
      (shape.trans (withVmName_valid named _))
    rintro argv ⟨_, _, rfl⟩
    exact changing
  · refine ⟨fun _ argv ⟨text, named, _⟩ => absurd ⟨text, named⟩ valid, fun _ => ?_⟩
    exact complete_unnamed shape valid

theorem complete_create_iff :
    AuditComplete env stamp request .create app ↔ RowWritten env stamp request app .create := by
  cases given : launchArguments request with
  | error raised =>
      have early : (perform env stamp request .create app).2.state = app.state := by
        have program : (Exec.ofExcept (launchArguments request) >>= fun arguments =>
            onState (launchVm env arguments) >>= fun name =>
              emitHttp stamp request "vm" "create" (some name) (some "success") (some "launched"))
            app = (.error raised, app) := by
          rw [given]
          rfl
        apply (congrArg (fun result => result.2.state) (Exec.rescue_error program _)).trans
        cases raised <;> first | rfl | exact emitHttp_state _ _ _ _ app
      refine ⟨?_, fun _ changed => absurd changed (changed_none (congrArg Host.commands early))⟩
      rintro _ argv ⟨arguments, _, _, _, isGiven, _⟩
      cases given.symm.trans isGiven
  | ok arguments =>
      have issued : ∀ argv, Issued env request app.state .create argv ↔
          ∃ name flags release, LaunchesAs env arguments.name name ∧
            StagesAs env app.state arguments.cloudInitFile flags ∧
            ReleasesAs arguments.release release ∧
            argv = launchArgv env arguments name flags release := by
        intro argv
        constructor
        · rintro ⟨other, name, flags, release, isGiven, rest⟩
          obtain rfl := Except.ok.inj (given.symm.trans isGiven)
          exact ⟨name, flags, release, rest⟩
        · rintro ⟨name, flags, release, rest⟩
          exact ⟨arguments, name, flags, release, given, rest⟩
      obtain ⟨handler, shape, unhandled, quiet⟩ :
          ∃ handler, perform env stamp request .create = Exec.rescue
              (onState (launchVm env arguments) >>= fun name =>
                emitHttp stamp request "vm" "create" (some name) (some "success")
                  (some "launched"))
              handler ∧
            handler (.recordNotUnique "events.id") = none ∧
            ∀ error handled, handled ∈ handler error → ∀ app, (handled app).2.state =
                app.state := by
        refine ⟨_, by simp only [perform, create, given]; rfl, rfl, ?_⟩
        intro error handled member app
        split at member
        · obtain rfl := Option.mem_some_iff.mp member
          rfl
        · obtain rfl := Option.mem_some_iff.mp member
          exact emitHttp_state _ _ _ _ app
        · cases member
      refine complete_one_iff ((issuesOne_launchVm app.state).of_iff issued) ?_ quiet unhandled
        "create" _ _ shape
      intro argv isIssued
      obtain ⟨name, flags, release, _, _, _, rfl⟩ := (issued argv).mp isIssued
      exact show STATE_CHANGING.contains "launch" = true by decide

theorem complete_destroy_iff :
    AuditComplete env stamp request .destroy app ↔ RowWritten env stamp request app .destroy := by
  have shape : perform env stamp request .destroy = withVmName request fun name =>
      rescueCommand (onState (deleteVm env name (castBoolean (param request "purge"))) >>= fun _ =>
        emitHttp stamp request "vm" "delete" (column env name) (some "success")
          (some (if castBoolean (param request "purge") then "purged" else "deleted")))
        fun _ => pure ⟨⟩ := rfl
  by_cases valid : ∃ text, Named (param request "name") text
  · obtain ⟨text, named⟩ := valid
    refine complete_one_iff (issuesOne_validated fun text _ => issuesOne_run _ app.state) ?_
      (rescueCommand_quiet fun _ _ => rfl) rfl "delete" _ _
      (shape.trans (withVmName_valid named _))
    rintro argv ⟨_, _, rfl⟩
    exact show STATE_CHANGING.contains "delete" = true by decide
  · refine ⟨fun _ argv ⟨text, named, _⟩ => absurd ⟨text, named⟩ valid, fun _ => ?_⟩
    exact complete_unnamed shape valid

theorem complete_clone_iff :
    AuditComplete env stamp request .clone app ↔ RowWritten env stamp request app .clone := by
  have shape : perform env stamp request .clone = withVmName request fun name =>
      rescueCommand (onState (cloneVm env name (Value.presence (param request "dest_name"))) >>=
        fun dest => emitHttp stamp request "vm" "clone" (column env name) (some "success")
          (some ("→ " ++ interpolate env dest))) fun _ => pure ⟨⟩ := rfl
  by_cases valid : ∃ text, Named (param request "name") text
  · obtain ⟨text, named⟩ := valid
    refine complete_one_iff (issuesOne_cloneVm app.state) ?_ (rescueCommand_quiet fun _ _ => rfl)
      rfl "clone" _ _ (shape.trans (withVmName_valid named _))
    rintro argv ⟨_, _, ⟨_, rfl⟩ | ⟨_, _, rfl⟩⟩
    · exact show STATE_CHANGING.contains "clone" = true by decide
    · exact show STATE_CHANGING.contains "clone" = true by decide
  · refine ⟨fun _ argv ⟨text, named, _⟩ => absurd ⟨text, named⟩ valid, fun _ => ?_⟩
    exact complete_unnamed shape valid

/-- The actions on all machines write no row. -/
theorem complete_bulk_iff {action : Action} {state word : String}
    (shape : perform env stamp request action =
      unrecorded (runAllInState env state (lifecycle env word)))
    (changing : STATE_CHANGING.contains word = true) :
    AuditComplete env stamp request action app ↔ ∀ vms, (listVms env app.state).1 = .ok vms →
      anySucceeds env state word (listVms env app.state).2.commands.length vms = false := by
  rw [complete_unrecorded shape, runAllInState_changed changing]
  simp only [not_exists, not_and, Bool.not_eq_true]

theorem complete_purge_iff :
    AuditComplete env stamp request .purge app ↔
      succeeds env app.state.commands.length [.literal "purge"] = false := by
  rw [complete_unrecorded (show perform env stamp request .purge = unrecorded (purgeDeleted env)
    from rfl), purgeDeleted, changed_one (run_outcome _ app.state).1]
  simp [changes, verb, STATE_CHANGING, Word.text]

end

end

/-- The first command succeeds and all others fail. -/
def firstOnly : Environment :=
  { quietEnvironment with runner := fun position _ => .ok ⟨"", "", position = 0, 1⟩ }

def purgeRequest : Request := ⟨"POST", "/vms/purge", .object []⟩

def resizeRequest : Request :=
  ⟨"PATCH", "/vms/web/resource_config", .object [("name", .string "web"), ("cpus", .string "4"),
    ("memory_mb", .string "2048")]⟩

end VmsController

end MultipassWebui.Web
