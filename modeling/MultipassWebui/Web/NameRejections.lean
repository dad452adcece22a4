import MultipassWebui.Effect.Fallible
import MultipassWebui.Multipass.Names
import MultipassWebui.Web.LaunchRequests
import MultipassWebui.Web.Replies

/-!
# Requests with invalid names

Which requests with an invalid name are answered with a 400, before anything else
happens.  The name in the path is checked before an action; the second name of a
clone is checked by the client, whose exception the action does not rescue.
-/

namespace MultipassWebui.Web

open MultipassWebui.Effect
open MultipassWebui.Effect.Value (givenAndNotEmpty nilOrEmpty)
open MultipassWebui.Encoding
open MultipassWebui.Multipass
open MultipassWebui.Multipass.NameValidator (VM_NAME_PATTERN validVmName)
open MultipassWebui.Records
open MultipassWebui.Terminals (Server SpawnEnvironment)

/-- The actions of `VmsController` and `ShellSessionsController`. -/
inductive MachineAction where
  | vms (change : VmsController.Action)
  | vmsIndex
  | vmsShow
  | resourceConfig
  | console
  | vnc
  | sessionsIndex
  | sessionsCreate
  | sessionsDestroy
  deriving DecidableEq, Repr

/-- What the replies depend on outside the repository, and what is drawn. -/
structure ReplyEnvironment where
  multipass : Environment
  /-- `e.message` -/
  message : RubyError → String
  spawn : SpawnEnvironment
  sessionId : String
  /-- A time in JSON. -/
  timeJson : Int → Json

section

variable (env : ReplyEnvironment) (stamp : EventStamp) (request : Request)

/-- The reply to a request. -/
def MachineAction.respond : MachineAction → Exec (App ShellHost) RubyError Reply
  | .vms change =>
      besideShells (VmsController.performReply env.multipass env.message stamp request change)
  | .vmsIndex => besideShells (VmsController.indexReply env.multipass env.message)
  | .vmsShow => besideShells (VmsController.showReply env.multipass env.message request)
  | .resourceConfig =>
      besideShells (VmsController.resourceConfigReply env.multipass env.message request)
  | .console =>
      VmsController.consoleReply env.multipass env.message request env.spawn env.sessionId
  | .vnc => besideShells (VmsController.vncReply env.multipass env.message request)
  | .sessionsIndex => ShellSessionsController.indexReply env.message request env.timeJson
  | .sessionsCreate =>
      ShellSessionsController.createReply env.multipass env.message stamp request env.spawn
        env.sessionId
  | .sessionsDestroy =>
      ShellSessionsController.destroyReply env.multipass env.message stamp request

/-- The parameters of a request that are names. -/
def MachineAction.names : MachineAction → List Json
  | .vmsIndex | .vms .startAll | .vms .stopAll | .vms .purge => []
  | .vms .clone => [param request "name", param request "dest_name"]
  | .sessionsIndex | .sessionsCreate | .sessionsDestroy =>
      [param request "vm_name", param request "name"]
  | .vms _ | .vmsShow | .resourceConfig | .console | .vnc => [param request "name"]

/-- A name is not blank and not valid. -/
def MachineAction.HasInvalidName (action : MachineAction) : Prop :=
  ∃ name ∈ action.names request, Value.present name = true ∧ validVmName name = false

/-- The reply is an error with status 400, and everything is as before: no command, no
session and no row. -/
def MachineAction.AnswersBadRequest (action : MachineAction) (app : App ShellHost) : Prop :=
  ∃ text, action.respond env stamp request app = (.ok (.error 400 text), app)

/-- The numbers of a launch can be read, and its name can be asked whether it is empty;
the name in the path of a clone is the invalid one; and a `vm_name`, which goes before the
name in the path, is invalid if it is given. -/
def MachineAction.LooksAtName : MachineAction → Prop
  | .vms .create =>
      (∀ key ∈ ["cpus", "memory_mb", "disk_gb"],
        ∃ value, Value.toI (Value.presence (param request key)) = .ok value) ∧
      ∃ empty, nilOrEmpty (param request "name") = .ok empty
  | .vms .clone => validVmName (param request "name") = false
  | .sessionsIndex | .sessionsCreate | .sessionsDestroy =>
      Value.truthy (param request "vm_name") = true →
        validVmName (param request "vm_name") = false
  | _ => True

end

section

variable {env : ReplyEnvironment} {stamp : EventStamp} {request : Request} {app : App ShellHost}

/-! ## Before the actions -/

/-- The name in the path is rejected before the action. -/
theorem afterVmName_of_invalid {σ : Type} {message : RubyError → String}
    (invalid : validVmName (param request "name") = false)
    (body : String → Exec σ RubyError Reply) :
    ∃ text, VmsController.afterVmName message request body = pure (.error 400 text) := by
  rw [VmsController.afterVmName]
  cases given : param request "name" with
  | string name =>
      rw [given] at invalid
      have refused : ¬ VM_NAME_PATTERN name = true := by
        intro valid
        exact absurd (invalid.symm.trans valid) Bool.false_ne_true
      exact ⟨_, if_neg refused⟩
  | _ => exact ⟨_, rfl⟩

theorem afterVmName_of_valid {σ : Type} {message : RubyError → String} {name : String}
    (given : param request "name" = .string name) (valid : IsVmName name)
    (body : String → Exec σ RubyError Reply) :
    VmsController.afterVmName message request body = body name := by
  rw [VmsController.afterVmName, given]
  exact if_pos ((vmNamePattern_iff name).mpr valid)

/-- The name of a shell request. -/
def shellName (request : Request) : Json :=
  Value.orDefault (param request "vm_name") (param request "name")

theorem afterShellName_of_invalid {message : RubyError → String}
    (invalid : validVmName (shellName request) = false)
    (body : String → Exec (App ShellHost) RubyError Reply) :
    ∃ text, ShellSessionsController.afterVmName message request body =
      pure (.error 400 text) := by
  rw [ShellSessionsController.afterVmName, ← shellName]
  cases given : shellName request with
  | string name =>
      rw [given] at invalid
      have refused : ¬ VM_NAME_PATTERN name = true := by
        intro valid
        exact absurd (invalid.symm.trans valid) Bool.false_ne_true
      exact ⟨_, if_neg refused⟩
  | _ => exact ⟨_, rfl⟩

theorem afterShellName_of_valid {message : RubyError → String} {name : String}
    (given : shellName request = .string name) (valid : IsVmName name)
    (body : String → Exec (App ShellHost) RubyError Reply) :
    ShellSessionsController.afterVmName message request body = body name := by
  rw [ShellSessionsController.afterVmName, ← shellName, given]
  exact if_pos ((vmNamePattern_iff name).mpr valid)

/-- An action that does not concern the shells answers for itself. -/
theorem answers_besideShells {body : Exec (App Host) RubyError Reply} {reply : Reply}
    (answered : body = pure reply) (app : App ShellHost) :
    besideShells body app = (.ok reply, app) := by
  rw [answered]
  rfl

/-- The actions that look at nothing but the name in the path. -/
theorem answers_of_invalid_path {action : MachineAction}
    (invalid : validVmName (param request "name") = false)
    (path : action ∉ [.vmsIndex, .vms .startAll, .vms .stopAll, .vms .purge, .vms .create,
      .sessionsIndex, .sessionsCreate, .sessionsDestroy]) :
    action.AnswersBadRequest env stamp request app := by
  have before : ∀ body : String → Exec (App Host) RubyError Reply,
      ∃ text, besideShells (VmsController.afterVmName env.message request body) app =
        (.ok (.error 400 text), app) := by
    intro body
    rcases @afterVmName_of_invalid request _ env.message invalid body with ⟨text, rejected⟩
    exact ⟨text, answers_besideShells rejected app⟩
  cases action with
  | vms change =>
      cases change with
      | create | startAll | stopAll | purge => simp at path
      | _ => exact before _
  | console =>
      rcases @afterVmName_of_invalid request _ env.message invalid _ with ⟨text, rejected⟩
      refine ⟨text, ?_⟩
      rw [MachineAction.respond, VmsController.consoleReply, rejected]
      rfl
  | vmsShow | resourceConfig | vnc => exact before _
  | vmsIndex | sessionsIndex | sessionsCreate | sessionsDestroy => simp at path

/-! ## Launching -/

open VmsController (count launchArguments launchArguments_fields createReply)

theorem count_eq_ok_iff {key : String} :
    (∃ number, count request key = .ok number) ↔
      ∃ value, Value.toI (Value.presence (param request key)) = .ok value := by
  rw [count]
  cases Value.presence (param request key) with
  | null => exact iff_of_true ⟨none, rfl⟩ ⟨0, rfl⟩
  | string text => exact iff_of_true ⟨_, rfl⟩ ⟨_, rfl⟩
  | number value => exact iff_of_true ⟨_, rfl⟩ ⟨_, rfl⟩
  | bool value => exact iff_of_false (by rintro ⟨_, ⟨⟩⟩) (by rintro ⟨_, ⟨⟩⟩)
  | array items => exact iff_of_false (by rintro ⟨_, ⟨⟩⟩) (by rintro ⟨_, ⟨⟩⟩)
  | object fields => exact iff_of_false (by rintro ⟨_, ⟨⟩⟩) (by rintro ⟨_, ⟨⟩⟩)

/-- The arguments can be read exactly if the three numbers can. -/
theorem launchArguments_eq_ok_iff :
    (∃ arguments, launchArguments request = .ok arguments) ↔
      ∀ key ∈ ["cpus", "memory_mb", "disk_gb"],
        ∃ value, Value.toI (Value.presence (param request key)) = .ok value := by
  simp only [List.forall_mem_cons, List.not_mem_nil, false_imp_iff, implies_true, and_true,
    ← count_eq_ok_iff]
  constructor
  · rintro ⟨arguments, given⟩
    rcases launchArguments_fields given with ⟨isCpus, isMemory, isDisk, _⟩
    exact ⟨⟨_, isCpus⟩, ⟨_, isMemory⟩, ⟨_, isDisk⟩⟩
  · rintro ⟨⟨cpus, isCpus⟩, ⟨memoryMb, isMemory⟩, ⟨diskGb, isDisk⟩⟩
    rw [launchArguments, isCpus, isMemory, isDisk]
    exact ⟨_, rfl⟩

/-- The name is among the arguments. -/
theorem name_of_launchArguments {arguments : LaunchArguments}
    (given : launchArguments request = .ok arguments) :
    arguments.name = Value.presence (param request "name") := by
  rcases bind_eq_ok_iff.mp given with ⟨cpus, _, afterCpus⟩
  rcases bind_eq_ok_iff.mp afterCpus with ⟨memoryMb, _, afterMemory⟩
  rcases bind_eq_ok_iff.mp afterMemory with ⟨diskGb, _, isArguments⟩
  rw [← Except.ok.inj isArguments]

theorem presence_of_present {value : Json} (given : Value.present value = true) :
    Value.presence value = value :=
  if_pos given

theorem truthy_of_present {value : Json} (given : Value.present value = true) :
    Value.truthy value = true := by
  cases value with
  | null => cases given
  | bool flag =>
      cases flag with
      | false => cases given
      | true => rfl
  | _ => rfl

/-- A name that is not blank is not empty, if it can be asked. -/
theorem nilOrEmpty_of_present {name : Json} (given : Value.present name = true) {empty : Bool}
    (asked : nilOrEmpty name = .ok empty) : empty = false := by
  cases name with
  | null => cases given
  | bool value => cases asked
  | number value => cases asked
  | string text =>
      rw [← Except.ok.inj asked, decide_eq_false_iff_not]
      rintro rfl
      cases given
  | array items =>
      rw [← Except.ok.inj asked]
      simpa [Value.present] using given
  | object fields =>
      rw [← Except.ok.inj asked]
      simpa [Value.present] using given

theorem validate_of_invalid {name : Json} (invalid : validVmName name = false) :
    ∃ shown, NameValidator.validateVmName name = Exec.raise (.validationError shown) := by
  apply validateVmName_of_invalid
  rintro text rfl isName
  exact absurd (invalid.symm.trans ((vmNamePattern_iff text).mpr isName)) Bool.false_ne_true

/-- `launch_vm` raises before it does anything. -/
theorem launchVm_of_invalid {multipass : Environment} {arguments : LaunchArguments} {host : Host}
    (invalid : validVmName arguments.name = false) (given : Value.present arguments.name = true) :
    (∀ empty, nilOrEmpty arguments.name = .ok empty →
      ∃ shown, launchVm multipass arguments host = (.error (.validationError shown), host)) ∧
    (∀ raised, nilOrEmpty arguments.name = .error raised →
      launchVm multipass arguments host = (.error raised, host)) := by
  constructor
  · intro empty asked
    rcases nilOrEmpty_of_present given asked with rfl
    rcases validate_of_invalid invalid with ⟨shown, raises⟩
    have named : launchName multipass arguments.name host =
        (.error (.validationError shown), host) := by
      rw [launchName, asked, raises]
      rfl
    exact ⟨shown, Exec.bind_error named _⟩
  · intro raised asked
    have named : launchName multipass arguments.name host = (.error raised, host) := by
      rw [launchName, asked]
      rfl
    exact Exec.bind_error named _

theorem toI_error {value : Json} {raised : RubyError} (failed : Value.toI value = .error raised) :
    raised = .noMethodError "to_i" := by
  cases value with
  | bool _ | array _ | object _ => exact (Except.error.inj failed).symm
  | null | string _ | number _ => cases failed

theorem nilOrEmpty_error {value : Json} {raised : RubyError}
    (failed : nilOrEmpty value = .error raised) : raised = .noMethodError "empty?" := by
  cases value with
  | bool _ | number _ => exact (Except.error.inj failed).symm
  | null | string _ | array _ | object _ => cases failed

theorem raises_launchArguments :
    Raises (fun raised => raised = .noMethodError "to_i") (launchArguments request) := by
  have each : ∀ key, Raises (fun raised => raised = .noMethodError "to_i") (count request key) := by
    intro key raised failed
    rw [count] at failed
    split at failed
    · cases failed
    · cases number : Value.toI (Value.presence (param request key)) with
      | ok value =>
          rw [number] at failed
          cases failed
      | error other =>
          rw [number] at failed
          rw [← Except.error.inj failed]
          exact toI_error number
  apply raises_bind (each "cpus")
  intro cpus
  apply raises_bind (each "memory_mb")
  intro memoryMb
  apply raises_bind (each "disk_gb")
  intro diskGb
  exact raises_ok _

/-- A step raises an exception that `create` does not rescue. -/
theorem createReply_of_raised {app : App Host} {raised : RubyError} {middle : App Host}
    (ran : (do
      let arguments ← Exec.ofExcept (launchArguments request)
      let name ← onState (launchVm env.multipass arguments)
      emitHttp stamp request "vm" "create" (some name) (some "success") (some "launched")
      return Reply.json 202 (.object [("name", .string name), ("state", .string "launched")]) :
      Exec (App Host) RubyError Reply) app = (.error raised, middle)) :
    (∀ method, raised = .noMethodError method →
      (createReply env.multipass env.message stamp request app).1 = .error raised) ∧
    (∀ shown, raised = .validationError shown →
      createReply env.multipass env.message stamp request app =
        (.ok (.error 400 (env.message raised)), middle)) := by
  constructor
  · rintro method rfl
    rw [createReply, Exec.rescue_error ran]
  · rintro shown rfl
    rw [createReply, Exec.rescue_error ran]
    rfl

theorem create_answers_iff (given : Value.present (param request "name") = true)
    (invalid : validVmName (param request "name") = false) :
    (MachineAction.vms .create).AnswersBadRequest env stamp request app ↔
      (MachineAction.vms .create).LooksAtName request := by
  let before : App Host := ⟨app.state.host, app.events⟩
  rw [MachineAction.LooksAtName, ← launchArguments_eq_ok_iff]
  cases read : launchArguments request with
  | error raised =>
      have isMethod := raises_launchArguments raised read
      have failed := (@createReply_of_raised env stamp request before raised before (by
        rw [read]
        rfl)).1 "to_i" isMethod
      apply iff_of_false
      · rintro ⟨text, answered⟩
        have outcome := congrArg Prod.fst answered
        cases failed.symm.trans outcome
      · rintro ⟨⟨arguments, same⟩, _⟩
        cases same
  | ok arguments =>
      have name := name_of_launchArguments read
      rw [presence_of_present given] at name
      have launched := @launchVm_of_invalid env.multipass arguments before.state
        (by rw [name]; exact invalid) (by rw [name]; exact given)
      rw [name] at launched
      cases asked : nilOrEmpty (param request "name") with
      | error raised =>
          have isMethod := nilOrEmpty_error asked
          have failed := (@createReply_of_raised env stamp request before raised before (by
            rw [read]
            refine (Exec.bind_ok rfl _).trans (Exec.bind_error ?_ _)
            rw [onState_apply, launched.2 raised asked])).1 "empty?" isMethod
          apply iff_of_false
          · rintro ⟨text, answered⟩
            have outcome := congrArg Prod.fst answered
            cases failed.symm.trans outcome
          · rintro ⟨_, empty, same⟩
            cases same
      | ok empty =>
          rcases launched.1 empty asked with ⟨shown, raises⟩
          have rejected := (@createReply_of_raised env stamp request before
            (.validationError shown) before (by
              rw [read]
              refine (Exec.bind_ok rfl _).trans (Exec.bind_error ?_ _)
              rw [onState_apply, raises])).2 shown rfl
          apply iff_of_true
          · refine ⟨env.message (.validationError shown), ?_⟩
            rw [MachineAction.respond, besideShells, Exec.zoom_apply, VmsController.performReply,
              rejected]
          · exact ⟨⟨arguments, rfl⟩, empty, rfl⟩

/-! ## Cloning -/

/-- `clone_vm` raises something other than a command error. -/
theorem cloneVm_of_invalid {multipass : Environment} {name : String} {dest : Json} {host : Host}
    (valid : IsVmName name) (given : Value.present dest = true)
    (invalid : validVmName dest = false) :
    ∃ raised, raised.isCommandError = false ∧
      cloneVm multipass (.string name) dest host = (.error raised, host) := by
  have named : NameValidator.validateVmName (.string name) host = (.ok name, host) := by
    rw [validateVmName_of_valid valid]
    rfl
  have truthy := truthy_of_present given
  cases asked : nilOrEmpty dest with
  | error raised =>
      refine ⟨raised, by rw [nilOrEmpty_error asked]; rfl, ?_⟩
      have wanted : givenAndNotEmpty dest = .error raised := by
        rw [givenAndNotEmpty, if_pos truthy, asked]
        rfl
      rw [cloneVm, Exec.bind_ok named, wanted]
      rfl
  | ok empty =>
      rcases nilOrEmpty_of_present given asked with rfl
      rcases validate_of_invalid invalid with ⟨shown, raises⟩
      refine ⟨.validationError shown, rfl, ?_⟩
      have wanted : givenAndNotEmpty dest = .ok true := by
        rw [givenAndNotEmpty, if_pos truthy, asked]
        rfl
      rw [cloneVm, Exec.bind_ok named, wanted, raises]
      rfl

theorem not_clone_answers (valid : validVmName (param request "name") = true)
    (given : Value.present (param request "dest_name") = true)
    (invalid : validVmName (param request "dest_name") = false) :
    ¬ (MachineAction.vms .clone).AnswersBadRequest env stamp request app := by
  rcases validVmName_iff.mp valid with ⟨name, isName, validName⟩
  rcases @cloneVm_of_invalid env.multipass name (param request "dest_name") app.state.host validName
    given invalid with ⟨raised, noCommand, raises⟩
  have failed : (VmsController.cloneReply env.multipass env.message stamp request
      ⟨app.state.host, app.events⟩).1 = .error raised := by
    have body : onState (cloneVm env.multipass (.string name)
        (Value.presence (param request "dest_name"))) ⟨app.state.host, app.events⟩ =
        (.error raised, ⟨app.state.host, app.events⟩) := by
      rw [presence_of_present given, onState_apply, raises]
    rw [VmsController.cloneReply, afterVmName_of_valid isName validName, replyToCommandError,
      Exec.rescue_error (Exec.bind_error body _), noCommand]
    rfl
  rintro ⟨text, answered⟩
  have outcome := congrArg Prod.fst answered
  cases failed.symm.trans outcome

/-! ## Shells -/

/-- A reply that comes after a step is the one of its result. -/
theorem exists_reply {σ α : Type} {first : Exec σ RubyError α} {reply : α → Reply} {state after : σ}
    {answer : Reply}
    (ran : (first >>= fun value => pure (reply value)) state = (.ok answer, after)) :
    ∃ value, answer = reply value := by
  rw [Exec.bind_pure_apply] at ran
  cases outcome : (first state).1 with
  | error raised =>
      rw [outcome] at ran
      cases congrArg Prod.fst ran
  | ok value =>
      rw [outcome] at ran
      exact ⟨value, (Except.ok.inj (congrArg Prod.fst ran)).symm⟩

theorem answers_of_invalid_shell {action : MachineAction}
    (shell : action ∈ [.sessionsIndex, .sessionsCreate, .sessionsDestroy])
    (invalid : validVmName (shellName request) = false) :
    action.AnswersBadRequest env stamp request app := by
  have before : ∀ body : String → Exec (App ShellHost) RubyError Reply,
      ∃ text, ShellSessionsController.afterVmName env.message request body app =
        (.ok (.error 400 text), app) := by
    intro body
    rcases @afterShellName_of_invalid request env.message invalid body with ⟨text, rejected⟩
    exact ⟨text, by rw [rejected]; rfl⟩
  cases action with
  | sessionsIndex | sessionsCreate | sessionsDestroy => exact before _
  | vms _ | vmsIndex | vmsShow | resourceConfig | console | vnc => simp at shell

theorem not_index_answers {name : String} (isName : shellName request = .string name)
    (valid : IsVmName name) :
    ¬ MachineAction.sessionsIndex.AnswersBadRequest env stamp request app := by
  rintro ⟨text, answered⟩
  rw [MachineAction.respond, ShellSessionsController.indexReply,
    afterShellName_of_valid isName valid] at answered
  rcases exists_reply answered with ⟨sessions, same⟩
  cases same

theorem not_destroy_answers {name : String} (isName : shellName request = .string name)
    (valid : IsVmName name) :
    ¬ MachineAction.sessionsDestroy.AnswersBadRequest env stamp request app := by
  rintro ⟨text, answered⟩
  rw [MachineAction.respond, ShellSessionsController.destroyReply,
    afterShellName_of_valid isName valid] at answered
  rw [← Exec.bind_assoc] at answered
  rcases exists_reply answered with ⟨done, same⟩
  cases same

/-- `get_vm_info` of a valid name issues its command. -/
theorem commands_getVmInfo {multipass : Environment} {name : String} {host : Host}
    (valid : IsVmName name) :
    (getVmInfo multipass (.string name) host).2.commands.length = host.commands.length + 1 := by
  have named : NameValidator.validateVmName (.string name) host = (.ok name, host) := by
    rw [validateVmName_of_valid valid]
    rfl
  rw [getVmInfo, Exec.bind_ok named, Exec.bind_state, run_state, Host.issue, List.length_append]
  · rfl
  · intro output state
    rw [Exec.bind_state, parse, Exec.ofExcept_apply]
    intro resp middle
    rw [Exec.bind_state, Exec.ofExcept_apply]
    intro vms last
    cases vms.find? fun vm => vm.name.text? = some name with
    | none => rfl
    | some vm => rfl

theorem commands_refuseUnlessRunning {name : String} (valid : IsVmName name) :
    (ShellSessionsController.refuseUnlessRunning env.multipass env.message name
      app).2.state.host.commands.length = app.state.host.commands.length + 1 := by
  rw [← @commands_getVmInfo env.multipass name app.state.host valid,
    (ShellSessionsController.refuseUnlessRunning_apply name).2, onState_apply,
    ShellSessionsController.requireRunningVm]
  rcases ran : getVmInfo env.multipass (.string name) app.state.host with ⟨raised | vm, after⟩
  · have failed : Exec.zoom ShellHost.host (fun host shells => { shells with host })
        (getVmInfo env.multipass (.string name)) app.state =
        (.error raised, { app.state with host := after }) := by
      rw [Exec.zoom_apply, ran]
    rw [Exec.rescue_error (Exec.bind_error failed _)]
    cases raised with
    | commandError detail => rfl
    | _ => rfl
  · have returned : Exec.zoom ShellHost.host (fun host shells => { shells with host })
        (getVmInfo env.multipass (.string name)) app.state =
        (.ok vm, { app.state with host := after }) := by
      rw [Exec.zoom_apply, ran]
    rw [Exec.rescue_ok (Exec.bind_ok returned _)]

/-- The machines are as before. -/
def SameHost (before after : App ShellHost) : Prop := after.state.host = before.state.host

instance : IsPreorder (App ShellHost) SameHost where
  refl _ := rfl
  trans _ _ _ first second := Eq.trans second first

/-- What follows the check of the machine does not touch the machines. -/
theorem sameHost_open (name : String) : Exec.Keeps SameHost (Exec.rescue
    (do
      let _ ← onServer (Server.openSession name env.sessionId env.spawn)
      emitHttp stamp request "vm" "open_shell" (some name) (some "success")
        (some ("session " ++ env.sessionId))
      return Reply.json 200 (.object [("id", .string env.sessionId), ("vm_name", .string name)]))
    fun error =>
      match error with
      | .validationError _ => some (pure (Reply.error 400 (env.message error)))
      | _ => some (pure (Reply.error 500 (env.message error)))) := by
  apply Exec.keeps_rescue
  · apply Exec.keeps_bind
    · intro before
      rfl
    · intro ref
      apply Exec.keeps_bind
      · intro before
        rw [SameHost, emitHttp_state]
      · intro done
        exact Exec.keeps_pure _
  · intro error handled handles
    split at handles
    · rw [← Option.some.inj handles]
      exact Exec.keeps_pure _
    · rw [← Option.some.inj handles]
      exact Exec.keeps_pure _

theorem not_create_answers {name : String} (isName : shellName request = .string name)
    (valid : IsVmName name) :
    ¬ MachineAction.sessionsCreate.AnswersBadRequest env stamp request app := by
  rintro ⟨text, answered⟩
  rw [MachineAction.respond, ShellSessionsController.createReply,
    afterShellName_of_valid isName valid] at answered
  have issued := @commands_refuseUnlessRunning env app name valid
  rcases refused : ShellSessionsController.refuseUnlessRunning env.multipass env.message name app
    with ⟨raised | refusal, middle⟩
  · rw [Exec.bind_error refused] at answered
    cases congrArg Prod.fst answered
  · rw [Exec.bind_ok refused] at answered
    rw [refused] at issued
    change middle.state.host.commands.length = _ at issued
    have kept : SameHost middle
        ((Except.ok (Reply.error 400 text) : Except RubyError Reply), app).2 := by
      rw [← answered]
      cases refusal with
      | some reply => rfl
      | none => exact @sameHost_open env stamp request name middle
    change app.state.host = middle.state.host at kept
    rw [kept] at issued
    omega

/-! ## All actions -/

/-- For a shell, the `vm_name` decides if it is given, and the name in the path otherwise. -/
theorem shellName_invalid_iff
    (bad : MachineAction.sessionsIndex.HasInvalidName request) :
    validVmName (shellName request) = false ↔
      (Value.truthy (param request "vm_name") = true →
        validVmName (param request "vm_name") = false) := by
  rw [shellName, Value.orDefault]
  by_cases truthy : Value.truthy (param request "vm_name") = true
  · rw [if_pos truthy]
    exact ⟨fun invalid _ => invalid, fun invalid => invalid truthy⟩
  · rw [if_neg truthy]
    refine iff_of_true ?_ fun isTruthy => absurd isTruthy truthy
    rcases bad with ⟨name, member, given, invalid⟩
    rcases List.mem_cons.mp member with rfl | inPath
    · exact absurd (truthy_of_present given) truthy
    · rcases List.mem_singleton.mp inPath with rfl
      exact invalid

theorem shell_answers_iff {action : MachineAction}
    (shell : action ∈ [.sessionsIndex, .sessionsCreate, .sessionsDestroy])
    (bad : MachineAction.sessionsIndex.HasInvalidName request) :
    action.AnswersBadRequest env stamp request app ↔
      (Value.truthy (param request "vm_name") = true →
        validVmName (param request "vm_name") = false) := by
  rw [← shellName_invalid_iff bad]
  constructor
  · intro answers
    by_contra valid
    rw [Bool.not_eq_false] at valid
    rcases validVmName_iff.mp valid with ⟨name, isName, validName⟩
    cases action with
    | sessionsIndex => exact not_index_answers isName validName answers
    | sessionsCreate => exact not_create_answers isName validName answers
    | sessionsDestroy => exact not_destroy_answers isName validName answers
    | vms _ | vmsIndex | vmsShow | resourceConfig | console | vnc => simp at shell
  · exact answers_of_invalid_shell shell

end

/-- An installation without machines and shells. -/
def quietReplies : ReplyEnvironment :=
  ⟨quietEnvironment, fun _ => "invalid", ⟨0, none, none⟩, "a1", fun _ => .null⟩

def freshShells : App ShellHost := ⟨⟨freshHost, Server.empty⟩, []⟩

/-- The clone of a valid machine under a name that is a flag. -/
def cloneAsFlag : Request :=
  ⟨"POST", "/vms/web/clone.json",
    .object [("name", .string "web"), ("dest_name", .string "--all")]⟩

end MultipassWebui.Web
