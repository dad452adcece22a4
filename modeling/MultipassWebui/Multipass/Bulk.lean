import MultipassWebui.Multipass.Names

/-!
# Starting and stopping all machines

What `start_all` and `stop_all` are for: an attempt on every machine in the
state, whatever becomes of the others, and one error that names those that
failed.  The loop rescues the error of a command and nothing else.
-/

namespace MultipassWebui.Multipass

open MultipassWebui.Effect
open MultipassWebui.Encoding

/-- The operations on all machines. -/
inductive Bulk where
  | startAll
  | stopAll
  deriving DecidableEq, Repr

namespace Bulk

/-- The state of the machines that the operation attempts. -/
def state : Bulk → String
  | startAll => "Stopped"
  | stopAll => "Running"

def verb : Bulk → String
  | startAll => "start"
  | stopAll => "stop"

def exec (env : Environment) : Bulk → Exec Host RubyError PUnit
  | startAll => Multipass.startAll env
  | stopAll => Multipass.stopAll env

theorem exec_eq (env : Environment) (bulk : Bulk) :
    bulk.exec env = runAllInState env bulk.state (lifecycle env bulk.verb) := by
  cases bulk <;> rfl

end Bulk

/-- The machines in a state. -/
def inState (state : String) (vms : List VmInfo) : List VmInfo :=
  vms.filter fun vm => vm.state.bind Json.text? = some state

section

variable (env : Environment) (verb : String)

/-- Attempt every machine, whatever becomes of the others. -/
def attemptAll : List VmInfo → Host → List (VmInfo × Except RubyError String) × Host
  | [], host => ([], host)
  | vm :: rest, host =>
      let (outcome, middle) := lifecycle env verb vm.name host
      let (outcomes, last) := attemptAll rest middle
      ((vm, outcome) :: outcomes, last)

/-- The machines whose attempt failed. -/
def failedOf : List (VmInfo × Except RubyError String) → List VmInfo
  | [] => []
  | (_, .ok _) :: rest => failedOf rest
  | (vm, .error _) :: rest => vm :: failedOf rest

/-- An error of the operation on all machines that names some of them. -/
def Names (failed : List VmInfo) (outcome : Except RubyError PUnit) : Prop :=
  ∃ messages : List String, messages.length = failed.length ∧
    outcome = .error (.commandError (commandMessage ["bulk"] 1 ("; ".intercalate
      (List.zipWith (fun vm message => interpolate env vm.name ++ ": " ++ message) failed
        messages))))

/-- Every machine was attempted once, in order, and the outcome tells the failures. -/
structure FailuresIsolated (attempted : List VmInfo) (before : Host)
    (outcome : Except RubyError PUnit)
    (after : Host) : Prop where
  attempts : after = (attemptAll env verb attempted before).2
  returns : outcome = .ok ⟨⟩ ↔ failedOf (attemptAll env verb attempted before).1 = []
  names : failedOf (attemptAll env verb attempted before).1 ≠ [] →
    Names env (failedOf (attemptAll env verb attempted before).1) outcome

/-- The validator accepts the name, and the runner raises nothing but the error of
a command. -/
def Attemptable (position : Nat) (vm : VmInfo) : Prop :=
  ∃ name, vm.name = .string name ∧ IsVmName name ∧
    ∀ raised, env.runner position [verb, name] = .error raised → raised.isCommandError = true

/-- All machines can be attempted, the first one with the command at a position. -/
def AllAttemptable : Nat → List VmInfo → Prop
  | _, [] => True
  | position, vm :: rest => Attemptable env verb position vm ∧ AllAttemptable (position + 1) rest

end

section

variable {env : Environment} {state verb : String} {vm : VmInfo} {host : Host}

/-- An attempt issues one command. -/
theorem lifecycle_of_attemptable (attemptable : Attemptable env verb host.commands.length vm) :
    ∃ name, vm.name = .string name ∧ IsVmName name ∧
      (lifecycle env verb vm.name host).2 = host.issue [.literal verb, .given name]
        (succeeds env host.commands.length [.literal verb, .given name]) ∧
      ∀ raised, (lifecycle env verb vm.name host).1 = .error raised →
        raised.isCommandError = true := by
  obtain ⟨name, named, valid, quiet⟩ := attemptable
  have ran : lifecycle env verb vm.name = run env [.literal verb, .given name] := by
    rw [lifecycle, named, validateVmName_of_valid valid, Exec.pure_bind]
  refine ⟨name, named, valid, ?_, ?_⟩
  · rw [ran, run_state]
  · intro raised failed
    rw [ran, run, Exec.bind_pure_apply] at failed
    unfold capture at failed
    simp only [List.map_cons, List.map_nil, Word.text] at failed
    rcases answer : env.runner host.commands.length [verb, name] with
      error | ⟨out, err, _ | _, exit⟩
    · simp only [answer, Except.map] at failed
      exact Except.error.inj failed ▸ quiet error answer
    · simp only [answer, Except.map] at failed
      exact Except.error.inj failed ▸ rfl
    · simp only [answer, Except.map] at failed
      cases failed

/-- What cannot be attempted raises something that is no error of a command. -/
theorem lifecycle_of_not_attemptable
    (notAttemptable : ¬ Attemptable env verb host.commands.length vm) :
    ∃ raised, (lifecycle env verb vm.name host).1 = .error raised ∧
      raised.isCommandError = false := by
  by_cases valid : ∃ name, vm.name = .string name ∧ IsVmName name
  · obtain ⟨name, named, isName⟩ := valid
    have foreign : ∃ raised, env.runner host.commands.length [verb, name] = .error raised ∧
        raised.isCommandError = false := by
      by_contra none
      refine notAttemptable ⟨name, named, isName, fun raised answer => ?_⟩
      by_contra notCommand
      exact none ⟨raised, answer, Bool.not_eq_true _ ▸ notCommand⟩
    obtain ⟨raised, answer, notCommand⟩ := foreign
    refine ⟨raised, ?_, notCommand⟩
    have captured : capture env [.literal verb, .given name] host =
        (.error raised, host.issue [.literal verb, .given name] false) := by
      unfold capture
      simp only [List.map_cons, List.map_nil, Word.text, answer]
    rw [lifecycle, named, validateVmName_of_valid isName, Exec.pure_bind, run,
      Exec.bind_error captured]
  · obtain ⟨shown, raises⟩ :=
      validateVmName_of_invalid fun text isText isName => valid ⟨text, isText, isName⟩
    refine ⟨.validationError shown, ?_, rfl⟩
    rw [lifecycle, raises]
    rfl

/-- After an attempt the others can be attempted with the commands that follow. -/
theorem AllAttemptable.tail {rest : List VmInfo}
    (attemptable : AllAttemptable env verb host.commands.length (vm :: rest)) :
    AllAttemptable env verb (lifecycle env verb vm.name host).2.commands.length rest := by
  obtain ⟨_, _, _, issued, _⟩ := lifecycle_of_attemptable attemptable.1
  rw [issued, Host.issue, List.length_append]
  exact attemptable.2

/-- What an attempt that could be made raises is the error of a command. -/
theorem Attemptable.handled (attemptable : Attemptable env verb host.commands.length vm)
    (raised : RubyError) (failed : (lifecycle env verb vm.name host).1 = .error raised) :
    raised.isCommandError = true := by
  obtain ⟨_, _, _, _, handled⟩ := lifecycle_of_attemptable attemptable
  exact handled raised failed

/-! ## One round of the loop -/

/-- The error that a round collects. -/
def collected (env : Environment) : VmInfo × Except RubyError String → List String
  | (vm, .error (.commandError message)) => [interpolate env vm.name ++ ": " ++ message]
  | _ => []

theorem runOne_of_other (other : vm.state.bind Json.text? ≠ some state)
    (block : Json → Exec Host RubyError String) :
    runOne env state block vm host = (.ok [], host) := by
  rw [runOne, if_neg other]
  rfl

theorem runOne_of_handled (isIn : vm.state.bind Json.text? = some state)
    (handled : ∀ raised, (lifecycle env verb vm.name host).1 = .error raised →
      raised.isCommandError = true) :
    runOne env state (lifecycle env verb) vm host =
      (.ok (collected env (vm, (lifecycle env verb vm.name host).1)),
        (lifecycle env verb vm.name host).2) := by
  rw [runOne, if_pos isIn]
  rcases ran : lifecycle env verb vm.name host with ⟨outcome, middle⟩
  rw [ran] at handled
  cases outcome with
  | ok value => exact Exec.rescue_ok (Exec.bind_ok ran _) _
  | error raised =>
      rw [Exec.rescue_error (Exec.bind_error ran _)]
      have isCommand := handled raised rfl
      cases raised <;> first | rfl | cases isCommand

theorem runOne_of_foreign (isIn : vm.state.bind Json.text? = some state) {raised : RubyError}
    (failed : (lifecycle env verb vm.name host).1 = .error raised)
    (notCommand : raised.isCommandError = false) :
    (runOne env state (lifecycle env verb) vm host).1 = .error raised := by
  rw [runOne, if_pos isIn]
  rcases ran : lifecycle env verb vm.name host with ⟨outcome, middle⟩
  rw [ran] at failed
  obtain rfl := failed
  rw [Exec.rescue_error (Exec.bind_error ran _)]
  cases raised <;> first | rfl | cases notCommand

/-! ## The loop -/

theorem inState_cons_of_other (other : vm.state.bind Json.text? ≠ some state)
    (rest : List VmInfo) : inState state (vm :: rest) = inState state rest :=
  List.filter_cons_of_neg (by simpa using other)

theorem inState_cons (isIn : vm.state.bind Json.text? = some state) (rest : List VmInfo) :
    inState state (vm :: rest) = vm :: inState state rest :=
  List.filter_cons_of_pos (by simpa using isIn)

/-- The loop attempts every machine in the state and collects the errors. -/
theorem runEach_of_attemptable {vms : List VmInfo}
    (attemptable : AllAttemptable env verb host.commands.length (inState state vms)) :
    runEach env state (lifecycle env verb) vms host =
      (.ok ((attemptAll env verb (inState state vms) host).1.flatMap (collected env)),
        (attemptAll env verb (inState state vms) host).2) := by
  induction vms generalizing host with
  | nil => rfl
  | cons vm rest ih =>
      by_cases isIn : vm.state.bind Json.text? = some state
      · rw [inState_cons isIn] at attemptable ⊢
        have ran := Exec.bind_ok (runOne_of_handled isIn attemptable.1.handled) fun errors =>
          runEach env state (lifecycle env verb) rest >>= fun more => pure (errors ++ more)
        rw [Exec.bind_ok (ih attemptable.tail)] at ran
        rw [runEach]
        exact ran
      · have ran := Exec.bind_ok (@runOne_of_other env state vm host isIn (lifecycle env verb))
          fun errors => runEach env state (lifecycle env verb) rest >>= fun more =>
            pure (errors ++ more)
        rw [inState_cons_of_other isIn] at attemptable ⊢
        rw [Exec.bind_ok (ih attemptable)] at ran
        rw [runEach]
        exact ran

/-- The loop ends at the first machine that cannot be attempted. -/
theorem runEach_of_not_attemptable {vms : List VmInfo}
    (notAttemptable : ¬ AllAttemptable env verb host.commands.length (inState state vms)) :
    ∃ raised, (runEach env state (lifecycle env verb) vms host).1 = .error raised ∧
      raised.isCommandError = false := by
  induction vms generalizing host with
  | nil => exact absurd trivial notAttemptable
  | cons vm rest ih =>
      rw [runEach]
      by_cases isIn : vm.state.bind Json.text? = some state
      · rw [inState_cons isIn] at notAttemptable
        by_cases first : Attemptable env verb host.commands.length vm
        · have later : ¬ AllAttemptable env verb (lifecycle env verb vm.name host).2.commands.length
              (inState state rest) := by
            obtain ⟨_, _, _, issued, _⟩ := lifecycle_of_attemptable first
            rw [issued, Host.issue, List.length_append]
            exact fun others => notAttemptable ⟨first, others⟩
          obtain ⟨raised, failed, notCommand⟩ := ih later
          refine ⟨raised, ?_, notCommand⟩
          rw [Exec.bind_ok (runOne_of_handled isIn first.handled), Exec.bind_pure_apply, failed]
          rfl
        · obtain ⟨raised, failed, notCommand⟩ := lifecycle_of_not_attemptable first
          refine ⟨raised, ?_, notCommand⟩
          have stopped := @runOne_of_foreign env state verb vm host isIn raised failed notCommand
          exact congrArg Prod.fst (Exec.bind_error (Prod.ext stopped rfl) _)
      · rw [inState_cons_of_other isIn] at notAttemptable
        obtain ⟨raised, failed, notCommand⟩ := ih notAttemptable
        refine ⟨raised, ?_, notCommand⟩
        rw [Exec.bind_ok (runOne_of_other isIn _), Exec.bind_pure_apply, failed]
        rfl

/-! ## The attempts -/

/-- Every attempt issues one command, with the name of its machine. -/
theorem attemptAll_commands {vms : List VmInfo}
    (attemptable : AllAttemptable env verb host.commands.length vms) :
    ∃ added, (attemptAll env verb vms host).2.commands = host.commands ++ added ∧
      added.map (fun command => command.argv.map Word.text) =
        vms.map fun vm => [verb, vm.name.text?.getD ""] := by
  induction vms generalizing host with
  | nil => exact ⟨[], (List.append_nil _).symm, rfl⟩
  | cons vm rest ih =>
      obtain ⟨name, named, _, issued, _⟩ := lifecycle_of_attemptable attemptable.1
      obtain ⟨added, commands, argvs⟩ := ih attemptable.tail
      refine ⟨⟨[.literal verb, .given name],
        succeeds env host.commands.length [.literal verb, .given name]⟩ :: added, ?_, ?_⟩
      · rw [attemptAll, commands, issued, Host.issue, List.append_assoc]
        rfl
      · have given : vm.name.text?.getD "" = name := by
          rw [named]
          rfl
        refine congrArg₂ List.cons ?_ argvs
        change [verb, name] = [verb, vm.name.text?.getD ""]
        rw [given]

/-- What fails in an attempt is the command. -/
theorem attemptAll_handled {vms : List VmInfo}
    (attemptable : AllAttemptable env verb host.commands.length vms) :
    ∀ entry ∈ (attemptAll env verb vms host).1, ∀ raised, entry.2 = .error raised →
      raised.isCommandError = true := by
  induction vms generalizing host with
  | nil => exact List.forall_mem_nil _
  | cons vm rest ih =>
      intro entry member
      rcases List.mem_cons.mp member with rfl | later
      · exact attemptable.1.handled
      · exact ih attemptable.tail entry later

/-- The collected errors name exactly the machines whose attempt failed. -/
theorem collected_names {outcomes : List (VmInfo × Except RubyError String)}
    (handled : ∀ entry ∈ outcomes, ∀ raised, entry.2 = .error raised →
      raised.isCommandError = true) :
    ∃ messages : List String, messages.length = (failedOf outcomes).length ∧
      outcomes.flatMap (collected env) =
        List.zipWith (fun vm message => interpolate env vm.name ++ ": " ++ message)
          (failedOf outcomes) messages := by
  induction outcomes with
  | nil => exact ⟨[], rfl, rfl⟩
  | cons entry rest ih =>
      obtain ⟨messages, count, named⟩ :=
        ih fun other member => handled other (List.mem_cons_of_mem _ member)
      rcases entry with ⟨vm, raised | value⟩
      · have isCommand := handled _ (List.mem_cons_self ..) raised rfl
        cases raised with
        | commandError message =>
            refine ⟨message :: messages, congrArg Nat.succ count, ?_⟩
            rw [List.flatMap_cons, named]
            rfl
        | _ => cases isCommand
      · exact ⟨messages, count, named⟩

end

section

variable {env : Environment} {verb : String} {attempted : List VmInfo} {before after : Host}

/-- An error that is none of a command tells no failures. -/
theorem not_failuresIsolated_of_foreign {raised : RubyError}
    (notCommand : raised.isCommandError = false) :
    ¬ FailuresIsolated env verb attempted before (.error raised) after := by
  intro isolated
  have someFailed : failedOf (attemptAll env verb attempted before).1 ≠ [] :=
    fun none => nomatch isolated.returns.mpr none
  obtain ⟨_, _, same⟩ := isolated.names someFailed
  rw [Except.error.inj same] at notCommand
  cases notCommand

end

/-- Two stopped machines, of which nothing but the first command can be issued. -/
def twoStopped (first second : String) : Environment :=
  { quietEnvironment with
    runner := fun position _ => .ok ⟨"", "", decide (position ≤ 1), 2⟩
    parseJson := fun _ => .ok (.object [("info", .object [
      (first, .object [("state", .string "Stopped")]),
      (second, .object [("state", .string "Stopped")])])]) }

def stopped (name : String) : VmInfo where
  name := .string name
  state := some (.string "Stopped")
  release := .string ""
  memoryUsage := some "0 B"
  memoryTotal := some "0 B"
  memoryUsageRaw := some 0
  memoryTotalRaw := some 0

/-- The host after the machines were listed. -/
def listedHost : Host :=
  freshHost.issue [.literal "info", .literal "--all", .literal "--format", .literal "json"] true

/-- The entry of a machine of which nothing but the state is said. -/
theorem parseDetail_stopped (env : Environment) (name : String) :
    parseDetail env name (.object [("state", .string "Stopped")]) = .ok (stopped name) := by
  have noBytes : formatBytes 0 = "0 B" := by decide
  have noSnapshots : Text.toI (Text.strip "").toList = 0 := by decide
  have parts := @parseDetail_of_parts env [("state", .string "Stopped")] name none (none, none) 0 0
    [] rfl rfl rfl rfl parseMounts_null
  rw [parts]
  simp [assemble, stopped, get, Json.field?, textOf, noBytes, noSnapshots, Value.present,
    Value.orDefault, Value.truthy]

theorem listVms_twoStopped {first second : String} (sorted : first ≤ second) :
    listVms (twoStopped first second) freshHost =
      (.ok [stopped first, stopped second], listedHost) := by
  have inOrder : [stopped first, stopped second].mergeSort (fun one other =>
      decide (one.name.text?.getD "" ≤ other.name.text?.getD "")) =
        [stopped first, stopped second] := by
    refine List.mergeSort_of_pairwise (List.pairwise_pair.mpr ?_)
    exact decide_eq_true sorted
  refine Exec.rescue_ok ?_ _
  refine (Exec.bind_ok (show run (twoStopped first second) _ freshHost = (.ok _, listedHost) from
    rfl) _).trans ?_
  refine (Exec.bind_ok (show parse (twoStopped first second) _ listedHost = (.ok _, listedHost) from
    rfl) _).trans ?_
  rw [Exec.ofExcept_apply]
  have read : parseInfoJson (twoStopped first second) (.object [("info", .object [
      (first, .object [("state", .string "Stopped")]),
      (second, .object [("state", .string "Stopped")])])]) =
        .ok ([stopped first, stopped second].mergeSort fun one other =>
          decide (one.name.text?.getD "" ≤ other.name.text?.getD "")) := by
    have parsed : [(first, Json.object [("state", .string "Stopped")]),
        (second, Json.object [("state", .string "Stopped")])].mapM (fun field =>
          parseDetail (twoStopped first second) field.1 field.2) =
        .ok [stopped first, stopped second] := by
      simp only [List.mapM_cons, List.mapM_nil, parseDetail_stopped]
      rfl
    rw [parseInfoJson_of_object rfl, parsed]
    rfl
  rw [read, inOrder]

end MultipassWebui.Multipass
