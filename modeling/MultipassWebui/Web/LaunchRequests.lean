import MultipassWebui.Auth.Singletons
import MultipassWebui.Text.Integers
import MultipassWebui.Web.VmsAudit

/-!
# The resources of a launch

What a request to launch a machine hands to multipass, read off the argv.  The
stored defaults are to stand in for blank fields, but those of the client do.
-/

namespace MultipassWebui.Web.VmsController

open MultipassWebui.Auth (VmDefault)
open MultipassWebui.Effect
open MultipassWebui.Encoding
open MultipassWebui.Multipass
open MultipassWebui.Records
open MultipassWebui.Text

/-- The resources of a machine. -/
structure Resources where
  cpus : Int
  memoryMb : Int
  diskGb : Int
  deriving DecidableEq, Repr

/-- The resources that the argv of a launch carries. -/
def launchResources : List String → Option Resources
  | "launch" :: "--name" :: _ :: "--cpus" :: cpus :: "--memory" :: memory ::
      "--disk" :: disk :: _ =>
      some ⟨toI cpus.toList, toI memory.toList, toI disk.toList⟩
  | _ => none

/-- The resources that `launch_vm` makes of its arguments. -/
def resourcesOf (arguments : LaunchArguments) : Resources where
  cpus := orDefault MIN_CPU_CORES DEFAULT_CPU_CORES arguments.cpus
  memoryMb := orDefault MIN_RAM_MB DEFAULT_RAM_MB arguments.memoryMb
  diskGb := orDefault MIN_DISK_GB DEFAULT_DISK_GB arguments.diskGb

section

variable {env : Environment} {stamp : EventStamp} {request : Request} {app : App Host}

/-- The argv carries the resources. -/
theorem launchResources_launchArgv (arguments : LaunchArguments) (name : String)
    (flags : List Word) (release : Word) :
    launchResources ((launchArgv env arguments name flags release).map Word.text) =
      some (resourcesOf arguments) := by
  have memory : ∀ value : Int, toI (toString value ++ "M").toList = value := by
    intro value
    rw [String.toList_append]
    exact toI_toString_append value (by decide)
  have disk : ∀ value : Int, toI (toString value ++ "G").toList = value := by
    intro value
    rw [String.toList_append]
    exact toI_toString_append value (by decide)
  change some (Resources.mk (toI (toString (resourcesOf arguments).cpus).toList)
    (toI (toString (resourcesOf arguments).memoryMb ++ "M").toList)
    (toI (toString (resourcesOf arguments).diskGb ++ "G").toList)) = _
  rw [toI_toString, memory, disk]

/-- What `create` does to the machine is what `launch_vm` does to it. -/
theorem create_state :
    (create env stamp request app).2.state =
      match launchArguments request with
      | .error _ => app.state
      | .ok arguments => (launchVm env arguments app.state).2 := by
  let program : Exec (App Host) RubyError PUnit := do
    let arguments ← Exec.ofExcept (launchArguments request)
    let name ← onState (launchVm env arguments)
    emitHttp stamp request "vm" "create" (some name) (some "success") (some "launched")
  have body : (program app).2.state =
      match launchArguments request with
      | .error _ => app.state
      | .ok arguments => (launchVm env arguments app.state).2 := by
    cases given : launchArguments request with
    | error raised =>
        have early : program app = (.error raised, app) :=
          Exec.bind_error (by rw [Exec.ofExcept_apply, given]) _
        rw [early]
    | ok arguments =>
        have later : program app = (onState (launchVm env arguments) >>= fun name =>
            emitHttp stamp request "vm" "create" (some name) (some "success") (some "launched"))
            app := Exec.bind_ok (by rw [Exec.ofExcept_apply, given]) _
        rw [later]
        rcases launched : launchVm env arguments app.state with ⟨raised | name, after⟩
        · have reached : onState (launchVm env arguments) app =
              (.error raised, { app with state := after }) := by rw [onState_apply, launched]
          rw [Exec.bind_error reached]
          simp only [launched]
        · have reached : onState (launchVm env arguments) app =
              (.ok name, { app with state := after }) := by rw [onState_apply, launched]
          rw [Exec.bind_ok reached, emitHttp_state]
          simp only [launched]
  rw [← body]
  change (Exec.rescue program _ app).2.state = _
  rcases ran : program app with ⟨raised | value, middle⟩
  · rw [Exec.rescue_error ran]
    cases raised with
    | commandError message => exact emitHttp_state _ _ _ _ middle
    | _ => rfl
  · rw [Exec.rescue_ok ran]

/-- `create` issues the command of its launch, if it can make one. -/
theorem create_commands :
    (∃ argv succeeded, Issued env request app.state .create argv ∧
      (create env stamp request app).2.state.commands = app.state.commands ++ [⟨argv, succeeded⟩]) ∨
    (¬ ∃ argv, Issued env request app.state .create argv) ∧
      (create env stamp request app).2.state.commands = app.state.commands := by
  rw [create_state]
  cases given : launchArguments request with
  | error raised =>
      refine Or.inr ⟨?_, rfl⟩
      rintro ⟨argv, arguments, _, _, _, isGiven, _⟩
      cases given.symm.trans isGiven
  | ok arguments =>
      rcases launchVm_apply env app.state arguments with
        ⟨name, flags, release, named, staged, released, commands, _⟩ | ⟨none, commands, _⟩
      · exact Or.inl ⟨_, _, ⟨arguments, name, flags, release, given, named, staged, released, rfl⟩,
          commands⟩
      · refine Or.inr ⟨?_, commands⟩
        rintro ⟨argv, other, name, flags, release, isGiven, named, staged, released, _⟩
        cases given.symm.trans isGiven
        exact none name flags release ⟨named, staged, released⟩

/-- The commands that `create` issues carry the resources of its arguments. -/
theorem launchResources_of_issued {argv : List Word}
    (issued : Issued env request app.state .create argv) :
    ∃ arguments, launchArguments request = .ok arguments ∧
      launchResources (argv.map Word.text) = some (resourcesOf arguments) := by
  rcases issued with ⟨arguments, name, flags, release, isGiven, _, _, _, rfl⟩
  exact ⟨arguments, isGiven, launchResources_launchArgv arguments name flags release⟩

end

/-! ## The stored defaults -/

/-- The value that a field is to have: the stored one if it is blank, and a given
one that reaches the minimum. -/
def Takes (minimum stored : Int) (given : Except RubyError (Option Int)) (carried : Int) : Prop :=
  (given = .ok none → carried = stored) ∧
    ∀ value, given = .ok (some value) → minimum ≤ value → carried = value

/-- Blank fields take the stored defaults, and given ones are passed on. -/
structure FollowsDefaults (row : VmDefault) (request : Request) (carried : Resources) : Prop where
  cpus : Takes MIN_CPU_CORES row.cpus (count request "cpus") carried.cpus
  memoryMb : Takes MIN_RAM_MB row.memoryMb (count request "memory_mb") carried.memoryMb
  diskGb : Takes MIN_DISK_GB row.diskGb (count request "disk_gb") carried.diskGb

/-- Every launch of the request follows the stored defaults. -/
def LaunchFollows (row : VmDefault) (env : Environment) (stamp : EventStamp) (request : Request)
    (app : App Host) : Prop :=
  ∀ added, (create env stamp request app).2.state.commands = app.state.commands ++ added →
    ∀ command ∈ added, ∃ carried, launchResources (command.argv.map Word.text) = some carried ∧
      FollowsDefaults row request carried

/-- Where a field is blank, the stored default is the constant of the client. -/
structure BlanksAgree (row : VmDefault) (request : Request) : Prop where
  cpus : count request "cpus" = .ok none → row.cpus = DEFAULT_CPU_CORES
  memoryMb : count request "memory_mb" = .ok none → row.memoryMb = DEFAULT_RAM_MB
  diskGb : count request "disk_gb" = .ok none → row.diskGb = DEFAULT_DISK_GB

section

variable {row : VmDefault} {request : Request}

/-- A field takes the stored default if it is blank and that is the constant. -/
theorem takes_orDefault_iff {minimum default stored : Int} (given : Option Int) :
    Takes minimum stored (.ok given) (orDefault minimum default given) ↔
      ((.ok given : Except RubyError (Option Int)) = .ok none → stored = default) := by
  cases given with
  | none =>
      constructor
      · exact fun takes _ => (takes.1 rfl).symm
      · exact fun same => ⟨fun _ => (same rfl).symm, nofun⟩
  | some value =>
      refine iff_of_true ⟨nofun, fun other isGiven reaches => ?_⟩ nofun
      cases isGiven
      exact if_neg (not_lt.mpr reaches)

/-- The arguments are what the parameters are read as. -/
theorem launchArguments_fields {arguments : LaunchArguments}
    (given : launchArguments request = .ok arguments) :
    count request "cpus" = .ok arguments.cpus ∧
      count request "memory_mb" = .ok arguments.memoryMb ∧
      count request "disk_gb" = .ok arguments.diskGb ∧
      arguments.cloudInitFile = Value.presence (param request "cloud_init_file") := by
  unfold launchArguments at given
  rcases cpus : count request "cpus" with raised | cpus
  · rw [cpus] at given
    cases given
  rcases memory : count request "memory_mb" with raised | memory
  · rw [cpus, memory] at given
    cases given
  rcases disk : count request "disk_gb" with raised | disk
  · rw [cpus, memory, disk] at given
    cases given
  rw [cpus, memory, disk] at given
  cases given
  exact ⟨rfl, rfl, rfl, rfl⟩

theorem followsDefaults_iff {arguments : LaunchArguments}
    (given : launchArguments request = .ok arguments) :
    FollowsDefaults row request (resourcesOf arguments) ↔ BlanksAgree row request := by
  have counts := launchArguments_fields given
  constructor
  · rintro ⟨cpus, memoryMb, diskGb⟩
    rw [counts.1] at cpus
    rw [counts.2.1] at memoryMb
    rw [counts.2.2.1] at diskGb
    constructor
    · rw [counts.1]
      exact (takes_orDefault_iff _).mp cpus
    · rw [counts.2.1]
      exact (takes_orDefault_iff _).mp memoryMb
    · rw [counts.2.2.1]
      exact (takes_orDefault_iff _).mp diskGb
  · rintro ⟨cpus, memoryMb, diskGb⟩
    rw [counts.1] at cpus
    rw [counts.2.1] at memoryMb
    rw [counts.2.2.1] at diskGb
    constructor
    · rw [counts.1]
      exact (takes_orDefault_iff _).mpr cpus
    · rw [counts.2.1]
      exact (takes_orDefault_iff _).mpr memoryMb
    · rw [counts.2.2.1]
      exact (takes_orDefault_iff _).mpr diskGb

end

/-- A request follows the stored defaults if and only if it launches nothing, or
they are those of the client where a field is blank. -/
theorem launchFollows_iff (row : VmDefault) (env : Environment) (stamp : EventStamp)
    (request : Request) (app : App Host) :
    LaunchFollows row env stamp request app ↔
      ((∃ argv, Issued env request app.state .create argv) → BlanksAgree row request) := by
  rcases @create_commands env stamp request app with
    ⟨argv, succeeded, issued, commands⟩ | ⟨silent, commands⟩
  · rcases launchResources_of_issued issued with ⟨arguments, given, carried⟩
    constructor
    · intro follows _
      rcases follows _ commands _ (List.mem_singleton.mpr rfl) with ⟨others, isCarried, defaults⟩
      cases carried.symm.trans isCarried
      exact (followsDefaults_iff given).mp defaults
    · intro agrees added isAdded command member
      obtain rfl := List.append_cancel_left (commands.symm.trans isAdded)
      rw [List.mem_singleton.mp member]
      exact ⟨_, carried, (followsDefaults_iff given).mpr (agrees ⟨argv, issued⟩)⟩
  · refine iff_of_true ?_ fun launches => absurd launches silent
    intro added isAdded command member
    obtain rfl : [] = added :=
      List.append_cancel_left (((List.append_nil _).trans commands.symm).trans isAdded)
    cases member

/-- A request with a name and nothing else. -/
def plainLaunch : Request := ⟨"POST", "/vms", .object [("name", .string "web")]⟩

/-- With larger defaults stored, a launch without values still gets those of the
client. -/
theorem largerDefaults_not_followed :
    (create quietEnvironment ⟨0, "00"⟩ plainLaunch ⟨freshHost, []⟩).2.state.commands =
      [⟨[.literal "launch", .literal "--name", .given "web", .literal "--cpus", .given "2",
        .literal "--memory", .given "1024M", .literal "--disk", .given "8G",
        .literal "24.04"], true⟩] ∧
    ¬ LaunchFollows ⟨4, 2048, 20, none, none⟩ quietEnvironment ⟨0, "00"⟩ plainLaunch
      ⟨freshHost, []⟩ := by
  have commands : (create quietEnvironment ⟨0, "00"⟩ plainLaunch
      ⟨freshHost, []⟩).2.state.commands =
      [⟨[.literal "launch", .literal "--name", .given "web", .literal "--cpus", .given "2",
        .literal "--memory", .given "1024M", .literal "--disk", .given "8G",
        .literal "24.04"], true⟩] := by decide +kernel
  refine ⟨commands, fun follows => ?_⟩
  rcases follows _ commands _ (List.mem_singleton.mpr rfl) with ⟨carried, isCarried, defaults⟩
  have two : launchResources ["launch", "--name", "web", "--cpus", "2", "--memory", "1024M",
      "--disk", "8G", "24.04"] = some ⟨2, 1024, 8⟩ := by decide +kernel
  cases two.symm.trans isCarried
  exact absurd (defaults.cpus.1 (by decide +kernel)) (by decide)

end MultipassWebui.Web.VmsController
