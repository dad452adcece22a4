import MultipassWebui.Calendar.Strptime
import MultipassWebui.Collections.OrderedHash
import MultipassWebui.Effect.Frame
import MultipassWebui.Effect.RubyError
import MultipassWebui.Encoding.Json
import MultipassWebui.Text.Strings

/-!
# The multipass client and its runner

Every operation hands an argv to a runner, which is code outside the
repository, as are the random numbers and the file system it works on.  The
elements of an argv remember whether they are written in the code or built from
a value of the caller; the runner sees their texts only.  The commands that
were issued are recorded for the statements.
-/

namespace MultipassWebui.Multipass

open MultipassWebui.Collections
open MultipassWebui.Effect
open MultipassWebui.Encoding
open MultipassWebui.Text

/-- An element of an argv. -/
inductive Word where
  | literal (text : String)
  | given (text : String)
  deriving DecidableEq, Repr

def Word.text : Word → String
  | literal text => text
  | given text => text

/-- `[stdout, stderr, status]` -/
structure RunResult where
  stdout : String
  stderr : String
  success : Bool
  exitstatus : Int
  deriving DecidableEq, Repr

/-- A command that was issued, and whether it succeeded. -/
structure Command where
  argv : List Word
  succeeded : Bool
  deriving DecidableEq, Repr

/-- Why `File.binwrite` fails, and what it leaves in the file, if anything. -/
structure WriteFailure where
  error : RubyError
  written : Option (List UInt8)
  deriving DecidableEq, Repr

/-- The machine that a client works on, and the client's instance variable. -/
structure Host where
  commands : List Command
  files : OrderedHash String (List UInt8)
  /-- `@last_cloud_init_tmp` -/
  lastCloudInitTmp : Option String
  /-- The files that each of the commands found. -/
  filesFound : List (OrderedHash String (List UInt8))

/-- What the operations meet outside the repository. -/
structure Environment where
  /-- The answer to the command at a position. -/
  runner : Nat → List String → Except RubyError RunResult
  /-- `JSON.parse` -/
  parseJson : String → Except RubyError Json
  /-- `to_s` of a value that is not a text. -/
  toText : Json → String
  /-- `Float(text)`, where the text is one of a number. -/
  parseFloat : String → Option Rat
  /-- `SecureRandom.random_number(36)` -/
  randomNumber : Nat → Fin 36
  /-- `Dir.tmpdir` -/
  tmpdir : String
  /-- `File.exist?("/var/snap/multipass/common")` -/
  snapDirExists : Bool
  /-- Why a file that exists cannot be read. -/
  readError : String → Option RubyError
  writeError : String → Option WriteFailure
  /-- `FileUtils.rm_f` does not say when it fails. -/
  removeFails : String → Bool
  zone : Calendar.HostZone

/-! ## Names -/

namespace NameValidator

/-- `VM_NAME_PATTERN`: `/\A[a-zA-Z0-9][a-zA-Z0-9-]{0,62}\z/` -/
def VM_NAME_PATTERN (name : String) : Bool :=
  matchesLeading isAlnum (fun char => isAlnum char || char = '-') 62 name

/-- `valid_vm_name?` -/
def validVmName (name : Json) : Bool :=
  match name with
  | .string text => VM_NAME_PATTERN text
  | _ => false

/-- `validate_vm_name!`, with the text that was validated. -/
def validateVmName (name : Json) : Exec Host RubyError String :=
  match name with
  | .string text =>
      if VM_NAME_PATTERN text then pure text else Exec.raise (.validationError text)
  | _ => Exec.raise (.validationError "nil")

end NameValidator

def VM_NAME_PREFIX : String := "VM-"

def VM_NAME_RANDOM_LENGTH : Nat := 4

/-- `("a".."z").to_a + ("0".."9").to_a` -/
def charset : List Char := "abcdefghijklmnopqrstuvwxyz0123456789".toList

/-- `Client.random_vm_name` -/
def randomVmName (env : Environment) : String :=
  VM_NAME_PREFIX ++ String.ofList ((List.range VM_NAME_RANDOM_LENGTH).map fun draw =>
    charset.get (env.randomNumber draw))

/-! ## The runner -/

def Host.issue (host : Host) (argv : List Word) (succeeded : Bool) : Host :=
  { host with
    commands := host.commands ++ [⟨argv, succeeded⟩]
    filesFound := host.filesFound ++ [host.files] }

/-- The message of a `CommandError`. -/
def commandMessage (args : List String) (exitstatus : Int) (stderr : String) : String :=
  "multipass " ++ " ".intercalate args ++ " failed (exit " ++ toString exitstatus ++ "): " ++
    strip stderr

section

variable (env : Environment)

/-- Issue a command, with its whole output. -/
def capture (argv : List Word) : Exec Host RubyError String := fun host =>
  match env.runner host.commands.length (argv.map Word.text) with
  | .error raised => (.error raised, host.issue argv false)
  | .ok ⟨stdout, _, true, _⟩ => (.ok stdout, host.issue argv true)
  | .ok ⟨_, stderr, false, exitstatus⟩ =>
      (.error (.commandError (commandMessage (argv.map Word.text) exitstatus stderr)),
        host.issue argv false)

/-- `run` -/
def run (argv : List Word) : Exec Host RubyError String := do
  return strip (← capture env argv)

def parse (output : String) : Exec Host RubyError Json := Exec.ofExcept (env.parseJson output)

/-- The command at a position succeeds. -/
def succeeds (position : Nat) (argv : List Word) : Bool :=
  match env.runner position (argv.map Word.text) with
  | .ok result => result.success
  | .error _ => false

end

theorem capture_state (env : Environment) (argv : List Word) (host : Host) :
    (capture env argv host).2 = host.issue argv (succeeds env host.commands.length argv) := by
  unfold capture succeeds
  rcases env.runner host.commands.length (argv.map Word.text) with raised | ⟨out, err, _ | _, exit⟩
  · rfl
  · rfl
  · rfl

theorem run_state (env : Environment) (argv : List Word) (host : Host) :
    (run env argv host).2 = host.issue argv (succeeds env host.commands.length argv) := by
  unfold run
  rw [Exec.bind_pure_apply]
  exact capture_state env argv host

theorem capture_of_success {env : Environment} {argv : List Word} {host : Host}
    (success : succeeds env host.commands.length argv = true) :
    ∃ stdout, capture env argv host = (.ok stdout, host.issue argv true) := by
  unfold succeeds at success
  unfold capture
  rcases answer : env.runner host.commands.length (argv.map Word.text) with
    raised | ⟨out, err, _ | _, exit⟩
  · simp [answer] at success
  · simp [answer] at success
  · exact ⟨out, rfl⟩

theorem capture_of_failure {env : Environment} {argv : List Word} {host : Host}
    (failure : succeeds env host.commands.length argv = false) :
    ∃ raised, capture env argv host = (.error raised, host.issue argv false) := by
  unfold succeeds at failure
  unfold capture
  rcases answer : env.runner host.commands.length (argv.map Word.text) with
    raised | ⟨out, err, _ | _, exit⟩
  · exact ⟨raised, rfl⟩
  · exact ⟨_, rfl⟩
  · simp [answer] at failure

theorem run_of_success {env : Environment} {argv : List Word} {host : Host}
    (success : succeeds env host.commands.length argv = true) :
    ∃ stdout, run env argv host = (.ok stdout, host.issue argv true) := by
  rcases capture_of_success success with ⟨stdout, captured⟩
  exact ⟨strip stdout, Exec.bind_ok captured _⟩

theorem run_of_failure {env : Environment} {argv : List Word} {host : Host}
    (failure : succeeds env host.commands.length argv = false) :
    ∃ raised, run env argv host = (.error raised, host.issue argv false) := by
  rcases capture_of_failure failure with ⟨raised, captured⟩
  exact ⟨raised, Exec.bind_error captured _⟩

/-! ## The commands that are added -/

/-- The commands that were added satisfy a condition on their argv. -/
def Issues (P : List Word → Prop) (before after : Host) : Prop :=
  ∃ added, after.commands = before.commands ++ added ∧ ∀ command ∈ added, P command.argv

instance (P : List Word → Prop) : IsPreorder Host (Issues P) where
  refl host := ⟨[], (List.append_nil _).symm, nofun⟩
  trans := by
    rintro first second third ⟨early, firstEq, earlyHold⟩ ⟨late, secondEq, lateHold⟩
    refine ⟨early ++ late, ?_, ?_⟩
    · rw [secondEq, firstEq, List.append_assoc]
    · intro command member
      rcases List.mem_append.mp member with old | new
      · exact earlyHold command old
      · exact lateHold command new

section

variable {env : Environment} {P : List Word → Prop}

theorem issues_capture {argv : List Word} (holds : P argv) :
    Exec.Keeps (Issues P) (capture env argv) := by
  intro host
  rw [capture_state]
  refine ⟨[⟨argv, _⟩], rfl, ?_⟩
  intro command member
  rw [List.mem_singleton.mp member]
  exact holds

theorem issues_run {argv : List Word} (holds : P argv) : Exec.Keeps (Issues P) (run env argv) :=
  Exec.keeps_bind (issues_capture holds) fun _ => Exec.keeps_pure _

theorem issues_parse (output : String) : Exec.Keeps (Issues P) (parse env output) :=
  Exec.keeps_ofExcept _

end

/-! ## What a name is -/

/-- A letter or digit, then up to 62 letters, digits and hyphens. -/
def IsVmName (name : String) : Prop :=
  ∃ first rest, name.toList = first :: rest ∧ isAlnum first = true ∧
    (∀ char ∈ rest, isAlnum char = true ∨ char = '-') ∧ rest.length ≤ 62

theorem vmNamePattern_iff (name : String) :
    NameValidator.VM_NAME_PATTERN name = true ↔ IsVmName name := by
  unfold NameValidator.VM_NAME_PATTERN matchesLeading IsVmName
  cases name.toList with
  | nil => simp
  | cons first rest =>
      simp only [Bool.and_eq_true, List.all_eq_true, Bool.or_eq_true, decide_eq_true_eq,
        List.cons.injEq, and_assoc]
      constructor
      · rintro ⟨head, tail, bound⟩
        exact ⟨first, rest, rfl, rfl, head, tail, bound⟩
      · rintro ⟨_, _, rfl, rfl, holds⟩
        exact holds

end MultipassWebui.Multipass
