import MultipassWebui.Encoding.Utf8
import MultipassWebui.Multipass.Operations
import MultipassWebui.Streams.Completion

/-!
# Commands with streams

`run_streaming` and the two transfers start multipass with pipes and read them one
after the other.  How such a call ends depends on the status and the output of the
command; that it ends, on what the pipes hold.
-/

namespace MultipassWebui.Multipass.Streaming

open MultipassWebui.Effect
open MultipassWebui.Encoding
open MultipassWebui.Streams
open MultipassWebui.Text
open MultipassWebui.Transition

/-! ## The calls -/

/-- `Client::CommandError`, with its attributes. -/
structure CommandError where
  args : List String
  status : UInt8
  stdout : List UInt8
  stderr : String
  deriving DecidableEq

/-- `CommandError.new` -/
def CommandError.new (args : List String) (status : UInt8) (stdout : List UInt8)
    (stderr : String) : CommandError :=
  ⟨args, status, stdout, strip stderr⟩

inductive Ending where
  /-- It returns a text or `nil`. -/
  | returned (value : Option String)
  | commandError (error : CommandError)
  /-- `strip` of a text that is not well encoded. -/
  | argumentError
  | brokenPipe
  deriving DecidableEq

/-- `each_line` -/
def eachLine : List UInt8 → List (List UInt8)
  | [] => []
  | byte :: rest =>
      if byte = 10 then [byte] :: eachLine rest
      else
        match eachLine rest with
        | [] => [[byte]]
        | line :: lines => (byte :: line) :: lines

/-- `puts` -/
def puts (line : List UInt8) : List UInt8 :=
  if line.getLast? = some 10 then line else line ++ [10]

/-- A block of `Open3.popen3`: what it does with the pipes, and how it ends. -/
structure Popen3 where
  args : List String
  /-- What it writes before it closes `stdin`. -/
  data : List UInt8
  /-- The streams that it reads, in order. -/
  first : Stream
  later : List Stream
  /-- How it ends with the status and with what was read. -/
  conclude : UInt8 → (Stream → List UInt8) → Ending
  readsStderr : .stderr ∈ first :: later
  /-- Nothing else is known of the streams. -/
  reads : ∀ status received other, (∀ stream ∈ first :: later, received stream = other stream) →
    conclude status received = conclude status other

/-- `run_streaming`, without a block. -/
def runStreaming (args : List String) : Popen3 where
  args := args
  data := []
  first := .stdout
  later := [.stderr]
  conclude status received :=
    let stdoutIo := (eachLine (received .stdout)).flatMap puts
    let err := received .stderr
    if status = 0 then
      match decodeUtf8 stdoutIo with
      | some text => .returned (some (strip text))
      | none => .argumentError
    else
      -- `log_failure` strips the text first
      match decodeUtf8 err with
      | some text => .commandError (.new args status stdoutIo text)
      | none => .argumentError
  readsStderr := List.mem_cons_of_mem _ List.mem_cons_self
  reads status received other same := by
    rw [same .stdout List.mem_cons_self,
      same .stderr (List.mem_cons_of_mem _ List.mem_cons_self)]

/-- How a transfer ends. -/
def concludeTransfer (args : List String) (status : UInt8) (err : List UInt8) : Ending :=
  if status = 0 then .returned none
  else
    match decodeUtf8 err with
    | some text => .commandError (.new args status [] (strip text))
    | none => .argumentError

/-- `transfer_from_vm`; the given IO gets what is read of `stdout`. -/
def transferFromVm (vmName remotePath : String) : Except RubyError Popen3 :=
  if NameValidator.VM_NAME_PATTERN vmName then
    let src := vmName ++ ":" ++ remotePath
    .ok {
      args := ["transfer", src, "-"]
      data := []
      first := .stdout
      later := [.stderr]
      conclude := fun status received =>
        concludeTransfer ["transfer", src, "-"] status (received .stderr)
      readsStderr := List.mem_cons_of_mem _ List.mem_cons_self
      reads := by
        intro status received other same
        rw [same .stderr (List.mem_cons_of_mem _ List.mem_cons_self)] }
  else .error (.validationError vmName)

/-- `transfer_to_vm`, for an IO with the given content. -/
def transferToVm (vmName remotePath : String) (io : List UInt8) : Except RubyError Popen3 :=
  if NameValidator.VM_NAME_PATTERN vmName then
    let dst := vmName ++ ":" ++ remotePath
    .ok {
      args := ["transfer", "-", dst]
      data := io
      first := .stderr
      later := []
      conclude := fun status received =>
        concludeTransfer ["transfer", "-", dst] status (received .stderr)
      readsStderr := List.mem_cons_self
      reads := by
        intro status received other same
        rw [same .stderr List.mem_cons_self] }
  else .error (.validationError vmName)

/-- The calls that start a command with streams. -/
inductive StreamingCall where
  | runStreaming (args : List String)
  | transferFromVm (vmName remotePath : String)
  | transferToVm (vmName remotePath : String) (io : List UInt8)

/-- A call gets as far as its block, or its name is rejected. -/
def StreamingCall.popen3 : StreamingCall → Except RubyError Popen3
  | runStreaming args => .ok (Streaming.runStreaming args)
  | transferFromVm vmName remotePath => Streaming.transferFromVm vmName remotePath
  | transferToVm vmName remotePath io => Streaming.transferToVm vmName remotePath io

/-! ## What a call should do -/

section

variable (capacities : Capacities) (block : Popen3) (command : Program UInt8)

namespace Popen3

def start : State UInt8 capacities :=
  Streams.start capacities block.data (block.first :: block.later) command

variable {capacities} in
/-- How the call ends in a state in which the block has. -/
def ending (state : State UInt8 capacities) : Option Ending :=
  match state.parent with
  | .done status => some (block.conclude status state.received)
  | .brokenPipe => some .brokenPipe
  | _ => none

/-- The call returns or raises as the command exits, with its messages. -/
def Reports (ending : Ending) : Prop :=
  match ending with
  | .returned _ => command.status block.data = 0
  | .commandError error =>
      command.status block.data ≠ 0 ∧ error.status = command.status block.data ∧
        ∃ text, decodeUtf8 (command.written .stderr block.data) = some text ∧
          error.stderr = strip text
  | .argumentError => False
  | .brokenPipe => False

/-- In every interleaving the call goes on until it ends, as it should. -/
structure Completes : Prop where
  terminates : Terminates step State.Finished (block.start capacities command)
  reports : ∀ state ending, Reachable step (block.start capacities command) state →
    block.ending state = some ending →
    state.received .stderr = command.written .stderr block.data ∧ block.Reports command ending

end Popen3

/-- The outputs fit the pipes, and what is stripped of them is well encoded. -/
def StreamingCall.Suits (call : StreamingCall) : Prop :=
  match call with
  | runStreaming _ =>
      (command.written .stderr []).length ≤ capacities.output .stderr ∧
        (command.status [] = 0 → IsUtf8 (command.written .stdout [])) ∧
        (command.status [] ≠ 0 → IsUtf8 (command.written .stderr []))
  | transferFromVm _ _ =>
      (command.written .stderr []).length ≤ capacities.output .stderr ∧
        (command.status [] ≠ 0 → IsUtf8 (command.written .stderr []))
  | transferToVm _ _ io =>
      (command.written .stdout io).length ≤ capacities.output .stdout ∧
        -- what it writes until it has read what does not fit its `stdin`
        (command.writtenBefore .stderr (io.length - capacities.stdin) io).length ≤
          capacities.output .stderr ∧
        (command.status io ≠ 0 → IsUtf8 (command.written .stderr io))

end

/-! ## How a call ends -/

theorem eachLine_ne_nil {bytes line : List UInt8} (member : line ∈ eachLine bytes) :
    line ≠ [] := by
  induction bytes generalizing line with
  | nil => cases member
  | cons byte rest ih =>
      rw [eachLine] at member
      split at member
      · rcases List.mem_cons.mp member with rfl | later
        · exact List.cons_ne_nil _ _
        · exact ih later
      · split at member
        · rw [List.mem_singleton.mp member]
          exact List.cons_ne_nil _ _
        · next line lines lineEq =>
            rcases List.mem_cons.mp member with rfl | later
            · exact List.cons_ne_nil _ _
            · apply ih
              rw [lineEq]
              exact List.mem_cons_of_mem _ later

/-- The lines make up the text, with a line break at its end. -/
theorem flatMap_puts_eachLine (bytes : List UInt8) :
    (eachLine bytes).flatMap puts = bytes ∨ (eachLine bytes).flatMap puts = bytes ++ [10] := by
  induction bytes with
  | nil => exact .inl rfl
  | cons byte rest ih =>
      rw [eachLine]
      split
      · next isBreak =>
          rw [isBreak, List.flatMap_cons]
          rcases ih with whole | broken
          · left
            rw [whole]
            rfl
          · right
            rw [broken]
            rfl
      · next inLine =>
          cases lines : eachLine rest with
          | nil =>
              rw [lines] at ih
              rcases ih with whole | broken
              · right
                rw [← whole, List.flatMap_singleton, puts, if_neg]
                · rfl
                · intro last
                  exact inLine (Option.some.inj last)
              · cases rest with
                | nil => cases broken
                | cons _ _ => cases broken
          | cons line others =>
              have given : line ≠ [] := by
                have member : line ∈ eachLine rest := by
                  rw [lines]
                  exact List.mem_cons_self
                exact eachLine_ne_nil member
              have head : puts (byte :: line) = byte :: puts line := by
                rw [puts, puts, List.getLast?_cons_of_ne_nil given]
                split
                · rfl
                · rfl
              rw [lines, List.flatMap_cons] at ih
              rw [List.flatMap_cons, head, List.cons_append, List.cons_append]
              exact ih.imp (congrArg (List.cons byte)) (congrArg (List.cons byte))

/-- What is printed is well encoded if the output is. -/
theorem isUtf8_puts_iff (bytes : List UInt8) :
    IsUtf8 ((eachLine bytes).flatMap puts) ↔ IsUtf8 bytes := by
  rcases flatMap_puts_eachLine bytes with whole | broken
  · rw [whole]
  · rw [broken]
    exact isUtf8_append_newline

section

variable {capacities : Capacities} {block : Popen3} {command : Program UInt8}

namespace Popen3

theorem finished_of_ending {state : State UInt8 capacities} {ending : Ending}
    (ends : block.ending state = some ending) : state.Finished := by
  rw [Popen3.ending] at ends
  rw [State.Finished]
  split at ends
  · next status phase =>
      rw [phase]
      rfl
  · next phase =>
      rw [phase]
      rfl
  · cases ends

/-- A call that ends does so with what the command wrote in all. -/
theorem ending_eq (readsAll : command.ReadsAll block.data) {state : State UInt8 capacities}
    (reachable : Reachable step (block.start capacities command) state)
    (finished : state.Finished) :
    block.ending state = some (block.conclude (command.status block.data)
      fun stream => command.written stream block.data) := by
  rcases finished_of_reachable readsAll reachable finished with ⟨phase, received⟩
  rw [ending, phase]
  exact congrArg some (block.reads _ _ _ received)

theorem completes_iff_fits (readsAll : command.ReadsAll block.data) :
    block.Completes capacities command ↔
      Fits capacities command block.data block.first ∧
        block.Reports command (block.conclude (command.status block.data)
          fun stream => command.written stream block.data) := by
  constructor
  · rintro ⟨terminates, reports⟩
    constructor
    · exact (terminates_iff_fits readsAll).mp terminates
    · rcases terminates.exists_finished (.refl _ _) with ⟨state, reachable, finished⟩
      exact (reports state _ reachable (ending_eq readsAll reachable finished)).2
  · rintro ⟨fits, reports⟩
    constructor
    · exact (terminates_iff_fits readsAll).mpr fits
    · intro state ending reachable ends
      have finished := finished_of_ending ends
      have received := (finished_of_reachable readsAll reachable finished).2
      apply And.intro (received .stderr block.readsStderr)
      rw [ending_eq readsAll reachable finished] at ends
      rw [← Option.some.inj ends]
      exact reports

end Popen3

/-- There are two streams. -/
theorem eq_of_apart {first stream other : Stream} (away : stream ≠ first)
    (apart : other ≠ first) : stream = other := by
  cases first with
  | stdout =>
      cases stream with
      | stdout => exact absurd rfl away
      | stderr =>
          cases other with
          | stdout => exact absurd rfl apart
          | stderr => rfl
  | stderr =>
      cases stream with
      | stderr => exact absurd rfl away
      | stdout =>
          cases other with
          | stderr => exact absurd rfl apart
          | stdout => rfl

theorem fits_iff {first other : Stream} {data : List UInt8} (apart : other ≠ first) :
    Fits capacities command data first ↔
      (command.written other data).length ≤ capacities.output other ∧
        (command.writtenBefore first (data.length - capacities.stdin) data).length ≤
          capacities.output first := by
  constructor
  · rintro ⟨others, early⟩
    exact ⟨others other apart, early⟩
  · rintro ⟨fit, early⟩
    constructor
    · intro stream away
      rw [eq_of_apart away apart]
      exact fit
    · exact early

/-- Without data, only the stream that is read later has to fit. -/
theorem fits_nil_iff {first other : Stream} (apart : other ≠ first) :
    Fits capacities command [] first ↔
      (command.written other []).length ≤ capacities.output other := by
  rw [fits_iff apart, List.length_nil, Nat.zero_sub, Program.writtenBefore_zero]
  exact and_iff_left (Nat.zero_le _)

theorem reports_runStreaming_iff (args : List String) :
    (runStreaming args).Reports command ((runStreaming args).conclude (command.status [])
        fun stream => command.written stream []) ↔
      (command.status [] = 0 → IsUtf8 (command.written .stdout [])) ∧
        (command.status [] ≠ 0 → IsUtf8 (command.written .stderr [])) := by
  rw [← isUtf8_puts_iff, runStreaming]
  by_cases success : command.status [] = 0
  · simp only [if_pos success]
    cases decoded : decodeUtf8 ((eachLine (command.written .stdout [])).flatMap puts) with
    | some text => simp [Popen3.Reports, IsUtf8, decoded, success]
    | none => simp [Popen3.Reports, IsUtf8, decoded, success]
  · simp only [if_neg success]
    cases decoded : decodeUtf8 (command.written .stderr []) with
    | some text => simp [Popen3.Reports, IsUtf8, decoded, success, CommandError.new]
    | none => simp [Popen3.Reports, IsUtf8, decoded, success]

/-- A transfer reports a failure if it can be stripped. -/
theorem reports_transfer_iff (args : List String) :
    block.Reports command (concludeTransfer args (command.status block.data)
        (command.written .stderr block.data)) ↔
      (command.status block.data ≠ 0 → IsUtf8 (command.written .stderr block.data)) := by
  rw [concludeTransfer]
  by_cases success : command.status block.data = 0
  · simp [Popen3.Reports, success]
  · rw [if_neg success]
    cases decoded : decodeUtf8 (command.written .stderr block.data) with
    | some text =>
        simp [Popen3.Reports, IsUtf8, decoded, success, CommandError.new, strip_strip]
    | none => simp [Popen3.Reports, IsUtf8, decoded, success]

/-! ## What the command-level model sees -/

/-- The call as its caller sees it. -/
def Ending.toExcept : Ending → Except RubyError PUnit.{1}
  | returned _ => .ok ⟨⟩
  | commandError error =>
      .error (.commandError (commandMessage error.args error.status.toNat error.stderr))
  | argumentError => .error (.argumentError "invalid byte sequence in UTF-8")
  | brokenPipe => .error (.systemCallError "EPIPE")

/-- A runner answers with what the command writes in all, as texts. -/
structure Answers (env : Environment) (position : Nat) (args : List String)
    (command : Program UInt8) (data : List UInt8) (result : RunResult) : Prop where
  answer : env.runner position args = .ok result
  stderr : decodeUtf8 (command.written .stderr data) = some result.stderr
  success : result.success = decide (command.status data = 0)
  exitstatus : result.exitstatus = (command.status data).toNat

theorem capture_eq_concludeTransfer {env : Environment} {host : Host} {argv : List Word}
    {data : List UInt8} {result : RunResult}
    (answers : Answers env host.commands.length (argv.map Word.text) command data result) :
    ((capture env argv host).1.map fun _ => (⟨⟩ : PUnit.{1})) =
      (concludeTransfer (argv.map Word.text) (command.status data)
        (command.written .stderr data)).toExcept := by
  rcases answers with ⟨answer, stderr, success, exitstatus⟩
  rcases result with ⟨out, err, isSuccess, exit⟩
  rw [capture, answer, concludeTransfer, stderr]
  by_cases exits : command.status data = 0
  · rw [decide_eq_true exits] at success
    cases success
    rw [if_pos exits]
    rfl
  · rw [decide_eq_false exits] at success
    cases success
    cases exitstatus
    rw [if_neg exits]
    change Except.error _ = Except.error _
    rw [CommandError.new, commandMessage, commandMessage, strip_strip, strip_strip]
    rfl

/-- The command-level model of a download ends as the call with streams does. -/
theorem transferFromVm_toExcept {env : Environment} {host : Host} {vmName remotePath : String}
    {result : RunResult} (started : transferFromVm vmName remotePath = .ok block)
    (answers : Answers env host.commands.length block.args command block.data result) :
    (Multipass.transferFromVm env (.string vmName) (.string remotePath) host).1 =
      (block.conclude (command.status block.data)
        fun stream => command.written stream block.data).toExcept := by
  rw [transferFromVm] at started
  split at started
  · next valid =>
      cases started
      have named := validateVmName_of_valid ((vmNamePattern_iff vmName).mp valid)
      rw [Multipass.transferFromVm, named, Exec.pure_bind, Exec.bind_pure_apply]
      exact capture_eq_concludeTransfer answers
  · cases started

theorem transferToVm_toExcept {env : Environment} {host : Host} {vmName remotePath : String}
    {io : List UInt8} {result : RunResult}
    (started : transferToVm vmName remotePath io = .ok block)
    (answers : Answers env host.commands.length block.args command block.data result) :
    (Multipass.transferToVm env (.string vmName) (.string remotePath) host).1 =
      (block.conclude (command.status block.data)
        fun stream => command.written stream block.data).toExcept := by
  rw [transferToVm] at started
  split at started
  · next valid =>
      cases started
      have named := validateVmName_of_valid ((vmNamePattern_iff vmName).mp valid)
      rw [Multipass.transferToVm, named, Exec.pure_bind, Exec.bind_pure_apply]
      exact capture_eq_concludeTransfer answers
  · cases started

/-- A call completes in every interleaving exactly if the command suits it. -/
theorem completes_iff {call : StreamingCall} (started : call.popen3 = .ok block)
    (readsAll : command.ReadsAll block.data) :
    block.Completes capacities command ↔ call.Suits capacities command := by
  rw [Popen3.completes_iff_fits readsAll]
  cases call with
  | runStreaming args =>
      cases started
      rw [StreamingCall.Suits]
      apply and_congr (fits_nil_iff Stream.noConfusion)
      exact reports_runStreaming_iff args
  | transferFromVm vmName remotePath =>
      rw [StreamingCall.popen3, transferFromVm] at started
      split at started
      · cases started
        rw [StreamingCall.Suits]
        apply and_congr (fits_nil_iff Stream.noConfusion)
        exact reports_transfer_iff _
      · cases started
  | transferToVm vmName remotePath io =>
      rw [StreamingCall.popen3, transferToVm] at started
      split at started
      · cases started
        rw [StreamingCall.Suits, ← and_assoc]
        apply and_congr
        · exact fits_iff Stream.noConfusion
        · exact reports_transfer_iff _
      · cases started

end

/-- The pipes of Linux. -/
def linuxPipes : Capacities where
  stdin := 65536
  output _ := 65536
  stdin_pos := Nat.succ_pos _
  output_pos _ := Nat.succ_pos _

/-- A command that reads two bytes and then the end of its input. -/
def readsTwo : Program UInt8 :=
  .read fun _ => .read fun _ => .read fun _ => .exit 0

theorem completes_iff_upload :
    ∃ block, (StreamingCall.transferToVm "web" "/tmp/hi" [104, 105]).popen3 = .ok block ∧
      block.Completes linuxPipes readsTwo := by
  have started : ∃ block, block.data = [104, 105] ∧
      (StreamingCall.transferToVm "web" "/tmp/hi" [104, 105]).popen3 = .ok block := ⟨_, rfl, rfl⟩
  rcases started with ⟨block, data, started⟩
  have readsAll : readsTwo.ReadsAll block.data := by
    rw [data]
    exact trivial
  refine ⟨block, started, (completes_iff started readsAll).mpr ⟨?_, ?_, ?_⟩⟩
  · exact Nat.zero_le _
  · exact Nat.zero_le _
  · intro failed
    exact absurd rfl failed

/-- A command whose messages do not fit the pipe is stuck, as its output is awaited first. -/
theorem not_completes_of_long {capacities : Capacities} {messages : List UInt8}
    (long : capacities.output .stderr < messages.length) (args : List String) :
    ¬ (runStreaming args).Completes capacities (.writes .stderr messages (.exit 0)) := by
  rintro ⟨terminates, _⟩
  have apart : Stream.stderr ≠ .stdout := Stream.noConfusion
  have readsAll := Program.readsAll_nil (.writes .stderr messages (.exit 0))
  have overfull : capacities.output .stderr <
      ((Program.writes .stderr messages (.exit 0)).written .stderr []).length := by
    rw [Program.written_writes, List.length_append]
    exact Nat.lt_add_right _ long
  exact not_terminates_of_overfull apart overfull readsAll terminates

theorem longMessages_stuck :
    ¬ ∀ (capacities : Capacities) (call : StreamingCall) (block : Popen3)
        (command : Program UInt8), call.popen3 = .ok block → command.ReadsAll block.data →
          block.Completes capacities command := by
  intro always
  have exists_long : ∃ messages : List UInt8, linuxPipes.output .stderr < messages.length := by
    refine ⟨List.replicate 65537 46, ?_⟩
    rw [List.length_replicate]
    exact Nat.lt_succ_self 65536
  rcases exists_long with ⟨messages, long⟩
  apply not_completes_of_long long ["list"]
  apply always linuxPipes (.runStreaming ["list"])
  · rfl
  · exact Program.readsAll_nil _

end MultipassWebui.Multipass.Streaming
