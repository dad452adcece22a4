import Mathlib.Data.List.DropRight
import MultipassWebui.Terminals.Messages
import MultipassWebui.Terminals.Session
import MultipassWebui.Text.Strings
import MultipassWebui.Transition.Run

/-!
# The reader thread

The thread that `start` creates: each turn reads from the master, appends the
chunk to the scrollback and broadcasts it.  What a read yields is the input of
a turn, and a thread that waits for its next read is between two turns.  The
clauses around the loop decide what a raised exception leaves behind: an
`IOError`, of which the end of file is one, is announced, anything else ends
the thread without a notice, and `@closed` is set in any case.
-/

namespace MultipassWebui.Terminals

open MultipassWebui.Effect
open MultipassWebui.Encoding
open MultipassWebui.Transition

/-- What `read_nonblock(4096)` yields. -/
inductive ReadResult where
  | chunk (bytes : Bytes)
  /-- `IO::WaitReadable` -/
  | waitReadable
  | nil
  | raised (error : RubyError)

/-- How a turn of the loop ends. -/
inductive Turn where
  | again
  | leave

inductive ThreadStatus where
  | running
  | finished
  | crashed (error : RubyError)
  deriving DecidableEq, Repr

structure Reader where
  session : Session
  broadcasts : List Message
  status : ThreadStatus
  deriving DecidableEq, Repr

namespace Reader

/-- The reader thread of a session that was just started. -/
def start (session : Session) : Reader := ⟨session, [], .running⟩

def setSession (session : Session) (reader : Reader) : Reader :=
  { reader with session := session }

/-- `broadcast_output` -/
def broadcastOutput (chunk : Bytes) : Exec Reader RubyError PUnit :=
  Exec.modify fun reader => { reader with broadcasts := reader.broadcasts ++ [outputMessage chunk] }

def shellExitedNotice : Bytes := Text.utf8Bytes "\r\n[multipass shell exited]\r\n"

def terminalClosedNotice (message : String) : Bytes :=
  Text.utf8Bytes ("\r\n[terminal closed: " ++ message ++ "]\r\n")

/-- What the loop does with the result of a read. -/
def handle : ReadResult → Exec Reader RubyError Turn
  | .waitReadable => pure .again
  | .nil => do
      broadcastOutput shellExitedNotice
      pure .leave
  | .chunk bytes => do
      Exec.zoom session setSession (Session.appendScrollback bytes)
      broadcastOutput bytes
      pure .again
  | .raised error => Exec.raise error

/-- One turn: the test of `@closed`, then a read. -/
def turn (result : ReadResult) : Exec Reader RubyError Turn := do
  if ← Exec.gets fun reader => reader.session.closed then pure .leave else handle result

/-- `rescue IOError`; the other clause raises the exception again. -/
def rescued (body : Exec Reader RubyError Turn) : Exec Reader RubyError Turn :=
  Exec.rescue body fun error =>
    if error.isIoError then
      some do
        broadcastOutput (terminalClosedNotice error.ioMessage)
        pure .leave
    else none

/-- The `ensure` clause. -/
def leave (status : ThreadStatus) (reader : Reader) : Reader :=
  { reader with session := { reader.session with closed := true }, status := status }

/-- One turn of a running thread. -/
def next : Step Reader ReadResult := fun reader result =>
  if reader.status = .running then
    match rescued (turn result) reader with
    | (.ok .again, after) => some after
    | (.ok .leave, after) => some (after.leave .finished)
    | (.error error, after) => some (after.leave (.crashed error))
  else none

/-- A thread that waits for its next read. -/
structure Waiting (reader : Reader) : Prop where
  running : reader.status = .running
  alive : reader.session.closed = false

/-- The thread after a chunk was appended and broadcast. -/
def received (reader : Reader) (chunk : Bytes) : Reader :=
  { reader with
    session := reader.session.appended chunk
    broadcasts := reader.broadcasts ++ [outputMessage chunk] }

section Turns

variable {reader : Reader}

theorem turn_apply (waiting : Waiting reader) (result : ReadResult) :
    turn result reader = handle result reader := by
  rw [turn, Exec.bind_ok (Exec.gets_apply _ _), waiting.alive]
  rfl

theorem next_waitReadable (waiting : Waiting reader) :
    next reader .waitReadable = some reader := by
  rw [next, if_pos waiting.running, rescued, Exec.rescue_ok (turn_apply waiting _)]

theorem next_nil (waiting : Waiting reader) :
    next reader .nil =
      some (({ reader with
        broadcasts := reader.broadcasts ++ [outputMessage shellExitedNotice] } : Reader).leave
          .finished) := by
  rw [next, if_pos waiting.running, rescued, Exec.rescue_ok (turn_apply waiting _)]

theorem next_chunk_of_le (waiting : Waiting reader) {chunk : Bytes}
    (fits : (reader.session.scrollback ++ chunk).length ≤ SCROLLBACK_CAP) :
    next reader (.chunk chunk) = some (reader.received chunk) := by
  have turned : turn (.chunk chunk) reader = (.ok .again, reader.received chunk) := by
    rw [turn_apply waiting, handle, Exec.bind_apply, Exec.zoom_apply,
      Session.appendScrollback_of_le fits]
    rfl
  rw [next, if_pos waiting.running, rescued, Exec.rescue_ok turned]

/-- The chunk that exceeds the cap is appended but not broadcast. -/
theorem next_chunk_of_lt (waiting : Waiting reader) {chunk : Bytes}
    (overflow : SCROLLBACK_CAP < (reader.session.scrollback ++ chunk).length) :
    next reader (.chunk chunk) =
      some (({ reader with session := reader.session.appended chunk } : Reader).leave
        (.crashed Session.arrayForString)) := by
  have turned : turn (.chunk chunk) reader =
      (.error Session.arrayForString,
        { reader with session := reader.session.appended chunk }) := by
    rw [turn_apply waiting, handle, Exec.bind_apply, Exec.zoom_apply,
      Session.appendScrollback_of_lt overflow]
    rfl
  rw [next, if_pos waiting.running, rescued, Exec.rescue_error turned]
  rfl

/-- An `IOError` is announced. -/
theorem next_ioError (waiting : Waiting reader) {error : RubyError}
    (isIoError : error.isIoError = true) :
    next reader (.raised error) =
      some (({ reader with
        broadcasts := reader.broadcasts ++ [outputMessage (terminalClosedNotice error.ioMessage)] }
          : Reader).leave .finished) := by
  rw [next, if_pos waiting.running, rescued, Exec.rescue_error (turn_apply waiting _), isIoError]
  rfl

/-- Any other exception ends the thread without a notice. -/
theorem next_otherError (waiting : Waiting reader) {error : RubyError}
    (other : error.isIoError = false) :
    next reader (.raised error) = some (reader.leave (.crashed error)) := by
  rw [next, if_pos waiting.running, rescued, Exec.rescue_error (turn_apply waiting _), other]
  rfl

/-- A thread that has ended takes no turn. -/
theorem run_of_ended (ended : reader.status ≠ .running) {results : List ReadResult}
    {after : Reader} (executed : run next reader results = some after) : after = reader := by
  cases results with
  | nil =>
      cases executed
      rfl
  | cons result rest =>
      rcases (run_cons_eq_some_iff _ _ _ _ _).mp executed with ⟨middle, step, _⟩
      rw [next, if_neg ended] at step
      contradiction

theorem Waiting.received (waiting : Waiting reader) (chunk : Bytes) :
    Waiting (reader.received chunk) :=
  ⟨waiting.running, waiting.alive⟩

end Turns

/-! ## The contract of the thread -/

/-- A read of a shell that is still there. -/
inductive Poll where
  | chunk (bytes : Bytes)
  | wouldBlock

/-- How the stream ends. -/
inductive Ending where
  | eof
  | eio
  deriving DecidableEq, Repr

def Poll.result : Poll → ReadResult
  | .chunk bytes => .chunk bytes
  | .wouldBlock => .waitReadable

def Ending.result : Ending → ReadResult
  | .eof => .raised .eofError
  | .eio => .raised (.systemCallError "EIO")

def Poll.chunk? : Poll → Option Bytes
  | .chunk bytes => some bytes
  | .wouldBlock => none

/-- The chunks among the reads. -/
def chunksOf (polls : List Poll) : List Bytes := polls.filterMap Poll.chunk?

/-- All bytes that were read. -/
def bytesOf (polls : List Poll) : Bytes := (chunksOf polls).flatten

def ExitNotice (message : Message) : Prop :=
  message = outputMessage shellExitedNotice ∨
    ∃ text, message = outputMessage (terminalClosedNotice text)

/-- After the given reads the thread waits for more, with the last bytes in the
scrollback and every byte broadcast once. -/
structure UpToDate (first reader : Reader) (polls : List Poll) : Prop where
  executed : run next first (polls.map Poll.result) = some reader
  waiting : Waiting reader
  scrollback : reader.session.scrollback = (bytesOf polls).rtake SCROLLBACK_CAP
  broadcasts : carriedBytes reader.broadcasts = bytesOf polls

/-- The thread has ended with one notice after the last chunk. -/
structure Announced (before after : Reader) : Prop where
  finished : after.status = .finished
  closed : after.session.closed = true
  notice : ∃ message, ExitNotice message ∧ after.broadcasts = before.broadcasts ++ [message]

/-- The contract of the thread for a list of reads and an end of the stream
that may follow: it is up to date after each read, and the end is announced. -/
structure ReaderContract (first : Reader) (polls : List Poll) (ending : Option Ending) : Prop where
  upToDate : ∀ done, done <+: polls → ∃ reader, UpToDate first reader done
  announced : ∀ how ∈ ending, ∃ before after, run next first (polls.map Poll.result) = some before ∧
    next before how.result = some after ∧ Announced before after

/-! ## When the contract holds -/

@[simp]
theorem chunksOf_chunk (chunk : Bytes) (polls : List Poll) :
    chunksOf (.chunk chunk :: polls) = chunk :: chunksOf polls :=
  rfl

@[simp]
theorem chunksOf_wouldBlock (polls : List Poll) :
    chunksOf (.wouldBlock :: polls) = chunksOf polls :=
  rfl

theorem bytesOf_chunk (chunk : Bytes) (polls : List Poll) :
    bytesOf (.chunk chunk :: polls) = chunk ++ bytesOf polls :=
  rfl

theorem bytesOf_wouldBlock (polls : List Poll) : bytesOf (.wouldBlock :: polls) = bytesOf polls :=
  rfl

theorem bytesOf_append (done rest : List Poll) :
    bytesOf (done ++ rest) = bytesOf done ++ bytesOf rest := by
  simp [bytesOf, chunksOf]

/-- The thread after reads that all fit into the scrollback. -/
def receivedAll (reader : Reader) (polls : List Poll) : Reader :=
  { reader with
    session := reader.session.appended (bytesOf polls)
    broadcasts := reader.broadcasts ++ (chunksOf polls).map outputMessage }

theorem receivedAll_nil (reader : Reader) : reader.receivedAll [] = reader := by
  simp [receivedAll, bytesOf, chunksOf, Session.appended]

theorem receivedAll_chunk (reader : Reader) (chunk : Bytes) (polls : List Poll) :
    (reader.received chunk).receivedAll polls = reader.receivedAll (.chunk chunk :: polls) := by
  simp [receivedAll, received, bytesOf, Session.appended]

theorem Waiting.receivedAll {reader : Reader} (waiting : Waiting reader) (polls : List Poll) :
    Waiting (reader.receivedAll polls) :=
  ⟨waiting.running, waiting.alive⟩

/-- Reads that fit leave a waiting thread. -/
theorem run_of_le {reader : Reader} (waiting : Waiting reader) {polls : List Poll}
    (fits : (reader.session.scrollback ++ bytesOf polls).length ≤ SCROLLBACK_CAP) :
    run next reader (polls.map Poll.result) = some (reader.receivedAll polls) := by
  induction polls generalizing reader with
  | nil => simp [receivedAll_nil]
  | cons poll rest ih =>
      rw [List.map_cons, run_cons_eq_some_iff]
      cases poll with
      | chunk bytes =>
          rw [bytesOf_chunk, ← List.append_assoc] at fits
          have chunkFits : (reader.session.scrollback ++ bytes).length ≤ SCROLLBACK_CAP := by
            rw [List.length_append] at fits
            exact (Nat.le_add_right _ _).trans fits
          refine ⟨reader.received bytes, next_chunk_of_le waiting chunkFits, ?_⟩
          rw [ih (waiting.received bytes) fits, receivedAll_chunk]
      | wouldBlock =>
          rw [bytesOf_wouldBlock] at fits
          refine ⟨reader, next_waitReadable waiting, ?_⟩
          exact ih waiting fits

/-- A thread that still waits has read no more than the scrollback holds. -/
theorem le_of_run {reader after : Reader} (waiting : Waiting reader) {polls : List Poll}
    (initial : reader.session.scrollback.length ≤ SCROLLBACK_CAP)
    (executed : run next reader (polls.map Poll.result) = some after)
    (running : after.status = .running) :
    (reader.session.scrollback ++ bytesOf polls).length ≤ SCROLLBACK_CAP := by
  induction polls generalizing reader with
  | nil => simpa [bytesOf, chunksOf] using initial
  | cons poll rest ih =>
      rcases (run_cons_eq_some_iff _ _ _ _ _).mp executed with ⟨middle, step, tail⟩
      cases poll with
      | chunk bytes =>
          by_cases fits : (reader.session.scrollback ++ bytes).length ≤ SCROLLBACK_CAP
          · have turned := next_chunk_of_le waiting fits
            rw [Poll.result, turned] at step
            cases step
            have later := ih (waiting.received bytes) fits tail
            rw [bytesOf_chunk, ← List.append_assoc]
            exact later
          · -- The thread crashes, and a crashed thread takes no further turn.
            have turned := next_chunk_of_lt waiting (Nat.lt_of_not_le fits)
            rw [Poll.result, turned] at step
            cases step
            have ended := run_of_ended (by simp [leave]) tail
            rw [ended] at running
            simp [leave] at running
      | wouldBlock =>
          have turned := next_waitReadable waiting
          rw [Poll.result, turned] at step
          cases step
          rw [bytesOf_wouldBlock]
          exact ih waiting initial tail

/-- The reader thread of a session that `start` has just spawned. -/
def fresh (vmName sessionId : String) (createdAt : Int) : Reader :=
  start (Session.new vmName sessionId createdAt).spawned

theorem waiting_fresh (vmName sessionId : String) (createdAt : Int) :
    Waiting (fresh vmName sessionId createdAt) :=
  ⟨rfl, rfl⟩

theorem upToDate_of_le (vmName sessionId : String) (createdAt : Int) {polls : List Poll}
    (fits : (bytesOf polls).length ≤ SCROLLBACK_CAP) :
    UpToDate (fresh vmName sessionId createdAt)
      ((fresh vmName sessionId createdAt).receivedAll polls) polls where
  executed := run_of_le (waiting_fresh _ _ _) fits
  waiting := (waiting_fresh _ _ _).receivedAll polls
  scrollback := by
    rw [List.rtake, Nat.sub_eq_zero_of_le fits]
    rfl
  broadcasts := by
    have shown := carriedBytes_outputMessages (chunksOf polls)
    exact shown

/-- An end reported as `EIO` crashes the thread instead of being announced. -/
theorem ReaderContract.ending_ne_eio {first : Reader} {polls : List Poll} {ending : Option Ending}
    (contract : ReaderContract first polls ending) : ending ≠ some .eio := by
  rintro rfl
  rcases contract.upToDate polls (List.prefix_refl polls) with ⟨reader, upToDate⟩
  rcases contract.announced .eio rfl with ⟨before, after, executed, step, announced⟩
  rw [upToDate.executed] at executed
  cases executed
  rw [Ending.result, next_otherError upToDate.waiting rfl] at step
  cases step
  have finished := announced.finished
  simp [leave] at finished

theorem ReaderContract.length_le {first : Reader} {polls : List Poll} {ending : Option Ending}
    (contract : ReaderContract first polls ending) (waiting : Waiting first)
    (empty : first.session.scrollback = []) : (bytesOf polls).length ≤ SCROLLBACK_CAP := by
  rcases contract.upToDate polls (List.prefix_refl polls) with ⟨reader, upToDate⟩
  have initial : first.session.scrollback.length ≤ SCROLLBACK_CAP := by
    rw [empty]
    exact Nat.zero_le _
  have fits := le_of_run waiting initial upToDate.executed upToDate.waiting.running
  rw [empty, List.nil_append] at fits
  exact fits

/-- The thread keeps its contract precisely while the whole output fits into
the scrollback, and for an end of the stream that is not reported as `EIO`. -/
theorem readerContract_iff (vmName sessionId : String) (createdAt : Int) (polls : List Poll)
    (ending : Option Ending) :
    ReaderContract (fresh vmName sessionId createdAt) polls ending ↔
      (bytesOf polls).length ≤ SCROLLBACK_CAP ∧ ending ≠ some .eio := by
  constructor
  · intro contract
    exact ⟨contract.length_le (waiting_fresh _ _ _) rfl, contract.ending_ne_eio⟩
  · rintro ⟨fits, notEio⟩
    constructor
    · intro done initial
      rcases initial with ⟨rest, rfl⟩
      rw [bytesOf_append, List.length_append] at fits
      exact ⟨_, upToDate_of_le _ _ _ ((Nat.le_add_right _ _).trans fits)⟩
    · intro how isEnding
      cases how with
      | eio => exact absurd isEnding notEio
      | eof =>
          have upToDate := upToDate_of_le vmName sessionId createdAt fits
          refine ⟨_, _, upToDate.executed, next_ioError upToDate.waiting rfl, rfl, rfl, ?_⟩
          exact ⟨_, Or.inr ⟨_, rfl⟩, rfl⟩

/-- Seventeen full reads, more than the scrollback holds. -/
def longOutput : List Poll := List.replicate 17 (.chunk (List.replicate 4096 0))

theorem chunksOf_replicate (count : Nat) (chunk : Bytes) :
    chunksOf (List.replicate count (.chunk chunk)) = List.replicate count chunk := by
  induction count with
  | zero => rfl
  | succ count ih => rw [List.replicate_succ, chunksOf_chunk, ih, List.replicate_succ]

theorem length_longOutput : (bytesOf longOutput).length = 17 * 4096 := by
  rw [bytesOf, longOutput, chunksOf_replicate, List.length_flatten, List.map_replicate,
    List.length_replicate]
  rfl

/-- A long output and an end reported as `EIO` both break the contract. -/
theorem longOutput_not_readerContract :
    ¬ ReaderContract (fresh "web" "a1" 0) longOutput none ∧
      ¬ ReaderContract (fresh "web" "a1" 0) [.chunk [104, 105]] (some .eio) := by
  constructor
  · intro contract
    have fits := contract.length_le (waiting_fresh _ _ _) rfl
    rw [length_longOutput] at fits
    exact absurd fits (by decide)
  · intro contract
    exact contract.ending_ne_eio rfl

end Reader

end MultipassWebui.Terminals
