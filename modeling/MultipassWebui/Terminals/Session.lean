import MultipassWebui.Effect.Core
import MultipassWebui.Effect.RubyError
import MultipassWebui.Encoding.Base64

/-!
# Terminal sessions

One `Terminals::Session`: its instance variables, the pseudo terminal and the
child behind them, and the two operations that concern nothing else, appending
to the scrollback and writing input.  The registry and the life cycle of a
session are in a module of their own.
-/

namespace MultipassWebui.Terminals

open MultipassWebui.Effect
open MultipassWebui.Encoding

def SCROLLBACK_CAP : Nat := 64 * 1024

def RESIZE_PREFIX_BYTE : UInt8 := 0x01

/-- `[ rows, cols ]` -/
structure Winsize where
  rows : Nat
  cols : Nat
  deriving DecidableEq, Repr

inductive Descriptor where
  | opened
  | closed
  deriving DecidableEq, Repr

/-- The master side of a pseudo terminal: its descriptor, the window size, and
the bytes that were written to it for the shell to read. -/
structure Master where
  descriptor : Descriptor
  winsize : Winsize
  input : Bytes
  deriving DecidableEq, Repr

/-- The spawned `multipass shell`. -/
structure Child where
  running : Bool
  /-- TERM was sent to its process group. -/
  termSent : Bool
  deriving DecidableEq, Repr

/-- The instance variables of a session.  `none` is `nil`. -/
structure Session where
  sessionId : String
  vmName : String
  createdAt : Int
  scrollback : Bytes
  closed : Bool
  master : Option Master
  slave : Option Descriptor
  /-- The process with the id `@pid`. -/
  child : Option Child
  deriving DecidableEq, Repr

namespace Session

/-- `initialize` -/
def new (vmName sessionId : String) (createdAt : Int) : Session where
  sessionId := sessionId
  vmName := vmName
  createdAt := createdAt
  scrollback := []
  closed := false
  master := none
  slave := none
  child := none

/-- The session after `start` has opened the terminal and spawned the shell. -/
def spawned (session : Session) : Session :=
  { session with
    master := some ⟨.opened, ⟨40, 120⟩, []⟩
    slave := some .closed
    child := some ⟨true, false⟩ }

/-! ## The scrollback -/

/-- The two kinds of value that `append_scrollback` deals with. -/
inductive Value where
  | string (bytes : Bytes)
  | array (items : List Nat)

def arrayForString : RubyError := .typeError "no implicit conversion of Array into String"

/-- `@scrollback.replace(value)`: only a string is accepted. -/
def replaceScrollback : Value → Exec Session RubyError PUnit
  | .string bytes => Exec.modify fun session => { session with scrollback := bytes }
  | .array _ => Exec.raise arrayForString

/-- `string.bytes[-count..]` of a string that is at least that long. -/
def lastBytes (bytes : Bytes) (count : Nat) : Value :=
  .array ((bytes.drop (bytes.length - count)).map UInt8.toNat)

/-- `append_scrollback`.  Only the reader thread takes its lock. -/
def appendScrollback (chunk : Bytes) : Exec Session RubyError PUnit := do
  Exec.modify fun session => { session with scrollback := session.scrollback ++ chunk }
  let scrollback ← Exec.gets scrollback
  if SCROLLBACK_CAP < scrollback.length then
    replaceScrollback (lastBytes scrollback SCROLLBACK_CAP)

/-- The session after the bytes of a chunk have been appended. -/
def appended (session : Session) (chunk : Bytes) : Session :=
  { session with scrollback := session.scrollback ++ chunk }

theorem appendScrollback_of_le {session : Session} {chunk : Bytes}
    (fits : (session.scrollback ++ chunk).length ≤ SCROLLBACK_CAP) :
    appendScrollback chunk session = (.ok ⟨⟩, session.appended chunk) := by
  rw [appendScrollback, Exec.bind_ok (Exec.modify_apply _ _), Exec.bind_ok (Exec.gets_apply _ _),
    if_neg (Nat.not_lt.mpr fits)]
  rfl

/-- Trimming replaces the text by an array, which raises after the append. -/
theorem appendScrollback_of_lt {session : Session} {chunk : Bytes}
    (overflow : SCROLLBACK_CAP < (session.scrollback ++ chunk).length) :
    appendScrollback chunk session = (.error arrayForString, session.appended chunk) := by
  rw [appendScrollback, Exec.bind_ok (Exec.modify_apply _ _), Exec.bind_ok (Exec.gets_apply _ _),
    if_pos overflow]
  rfl

/-! ## Input -/

/-- Run an operation of `@master`, which must be there and open. -/
def onMaster (method : String) (update : Master → Master) : Exec Session RubyError PUnit :=
  fun session =>
    match session.master with
    | none => (.error (.noMethodError method), session)
    | some master =>
        match master.descriptor with
        | .closed => (.error (.ioError "closed stream"), session)
        | .opened => (.ok ⟨⟩, { session with master := some (update master) })

/-- `@master.winsize = [ rows, cols ]` -/
def setWinsize (rows cols : Nat) : Exec Session RubyError PUnit :=
  onMaster "winsize=" fun master => { master with winsize := ⟨rows, cols⟩ }

/-- `@master.write(data)` -/
def masterWrite (data : Bytes) : Exec Session RubyError PUnit :=
  onMaster "write" fun master => { master with input := master.input ++ data }

/-- `data.bytes[high] * 256 + data.bytes[high + 1]` -/
def wordAt (data : Bytes) (high : Nat) : Nat :=
  (data.getD high 0).toNat * 256 + (data.getD (high + 1) 0).toNat

/-- The test for a resize message. -/
def isResize (data : Bytes) (binary : Bool) : Bool :=
  binary && 5 ≤ data.length && data.head? = some RESIZE_PREFIX_BYTE

/-- `write`, for text that is or is not in binary encoding. -/
def write (data : Bytes) (binary : Bool) : Exec Session RubyError PUnit :=
  Exec.rescue
    (do
      if ← Exec.gets closed then pure ⟨⟩
      else if isResize data binary then
        Exec.rescue (setWinsize (wordAt data 3) (wordAt data 1)) fun error =>
          if error.isSystemCallError then some (pure ⟨⟩) else none
      else masterWrite data)
    fun error =>
      if error.isSystemCallError || error.isIoError then some (pure ⟨⟩) else none

/-- A session whose terminal can be written to. -/
def Open (session : Session) : Prop :=
  session.closed = false ∧ ∃ master, session.master = some master ∧ master.descriptor = .opened

instance (session : Session) : Decidable session.Open :=
  decidable_of_iff (session.closed = false ∧
      ∃ master ∈ session.master, master.descriptor = .opened) Iff.rfl

/-- The session with another master. -/
def withMaster (session : Session) (master : Master) : Session :=
  { session with master := some master }

section Write

variable {session : Session} {master : Master} {data : Bytes} {binary : Bool}

theorem onMaster_opened (isMaster : session.master = some master)
    (opened : master.descriptor = .opened) (method : String) (update : Master → Master) :
    onMaster method update session = (.ok ⟨⟩, session.withMaster (update master)) := by
  simp only [onMaster, isMaster, opened, withMaster]

theorem write_of_closed (closed : session.closed = true) :
    write data binary session = (.ok ⟨⟩, session) := by
  apply Exec.rescue_ok
  rw [Exec.bind_ok (Exec.gets_apply _ _), closed]
  rfl

/-- What `write` runs on a session that is not closed. -/
theorem write_alive (alive : session.closed = false) :
    write data binary session =
      Exec.rescue
        (if isResize data binary then
          Exec.rescue (setWinsize (wordAt data 3) (wordAt data 1)) fun error =>
            if error.isSystemCallError then some (pure ⟨⟩) else none
        else masterWrite data)
        (fun error =>
          if error.isSystemCallError || error.isIoError then some (pure ⟨⟩) else none)
        session := by
  rw [write, Exec.rescue, Exec.bind_ok (Exec.gets_apply _ _), alive]
  rfl

theorem write_resize (alive : session.closed = false) (isMaster : session.master = some master)
    (opened : master.descriptor = .opened) (resize : isResize data binary = true) :
    write data binary session =
      (.ok ⟨⟩, session.withMaster { master with winsize := ⟨wordAt data 3, wordAt data 1⟩ }) := by
  rw [write_alive alive, if_pos resize]
  exact Exec.rescue_ok (Exec.rescue_ok (onMaster_opened isMaster opened _ _) _) _

theorem write_plain (alive : session.closed = false) (isMaster : session.master = some master)
    (opened : master.descriptor = .opened) (plain : isResize data binary = false) :
    write data binary session =
      (.ok ⟨⟩, session.withMaster { master with input := master.input ++ data }) := by
  rw [write_alive alive, if_neg (ne_true_of_eq_false plain)]
  exact Exec.rescue_ok (onMaster_opened isMaster opened _ _) _

/-- Without a terminal, as after a failed start, `write` raises. -/
theorem write_of_nil (alive : session.closed = false) (noMaster : session.master = none) :
    ∃ method, write data binary session = (.error (.noMethodError method), session) := by
  rw [write_alive alive]
  by_cases resize : isResize data binary = true
  · refine ⟨"winsize=", ?_⟩
    simp [Exec.rescue, resize, setWinsize, onMaster, noMaster, RubyError.isSystemCallError,
      RubyError.isIoError]
  · refine ⟨"write", ?_⟩
    simp [Exec.rescue, resize, masterWrite, onMaster, noMaster, RubyError.isSystemCallError,
      RubyError.isIoError]

/-- A terminal that was closed drops the input. -/
theorem write_of_closedMaster (alive : session.closed = false)
    (isMaster : session.master = some master) (closed : master.descriptor = .closed) :
    write data binary session = (.ok ⟨⟩, session) := by
  rw [write_alive alive]
  by_cases resize : isResize data binary = true
  · simp [Exec.rescue, resize, setWinsize, onMaster, isMaster, closed,
      RubyError.isSystemCallError, RubyError.isIoError]
  · simp [Exec.rescue, resize, masterWrite, onMaster, isMaster, closed,
      RubyError.isSystemCallError, RubyError.isIoError]

/-- A write changes an open terminal at most. -/
theorem write_state (session : Session) (data : Bytes) (binary : Bool) :
    (write data binary session).2 = session ∨
      session.Open ∧ ∃ master, master.descriptor = .opened ∧
        (write data binary session).2 = session.withMaster master := by
  cases closed : session.closed with
  | true => exact Or.inl (congrArg Prod.snd (write_of_closed closed))
  | false =>
      cases isMaster : session.master with
      | none =>
          rcases write_of_nil closed isMaster with ⟨method, raised⟩
          exact Or.inl (congrArg Prod.snd raised)
      | some master =>
          cases descriptor : master.descriptor with
          | closed =>
              left
              rw [write_of_closedMaster closed isMaster descriptor]
          | opened =>
              right
              refine ⟨⟨closed, master, isMaster, descriptor⟩, ?_⟩
              cases resize : isResize data binary with
              | true =>
                  rw [write_resize closed isMaster descriptor resize]
                  exact ⟨{ master with winsize := ⟨wordAt data 3, wordAt data 1⟩ }, descriptor, rfl⟩
              | false =>
                  rw [write_plain closed isMaster descriptor resize]
                  exact ⟨{ master with input := master.input ++ data }, descriptor, rfl⟩

/-- Only a missing terminal makes `write` raise. -/
theorem write_outcome (session : Session) (data : Bytes) (binary : Bool) :
    (write data binary session).1 = .ok ⟨⟩ ∨
      ∃ method, (write data binary session).1 = .error (.noMethodError method) := by
  cases closed : session.closed with
  | true => simp [write_of_closed closed]
  | false =>
      cases isMaster : session.master with
      | none =>
          rcases write_of_nil closed isMaster with ⟨method, raised⟩
          exact Or.inr ⟨method, congrArg Prod.fst raised⟩
      | some master =>
          left
          cases descriptor : master.descriptor with
          | closed => rw [write_of_closedMaster closed isMaster descriptor]
          | opened =>
              cases resize : isResize data binary with
              | true => rw [write_resize closed isMaster descriptor resize]
              | false => rw [write_plain closed isMaster descriptor resize]

end Write

end Session

end MultipassWebui.Terminals
