import Mathlib.Logic.Function.Basic
import MultipassWebui.Streams.Pipe
import MultipassWebui.Transition.Run

/-!
# A parent and its child

A child is a finite program that reads one pipe and writes two.  Its parent feeds
it data, closes that pipe, reads the other two to their ends, one after the other,
and waits.  Each of them makes a step whenever it can, so a run is an interleaving
of the two.
-/

namespace MultipassWebui.Streams

open MultipassWebui.Transition

universe u

variable {α : Type u}

/-- What a process writes to. -/
inductive Stream where
  | stdout
  | stderr
  deriving DecidableEq, Repr

/-! ## Programs -/

/-- A finite program; a read gives nothing at the end of the input. -/
inductive Program (α : Type u) where
  | exit (status : UInt8)
  | write (stream : Stream) (item : α) (rest : Program α)
  | read (next : Option α → Program α)

namespace Program

/-- What the program writes to a stream in all, if its input is `input`. -/
def written (stream : Stream) : Program α → List α → List α
  | exit _, _ => []
  | write sink item rest, input =>
      if sink = stream then item :: rest.written stream input else rest.written stream input
  | read next, [] => (next none).written stream []
  | read next, item :: input => (next (some item)).written stream input

/-- What it writes to a stream until it has read a number of items. -/
def writtenBefore (stream : Stream) : Program α → Nat → List α → List α
  | exit _, _, _ => []
  | write _ _ _, 0, _ => []
  | write sink item rest, count + 1, input =>
      if sink = stream then item :: rest.writtenBefore stream (count + 1) input
      else rest.writtenBefore stream (count + 1) input
  | read _, 0, _ => []
  | read next, count + 1, [] => (next none).writtenBefore stream (count + 1) []
  | read next, count + 1, item :: input => (next (some item)).writtenBefore stream count input

def status : Program α → List α → UInt8
  | exit status, _ => status
  | write _ _ rest, input => rest.status input
  | read next, [] => (next none).status []
  | read next, item :: input => (next (some item)).status input

/-- How many steps it makes. -/
def steps : Program α → List α → Nat
  | exit _, _ => 1
  | write _ _ rest, input => rest.steps input + 1
  | read next, [] => (next none).steps [] + 1
  | read next, item :: input => (next (some item)).steps input + 1

/-- It exits only when it has read its input. -/
def ReadsAll : Program α → List α → Prop
  | exit _, input => input = []
  | write _ _ rest, input => rest.ReadsAll input
  | read _, [] => True
  | read next, item :: input => (next (some item)).ReadsAll input

/-- It writes items to a stream and goes on. -/
def writes (stream : Stream) (items : List α) (rest : Program α) : Program α :=
  items.foldr (write stream) rest

theorem written_writes (stream : Stream) (items : List α) (rest : Program α) (input : List α) :
    (writes stream items rest).written stream input = items ++ rest.written stream input := by
  induction items with
  | nil => rfl
  | cons item items ih =>
      rw [writes, List.foldr_cons, written, if_pos rfl, List.cons_append, ← ih]
      rfl

/-- A program without input has read it. -/
theorem readsAll_nil (program : Program α) : program.ReadsAll [] := by
  induction program with
  | exit status => rfl
  | write stream item rest ih => exact ih
  | read next ih => trivial

@[simp]
theorem writtenBefore_zero (stream : Stream) (program : Program α) (input : List α) :
    program.writtenBefore stream 0 input = [] := by
  cases program with
  | exit status => rfl
  | write sink item rest => rfl
  | read next => rfl

end Program

/-! ## The two processes -/

/-- How much the pipes hold. -/
structure Capacities where
  stdin : Nat
  output : Stream → Nat
  stdin_pos : 0 < stdin
  output_pos : ∀ stream, 0 < output stream

inductive Child (α : Type u) where
  | running (program : Program α)
  | exited (status : UInt8)

inductive Parent (α : Type u) where
  /-- It writes data, then closes the pipe. -/
  | feeding (data : List α) (drains : List Stream)
  /-- It reads the first of the streams to its end; without one it waits. -/
  | draining (drains : List Stream)
  | done (status : UInt8)
  /-- Its write failed as nobody could read any more. -/
  | brokenPipe

namespace Parent

/-- The data that it has yet to write. -/
def unfed : Parent α → List α
  | feeding data _ => data
  | _ => []

/-- The streams that it has yet to read to their ends. -/
def drains : Parent α → List Stream
  | feeding _ drains => drains
  | draining drains => drains
  | _ => []

def isFeeding : Parent α → Bool
  | feeding _ _ => true
  | _ => false

/-- It goes on without the child. -/
def isFinished : Parent α → Bool
  | done _ => true
  | brokenPipe => true
  | _ => false

/-- How many steps it makes, apart from those that read an item. -/
def work : Parent α → Nat
  | feeding data drains => data.length + drains.length + 2
  | draining drains => drains.length + 1
  | _ => 0

end Parent

/-- The two processes and the pipes between them. -/
structure State (α : Type u) (capacities : Capacities) where
  parent : Parent α
  child : Child α
  stdin : Pipe α capacities.stdin
  output : (stream : Stream) → Pipe α (capacities.output stream)
  /-- What the parent has read. -/
  received : Stream → List α

inductive Actor where
  | parent
  | child
  deriving DecidableEq, Repr

variable {capacities : Capacities}

namespace State

def Finished (state : State α capacities) : Prop := state.parent.isFinished = true

instance (state : State α capacities) : Decidable state.Finished :=
  inferInstanceAs (Decidable (state.parent.isFinished = true))

/-- The state after an item was written to a stream. -/
def wrote (state : State α capacities) (stream : Stream)
    (pipe : Pipe α (capacities.output stream)) (rest : Program α) : State α capacities :=
  { state with
    output := Function.update state.output stream pipe
    child := .running rest }

/-- The state after an item was read from a stream. -/
def took (state : State α capacities) (stream : Stream) (item : α)
    (pipe : Pipe α (capacities.output stream)) : State α capacities :=
  { state with
    output := Function.update state.output stream pipe
    received := Function.update state.received stream (state.received stream ++ [item]) }

def stepParent (state : State α capacities) : Option (State α capacities) :=
  match state.parent with
  | .feeding [] drains => some { state with parent := .draining drains }
  | .feeding (item :: data) drains =>
      match state.child with
      | .exited _ => some { state with parent := .brokenPipe }
      | .running _ =>
          (state.stdin.push item).map fun stdin =>
            { state with stdin, parent := .feeding data drains }
  | .draining (stream :: drains) =>
      match (state.output stream).pop with
      | some (item, pipe) => some (state.took stream item pipe)
      | none =>
          -- the stream ends when the child has exited
          match state.child with
          | .exited _ => some { state with parent := .draining drains }
          | .running _ => none
  | .draining [] =>
      match state.child with
      | .exited status => some { state with parent := .done status }
      | .running _ => none
  | .done _ => none
  | .brokenPipe => none

def stepChild (state : State α capacities) : Option (State α capacities) :=
  match state.child with
  | .exited _ => none
  | .running (.exit status) => some { state with child := .exited status }
  | .running (.write stream item rest) =>
      ((state.output stream).push item).map fun pipe => state.wrote stream pipe rest
  | .running (.read next) =>
      match state.stdin.pop with
      | some (item, stdin) => some { state with stdin, child := .running (next (some item)) }
      | none =>
          -- the input ends when the parent has closed it
          if state.parent.isFeeding then none
          else some { state with child := .running (next none) }

end State

def step : Step (State α capacities) Actor := fun state actor =>
  match actor with
  | .parent => state.stepParent
  | .child => state.stepChild

/-- The two processes as they start. -/
def start (capacities : Capacities) (data : List α) (drains : List Stream)
    (program : Program α) : State α capacities where
  parent := .feeding data drains
  child := .running program
  stdin := .empty
  output _ := .empty
  received _ := []

/-! ## What a step does -/

/-- The steps of the two processes. -/
inductive Move : State α capacities → State α capacities → Prop where
  | closes {state drains} (phase : state.parent = .feeding [] drains) :
      Move state { state with parent := .draining drains }
  | feeds {state item data drains program stdin}
      (phase : state.parent = .feeding (item :: data) drains)
      (runs : state.child = .running program) (pushed : state.stdin.push item = some stdin) :
      Move state { state with stdin, parent := .feeding data drains }
  | breaks {state item data drains status} (phase : state.parent = .feeding (item :: data) drains)
      (exited : state.child = .exited status) : Move state { state with parent := .brokenPipe }
  | takes {state stream drains item pipe} (phase : state.parent = .draining (stream :: drains))
      (popped : (state.output stream).pop = some (item, pipe)) :
      Move state (state.took stream item pipe)
  | passes {state stream drains status} (phase : state.parent = .draining (stream :: drains))
      (empty : (state.output stream).items = []) (exited : state.child = .exited status) :
      Move state { state with parent := .draining drains }
  | waits {state status} (phase : state.parent = .draining [])
      (exited : state.child = .exited status) : Move state { state with parent := .done status }
  | exits {state status} (runs : state.child = .running (.exit status)) :
      Move state { state with child := .exited status }
  | writes {state stream item rest pipe} (runs : state.child = .running (.write stream item rest))
      (pushed : (state.output stream).push item = some pipe) :
      Move state (state.wrote stream pipe rest)
  | reads {state next item stdin} (runs : state.child = .running (.read next))
      (popped : state.stdin.pop = some (item, stdin)) :
      Move state { state with stdin, child := .running (next (some item)) }
  | ends {state next} (runs : state.child = .running (.read next)) (empty : state.stdin.items = [])
      (closed : state.parent.isFeeding = false) :
      Move state { state with child := .running (next none) }

variable {state target : State α capacities}

theorem Move.of_stepParent (stepped : state.stepParent = some target) : Move state target := by
  rw [State.stepParent] at stepped
  split at stepped
  · next drains phase =>
      cases stepped
      exact .closes phase
  · next item data drains phase =>
      split at stepped
      · next status exited =>
          cases stepped
          exact .breaks phase exited
      · next program runs =>
          rcases Option.map_eq_some_iff.mp stepped with ⟨stdin, pushed, rfl⟩
          exact .feeds phase runs pushed
  · next stream drains phase =>
      split at stepped
      · next item pipe popped =>
          cases stepped
          exact .takes phase popped
      · next empty =>
          split at stepped
          · next status exited =>
              cases stepped
              exact .passes phase (Pipe.pop_eq_none_iff.mp empty) exited
          · cases stepped
  · next phase =>
      split at stepped
      · next status exited =>
          cases stepped
          exact .waits phase exited
      · cases stepped
  · cases stepped
  · cases stepped

theorem Move.of_stepChild (stepped : state.stepChild = some target) : Move state target := by
  rw [State.stepChild] at stepped
  split at stepped
  · cases stepped
  · next status runs =>
      cases stepped
      exact .exits runs
  · next stream item rest runs =>
      rcases Option.map_eq_some_iff.mp stepped with ⟨pipe, pushed, rfl⟩
      exact .writes runs pushed
  · next next runs =>
      split at stepped
      · next item stdin popped =>
          cases stepped
          exact .reads runs popped
      · next empty =>
          split at stepped
          · cases stepped
          · next closed =>
              cases stepped
              exact .ends runs (Pipe.pop_eq_none_iff.mp empty) ((Bool.not_eq_true _).mp closed)

theorem Move.of_step {actor : Actor} (stepped : step state actor = some target) :
    Move state target := by
  cases actor with
  | parent => exact .of_stepParent stepped
  | child => exact .of_stepChild stepped

end MultipassWebui.Streams
