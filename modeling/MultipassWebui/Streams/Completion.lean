import MultipassWebui.Streams.Processes
import MultipassWebui.Transition.Progress

/-!
# When two processes come to an end

Nothing is lost in the pipes, and a stream ends when the child has exited.  So a
stream that is read after another one has to fit its pipe as a whole, and while
the child is fed, what it writes before it has read enough has to fit as well.
Where both hold, no reachable state is stuck; where one of them fails, every run
gets stuck.
-/

namespace MultipassWebui.Streams

open MultipassWebui.Transition

universe u

variable {α : Type u} {capacities : Capacities}

namespace Child

def hasExited : Child α → Bool
  | running _ => false
  | exited _ => true

/-- What it has yet to write. -/
def written (stream : Stream) : Child α → List α → List α
  | running program, input => program.written stream input
  | exited _, _ => []

def writtenBefore (stream : Stream) : Child α → Nat → List α → List α
  | running program, count, input => program.writtenBefore stream count input
  | exited _, _, _ => []

def status : Child α → List α → UInt8
  | running program, input => program.status input
  | exited status, _ => status

def steps : Child α → List α → Nat
  | running program, input => program.steps input
  | exited _, _ => 0

def ReadsAll : Child α → List α → Prop
  | running program, input => program.ReadsAll input
  | exited _, input => input = []

end Child

namespace State

/-- What the child has yet to read. -/
def input (state : State α capacities) : List α := state.stdin.items ++ state.parent.unfed

/-- What the parent has yet to read of a stream, were it to read it to its end. -/
def pending (state : State α capacities) (stream : Stream) : List α :=
  (state.output stream).items ++ state.child.written stream state.input

/-- How many items the child has to read before all of them have been written. -/
def short (state : State α capacities) : Nat := state.input.length - capacities.stdin

/-- What is in a pipe, and what will be written to it before all data was. -/
def ahead (state : State α capacities) (stream : Stream) : Nat :=
  (state.output stream).items.length +
    (state.child.writtenBefore stream state.short state.input).length

/-- The steps that are left. -/
def work (state : State α capacities) : Nat :=
  state.child.steps state.input + state.parent.work +
    ((state.pending .stdout).length + (state.pending .stderr).length)

theorem items_update (output : (stream : Stream) → Pipe α (capacities.output stream))
    (stream other : Stream) (pipe : Pipe α (capacities.output stream)) :
    (Function.update output stream pipe other).items =
      if stream = other then pipe.items else (output other).items := by
  split
  · next same =>
      subst same
      rw [Function.update_self]
  · next apart => rw [Function.update_of_ne (Ne.symm apart)]

variable (state : State α capacities)

theorem items_wrote (stream other : Stream) (pipe : Pipe α (capacities.output stream))
    (rest : Program α) :
    ((state.wrote stream pipe rest).output other).items =
      if stream = other then pipe.items else (state.output other).items :=
  items_update state.output stream other pipe

theorem items_took (stream other : Stream) (item : α) (pipe : Pipe α (capacities.output stream)) :
    ((state.took stream item pipe).output other).items =
      if stream = other then pipe.items else (state.output other).items :=
  items_update state.output stream other pipe

theorem received_took (stream other : Stream) (item : α)
    (pipe : Pipe α (capacities.output stream)) :
    (state.took stream item pipe).received other =
      if stream = other then state.received other ++ [item] else state.received other := by
  change Function.update state.received stream _ other = _
  split
  · next same =>
      subst same
      rw [Function.update_self]
  · next apart => rw [Function.update_of_ne (Ne.symm apart)]

end State

variable {state target : State α capacities}

/-! ## What every step keeps -/

theorem input_feeds {item : α} {data : List α} {drains : List Stream}
    {stdin : Pipe α capacities.stdin} (phase : state.parent = .feeding (item :: data) drains)
    (pushed : state.stdin.push item = some stdin) :
    ({ state with stdin, parent := .feeding data drains } : State α capacities).input =
      state.input := by
  rcases Pipe.push_eq_some_iff.mp pushed with ⟨_, items⟩
  rw [State.input, State.input, phase]
  change stdin.items ++ data = state.stdin.items ++ (item :: data)
  rw [items, List.append_assoc, List.singleton_append]

theorem input_reads {item : α} {stdin : Pipe α capacities.stdin}
    (popped : state.stdin.pop = some (item, stdin)) (child : Child α) :
    state.input = item :: ({ state with stdin, child } : State α capacities).input := by
  rw [State.input, State.input, Pipe.pop_eq_some_iff.mp popped, List.cons_append]

theorem input_of_closed (empty : state.stdin.items = []) (closed : state.parent.isFeeding = false) :
    state.input = [] := by
  rw [State.input, empty, List.nil_append]
  cases phase : state.parent with
  | feeding data drains =>
      rw [phase] at closed
      cases closed
  | draining drains => rfl
  | done status => rfl
  | brokenPipe => rfl

theorem input_ends (empty : state.stdin.items = []) (closed : state.parent.isFeeding = false)
    (child : Child α) : ({ state with child } : State α capacities).input = [] :=
  input_of_closed empty closed

theorem hasExited_of_running {program : Program α} (runs : state.child = .running program) :
    state.child.hasExited = false := by
  rw [runs]
  rfl

theorem input_closes {drains : List Stream} (phase : state.parent = .feeding [] drains) :
    ({ state with parent := .draining drains } : State α capacities).input = state.input := by
  rw [State.input, State.input, phase]
  rfl

/-- No item is lost. -/
theorem Move.conserves (move : Move state target) (stream : Stream) :
    target.received stream ++ target.pending stream =
      state.received stream ++ state.pending stream := by
  cases move with
  | closes phase =>
      rw [State.pending, State.pending, input_closes phase]
  | feeds phase runs pushed =>
      rw [State.pending, State.pending, input_feeds phase pushed]
  | breaks phase exited =>
      rw [State.pending, State.pending, exited]
      rfl
  | takes phase popped =>
      rename_i read drains item pipe
      rw [State.pending, State.pending, State.received_took, State.items_took]
      by_cases same : read = stream
      · subst same
        rw [if_pos rfl, if_pos rfl, Pipe.pop_eq_some_iff.mp popped, List.append_assoc,
          List.singleton_append, List.cons_append]
        rfl
      · rw [if_neg same, if_neg same]
        rfl
  | passes phase empty exited =>
      rw [State.pending, State.pending, exited]
      rfl
  | waits phase exited =>
      rw [State.pending, State.pending, exited]
      rfl
  | exits runs =>
      rw [State.pending, State.pending, runs]
      rfl
  | writes runs pushed =>
      rename_i sink item rest pipe
      rcases Pipe.push_eq_some_iff.mp pushed with ⟨_, items⟩
      rw [State.pending, State.pending, State.items_wrote, runs]
      change state.received stream ++ (_ ++ rest.written stream state.input) =
        state.received stream ++ (_ ++ (Program.write sink item rest).written stream state.input)
      rw [Program.written]
      by_cases same : sink = stream
      · subst same
        rw [if_pos rfl, if_pos rfl, items, List.append_assoc, List.singleton_append]
      · rw [if_neg same, if_neg same]
  | reads runs popped =>
      rw [State.pending, State.pending, runs, input_reads popped]
      rfl
  | ends runs empty closed =>
      rw [State.pending, State.pending, runs, input_of_closed empty closed, input_ends empty closed]
      rfl

/-- A step that reads nothing leaves as much to be read. -/
theorem Move.pending_eq (move : Move state target) (unread : target.received = state.received)
    (stream : Stream) : target.pending stream = state.pending stream := by
  have conserved := move.conserves stream
  rw [unread] at conserved
  exact List.append_cancel_left conserved

/-- An item that is read is not pending any more. -/
theorem work_took_lt {stream : Stream} {drains : List Stream} {item : α}
    {pipe : Pipe α (capacities.output stream)}
    (phase : state.parent = .draining (stream :: drains))
    (popped : (state.output stream).pop = some (item, pipe)) :
    (state.took stream item pipe).work < state.work := by
  have conserves := (Move.takes phase popped).conserves
  have fewer : (state.pending stream).length =
      ((state.took stream item pipe).pending stream).length + 1 := by
    have lengths := congrArg List.length (conserves stream)
    rw [List.length_append, List.length_append, State.received_took, if_pos rfl,
      List.length_append, List.length_singleton] at lengths
    omega
  have others : ∀ other, stream ≠ other →
      (state.took stream item pipe).pending other = state.pending other := by
    intro other apart
    have conserved := conserves other
    rw [State.received_took, if_neg apart] at conserved
    exact List.append_cancel_left conserved
  change state.child.steps state.input + state.parent.work + _ <
    state.child.steps state.input + state.parent.work + _
  apply Nat.add_lt_add_left
  cases stream with
  | stdout =>
      rw [fewer, others .stderr Stream.noConfusion]
      omega
  | stderr =>
      rw [fewer, others .stdout Stream.noConfusion]
      omega

/-- Every step leaves fewer steps to be made. -/
theorem Move.lowers (move : Move state target) : target.work < state.work := by
  have before := move
  cases move with
  | closes phase =>
      rw [State.work, State.work, before.pending_eq rfl, before.pending_eq rfl,
        input_closes phase, phase]
      simp only [Parent.work, List.length_nil]
      omega
  | feeds phase runs pushed =>
      rw [State.work, State.work, before.pending_eq rfl, before.pending_eq rfl,
        input_feeds phase pushed, phase]
      simp only [Parent.work, List.length_cons]
      omega
  | breaks phase exited =>
      rw [State.work, State.work, before.pending_eq rfl, before.pending_eq rfl, phase, exited]
      simp only [Parent.work, Child.steps, List.length_cons]
      omega
  | takes phase popped => exact work_took_lt phase popped
  | passes phase empty exited =>
      rw [State.work, State.work, before.pending_eq rfl, before.pending_eq rfl, phase, exited]
      simp only [Parent.work, Child.steps, List.length_cons]
      omega
  | waits phase exited =>
      rw [State.work, State.work, before.pending_eq rfl, before.pending_eq rfl, phase, exited]
      simp only [Parent.work, Child.steps, List.length_nil]
      omega
  | exits runs =>
      rw [State.work, State.work, before.pending_eq rfl, before.pending_eq rfl, runs]
      simp only [Child.steps, Program.steps]
      omega
  | writes runs pushed =>
      rw [State.work, State.work, before.pending_eq rfl, before.pending_eq rfl, runs]
      simp only [State.wrote, State.input, Child.steps, Program.steps]
      omega
  | reads runs popped =>
      rename_i next item stdin
      rw [State.work, State.work, before.pending_eq rfl, before.pending_eq rfl, runs,
        input_reads popped (.running (next (some item)))]
      simp only [Child.steps, Program.steps]
      omega
  | ends runs empty closed =>
      rw [State.work, State.work, before.pending_eq rfl, before.pending_eq rfl, runs,
        input_of_closed empty closed, input_ends empty closed]
      simp only [Child.steps, Program.steps]
      omega

/-! ## What holds of every reachable state -/

/-- The two processes still do what the program does with the data. -/
structure Sound (program : Program α) (data : List α) (state : State α capacities) : Prop where
  conserved : ∀ stream, state.received stream ++ state.pending stream = program.written stream data
  status : state.child.status state.input = program.status data
  readsAll : state.child.ReadsAll state.input
  intact : state.parent ≠ .brokenPipe
  reported : ∀ status, state.parent = .done status → state.child = .exited status

/-- The streams are read in order, and each to its end. -/
structure Orderly (first : Stream) (later : List Stream) (state : State α capacities) : Prop where
  running : state.child.hasExited = false → state.parent.drains = first :: later
  feeding : state.parent.isFeeding = true → ∀ stream, state.received stream = []
  untouched : state.child.hasExited = false → ∀ stream, stream ≠ first → state.received stream = []
  drained : ∀ stream ∈ first :: later, stream ∈ state.parent.drains ∨
    state.child.hasExited = true ∧ (state.output stream).items = []

section

variable {program : Program α} {data : List α} {first : Stream} {later : List Stream}

theorem sound_start (capacities : Capacities) (drains : List Stream)
    (readsAll : program.ReadsAll data) :
    Sound program data (start capacities data drains program) where
  conserved _ := rfl
  status := rfl
  readsAll := readsAll
  intact phase := by cases phase
  reported _ phase := by cases phase

theorem orderly_start (capacities : Capacities) :
    Orderly first later (start capacities data (first :: later) program) where
  running _ := rfl
  feeding _ _ := rfl
  untouched _ _ _ := rfl
  drained _ member := .inl member

theorem Move.status_eq (move : Move state target) :
    target.child.status target.input = state.child.status state.input := by
  cases move with
  | closes phase => rw [input_closes phase]
  | feeds phase runs pushed => rw [input_feeds phase pushed]
  | breaks phase exited =>
      rw [exited]
      rfl
  | takes phase popped => rfl
  | passes phase empty exited =>
      rw [exited]
      rfl
  | waits phase exited =>
      rw [exited]
      rfl
  | exits runs =>
      rw [runs]
      rfl
  | writes runs pushed =>
      rw [runs]
      rfl
  | reads runs popped =>
      rename_i next item stdin
      rw [runs, input_reads popped (.running (next (some item)))]
      rfl
  | ends runs empty closed =>
      rw [runs, input_of_closed empty closed, input_ends empty closed]
      rfl

/-- A child that has exited has read its input, so nothing is fed to it. -/
theorem Sound.unfed_of_exited (sound : Sound program data state) {status : UInt8}
    (exited : state.child = .exited status) : state.parent.unfed = [] := by
  have readsAll := sound.readsAll
  rw [exited] at readsAll
  exact (List.append_eq_nil_iff.mp readsAll).2

theorem Sound.readsAll_move (sound : Sound program data state) (move : Move state target) :
    target.child.ReadsAll target.input := by
  have readsAll := sound.readsAll
  cases move with
  | closes phase =>
      rw [input_closes phase]
      exact readsAll
  | feeds phase runs pushed =>
      rw [input_feeds phase pushed]
      exact readsAll
  | breaks phase exited =>
      have fed := sound.unfed_of_exited exited
      rw [phase] at fed
      cases fed
  | takes phase popped => exact readsAll
  | passes phase empty exited =>
      rw [exited] at readsAll ⊢
      rw [Child.ReadsAll, State.input, phase] at readsAll
      exact readsAll
  | waits phase exited =>
      rw [exited] at readsAll ⊢
      rw [Child.ReadsAll, State.input, phase] at readsAll
      exact readsAll
  | exits runs =>
      rw [runs] at readsAll
      exact readsAll
  | writes runs pushed =>
      rw [runs] at readsAll
      exact readsAll
  | reads runs popped =>
      rename_i next item stdin
      rw [runs, input_reads popped (.running (next (some item)))] at readsAll
      exact readsAll
  | ends runs empty closed =>
      rw [input_ends empty closed]
      exact Program.readsAll_nil _

theorem Sound.intact_move (sound : Sound program data state) (move : Move state target) :
    target.parent ≠ .brokenPipe := by
  intro broken
  cases move with
  | closes phase => cases broken
  | feeds phase runs pushed => cases broken
  | breaks phase exited =>
      have fed := sound.unfed_of_exited exited
      rw [phase] at fed
      cases fed
  | takes phase popped => exact sound.intact broken
  | passes phase empty exited => cases broken
  | waits phase exited => cases broken
  | exits runs => exact sound.intact broken
  | writes runs pushed => exact sound.intact broken
  | reads runs popped => exact sound.intact broken
  | ends runs empty closed => exact sound.intact broken

theorem Sound.reported_move (sound : Sound program data state) (move : Move state target)
    (status : UInt8) (phase : target.parent = .done status) : target.child = .exited status := by
  cases move with
  | closes before => cases phase
  | feeds before runs pushed => cases phase
  | breaks before exited => cases phase
  | takes before popped => exact sound.reported status phase
  | passes before empty exited => cases phase
  | waits before exited =>
      cases phase
      exact exited
  | exits runs =>
      have exited := sound.reported status phase
      rw [runs] at exited
      cases exited
  | writes runs pushed =>
      have exited := sound.reported status phase
      rw [runs] at exited
      cases exited
  | reads runs popped =>
      have exited := sound.reported status phase
      rw [runs] at exited
      cases exited
  | ends runs empty closed =>
      have exited := sound.reported status phase
      rw [runs] at exited
      cases exited

theorem Sound.move (sound : Sound program data state) (move : Move state target) :
    Sound program data target where
  conserved stream := (move.conserves stream).trans (sound.conserved stream)
  status := move.status_eq.trans sound.status
  readsAll := sound.readsAll_move move
  intact := sound.intact_move move
  reported := sound.reported_move move

/-- A running child that makes a step was running before. -/
theorem Move.running_before (move : Move state target) (running : target.child.hasExited = false) :
    state.child.hasExited = false := by
  cases move with
  | closes phase => exact running
  | feeds phase runs pushed => exact running
  | breaks phase exited => exact running
  | takes phase popped => exact running
  | passes phase empty exited => exact running
  | waits phase exited => exact running
  | exits runs => cases running
  | writes runs pushed => exact hasExited_of_running runs
  | reads runs popped => exact hasExited_of_running runs
  | ends runs empty closed => exact hasExited_of_running runs

theorem Orderly.running_move (orderly : Orderly first later state) (move : Move state target)
    (running : target.child.hasExited = false) : target.parent.drains = first :: later := by
  have before := orderly.running (move.running_before running)
  cases move with
  | closes phase =>
      rw [phase] at before
      exact before
  | feeds phase runs pushed =>
      rw [phase] at before
      exact before
  | breaks phase exited =>
      rw [exited] at running
      cases running
  | takes phase popped => exact before
  | passes phase empty exited =>
      rw [exited] at running
      cases running
  | waits phase exited =>
      rw [exited] at running
      cases running
  | exits runs => cases running
  | writes runs pushed => exact before
  | reads runs popped => exact before
  | ends runs empty closed => exact before

theorem Orderly.feeding_move (orderly : Orderly first later state) (move : Move state target)
    (feeding : target.parent.isFeeding = true) (stream : Stream) :
    target.received stream = [] := by
  cases move with
  | closes phase => cases feeding
  | feeds phase runs pushed =>
      apply orderly.feeding
      rw [phase]
      rfl
  | breaks phase exited => cases feeding
  | takes phase popped =>
      change state.parent.isFeeding = true at feeding
      rw [phase] at feeding
      cases feeding
  | passes phase empty exited => cases feeding
  | waits phase exited => cases feeding
  | exits runs => exact orderly.feeding feeding stream
  | writes runs pushed => exact orderly.feeding feeding stream
  | reads runs popped => exact orderly.feeding feeding stream
  | ends runs empty closed => exact orderly.feeding feeding stream

theorem Orderly.untouched_move (orderly : Orderly first later state) (move : Move state target)
    (running : state.child.hasExited = false) (stream : Stream) (apart : stream ≠ first) :
    target.received stream = [] := by
  have before := orderly.untouched running stream apart
  cases move with
  | closes phase => exact before
  | feeds phase runs pushed => exact before
  | breaks phase exited => exact before
  | takes phase popped =>
      have drains := orderly.running running
      rw [phase] at drains
      rcases List.cons.inj drains with ⟨rfl, _⟩
      rw [State.received_took, if_neg apart.symm]
      exact before
  | passes phase empty exited => exact before
  | waits phase exited => exact before
  | exits runs => exact before
  | writes runs pushed => exact before
  | reads runs popped => exact before
  | ends runs empty closed => exact before

/-- No stream has ended while the child runs. -/
theorem Orderly.left_of_running (orderly : Orderly first later state)
    (running : state.child.hasExited = false) {stream : Stream}
    (member : stream ∈ first :: later) : stream ∈ state.parent.drains := by
  rw [orderly.running running]
  exact member

theorem Orderly.drained_move (orderly : Orderly first later state) (move : Move state target)
    (intact : target.parent ≠ .brokenPipe) (stream : Stream) (member : stream ∈ first :: later) :
    stream ∈ target.parent.drains ∨
      target.child.hasExited = true ∧ (target.output stream).items = [] := by
  have before := orderly.drained stream member
  cases move with
  | closes phase =>
      rw [phase] at before
      exact before
  | feeds phase runs pushed =>
      rw [phase] at before
      exact before
  | breaks phase exited => exact absurd rfl intact
  | takes phase popped =>
      apply before.imp_right
      rintro ⟨exited, empty⟩
      apply And.intro exited
      rw [State.items_took]
      split
      · next same =>
          subst same
          rw [Pipe.pop_eq_some_iff.mp popped] at empty
          cases empty
      · exact empty
  | passes phase empty exited =>
      rename_i head drains status
      rw [phase] at before
      rcases before with left | gone
      · rcases List.mem_cons.mp left with rfl | left
        · right
          apply And.intro _ empty
          change state.child.hasExited = true
          rw [exited]
          rfl
        · exact .inl left
      · exact .inr gone
  | waits phase exited =>
      rw [phase] at before
      rcases before with left | gone
      · cases left
      · exact .inr gone
  | exits runs => exact .inl (orderly.left_of_running (hasExited_of_running runs) member)
  | writes runs pushed => exact .inl (orderly.left_of_running (hasExited_of_running runs) member)
  | reads runs popped => exact .inl (orderly.left_of_running (hasExited_of_running runs) member)
  | ends runs empty closed =>
      exact .inl (orderly.left_of_running (hasExited_of_running runs) member)

theorem Orderly.move (orderly : Orderly first later state) (move : Move state target)
    (intact : target.parent ≠ .brokenPipe) : Orderly first later target where
  running := orderly.running_move move
  feeding := orderly.feeding_move move
  untouched running := orderly.untouched_move move (move.running_before running)
  drained := orderly.drained_move move intact

/-- As long as not all data has been written, reading makes no room in the outputs. -/
theorem Move.ahead_eq (move : Move state target) (feeding : target.parent.isFeeding = true)
    (short : 0 < state.short) (stream : Stream) : target.ahead stream = state.ahead stream := by
  cases move with
  | closes phase => cases feeding
  | feeds phase runs pushed =>
      rw [State.ahead, State.ahead, State.short, State.short, input_feeds phase pushed]
  | breaks phase exited => cases feeding
  | takes phase popped =>
      change state.parent.isFeeding = true at feeding
      rw [phase] at feeding
      cases feeding
  | passes phase empty exited => cases feeding
  | waits phase exited => cases feeding
  | exits runs =>
      rw [State.ahead, State.ahead, runs, Child.writtenBefore, Program.writtenBefore.eq_def]
      rfl
  | writes runs pushed =>
      rename_i sink item rest pipe
      rcases Pipe.push_eq_some_iff.mp pushed with ⟨_, items⟩
      rcases Nat.exists_eq_add_one_of_ne_zero (Nat.ne_of_gt short) with ⟨count, isShort⟩
      have same : (state.wrote sink pipe rest).short = state.short := rfl
      rw [State.ahead, State.ahead, State.items_wrote, same, isShort, runs]
      change _ + (rest.writtenBefore stream (count + 1) state.input).length =
        _ + ((Program.write sink item rest).writtenBefore stream (count + 1) state.input).length
      rw [Program.writtenBefore]
      split
      · next same =>
          subst same
          rw [items, List.length_append, List.length_singleton, List.length_cons,
            Nat.add_right_comm, Nat.add_assoc]
      · rfl
  | reads runs popped =>
      rename_i next item stdin
      have input := input_reads popped (.running (next (some item)))
      rcases Nat.exists_eq_add_one_of_ne_zero (Nat.ne_of_gt short) with ⟨count, isShort⟩
      have less : ({ state with stdin, child := .running (next (some item)) } :
          State α capacities).short = count := by
        rw [State.short, input, List.length_cons] at isShort
        rw [State.short]
        omega
      rw [State.ahead, State.ahead, less, isShort, runs, input]
      rfl
  | ends runs empty closed =>
      change state.parent.isFeeding = true at feeding
      rw [closed] at feeding
      cases feeding

end

/-! ## Who is blocked -/

/-- A running child waits for room or for input. -/
theorem child_steps_or_waits {program : Program α} (runs : state.child = .running program) :
    (∃ target, state.stepChild = some target) ∨
      (∃ stream item rest, program = .write stream item rest ∧
        (state.output stream).items.length = capacities.output stream) ∨
      (state.stdin.items = [] ∧ state.parent.isFeeding = true) := by
  cases program with
  | exit status =>
      left
      rw [State.stepChild, runs]
      exact ⟨_, rfl⟩
  | write stream item rest =>
      cases pushed : (state.output stream).push item with
      | none => exact .inr (.inl ⟨stream, item, rest, rfl, Pipe.length_of_full pushed⟩)
      | some pipe =>
          left
          rw [State.stepChild, runs]
          exact ⟨_, congrArg (Option.map _) pushed⟩
  | read next =>
      cases popped : state.stdin.pop with
      | some taken =>
          left
          rw [State.stepChild, runs]
          simp only [popped]
          exact ⟨_, rfl⟩
      | none =>
          cases feeding : state.parent.isFeeding with
          | true => exact .inr (.inr ⟨Pipe.pop_eq_none_iff.mp popped, rfl⟩)
          | false =>
              left
              rw [State.stepChild, runs]
              simp only [popped, feeding]
              exact ⟨_, rfl⟩

/-- A parent with data to write waits for room. -/
theorem feeding_steps_or_waits {data : List α} {drains : List Stream}
    (phase : state.parent = .feeding data drains) :
    (∃ target, state.stepParent = some target) ∨
      ∃ program item left, state.child = .running program ∧ data = item :: left ∧
        state.stdin.items.length = capacities.stdin := by
  cases data with
  | nil =>
      left
      rw [State.stepParent, phase]
      exact ⟨_, rfl⟩
  | cons item left =>
      cases child : state.child with
      | exited status =>
          left
          rw [State.stepParent, phase]
          simp only [child]
          exact ⟨_, rfl⟩
      | running program =>
          cases pushed : state.stdin.push item with
          | some stdin =>
              left
              rw [State.stepParent, phase]
              simp only [child]
              exact ⟨_, congrArg (Option.map _) pushed⟩
          | none => exact .inr ⟨program, item, left, rfl, rfl, Pipe.length_of_full pushed⟩

/-- A parent that reads waits for output, or for the exit of the child. -/
theorem draining_steps_or_waits {drains : List Stream}
    (phase : state.parent = .draining drains) :
    (∃ target, state.stepParent = some target) ∨
      ∃ program, state.child = .running program ∧
        ∀ stream ∈ drains.head?, (state.output stream).items = [] := by
  cases drains with
  | nil =>
      cases child : state.child with
      | exited status =>
          left
          rw [State.stepParent, phase]
          simp only [child]
          exact ⟨_, rfl⟩
      | running program => exact .inr ⟨program, rfl, fun stream member => by cases member⟩
  | cons first later =>
      cases popped : (state.output first).pop with
      | some taken =>
          left
          rw [State.stepParent, phase]
          simp only [popped]
          exact ⟨_, rfl⟩
      | none =>
          cases child : state.child with
          | exited status =>
              left
              rw [State.stepParent, phase]
              simp only [popped, child]
              exact ⟨_, rfl⟩
          | running program =>
              right
              refine ⟨program, rfl, ?_⟩
              intro stream member
              cases member
              exact Pipe.pop_eq_none_iff.mp popped

theorem phase_of_finished (finished : state.Finished) :
    (∃ status, state.parent = .done status) ∨ state.parent = .brokenPipe := by
  rw [State.Finished] at finished
  cases phase : state.parent with
  | feeding data drains =>
      rw [phase] at finished
      cases finished
  | draining drains =>
      rw [phase] at finished
      cases finished
  | done status => exact .inl ⟨status, rfl⟩
  | brokenPipe => exact .inr rfl

/-- An unfinished parent is in one of these phases. -/
theorem phase_of_unfinished (unfinished : ¬ state.Finished) :
    (∃ data drains, state.parent = .feeding data drains) ∨
      ∃ drains, state.parent = .draining drains := by
  cases phase : state.parent with
  | feeding data drains => exact .inl ⟨data, drains, rfl⟩
  | draining drains => exact .inr ⟨drains, rfl⟩
  | done status =>
      refine absurd ?_ unfinished
      rw [State.Finished, phase]
      rfl
  | brokenPipe =>
      refine absurd ?_ unfinished
      rw [State.Finished, phase]
      rfl

/-! ## When the parent finishes -/

section

variable {program : Program α} {data : List α} {first : Stream} {later : List Stream}

/-- What has to fit: all of a stream that is not read first, and of the first one
what is written before all data was. -/
structure Fits (capacities : Capacities) (program : Program α) (data : List α)
    (first : Stream) : Prop where
  others : ∀ stream, stream ≠ first →
    (program.written stream data).length ≤ capacities.output stream
  early : (program.writtenBefore first (data.length - capacities.stdin) data).length ≤
    capacities.output first

/-- The first stream is as it was predicted, as long as not all data was written. -/
def Predicted (first : Stream) (bound : Nat) (state : State α capacities) : Prop :=
  state.parent.isFeeding = true → 0 < state.short → state.ahead first = bound

theorem Move.isFeeding_before (move : Move state target)
    (feeding : target.parent.isFeeding = true) : state.parent.isFeeding = true := by
  cases move with
  | closes phase => cases feeding
  | feeds phase runs pushed =>
      rw [phase]
      rfl
  | breaks phase exited => cases feeding
  | takes phase popped => exact feeding
  | passes phase empty exited => cases feeding
  | waits phase exited => cases feeding
  | exits runs => exact feeding
  | writes runs pushed => exact feeding
  | reads runs popped => exact feeding
  | ends runs empty closed => exact feeding

/-- Nothing is added to what the child has yet to read. -/
theorem Move.input_le (move : Move state target) : target.input.length ≤ state.input.length := by
  cases move with
  | closes phase => exact Nat.le_of_eq (congrArg List.length (input_closes phase))
  | feeds phase runs pushed => exact Nat.le_of_eq (congrArg List.length (input_feeds phase pushed))
  | breaks phase exited =>
      rw [State.input, State.input, List.length_append, List.length_append]
      exact Nat.add_le_add_left (Nat.zero_le _) _
  | takes phase popped => exact Nat.le_refl _
  | passes phase empty exited =>
      rw [State.input, State.input, phase]
      exact Nat.le_refl _
  | waits phase exited =>
      rw [State.input, State.input, phase]
      exact Nat.le_refl _
  | exits runs => exact Nat.le_refl _
  | writes runs pushed => exact Nat.le_refl _
  | reads runs popped =>
      rename_i next item stdin
      rw [input_reads popped (.running (next (some item))), List.length_cons]
      exact Nat.le_succ _
  | ends runs empty closed => exact Nat.le_refl _

theorem Move.short_le (move : Move state target) : target.short ≤ state.short :=
  Nat.sub_le_sub_right move.input_le _

theorem Predicted.move {bound : Nat} (predicted : Predicted first bound state)
    (move : Move state target) : Predicted first bound target := by
  intro feeding short
  have before := Nat.lt_of_lt_of_le short move.short_le
  rw [move.ahead_eq feeding before first]
  exact predicted (move.isFeeding_before feeding) before

theorem predicted_start (capacities : Capacities) (data : List α) (drains : List Stream)
    (program : Program α) :
    Predicted first (program.writtenBefore first (data.length - capacities.stdin) data).length
      (start capacities data drains program) := by
  intro _ _
  exact Nat.zero_add _

/-- The states in which nobody is stuck, if the outputs fit. -/
structure Healthy (program : Program α) (data : List α) (first : Stream) (later : List Stream)
    (state : State α capacities) : Prop where
  sound : Sound program data state
  orderly : Orderly first later state
  predicted : Predicted first
    (program.writtenBefore first (data.length - capacities.stdin) data).length state

theorem Healthy.step (healthy : Healthy program data first later state) {actor : Actor}
    (stepped : Streams.step state actor = some target) :
    Healthy program data first later target := by
  have move := Move.of_step stepped
  have sound := healthy.sound.move move
  exact ⟨sound, healthy.orderly.move move sound.intact, healthy.predicted.move move⟩

theorem healthy_start (capacities : Capacities) (later : List Stream)
    (readsAll : program.ReadsAll data) :
    Healthy program data first later (start capacities data (first :: later) program) :=
  ⟨sound_start capacities _ readsAll, orderly_start capacities,
    predicted_start capacities data _ program⟩

/-- A stream that is not read first has room for what is written to it. -/
theorem Healthy.room_of_apart (healthy : Healthy program data first later state)
    (fits : Fits capacities program data first) {stream : Stream} (apart : stream ≠ first)
    {item : α} {rest : Program α} (runs : state.child = .running (.write stream item rest)) :
    (state.output stream).items.length < capacities.output stream := by
  have running := hasExited_of_running runs
  have whole := congrArg List.length (healthy.sound.conserved stream)
  rw [healthy.orderly.untouched running stream apart, List.nil_append, State.pending, runs,
    Child.written, Program.written, if_pos rfl, List.length_append, List.length_cons] at whole
  have fit := fits.others stream apart
  omega

/-- While data is written that does not fit, the first stream has room. -/
theorem Healthy.room_of_feeding (healthy : Healthy program data first later state)
    (fits : Fits capacities program data first) (feeding : state.parent.isFeeding = true)
    (short : 0 < state.short) {item : α} {rest : Program α}
    (runs : state.child = .running (.write first item rest)) :
    (state.output first).items.length < capacities.output first := by
  have predicted := healthy.predicted feeding short
  rcases Nat.exists_eq_add_one_of_ne_zero (Nat.ne_of_gt short) with ⟨count, isShort⟩
  rw [State.ahead, runs, isShort, Child.writtenBefore, Program.writtenBefore, if_pos rfl,
    List.length_cons] at predicted
  have fit := fits.early
  omega

/-- Where the outputs fit, the child of a parent that waits for room goes on. -/
theorem Healthy.child_of_feeding (healthy : Healthy program data first later state)
    (fits : Fits capacities program data first) {item : α} {unfed : List α}
    {drains : List Stream} (phase : state.parent = .feeding (item :: unfed) drains)
    (full : state.stdin.items.length = capacities.stdin) {current : Program α}
    (runs : state.child = .running current) : ∃ target, state.stepChild = some target := by
  have feeding : state.parent.isFeeding = true := by
    rw [phase]
    rfl
  have short : 0 < state.short := by
    rw [State.short, State.input, phase, List.length_append, full, Nat.add_sub_cancel_left]
    exact Nat.succ_pos _
  rcases child_steps_or_waits runs with steps | ⟨stream, next, rest, rfl, isFull⟩ | ⟨noInput, _⟩
  · exact steps
  · exfalso
    by_cases isFirst : stream = first
    · subst isFirst
      exact absurd isFull (Nat.ne_of_lt (healthy.room_of_feeding fits feeding short runs))
    · exact absurd isFull (Nat.ne_of_lt (healthy.room_of_apart fits isFirst runs))
  · exfalso
    rw [noInput] at full
    exact absurd full (Nat.ne_of_lt capacities.stdin_pos)

/-- So does the child of a parent that waits for output. -/
theorem Healthy.child_of_draining (healthy : Healthy program data first later state)
    (fits : Fits capacities program data first) {drains : List Stream}
    (phase : state.parent = .draining drains)
    (empty : ∀ stream ∈ drains.head?, (state.output stream).items = []) {current : Program α}
    (runs : state.child = .running current) : ∃ target, state.stepChild = some target := by
  have isDrains := healthy.orderly.running (hasExited_of_running runs)
  rw [phase] at isDrains
  rcases child_steps_or_waits runs with steps | ⟨stream, next, rest, rfl, isFull⟩ | ⟨_, feeding⟩
  · exact steps
  · exfalso
    by_cases isFirst : stream = first
    · have nothing := empty stream (by rw [isFirst]; exact congrArg List.head? isDrains)
      rw [nothing] at isFull
      exact absurd isFull (Nat.ne_of_lt (capacities.output_pos stream))
    · exact absurd isFull (Nat.ne_of_lt (healthy.room_of_apart fits isFirst runs))
  · exfalso
    rw [phase] at feeding
    cases feeding

/-- Where the outputs fit, nobody is stuck. -/
theorem Healthy.goesOn (healthy : Healthy program data first later state)
    (fits : Fits capacities program data first) (unfinished : ¬ state.Finished) :
    ∃ actor target, Streams.step state actor = some target := by
  rcases phase_of_unfinished unfinished with ⟨unfed, drains, phase⟩ | ⟨drains, phase⟩
  · rcases feeding_steps_or_waits phase with steps | ⟨current, item, left, runs, rfl, full⟩
    · exact ⟨.parent, steps⟩
    · exact ⟨.child, healthy.child_of_feeding fits phase full runs⟩
  · rcases draining_steps_or_waits phase with steps | ⟨current, runs, empty⟩
    · exact ⟨.parent, steps⟩
    · exact ⟨.child, healthy.child_of_draining fits phase empty runs⟩

theorem terminates_of_fits (fits : Fits capacities program data first)
    (readsAll : program.ReadsAll data) :
    Terminates Streams.step State.Finished (start capacities data (first :: later) program) :=
  terminates_of_invariant (fun _ _ _ stepped => (Move.of_step stepped).lowers)
    (fun _ _ _ healthy stepped => healthy.step stepped)
    (fun _ healthy unfinished => healthy.goesOn fits unfinished)
    (healthy_start capacities later readsAll)

/-- While the child runs, the parent has not finished. -/
theorem Orderly.unfinished (orderly : Orderly first later state)
    (running : state.child.hasExited = false) : ¬ state.Finished := by
  intro finished
  have drains := orderly.running running
  rcases phase_of_finished finished with ⟨status, phase⟩ | phase
  · rw [phase] at drains
    cases drains
  · rw [phase] at drains
    cases drains

/-- A child that is about to overfill a stream that is read later does not exit. -/
theorem Healthy.running_of_overfull (healthy : Healthy program data first later state)
    {stream : Stream} (apart : stream ≠ first)
    (overfull : capacities.output stream < (program.written stream data).length)
    (running : state.child.hasExited = false) {actor : Actor}
    (stepped : Streams.step state actor = some target) : target.child.hasExited = false := by
  cases child : target.child with
  | running _ => rfl
  | exited status =>
      have unread := healthy.orderly.untouched_move (.of_step stepped) running stream apart
      have whole := congrArg List.length ((healthy.step stepped).sound.conserved stream)
      rw [unread, List.nil_append, State.pending, child, Child.written, List.append_nil] at whole
      have fit := (target.output stream).fits
      rw [whole] at fit
      exact absurd overfull (Nat.not_lt_of_le fit)

theorem not_terminates_of_overfull {stream : Stream} (apart : stream ≠ first)
    (overfull : capacities.output stream < (program.written stream data).length)
    (readsAll : program.ReadsAll data) :
    ¬ Terminates Streams.step State.Finished (start capacities data (first :: later) program) := by
  apply not_terminates_of_invariant
    (J := fun state => Healthy program data first later state ∧ state.child.hasExited = false)
  · rintro state actor target ⟨healthy, running⟩ stepped
    exact ⟨healthy.step stepped, healthy.running_of_overfull apart overfull running stepped⟩
  · rintro state ⟨healthy, running⟩
    exact healthy.orderly.unfinished running
  · exact ⟨healthy_start capacities later readsAll, rfl⟩

/-- The parent closes the pipe only when all data has been written. -/
theorem Move.isFeeding_after (move : Move state target) (feeding : state.parent.isFeeding = true)
    (short : 0 < state.short) (intact : target.parent ≠ .brokenPipe) :
    target.parent.isFeeding = true := by
  cases move with
  | closes phase =>
      have fit := Nat.sub_eq_zero_of_le state.stdin.fits
      rw [State.short, State.input, phase, Parent.unfed, List.append_nil, fit] at short
      cases short
  | feeds phase runs pushed => rfl
  | breaks phase exited => exact absurd rfl intact
  | takes phase popped => exact feeding
  | passes phase empty exited =>
      rw [phase] at feeding
      cases feeding
  | waits phase exited =>
      rw [phase] at feeding
      cases feeding
  | exits runs => exact feeding
  | writes runs pushed => exact feeding
  | reads runs popped => exact feeding
  | ends runs empty closed => exact feeding

/-- The parent has data to write for which the child has not yet made room. -/
def Holding (state : State α capacities) : Prop :=
  state.parent.isFeeding = true ∧ 0 < state.short

/-- If what the child writes before it has made room does not fit, it never makes it. -/
theorem Healthy.holding_of_overfull (healthy : Healthy program data first later state)
    (overfull : capacities.output first <
      (program.writtenBefore first (data.length - capacities.stdin) data).length)
    (holding : Holding state) {actor : Actor} (stepped : Streams.step state actor = some target) :
    Holding target := by
  rcases holding with ⟨feeding, short⟩
  have move := Move.of_step stepped
  have goesOn := move.isFeeding_after feeding short (healthy.step stepped).sound.intact
  apply And.intro goesOn
  apply Nat.pos_of_ne_zero
  intro enough
  have ahead := (move.ahead_eq goesOn short first).trans (healthy.predicted feeding short)
  have nothing : target.child.writtenBefore first 0 target.input = [] := by
    cases target.child with
    | running program => exact Program.writtenBefore_zero first program _
    | exited status => rfl
  rw [State.ahead, enough, nothing, List.length_nil, Nat.add_zero] at ahead
  have fit := (target.output first).fits
  rw [ahead] at fit
  exact absurd overfull (Nat.not_lt_of_le fit)

theorem not_terminates_of_early
    (overfull : capacities.output first <
      (program.writtenBefore first (data.length - capacities.stdin) data).length)
    (readsAll : program.ReadsAll data) :
    ¬ Terminates Streams.step State.Finished (start capacities data (first :: later) program) := by
  apply not_terminates_of_invariant
    (J := fun state => Healthy program data first later state ∧ Holding state)
  · rintro state actor target ⟨healthy, holding⟩ stepped
    exact ⟨healthy.step stepped, healthy.holding_of_overfull overfull holding stepped⟩
  · rintro state ⟨_, feeding, _⟩ finished
    rcases phase_of_finished finished with ⟨status, phase⟩ | phase
    · rw [phase] at feeding
      cases feeding
    · rw [phase] at feeding
      cases feeding
  · apply And.intro (healthy_start capacities later readsAll)
    apply And.intro rfl
    apply Nat.pos_of_ne_zero
    intro enough
    have none : data.length - capacities.stdin = 0 := enough
    rw [none, Program.writtenBefore_zero] at overfull
    cases overfull

/-- The call comes to an end exactly if the outputs fit. -/
theorem terminates_iff_fits (readsAll : program.ReadsAll data) :
    Terminates Streams.step State.Finished (start capacities data (first :: later) program) ↔
      Fits capacities program data first := by
  constructor
  · intro terminates
    constructor
    · intro stream apart
      by_contra overfull
      exact not_terminates_of_overfull apart (Nat.lt_of_not_le overfull) readsAll terminates
    · by_contra overfull
      exact not_terminates_of_early (Nat.lt_of_not_le overfull) readsAll terminates
  · intro fits
    exact terminates_of_fits fits readsAll

/-- A parent that has finished knows the status and all of the streams that it reads. -/
theorem finished_of_reachable (readsAll : program.ReadsAll data)
    (reachable : Reachable Streams.step (start capacities data (first :: later) program) state)
    (finished : state.Finished) :
    state.parent = .done (program.status data) ∧
      ∀ stream ∈ first :: later, state.received stream = program.written stream data := by
  have healthy : Healthy program data first later state :=
    reachable.preserves (fun _ _ _ healthy stepped => healthy.step stepped)
      (healthy_start capacities later readsAll)
  have sound := healthy.sound
  rcases phase_of_finished finished with ⟨status, phase⟩ | phase
  · have exited := sound.reported status phase
    have isStatus := sound.status
    rw [exited] at isStatus
    apply And.intro (phase.trans (congrArg Parent.done isStatus))
    intro stream member
    rcases healthy.orderly.drained stream member with left | ⟨_, empty⟩
    · rw [phase] at left
      cases left
    · have conserved := sound.conserved stream
      rw [State.pending, exited, empty, Child.written, List.append_nil, List.append_nil]
        at conserved
      exact conserved
  · exact absurd phase sound.intact

end

end MultipassWebui.Streams
