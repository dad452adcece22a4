import MultipassWebui.Terminals.Messages
import MultipassWebui.Terminals.Session
import MultipassWebui.Transition.Run

/-!
# Replay to a subscriber

One subscriber joins the output of a session while the reader thread goes on.
The reader appends a chunk to the scrollback and broadcasts it in two steps;
the subscriber asks for the stream, copies the scrollback and transmits the
copy, and the stream takes effect at some point after it was asked for.
Messages reach the browser in the order in which they were sent.  The output so
far and the place of the copy in it are recorded for the statements only.
-/

namespace MultipassWebui.Terminals.Replay

open MultipassWebui.Effect
open MultipassWebui.Encoding
open MultipassWebui.Transition

/-- Where the reader thread stands. -/
inductive Writer where
  | idle
  /-- The chunk is in the scrollback and not broadcast yet. -/
  | appended (chunk : Bytes)
  | crashed
  deriving DecidableEq, Repr

/-- The chunk that the thread holds between its two steps. -/
def Writer.held : Writer → Option Bytes
  | .appended chunk => some chunk
  | _ => none

/-- Where `subscribed` stands. -/
inductive Subscriber where
  | connecting
  /-- `stream_from` was called. -/
  | streaming
  /-- The scrollback was copied. -/
  | copied (scrollback : Bytes)
  | transmitted
  deriving DecidableEq, Repr

structure State where
  session : Session
  writer : Writer
  subscriber : Subscriber
  /-- The stream of the subscriber has taken effect. -/
  registered : Bool
  /-- Messages that were sent and not received. -/
  wire : List Message
  browser : Browser
  /-- Everything the reader thread has read. -/
  output : Bytes
  /-- The part of the output that was read when the scrollback was copied, and
  the place in it where the copy starts. -/
  copiedAt : Nat
  start : Nat

inductive Action where
  | append (chunk : Bytes)
  | broadcast
  | streamFrom
  | register
  | copy
  | transmit
  | deliver

/-- `append_scrollback`; an exception ends the thread. -/
def append (state : State) (chunk : Bytes) : State :=
  match Session.appendScrollback chunk state.session with
  | (.ok _, session) =>
      { state with session := session, writer := .appended chunk, output := state.output ++ chunk }
  | (.error _, session) =>
      { state with session := session, writer := .crashed, output := state.output ++ chunk }

/-- `broadcast_output`: the message is sent to a subscriber whose stream has
taken effect. -/
def broadcast (state : State) (chunk : Bytes) : State :=
  { state with
    writer := .idle
    wire := if state.registered then state.wire ++ [outputMessage chunk] else state.wire }

/-- `@session.scrollback.dup` -/
def copy (state : State) : State :=
  { state with
    subscriber := .copied state.session.scrollback
    copiedAt := state.output.length
    start := state.output.length - state.session.scrollback.length }

def next : Step State Action
  | state, .append chunk => if state.writer = .idle then some (append state chunk) else none
  | state, .broadcast =>
      match state.writer with
      | .appended chunk => some (broadcast state chunk)
      | _ => none
  | state, .streamFrom =>
      if state.subscriber = .connecting then some { state with subscriber := .streaming } else none
  | state, .register =>
      if state.subscriber ≠ .connecting ∧ state.registered = false then
        some { state with registered := true }
      else none
  | state, .copy => if state.subscriber = .streaming then some (copy state) else none
  | state, .transmit =>
      match state.subscriber with
      | .copied scrollback =>
          some { state with
            subscriber := .transmitted
            wire := state.wire ++ [scrollbackMessage scrollback] }
      | _ => none
  | state, .deliver =>
      match state.wire with
      | [] => none
      | message :: rest =>
          some { state with wire := rest, browser := state.browser.handleMessage message }

/-- A session that was just started, and a browser that may still show what an
earlier connection wrote. -/
def initial (session : Session) (browser : Browser) : State where
  session := { session with scrollback := [] }
  writer := .idle
  subscriber := .connecting
  registered := false
  wire := []
  browser := browser
  output := []
  copiedAt := 0
  start := 0

/-! ## Neither lost nor repeated -/

/-- The terminal was reset for the replay. -/
def Replayed (state : State) : Prop :=
  state.subscriber = .transmitted ∧ ∀ message ∈ state.wire, message.type = .output

/-- The stream has taken effect and nothing is under way. -/
def Settled (state : State) : Prop :=
  state.registered = true ∧ state.wire = [] ∧ state.writer.held = none

/-- After the reset the browser shows the output from the place where the
replayed scrollback starts: a first part of it at any time, and all of it when
nothing is under way. -/
def Faithful (state : State) : Prop :=
  Replayed state →
    state.browser.shown <+: state.output.drop state.start ∧
      (Settled state → state.browser.shown = state.output.drop state.start)

/-- The scrollback was copied. -/
def Copied (state : State) : Prop :=
  state.subscriber ≠ .connecting ∧ state.subscriber ≠ .streaming

/-- The chunk that is appended and not broadcast, if it is not in the copy. -/
def unsent (state : State) : Bytes :=
  match state.writer.held with
  | some chunk => if state.copiedAt < state.output.length then chunk else []
  | none => []

/-- Once the scrollback is copied, a chunk that is broadcast reaches the reset
terminal precisely if it is not in the copy, and no chunk exceeds the cap. -/
def Orderly (state : State) : Action → Prop
  | .append chunk =>
      Copied state → (state.session.scrollback ++ chunk).length ≤ SCROLLBACK_CAP
  | .broadcast => Copied state → ∀ chunk ∈ state.writer.held,
      unsent state =
        if state.registered = true ∧ state.subscriber = .transmitted then chunk else []
  | _ => True

instance (state : State) : Decidable (Faithful state) :=
  inferInstanceAs (Decidable (_ ∧ (∀ message ∈ state.wire, _) → _ ∧ (_ ∧ _ ∧ _ → _)))

instance (state : State) (action : Action) : Decidable (Orderly state action) :=
  match action with
  | .append chunk => inferInstanceAs
      (Decidable (_ ∧ _ → (state.session.scrollback ++ chunk).length ≤ SCROLLBACK_CAP))
  | .broadcast => inferInstanceAs (Decidable (_ ∧ _ → ∀ chunk ∈ state.writer.held, unsent state =
      if state.registered = true ∧ state.subscriber = .transmitted then chunk else []))
  | .streamFrom | .register | .copy | .transmit | .deliver => isTrue trivial

/-- What the browser will show once the messages on the wire have arrived. -/
def arrived (state : State) : Bytes := (state.wire.foldl Browser.handleMessage state.browser).shown

/-- The copy is a last part of the output, and it is continued by the wire. -/
structure Consistent (state : State) : Prop where
  scrollback : state.session.scrollback <:+ state.output
  bounds : Copied state → state.start ≤ state.copiedAt ∧ state.copiedAt ≤ state.output.length
  copied : ∀ copy, state.subscriber = .copied copy →
    copy ++ unsent state = state.output.drop state.start
  transmitted : state.subscriber = .transmitted →
    arrived state ++ unsent state = state.output.drop state.start

theorem consistent_initial (session : Session) (browser : Browser) :
    Consistent (initial session browser) where
  scrollback := List.suffix_refl []
  bounds copied := absurd rfl copied.1
  copied _ equal := by cases equal
  transmitted equal := by cases equal

/-- Output messages only add to what is shown. -/
theorem shown_initial_foldl {wire : List Message} (browser : Browser)
    (outputs : ∀ message ∈ wire, message.type = .output) :
    browser.shown <+: (wire.foldl Browser.handleMessage browser).shown := by
  induction wire generalizing browser with
  | nil => exact List.prefix_refl _
  | cons message rest ih =>
      have here : browser.shown <+: (browser.handleMessage message).shown := by
        rw [Browser.handleMessage, outputs message List.mem_cons_self]
        cases Base64.forgivingDecode message.data with
        | none => exact List.prefix_refl _
        | some bytes => exact List.prefix_append _ _
      exact here.trans (ih _ fun other member => outputs other (List.mem_cons_of_mem _ member))

theorem Consistent.faithful {state : State} (consistent : Consistent state) : Faithful state := by
  rintro ⟨transmitted, outputs⟩
  have whole := consistent.transmitted transmitted
  constructor
  · rw [← whole]
    exact (shown_initial_foldl state.browser outputs).trans (List.prefix_append _ _)
  · rintro ⟨_, emptyWire, nothingHeld⟩
    rw [unsent, nothingHeld, List.append_nil, arrived, emptyWire] at whole
    exact whole

/-! ## One step -/

section Steps

variable {state : State} {chunk : Bytes}

/-- Whether it raises or not, an append extends the scrollback and the output. -/
theorem append_eq (state : State) (chunk : Bytes) :
    ∃ writer, append state chunk =
        { state with
          session := state.session.appended chunk
          writer := writer
          output := state.output ++ chunk } ∧
      ((state.session.scrollback ++ chunk).length ≤ SCROLLBACK_CAP →
        writer = .appended chunk) := by
  by_cases fits : (state.session.scrollback ++ chunk).length ≤ SCROLLBACK_CAP
  · refine ⟨.appended chunk, ?_, fun _ => rfl⟩
    rw [append, Session.appendScrollback_of_le fits]
  · refine ⟨.crashed, ?_, fun isFit => absurd isFit fits⟩
    rw [append, Session.appendScrollback_of_lt (Nat.lt_of_not_le fits)]

theorem copied_of_copy {scrollback : Bytes} (copy : state.subscriber = .copied scrollback) :
    Copied state := by
  simp [Copied, copy]

theorem copied_of_transmitted (transmitted : state.subscriber = .transmitted) : Copied state := by
  simp [Copied, transmitted]

theorem arrived_broadcast (registered : state.registered = true) :
    arrived (broadcast state chunk) = arrived state ++ chunk := by
  simp [arrived, broadcast, registered]

theorem arrived_broadcast_of_not (notYet : state.registered = false) :
    arrived (broadcast state chunk) = arrived state := by
  simp [arrived, broadcast, notYet]

theorem unsent_of_idle (idle : state.writer = .idle) : unsent state = [] := by
  rw [unsent, idle]
  rfl

theorem held_of_appended (appended : state.writer = .appended chunk) :
    chunk ∈ state.writer.held := by
  rw [appended]
  rfl

theorem Consistent.append (consistent : Consistent state) (idle : state.writer = .idle)
    (orderly : Orderly state (.append chunk)) : Consistent (append state chunk) := by
  rcases append_eq state chunk with ⟨writer, appended, fitting⟩
  have nothing := unsent_of_idle idle
  rw [appended]
  -- A chunk that is appended after the copy is unsent.
  have unsentNow : Copied state →
      unsent { state with
        session := state.session.appended chunk
        writer := writer
        output := state.output ++ chunk } = chunk := by
    intro copied
    rw [fitting (orderly copied)]
    have bound := (consistent.bounds copied).2
    cases chunk with
    | nil => simp [unsent, Writer.held]
    | cons byte rest =>
        simp only [unsent, Writer.held, List.length_append, List.length_cons]
        rw [if_pos (by omega)]
  have extended : Copied state →
      (state.output ++ chunk).drop state.start = state.output.drop state.start ++ chunk := by
    intro copied
    have bounds := consistent.bounds copied
    exact List.drop_append_of_le_length (Nat.le_trans bounds.1 bounds.2)
  constructor
  · rcases consistent.scrollback with ⟨before, split⟩
    exact ⟨before, by rw [← split, List.append_assoc]; rfl⟩
  · intro copied
    have bounds := consistent.bounds copied
    rw [List.length_append]
    exact ⟨bounds.1, Nat.le_trans bounds.2 (Nat.le_add_right _ _)⟩
  · intro copy isCopy
    have copied : Copied state := copied_of_copy isCopy
    have whole := consistent.copied copy isCopy
    rw [nothing, List.append_nil] at whole
    rw [unsentNow copied, extended copied, ← whole]
  · intro transmitted
    have copied : Copied state := copied_of_transmitted transmitted
    have whole := consistent.transmitted transmitted
    rw [nothing, List.append_nil] at whole
    rw [unsentNow copied, extended copied, ← whole]
    rfl

theorem Consistent.broadcast (consistent : Consistent state)
    (appended : state.writer = .appended chunk) (orderly : Orderly state .broadcast) :
    Consistent (broadcast state chunk) := by
  have nothing : unsent (Replay.broadcast state chunk) = [] := unsent_of_idle rfl
  constructor
  · exact consistent.scrollback
  · exact consistent.bounds
  · intro copy isCopy
    have copying : state.subscriber = .copied copy := isCopy
    have expected := orderly (copied_of_copy copying) chunk (held_of_appended appended)
    simp only [copying, reduceCtorEq, and_false, if_false] at expected
    have whole := consistent.copied copy copying
    rw [expected] at whole
    rw [nothing]
    exact whole
  · intro isTransmitted
    have transmitted : state.subscriber = .transmitted := isTransmitted
    have expected := orderly (copied_of_transmitted transmitted) chunk
      (held_of_appended appended)
    simp only [transmitted, and_true] at expected
    have whole := consistent.transmitted transmitted
    rw [nothing, List.append_nil]
    cases registered : state.registered with
    | true =>
        rw [expected, if_pos registered] at whole
        rw [arrived_broadcast registered]
        exact whole
    | false =>
        rw [registered, if_neg Bool.false_ne_true] at expected
        rw [expected, List.append_nil] at whole
        rw [arrived_broadcast_of_not registered]
        exact whole

theorem Consistent.copy (consistent : Consistent state) : Consistent (copy state) := by
  have place := List.suffix_iff_eq_drop.mp consistent.scrollback
  have nothing : unsent (Replay.copy state) = [] := by
    unfold unsent Replay.copy
    cases state.writer <;> simp [Writer.held]
  constructor
  · exact consistent.scrollback
  · intro _
    exact ⟨Nat.sub_le _ _, Nat.le_refl _⟩
  · intro copy isCopy
    cases isCopy
    rw [nothing, List.append_nil]
    exact place
  · intro transmitted
    cases transmitted

end Steps

theorem Consistent.next {state target : State} {action : Action} (consistent : Consistent state)
    (orderly : Orderly state action) (step : next state action = some target) :
    Consistent target := by
  cases action with
  | append chunk =>
      simp only [Replay.next] at step
      split_ifs at step with idle
      cases step
      exact consistent.append idle orderly
  | broadcast =>
      simp only [Replay.next] at step
      split at step
      · rename_i chunk appended
        cases step
        exact consistent.broadcast appended orderly
      · cases step
  | streamFrom =>
      simp only [Replay.next] at step
      split_ifs at step with connecting
      cases step
      constructor
      · exact consistent.scrollback
      · intro copied
        exact absurd rfl copied.2
      · intro copy isCopy
        cases isCopy
      · intro transmitted
        cases transmitted
  | register =>
      simp only [Replay.next] at step
      split_ifs at step with waiting
      cases step
      exact ⟨consistent.scrollback, consistent.bounds, consistent.copied, consistent.transmitted⟩
  | copy =>
      simp only [Replay.next] at step
      split_ifs at step with streaming
      cases step
      exact consistent.copy
  | transmit =>
      simp only [Replay.next] at step
      split at step
      · rename_i scrollback copied
        cases step
        constructor
        · exact consistent.scrollback
        · intro _
          exact consistent.bounds (copied_of_copy copied)
        · intro copy isCopy
          cases isCopy
        · intro _
          have whole := consistent.copied scrollback copied
          rw [← whole]
          simp [arrived, unsent]
      · cases step
  | deliver =>
      simp only [Replay.next] at step
      split at step
      · cases step
      · rename_i message rest wire
        cases step
        constructor
        · exact consistent.scrollback
        · exact consistent.bounds
        · exact consistent.copied
        · intro transmitted
          have whole := consistent.transmitted transmitted
          rw [arrived, wire] at whole
          exact whole

/-- In every interleaving of orderly steps the replay neither loses nor repeats
output. -/
theorem faithful_of_orderly {session : Session} {browser : Browser} {actions : List Action}
    (orderly : Throughout next Orderly (initial session browser) actions) :
    Always next Faithful (initial session browser) actions := by
  have always : Always next Consistent (initial session browser) actions := by
    apply always_of_throughout (C := Orderly)
    · intro state action target consistent condition step
      exact consistent.next condition step
    · exact consistent_initial session browser
    · exact orderly
  exact always.imp fun _ consistent => consistent.faithful

/-! ## Interleavings -/

def webSession : Session := (Session.new "web" "a1" 0).spawned

/-- A chunk before and a chunk after a reconnect. -/
def quietReconnect : List Action :=
  [.append [0x24], .broadcast, .streamFrom, .register, .copy, .transmit, .append [0x6c],
    .deliver, .broadcast, .deliver]

theorem faithful_of_orderly_quiet :
    Always next Faithful (initial webSession ⟨[0x3f]⟩) quietReconnect :=
  faithful_of_orderly (by decide)

/-- The copy is taken between the append and the broadcast of a chunk. -/
def repeated : List Action :=
  [.append [0x24], .streamFrom, .register, .copy, .transmit, .broadcast, .deliver, .deliver]

/-- A chunk is read and broadcast before the stream takes effect. -/
def missed : List Action :=
  [.streamFrom, .copy, .transmit, .append [0x24], .broadcast, .register, .deliver]

/-- A chunk is broadcast between the copy and its transmission. -/
def erased : List Action :=
  [.streamFrom, .register, .copy, .append [0x24], .broadcast, .transmit, .deliver, .deliver]

/-- One interleaving shows a chunk twice and two others lose one. -/
theorem repeated_missed_not_faithful :
    ¬ Always next Faithful (initial webSession ⟨[]⟩) repeated ∧
      ¬ Always next Faithful (initial webSession ⟨[]⟩) missed ∧
      ¬ Always next Faithful (initial webSession ⟨[]⟩) erased := by
  decide

end MultipassWebui.Terminals.Replay
