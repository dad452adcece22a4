import Mathlib.Logic.Function.Basic
import MultipassWebui.Terminals.Replay

/-!
# Many viewers of one shell

Any number of browsers watch the output of a session; each of them joins, leaves
and joins again whenever it likes.  What one of them is shown depends on the
reader thread and on its own connection, so it is shown the output faithfully
whatever the others do, and two that are up to date agree.
-/

namespace MultipassWebui.Terminals.Replay

open MultipassWebui.Effect
open MultipassWebui.Encoding
open MultipassWebui.Transition

universe u

/-- A browser and its connection, apart from the session. -/
structure Viewer where
  subscriber : Subscriber
  registered : Bool
  wire : List Message
  browser : Browser
  copiedAt : Nat
  start : Nat

/-- A session and everyone who may watch it. -/
structure Crowd (κ : Type u) where
  session : Session
  writer : Writer
  output : Bytes
  viewers : κ → Viewer

/-- What a viewer's connection does. -/
inductive ViewerAction where
  | streamFrom
  | register
  | copy
  | transmit
  | deliver

def ViewerAction.action : ViewerAction → Action
  | .streamFrom => .streamFrom
  | .register => .register
  | .copy => .copy
  | .transmit => .transmit
  | .deliver => .deliver

inductive CrowdAction (κ : Type u) where
  | append (chunk : Bytes)
  | broadcast
  | viewer (key : κ) (action : ViewerAction)
  /-- The connection of a viewer ends; its terminal stays as it is. -/
  | leave (key : κ)

/-- The viewer of a state of one session and one viewer. -/
def Viewer.ofState (state : State) : Viewer :=
  ⟨state.subscriber, state.registered, state.wire, state.browser, state.copiedAt, state.start⟩

/-- Nothing of the connection is left. -/
def Viewer.gone (viewer : Viewer) : Viewer :=
  { viewer with subscriber := .connecting, registered := false, wire := [] }

namespace Crowd

variable {κ : Type u}

/-- The session and one of its viewers. -/
def view (crowd : Crowd κ) (key : κ) : State where
  session := crowd.session
  writer := crowd.writer
  subscriber := (crowd.viewers key).subscriber
  registered := (crowd.viewers key).registered
  wire := (crowd.viewers key).wire
  browser := (crowd.viewers key).browser
  output := crowd.output
  copiedAt := (crowd.viewers key).copiedAt
  start := (crowd.viewers key).start

/-- `append_scrollback`; an exception ends the thread. -/
def append (crowd : Crowd κ) (chunk : Bytes) : Crowd κ :=
  match Session.appendScrollback chunk crowd.session with
  | (.ok _, session) =>
      { crowd with session := session, writer := .appended chunk, output := crowd.output ++ chunk }
  | (.error _, session) =>
      { crowd with session := session, writer := .crashed, output := crowd.output ++ chunk }

/-- `broadcast_output`, to everyone whose stream has taken effect. -/
def broadcast (crowd : Crowd κ) (chunk : Bytes) : Crowd κ :=
  { crowd with
    writer := .idle
    viewers := fun key =>
      let viewer := crowd.viewers key
      { viewer with
        wire := if viewer.registered then viewer.wire ++ [outputMessage chunk] else viewer.wire } }

/-- A session that was just started, and browsers that are not connected to it. -/
def initial (session : Session) (browsers : κ → Browser) : Crowd κ where
  session := { session with scrollback := [] }
  writer := .idle
  output := []
  viewers key := ⟨.connecting, false, [], browsers key, 0, 0⟩

section

variable [DecidableEq κ]

def setViewer (crowd : Crowd κ) (key : κ) (viewer : Viewer) : Crowd κ :=
  { crowd with viewers := Function.update crowd.viewers key viewer }

def next : Step (Crowd κ) (CrowdAction κ)
  | crowd, .append chunk => if crowd.writer = .idle then some (crowd.append chunk) else none
  | crowd, .broadcast =>
      match crowd.writer with
      | .appended chunk => some (crowd.broadcast chunk)
      | _ => none
  | crowd, .viewer key action =>
      (Replay.next (crowd.view key) action.action).map fun state =>
        crowd.setViewer key (Viewer.ofState state)
  | crowd, .leave key => some (crowd.setViewer key (crowd.viewers key).gone)

end

end Crowd

/-! ## One viewer at a time -/

section

variable {κ : Type u} {crowd target : Crowd κ} {key : κ}

theorem view_append (crowd : Crowd κ) (key : κ) (chunk : Bytes) :
    (crowd.append chunk).view key = append (crowd.view key) chunk := by
  have same : (crowd.view key).session = crowd.session := rfl
  unfold Crowd.append append
  rw [same]
  cases Session.appendScrollback chunk crowd.session with
  | mk outcome session =>
      cases outcome with
      | ok _ => rfl
      | error _ => rfl

theorem view_broadcast (crowd : Crowd κ) (key : κ) (chunk : Bytes) :
    (crowd.broadcast chunk).view key = broadcast (crowd.view key) chunk :=
  rfl

/-- Two viewers that are up to date show the same output, one of them from an earlier
place on. -/
theorem suffix_of_settled {other : κ} (here : Faithful (crowd.view key))
    (there : Faithful (crowd.view other)) (replayed : Replayed (crowd.view key))
    (otherReplayed : Replayed (crowd.view other)) (settled : Settled (crowd.view key))
    (otherSettled : Settled (crowd.view other)) :
    (crowd.view key).browser.shown <:+ (crowd.view other).browser.shown ∨
      (crowd.view other).browser.shown <:+ (crowd.view key).browser.shown := by
  rw [(here replayed).2 settled, (there otherReplayed).2 otherSettled]
  have output : (crowd.view other).output = (crowd.view key).output := rfl
  rw [output]
  exact List.suffix_or_suffix_of_suffix (List.drop_suffix _ _) (List.drop_suffix _ _)

variable [DecidableEq κ]

theorem view_setViewer_self (crowd : Crowd κ) (key : κ) {state : State}
    (session : state.session = crowd.session) (writer : state.writer = crowd.writer)
    (output : state.output = crowd.output) :
    (crowd.setViewer key (Viewer.ofState state)).view key = state := by
  rw [Crowd.view, Crowd.setViewer]
  simp only [Function.update_self, Viewer.ofState, ← session, ← writer, ← output]

theorem view_setViewer_of_ne {other : κ} (different : other ≠ key) (viewer : Viewer) :
    (crowd.setViewer key viewer).view other = crowd.view other := by
  rw [Crowd.view, Crowd.setViewer, Crowd.view]
  simp only [Function.update_of_ne different]

/-- A connection changes neither the session nor the reader thread. -/
theorem shared_of_next {state after : State} {action : ViewerAction}
    (step : next state action.action = some after) :
    after.session = state.session ∧ after.writer = state.writer ∧ after.output = state.output := by
  cases action with
  | streamFrom =>
      simp only [ViewerAction.action, next] at step
      split_ifs at step
      cases step
      exact ⟨rfl, rfl, rfl⟩
  | register =>
      simp only [ViewerAction.action, next] at step
      split_ifs at step
      cases step
      exact ⟨rfl, rfl, rfl⟩
  | copy =>
      simp only [ViewerAction.action, next] at step
      split_ifs at step
      cases step
      exact ⟨rfl, rfl, rfl⟩
  | transmit =>
      simp only [ViewerAction.action, next] at step
      split at step
      · cases step
        exact ⟨rfl, rfl, rfl⟩
      · cases step
  | deliver =>
      simp only [ViewerAction.action, next] at step
      split at step
      · cases step
      · cases step
        exact ⟨rfl, rfl, rfl⟩

theorem Consistent.gone (consistent : Consistent (crowd.view key)) :
    Consistent ((crowd.setViewer key (crowd.viewers key).gone).view key) := by
  have connecting : ((crowd.setViewer key (crowd.viewers key).gone).view key).subscriber =
      .connecting := by
    simp [Crowd.view, Crowd.setViewer, Viewer.gone]
  constructor
  · exact consistent.scrollback
  · intro copied
    exact absurd connecting copied.1
  · intro copy isCopy
    rw [connecting] at isCopy
    cases isCopy
  · intro transmitted
    rw [connecting] at transmitted
    cases transmitted

/-- The step of the reader thread is orderly for one of the viewers. -/
def OrderlyFor (key : κ) (crowd : Crowd κ) : CrowdAction κ → Prop
  | .append chunk => Orderly (crowd.view key) (.append chunk)
  | .broadcast => Orderly (crowd.view key) .broadcast
  | .viewer _ _ => True
  | .leave _ => True

instance decidableOrderlyFor (key : κ) (crowd : Crowd κ) (action : CrowdAction κ) :
    Decidable (OrderlyFor key crowd action) :=
  match action with
  | .append chunk => inferInstanceAs (Decidable (Orderly (crowd.view key) (.append chunk)))
  | .broadcast => inferInstanceAs (Decidable (Orderly (crowd.view key) .broadcast))
  | .viewer _ _ | .leave _ => isTrue trivial

/-- A step of the crowd is a step of the viewer, or none of its business. -/
theorem Consistent.crowd_next {action : CrowdAction κ} (consistent : Consistent (crowd.view key))
    (orderly : OrderlyFor key crowd action) (step : Crowd.next crowd action = some target) :
    Consistent (target.view key) := by
  cases action with
  | append chunk =>
      simp only [Crowd.next] at step
      split_ifs at step with idle
      cases step
      rw [view_append]
      exact consistent.append idle orderly
  | broadcast =>
      simp only [Crowd.next] at step
      split at step
      · rename_i chunk appended
        cases step
        rw [view_broadcast]
        exact consistent.broadcast appended orderly
      · cases step
  | viewer other action =>
      rcases Option.map_eq_some_iff.mp step with ⟨state, viewerStep, rfl⟩
      by_cases same : key = other
      · subst same
        rcases shared_of_next viewerStep with ⟨session, writer, output⟩
        rw [view_setViewer_self crowd key session writer output]
        have calm : Orderly (crowd.view key) action.action := by
          cases action with
          | streamFrom | register | copy | transmit | deliver => trivial
        exact consistent.next calm viewerStep
      · rw [view_setViewer_of_ne same]
        exact consistent
  | leave other =>
      cases step
      by_cases same : key = other
      · subst same
        exact consistent.gone
      · rw [view_setViewer_of_ne same]
        exact consistent

end

/-- In every interleaving the viewers for whom the steps of the reader thread are
orderly are shown the output faithfully, whatever the others do, and those that are
up to date agree. -/
theorem viewers_of_run {κ : Type u} [DecidableEq κ] {session : Session} {browsers : κ → Browser}
    {actions : List (CrowdAction κ)} {viewers : Set κ}
    (orderly : ∀ key ∈ viewers,
      Throughout Crowd.next (OrderlyFor key) (Crowd.initial session browsers) actions) :
    Always Crowd.next
      (fun crowd => (∀ key ∈ viewers, Faithful (crowd.view key)) ∧
        ∀ first ∈ viewers, ∀ second ∈ viewers,
          Replayed (crowd.view first) → Replayed (crowd.view second) →
          Settled (crowd.view first) → Settled (crowd.view second) →
          (crowd.view first).browser.shown <:+ (crowd.view second).browser.shown ∨
            (crowd.view second).browser.shown <:+ (crowd.view first).browser.shown)
      (Crowd.initial session browsers) actions := by
  have each : Always Crowd.next (fun crowd => ∀ key ∈ viewers, Consistent (crowd.view key))
      (Crowd.initial session browsers) actions := by
    apply always_of_throughout
      (C := fun crowd action => ∀ key ∈ viewers, OrderlyFor key crowd action)
    · intro crowd action target consistent calm step key member
      exact (consistent key member).crowd_next (calm key member) step
    · intro key _
      exact consistent_initial session (browsers key)
    · exact Throughout.forall orderly
  apply each.imp
  intro crowd consistent
  have faithful : ∀ key ∈ viewers, Faithful (crowd.view key) :=
    fun key member => (consistent key member).faithful
  refine ⟨faithful, ?_⟩
  intro first isFirst second isSecond replayed secondReplayed settled secondSettled
  exact suffix_of_settled (faithful first isFirst) (faithful second isSecond) replayed
    secondReplayed settled secondSettled

/-- Two browsers join one after the other, and a third one comes and goes. -/
def threeBrowsers : List (CrowdAction Nat) :=
  [.append [0x24], .broadcast, .viewer 0 .streamFrom, .viewer 0 .register, .viewer 0 .copy,
    .viewer 0 .transmit, .viewer 2 .streamFrom, .append [0x6c], .viewer 2 .register, .broadcast,
    .leave 2, .viewer 1 .streamFrom, .viewer 1 .register, .viewer 1 .copy, .viewer 1 .transmit,
    .viewer 0 .deliver, .append [0x73], .broadcast, .viewer 0 .deliver, .viewer 1 .deliver,
    .viewer 0 .deliver, .viewer 1 .deliver]

theorem viewers_of_run_threeBrowsers :
    Always Crowd.next
      (fun crowd => (∀ key ∈ ({0, 1} : Set Nat), Faithful (crowd.view key)) ∧
        ∀ first ∈ ({0, 1} : Set Nat), ∀ second ∈ ({0, 1} : Set Nat),
          Replayed (crowd.view first) → Replayed (crowd.view second) →
          Settled (crowd.view first) → Settled (crowd.view second) →
          (crowd.view first).browser.shown <:+ (crowd.view second).browser.shown ∨
            (crowd.view second).browser.shown <:+ (crowd.view first).browser.shown)
      (Crowd.initial webSession fun _ => ⟨[]⟩) threeBrowsers := by
  apply viewers_of_run
  rintro key (rfl | rfl)
  · decide
  · decide

end MultipassWebui.Terminals.Replay
