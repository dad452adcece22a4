import MultipassWebui.Cable.Access
import MultipassWebui.Transition.Journal

/-!
# What reaches a terminal

Any number of clients write to the terminals over their cables while sessions
are opened, read, killed and reaped.  The input and the window size of a terminal
are what the messages make of them that were handed to it, in their order: none
is lost or repeated, and none reaches another terminal.
-/

namespace MultipassWebui.Cable

open MultipassWebui.Collections
open MultipassWebui.Effect
open MultipassWebui.Encoding
open MultipassWebui.Terminals
open MultipassWebui.Transition

/-- What the shell behind a terminal sees of its user. -/
structure Keyboard where
  input : Bytes
  winsize : Winsize
  deriving DecidableEq, Repr

/-- A message sets the window size or is typed. -/
def Keyboard.enter (keyboard : Keyboard) (bytes : Bytes) : Keyboard :=
  if Session.isResize bytes true then
    { keyboard with winsize := ⟨Session.wordAt bytes 3, Session.wordAt bytes 1⟩ }
  else { keyboard with input := keyboard.input ++ bytes }

/-- The side of a terminal that its clients write to. -/
def keyboardOf (session : Session) : Option Keyboard :=
  session.master.map fun master => ⟨master.input, master.winsize⟩

/-- The keyboard of a session by its reference. -/
def keyboardAt (terminals : Server) (ref : SessionRef) : Option Keyboard :=
  terminals.objects[ref]?.bind keyboardOf

/-- The bytes in the payload of a message. -/
def carried (payload : Json) : Option Bytes :=
  match payload.field? "data" with
  | some (.string text) => Base64.strictDecode text.toList
  | _ => none

/-- The message that a step hands to a terminal, if it is open. -/
def handed (ref : SessionRef) (system : System) : Action → List Bytes
  | .receive connection identifier payload =>
      let channel := (system.connections.get? connection).bind fun client =>
        client.subscriptions.get? identifier
      let isOpen := (system.terminals.objects[ref]?).any fun session => session.Open
      if channel.map Subscription.session = some ref ∧ isOpen then (carried payload).toList else []
  | _ => []

/-! ## One message -/

section

variable {session : Session} {payload : Json}

theorem keyboardOf_write (opened : session.Open) (bytes : Bytes) :
    keyboardOf (Session.write bytes true session).2 =
      (keyboardOf session).map fun keyboard => keyboard.enter bytes := by
  rcases opened with ⟨alive, master, isMaster, descriptor⟩
  cases resize : Session.isResize bytes true with
  | true =>
      rw [Session.write_resize alive isMaster descriptor resize]
      simp [keyboardOf, Session.withMaster, isMaster, Keyboard.enter, resize]
  | false =>
      rw [Session.write_plain alive isMaster descriptor resize]
      simp [keyboardOf, Session.withMaster, isMaster, Keyboard.enter, resize]

theorem carried_eq_some_iff {bytes : Bytes} : carried payload = some bytes ↔
    ∃ text, payload.field? "data" = some (.string text) ∧
      Base64.strictDecode text.toList = some bytes := by
  unfold carried
  constructor
  · intro found
    split at found
    · rename_i text isText
      exact ⟨text, isText, found⟩
    · cases found
  · rintro ⟨text, isText, decoded⟩
    rw [isText]
    exact decoded

/-- A message that carries nothing leaves the session alone. -/
theorem receiveOn_of_carried_none (nothing : carried payload = none) :
    (TerminalChannel.receiveOn payload session).2 = session := by
  cases found : payload.field? "data" with
  | some data =>
      cases data with
      | string text =>
          have notStrict : ¬ TerminalChannel.StrictData payload := by
            rintro ⟨other, bytes, isData, encoded⟩
            have decoded := Base64.strictDecode_eq_some_iff.mpr encoded
            rw [carried_eq_some_iff.mpr ⟨other, isData, decoded⟩] at nothing
            cases nothing
          rw [TerminalChannel.receiveOn_of_text found notStrict]
      | _ =>
          rw [TerminalChannel.receiveOn_of_not_text found]
          intro text same
          cases same
  | none =>
      by_cases isObject : ∃ fields, payload = .object fields
      · rcases isObject with ⟨fields, rfl⟩
        rw [TerminalChannel.receiveOn_of_absent found]
      · rcases TerminalChannel.receiveOn_of_not_object session
          (fun fields same => isObject ⟨fields, same⟩) with ⟨error, raised⟩
        rw [raised]

theorem keyboardOf_receiveOn (opened : session.Open) :
    keyboardOf (TerminalChannel.receiveOn payload session).2 =
      (keyboardOf session).map fun keyboard =>
        replay Keyboard.enter keyboard (carried payload).toList := by
  cases bytes : carried payload with
  | none =>
      rw [receiveOn_of_carried_none bytes]
      cases keyboardOf session with
      | none => rfl
      | some keyboard => rfl
  | some bytes =>
      rcases carried_eq_some_iff.mp bytes with ⟨text, isText, decoded⟩
      rw [TerminalChannel.receiveOn_of_strict isText decoded]
      exact keyboardOf_write opened _

end

/-! ## The background -/

section

variable {server target : Server} {ref : SessionRef}

theorem keyboardAt_updateObject {other : SessionRef} {change : Session → Session}
    (keeps : ∀ session, server.objects[ref]? = some session → ref = other →
      keyboardOf (change session) = keyboardOf session) :
    keyboardAt (server.updateObject other change) ref = keyboardAt server ref := by
  rw [keyboardAt, keyboardAt, Server.getElem?_updateObject]
  cases found : server.objects[ref]? with
  | none => rfl
  | some session =>
      by_cases same : other = ref
      · simp [same, keeps session found same.symm]
      · simp [same]

theorem keyboardOf_killed (session : Session) : keyboardOf session.killed = keyboardOf session := by
  unfold keyboardOf Session.killed Session.terminated
  split_ifs
  · simp [Session.closeDescriptors, Option.map_map, Function.comp_def]
  · simp [Session.closeDescriptors, Option.map_map, Function.comp_def]

theorem keyboardAt_withKilledAll (entries : List (String × SessionRef)) :
    keyboardAt (server.withKilledAll entries) ref = keyboardAt server ref := by
  rw [keyboardAt, keyboardAt, Server.getElem?_withKilledAll]
  cases server.objects[ref]? with
  | none => rfl
  | some session =>
      by_cases member : ref ∈ entries.map Prod.snd
      · simp [member, keyboardOf_killed]
      · simp [member]

theorem keyboardAt_withOpened (bound : ref < server.objects.length) (vmName sessionId : String)
    (env : SpawnEnvironment) :
    keyboardAt (server.withOpened vmName sessionId env) ref = keyboardAt server ref := by
  rw [keyboardAt, Server.withOpened, List.getElem?_append_left bound]
  rfl

/-- The object is still there, with the same input and window. -/
def Untouched (ref : SessionRef) (before after : Server) : Prop :=
  before.objects.length ≤ after.objects.length ∧ keyboardAt after ref = keyboardAt before ref

theorem untouched_updateObject {other : SessionRef} {change : Session → Session}
    (keeps : ∀ session, server.objects[ref]? = some session → ref = other →
      keyboardOf (change session) = keyboardOf session) :
    Untouched ref server (server.updateObject other change) := by
  refine ⟨?_, keyboardAt_updateObject keeps⟩
  rw [Server.updateObject, List.length_modify]

theorem length_withKilledAll (entries : List (String × SessionRef)) :
    (server.withKilledAll entries).objects.length = server.objects.length := by
  induction entries generalizing server with
  | nil => rfl
  | cons entry rest ih =>
      rw [Server.withKilledAll, List.foldl_cons, ← Server.withKilledAll, ih, Server.withKilled,
        List.length_modify]

theorem untouched_withKilledAll (entries : List (String × SessionRef)) :
    Untouched ref server (server.withKilledAll entries) :=
  ⟨Nat.le_of_eq (length_withKilledAll entries).symm, keyboardAt_withKilledAll entries⟩

theorem untouched_withOpened (bound : ref < server.objects.length) (vmName sessionId : String)
    (env : SpawnEnvironment) : Untouched ref server (server.withOpened vmName sessionId env) := by
  refine ⟨?_, keyboardAt_withOpened bound vmName sessionId env⟩
  rw [Server.withOpened, List.length_append]
  exact Nat.le_add_right _ _

/-- Nothing that happens to the registry and its sessions types or changes a window. -/
theorem untouched_next (wf : server.WellFormed) {action : Server.Action}
    (bound : ref < server.objects.length) (step : Server.next server action = some target) :
    Untouched ref server target := by
  cases action with
  | openSession vmName sessionId env =>
      cases step
      rw [Server.openSession_apply wf.free]
      exact untouched_withOpened bound vmName sessionId env
  | read other result =>
      simp only [Server.next] at step
      split_ifs at step with reading
      cases step
      apply untouched_updateObject
      rintro session found rfl
      rw [found, Option.any_some, Session.reading, Bool.and_eq_true, Bool.not_eq_true'] at reading
      rcases Session.afterRead_eq result reading.1 with ⟨scrollback, closed, read⟩
      rw [read]
      rfl
  | shellExits other =>
      cases step
      exact untouched_updateObject fun session _ _ => rfl
  | kill sessionId =>
      cases step
      rw [Server.kill_state wf]
      exact untouched_withKilledAll _
  | killObject sessionId =>
      rcases Option.map_eq_some_iff.mp step with ⟨other, registered, rfl⟩
      rw [wf.killObject (OrderedHash.get?_eq_some_iff.mp registered)]
      exact untouched_withKilledAll [(sessionId, other)]
  | reap env =>
      cases step
      rw [Server.reap_apply wf]
      exact untouched_withKilledAll _
  | console vmName env =>
      cases step
      cases failed : env.vmError with
      | some error =>
          rw [(Server.console_of_error failed).1]
          exact ⟨Nat.le_refl _, rfl⟩
      | none =>
          cases first : (server.keysForVm vmName).head? with
          | some existing =>
              rw [Server.console_of_existing wf.free failed first]
              exact ⟨Nat.le_refl _, rfl⟩
          | none =>
              rw [(Server.console_of_none wf.free failed first).1]
              exact untouched_withOpened bound vmName env.sessionId env.spawn

theorem untouched_reachable (wf : server.WellFormed) (bound : ref < server.objects.length)
    (reachable : Reachable Server.next server target) : Untouched ref server target := by
  let Kept : Server → Prop := fun state => state.WellFormed ∧ Untouched ref server state
  have keep : ∀ state action after, Kept state → Server.next state action = some after →
      Kept after := by
    rintro state action after ⟨wfState, longer, same⟩ step
    rcases untouched_next wfState (Nat.lt_of_lt_of_le bound longer) step with ⟨more, still⟩
    exact ⟨wfState.next step, Nat.le_trans longer more, still.trans same⟩
  exact (reachable.preserves keep ⟨wf, Nat.le_refl _, rfl⟩).2

end

/-! ## The system -/

section

variable {framework : Framework} {system target : System} {ref : SessionRef}

/-- The terminals are well formed, and the session is among their objects. -/
def Holds (ref : SessionRef) (system : System) : Prop :=
  system.terminals.WellFormed ∧ ref < system.terminals.objects.length

/-- A step after which the terminal has what the step handed to it. -/
def Enters (ref : SessionRef) (action : Action) (system target : System) : Prop :=
  Holds ref target ∧ keyboardAt target.terminals ref =
    (keyboardAt system.terminals ref).map fun keyboard =>
      replay Keyboard.enter keyboard (handed ref system action)

theorem enters_of_same {action : Action} (holds : Holds ref system)
    (terminals : target.terminals = system.terminals) (nothing : handed ref system action = []) :
    Enters ref action system target := by
  rw [Enters, Holds, terminals, nothing]
  refine ⟨holds, ?_⟩
  cases keyboardAt system.terminals ref with
  | none => rfl
  | some keyboard => rfl

theorem enters_of_frame {action : Action} (holds : Holds ref system)
    (frame : RequestFrame system target) (nothing : handed ref system action = []) :
    Enters ref action system target := by
  rcases untouched_reachable holds.1 holds.2 frame.terminals with ⟨longer, same⟩
  refine ⟨⟨holds.1.reachable frame.terminals, Nat.lt_of_lt_of_le holds.2 longer⟩, ?_⟩
  rw [same, nothing]
  cases keyboardAt system.terminals ref with
  | none => rfl
  | some keyboard => rfl

theorem enters_receive {connection : Nat} {identifier : String} {payload : Json}
    (holds : Holds ref system)
    (step : system.receive connection identifier payload = some target) :
    Enters ref (.receive connection identifier payload) system target := by
  rcases receive_cases step with ⟨client, channel, found, isChannel, _, terminals, _⟩
  have bound := holds.2
  have isSession := List.getElem?_eq_getElem bound
  generalize system.terminals.objects[ref] = session at isSession
  have wf : target.terminals.WellFormed := by
    rw [terminals]
    exact holds.1.updateObject fun other _ => benign_receiveOn other payload
  have longer : ref < target.terminals.objects.length := by
    rw [terminals, Server.updateObject, List.length_modify]
    exact bound
  refine ⟨⟨wf, longer⟩, ?_⟩
  have isHanded : handed ref system (.receive connection identifier payload) =
      if channel.session = ref ∧ session.Open then (carried payload).toList else [] := by
    simp [handed, found, isChannel, isSession]
  rw [isHanded, terminals, keyboardAt, keyboardAt, Server.getElem?_updateObject, isSession,
    Option.map_some, Option.bind_some, Option.bind_some]
  by_cases here : channel.session = ref
  · rw [if_pos here]
    by_cases opened : session.Open
    · rw [if_pos ⟨here, opened⟩]
      exact keyboardOf_receiveOn opened
    · rw [if_neg fun both => opened both.2, receiveOn_of_not_open opened]
      cases keyboardOf session with
      | none => rfl
      | some keyboard => rfl
  · rw [if_neg here, if_neg fun both => here both.1]
    cases keyboardOf session with
    | none => rfl
    | some keyboard => rfl

theorem enters_next {action : Action} (holds : Holds ref system)
    (step : next framework system action = some target) : Enters ref action system target := by
  cases action with
  | tick elapsed =>
      cases step
      exact enters_of_same holds rfl rfl
  | login username password raw ipAddress userAgent =>
      cases step
      exact enters_of_frame holds (keeps_onStore _ system) rfl
  | request headers request =>
      cases step
      exact enters_of_frame holds (keeps_handle framework headers request system) rfl
  | sweep =>
      cases step
      exact enters_of_frame holds (keeps_onStore _ system) rfl
  | read session result => exact enters_of_frame holds (background_frame step) rfl
  | shellExits session => exact enters_of_frame holds (background_frame step) rfl
  | reap subscribers => exact enters_of_frame holds (background_frame step) rfl
  | connect connection headers =>
      simp only [Cable.next, System.connect] at step
      split_ifs at step
      cases step
      exact enters_of_same holds rfl rfl
  | disconnect connection =>
      cases step
      exact enters_of_same holds rfl rfl
  | subscribe connection identifier params =>
      rcases subscribe_cases holds.1 step with ⟨client, _, ⟨_, rfl⟩ | ⟨_, _, rfl⟩⟩
      · exact enters_of_same holds rfl rfl
      · exact enters_of_same holds rfl rfl
  | unsubscribe connection identifier =>
      rcases Option.bind_eq_some_iff.mp step with ⟨client, _, rest⟩
      cases rest
      exact enters_of_same holds rfl rfl
  | receive connection identifier payload => exact enters_receive holds step

end

/-- After every run the input and the window size of a terminal are what the messages
make of them that were handed to it, in their order. -/
theorem keyboard_of_run (framework : Framework) {start target : System} {actions : List Action}
    (wellFormed : start.terminals.WellFormed)
    (executed : run (next framework) start actions = some target) {ref : SessionRef}
    (bound : ref < start.terminals.objects.length) :
    keyboardAt target.terminals ref = (keyboardAt start.terminals ref).map fun keyboard =>
      replay Keyboard.enter keyboard
        (handedOver (next framework) (handed ref) start actions) := by
  let view : System → Option Keyboard := fun system => keyboardAt system.terminals ref
  have keep : ∀ system action after, Holds ref system → next framework system action = some after →
      Holds ref after := fun system action after holds step => (enters_next holds step).1
  have each : ∀ system action after, Holds ref system → next framework system action = some after →
      view after = replay (fun keyboard bytes => keyboard.map fun keyboard => keyboard.enter bytes)
        (view system) (handed ref system action) := by
    intro system action after holds step
    rw [replay_option]
    exact (enters_next holds step).2
  rw [← replay_option]
  exact run_replays keep each ⟨wellFormed, bound⟩ executed

/-- A server with one shell. -/
def withShell : System :=
  { System.start 0 Auth.Store.empty with
    terminals := Server.empty.withOpened "web" "a1" ⟨0, none, none⟩ }

/-- Two clients type into it, and one of them resizes its window. -/
def twoClients : List Action :=
  [.connect 0 signedIn, .connect 1 signedIn,
    .subscribe 0 "terminal" shellParams, .subscribe 1 "terminal" shellParams,
    .receive 0 "terminal" (inputMessage (encodeText "ls")),
    .receive 1 "terminal" (inputMessage (resizeBytes 80 24)),
    .receive 1 "terminal" (inputMessage (encodeText "\r"))]

theorem keyboard_of_run_twoClients :
    ∃ target, run (next sampleFramework) withShell twoClients = some target ∧
      keyboardAt target.terminals 0 = some ⟨encodeText "ls\r", ⟨24, 80⟩⟩ := by
  refine ⟨_, rfl, ?_⟩
  have wf : withShell.terminals.WellFormed := Server.wellFormed_empty.withOpened "web" "a1" _
  rw [@keyboard_of_run sampleFramework withShell _ twoClients wf rfl 0 (by decide)]
  decide

end MultipassWebui.Cable
