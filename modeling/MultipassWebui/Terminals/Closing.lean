import MultipassWebui.Records.EventLog
import MultipassWebui.Terminals.Invariant

/-!
# Closing a shell

`ShellSessionsController#destroy` kills a session, writes an event and replies.
The kill of a registered session runs under the lock that its `ensure` clause
takes again, so it raises after the session was closed and removed, and the
request ends there.  The kill of an id that is not registered completes.
-/

namespace MultipassWebui.Terminals

open MultipassWebui.Collections
open MultipassWebui.Effect
open MultipassWebui.Encoding
open MultipassWebui.Records
open MultipassWebui.Transition

/-- The registry and the audit log. -/
structure App where
  server : Server
  events : List Event

namespace ShellSessionsController

def closeShellEvent (request : Request) (vmName sessionId : String) : EventAttributes :=
  httpAttributes request "vm" "close_shell" (some vmName) (some "success")
    (some ("session " ++ sessionId))

/-- The event and the reply of `destroy`. -/
def confirm (request : Request) (stamp : EventStamp) (vmName sessionId : String) :
    Exec App RubyError Json := do
  let _ ← Exec.zoom App.events (fun events app => { app with events := events })
    (Event.emit stamp (closeShellEvent request vmName sessionId))
  pure (.object [("message", .string "killed")])

/-- `destroy` -/
def destroy (request : Request) (stamp : EventStamp) (vmName sessionId : String) :
    Exec App RubyError Json := do
  Exec.zoom App.server (fun server app => { app with server := server }) (Server.kill sessionId)
  confirm request stamp vmName sessionId

/-- The event of `destroy` passes the validations of `Event`. -/
theorem closeShellEvent_valid (request : Request) (vmName sessionId : String) :
    (closeShellEvent request vmName sessionId).errors = [] :=
  rfl

/-- With an unused event id, one event is written and the reply is sent. -/
theorem confirm_of_fresh {request : Request} {stamp : EventStamp} {vmName sessionId : String}
    {app : App} (fresh : ∀ event ∈ app.events, event.id ≠ stamp.id) :
    confirm request stamp vmName sessionId app =
      (.ok (.object [("message", .string "killed")]),
        { app with events := app.events ++
          [⟨closeShellEvent request vmName sessionId, stamp.id,
            closeShellEvent_valid request vmName sessionId⟩] }) := by
  have emitted := Event.emit_of_fresh (closeShellEvent_valid request vmName sessionId) fresh
  rw [confirm, Exec.bind_apply, Exec.zoom_apply, emitted]
  rfl

end ShellSessionsController

namespace Server

/-- Both descriptors of a session are closed, if it has any. -/
def DescriptorsClosed (session : Session) : Prop :=
  (∀ master ∈ session.master, master.descriptor = .closed) ∧
    ∀ slave ∈ session.slave, slave = .closed

/-- Killing an id returns, unregisters it, closes its terminal, leaves the
other sessions and the lock alone, and lets the request go on. -/
structure KillCompletes (server : Server) (sessionId : String) : Prop where
  returned : (kill sessionId server).1 = .ok ⟨⟩
  unregistered : (kill sessionId server).2.sessions.get? sessionId = none
  descriptors : ∀ ref ∈ server.sessions.get? sessionId,
    ∀ session ∈ (kill sessionId server).2.objects[ref]?, DescriptorsClosed session
  others : ∀ other, other ≠ sessionId →
    (kill sessionId server).2.sessionAt other = server.sessionAt other
  usable : (kill sessionId server).2.mutexHeld = false
  /-- `destroy` goes on to its event and its reply. -/
  confirmed : ∀ request stamp vmName events,
    ShellSessionsController.destroy request stamp vmName sessionId ⟨server, events⟩ =
      ShellSessionsController.confirm request stamp vmName sessionId
        ⟨(kill sessionId server).2, events⟩
  replied : ∀ request stamp vmName events, (∀ event ∈ events, event.id ≠ stamp.id) →
    (ShellSessionsController.destroy request stamp vmName sessionId ⟨server, events⟩).1 =
      .ok (.object [("message", .string "killed")])

/-- In every reachable state, killing an id completes precisely if the id is
not registered. -/
theorem killCompletes_iff {server : Server} (reachable : Reachable next empty server)
    (sessionId : String) :
    KillCompletes server sessionId ↔ server.sessions.get? sessionId = none := by
  have wf := wellFormed_of_reachable reachable
  constructor
  · intro completes
    cases registered : server.sessions.get? sessionId with
    | none => rfl
    | some ref =>
        rcases wf.session registered with ⟨session, found, _⟩
        have returned := completes.returned
        rw [kill_of_some wf.free registered found] at returned
        cases returned
  · intro unregistered
    have killed := kill_of_none wf.free unregistered
    have confirmed : ∀ request stamp vmName events,
        ShellSessionsController.destroy request stamp vmName sessionId ⟨server, events⟩ =
          ShellSessionsController.confirm request stamp vmName sessionId ⟨server, events⟩ := by
      intro request stamp vmName events
      rw [ShellSessionsController.destroy, Exec.bind_apply, Exec.zoom_apply, killed]
    constructor
    · rw [killed]
    · rw [killed]
      exact unregistered
    · intro ref isRef
      rw [unregistered] at isRef
      cases isRef
    · intro other _
      rw [killed]
    · rw [killed]
      exact wf.free
    · rw [killed]
      exact confirmed
    · intro request stamp vmName events fresh
      rw [confirmed, ShellSessionsController.confirm_of_fresh fresh]

/-- Two shells are opened, and the first one is closed by its session. -/
def closedOne : List Action :=
  [.openSession "web" "a1" ⟨0, none, none⟩, .openSession "db" "b2" ⟨0, none, none⟩,
    .killObject "a1"]

/-- The id that is gone can be killed, and the other shell stays open. -/
theorem killCompletes_iff_closedOne :
    ∃ server, run next empty closedOne = some server ∧ KillCompletes server "a1" ∧
      ∃ session ∈ (kill "a1" server).2.sessionAt "b2",
        session.Open ∧ server.sessionAt "b2" = some session := by
  refine ⟨_, rfl, (killCompletes_iff ⟨closedOne, rfl⟩ "a1").mpr rfl, ?_⟩
  decide

/-- Killing the only shell raises, so the request gets no reply. -/
theorem oneShell_not_killCompletes :
    Reachable next empty oneShell ∧ ¬ KillCompletes oneShell "a1" := by
  constructor
  · exact ⟨[.openSession "web" "a1" ⟨0, none, none⟩],
      congrArg some (congrArg Prod.snd (openSession_apply rfl _ _ _))⟩
  · intro completes
    have raised : (kill "a1" oneShell).1 = .error recursiveLocking := by
      rw [kill_of_some rfl rfl rfl]
    have returned := completes.returned
    rw [raised] at returned
    cases returned

end Server

end MultipassWebui.Terminals
