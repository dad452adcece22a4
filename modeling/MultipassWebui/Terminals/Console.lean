import MultipassWebui.Terminals.Invariant

/-!
# The session behind the console page

A console request hands out the first registered session of the VM, and opens
one only if there is none.  Sessions stay registered when their shell exits,
when their reader thread ends and when they could not be started, so the page
gets a live shell precisely if the first registered session is alive.
-/

namespace MultipassWebui.Terminals.Server

open MultipassWebui.Collections
open MultipassWebui.Effect
open MultipassWebui.Transition

/-- The shell of a session runs and the session is not closed. -/
def Alive (session : Session) : Prop :=
  session.closed = false ∧ ∃ child ∈ session.child, child.running = true

instance : DecidablePred Alive := fun session =>
  inferInstanceAs (Decidable (_ ∧ ∃ child ∈ session.child, _))

/-- The id belongs to a registered session of the VM that is alive, and whose
input is written to the terminal. -/
def LiveShell (server : Server) (vmName sessionId : String) : Prop :=
  ∃ session, server.sessionAt sessionId = some session ∧ session.vmName = vmName ∧
    Alive session ∧ ∃ master, session.master = some master ∧
      ∀ data, Session.isResize data true = false →
        Session.write data true session =
          (.ok ⟨⟩, session.withMaster { master with input := master.input ++ data })

/-- Whenever a console request succeeds, the session of the page is live. -/
def ConsoleLive (server : Server) : Action → Prop
  | .console vmName env => ∀ sessionId after,
      console vmName env server = (.ok (.page sessionId), after) → LiveShell after vmName sessionId
  | _ => True

/-- A console request for a VM that exists finds no registered session of the
VM, or finds one first that is alive. -/
def FirstAlive (server : Server) : Action → Prop
  | .console vmName env => env.vmError = none →
      ∀ sessionId ∈ (server.keysForVm vmName).head?, ∀ session ∈ server.sessionAt sessionId,
        Alive session
  | _ => True

instance (server : Server) (action : Action) : Decidable (FirstAlive server action) :=
  match action with
  | .console vmName env => inferInstanceAs (Decidable (env.vmError = none →
      ∀ sessionId ∈ (server.keysForVm vmName).head?, ∀ session ∈ server.sessionAt sessionId, _))
  | .openSession _ _ _ | .read _ _ | .shellExits _ | .kill _ | .killObject _ | .reap _ =>
      isTrue trivial

section Requests

variable {server : Server} {vmName sessionId : String} {session : Session}

/-- A session that is alive has an open terminal, so its input is written. -/
theorem liveShell_of_alive (sound : session.Sound)
    (registered : server.sessionAt sessionId = some session) (ofVm : session.vmName = vmName)
    (alive : Alive session) : LiveShell server vmName sessionId := by
  rcases alive with ⟨notClosed, child, isChild, running⟩
  have hasMaster : session.master.isSome = true := by
    apply sound.terminal
    rw [Option.mem_def.mp isChild]
    rfl
  rcases Option.isSome_iff_exists.mp hasMaster with ⟨master, isMaster⟩
  have opened : master.descriptor = .opened := by
    cases descriptor : master.descriptor with
    | opened => rfl
    | closed =>
        have closed := sound.closing master isMaster descriptor
        rw [notClosed] at closed
        cases closed
  exact ⟨session, registered, ofVm, ⟨notClosed, child, isChild, running⟩, master, isMaster,
    fun data plain => Session.write_plain notClosed isMaster opened plain⟩

/-- The keys for a VM are those of registered sessions of the VM. -/
theorem mem_keysForVm (member : sessionId ∈ server.keysForVm vmName) :
    ∃ session, server.sessionAt sessionId = some session ∧ session.vmName = vmName := by
  rcases List.mem_map.mp member with ⟨⟨key, ref⟩, listed, rfl⟩
  rcases List.mem_filter.mp listed with ⟨entry, ofVm⟩
  rcases (Option.any_eq_true _ _).mp ofVm with ⟨session, found, named⟩
  refine ⟨session, ?_, by simpa using named⟩
  rw [sessionAt, OrderedHash.get?_eq_some_iff.mpr entry]
  exact found

theorem mem_of_sessionAt (registered : server.sessionAt sessionId = some session) :
    session ∈ server.objects := by
  rcases Option.bind_eq_some_iff.mp registered with ⟨ref, _, found⟩
  exact List.mem_of_getElem? found

/-- A session that could be opened is registered and alive. -/
theorem liveShell_withOpened {env : SpawnEnvironment}
    (opened : openedSession vmName sessionId env =
      (Session.new vmName sessionId env.now).spawned) :
    LiveShell (server.withOpened vmName sessionId env) vmName sessionId := by
  have registered : (server.withOpened vmName sessionId env).sessionAt sessionId =
      some (Session.new vmName sessionId env.now).spawned := by
    rw [sessionAt, withOpened, OrderedHash.get?_insert_self, opened]
    simp
  exact liveShell_of_alive (Session.sound_of_opened rfl) registered rfl ⟨rfl, _, rfl, rfl⟩

/-- One request. -/
theorem consoleLive_iff_firstAlive (wf : server.WellFormed) (action : Action) :
    ConsoleLive server action ↔ FirstAlive server action := by
  cases action with
  | console vmName env =>
      cases found : env.vmError with
      | some error =>
          apply iff_of_true
          · intro sessionId after page
            exact absurd (congrArg Prod.fst page) ((console_of_error found).2 sessionId)
          · intro noError
            rw [found] at noError
            cases noError
      | none =>
          cases first : (server.keysForVm vmName).head? with
          | none =>
              rcases console_of_none wf.free found first with ⟨state, opened⟩
              apply iff_of_true
              · intro sessionId after page
                rcases opened sessionId (congrArg Prod.fst page) with ⟨rfl, started⟩
                rw [page] at state
                rw [show after = _ from state]
                exact liveShell_withOpened started
              · intro _ sessionId isFirst
                rw [first] at isFirst
                cases isFirst
          | some existing =>
              have page := console_of_existing wf.free found first
              rcases mem_keysForVm (List.mem_of_mem_head? first) with ⟨session, registered, ofVm⟩
              constructor
              · intro live _ sessionId isFirst other otherRegistered
                rw [first] at isFirst
                cases isFirst
                rcases live existing server page with ⟨shown, shownRegistered, _, alive, _⟩
                rw [shownRegistered] at otherRegistered
                cases otherRegistered
                exact alive
              · intro firstAlive sessionId after shown
                rw [page] at shown
                cases shown
                have alive := firstAlive found existing first session registered
                exact liveShell_of_alive (wf.sound session (mem_of_sessionAt registered)) registered
                  ofVm alive
  | openSession vmName sessionId env => exact Iff.rfl
  | read ref result => exact Iff.rfl
  | shellExits ref => exact Iff.rfl
  | kill sessionId => exact Iff.rfl
  | killObject sessionId => exact Iff.rfl
  | reap env => exact Iff.rfl

end Requests

/-- Along every run the console pages get live shells if and only if no request
finds a first registered session of its VM that is not alive. -/
theorem consoleLive_iff (actions : List Action) :
    Throughout next ConsoleLive empty actions ↔ Throughout next FirstAlive empty actions := by
  apply throughout_iff (J := WellFormed)
  · intro server action target wf step
    exact wf.next step
  · intro server action target wf step
    exact consoleLive_iff_firstAlive wf action
  · exact wellFormed_empty

/-- The shell of a console page has exited, and its reader thread has ended. -/
def exitedShell : List Action :=
  [.console "web" ⟨none, "a1", ⟨0, none, none⟩⟩, .shellExits 0,
    .read 0 (.raised (.systemCallError "EIO"))]

def secondRequest : Action := .console "web" ⟨none, "b2", ⟨0, none, none⟩⟩

/-- The next page for the VM gets the closed session. -/
theorem exitedShell_not_consoleLive :
    ¬ Throughout next ConsoleLive empty (exitedShell ++ [secondRequest]) := by
  intro live
  have closed : (run next empty exitedShell).any fun server =>
      (next server secondRequest).isSome && !decide (FirstAlive server secondRequest) := by
    decide
  rcases (Option.any_eq_true _ _).mp closed with ⟨server, executed, notAlive⟩
  rw [Bool.and_eq_true, Option.isSome_iff_exists] at notAlive
  rcases notAlive with ⟨⟨target, step⟩, notAlive⟩
  have wf := wellFormed_of_reachable ⟨exitedShell, executed⟩
  have firstAlive := (consoleLive_iff_firstAlive wf secondRequest).mp (live.at_step executed step)
  simp [firstAlive] at notAlive

end MultipassWebui.Terminals.Server
