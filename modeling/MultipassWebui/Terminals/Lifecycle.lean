import MultipassWebui.Terminals.Reader
import MultipassWebui.Terminals.Registry
import MultipassWebui.Transition.Run

/-!
# The life of sessions

Everything that happens to the registry and its sessions, in any order: shells
are opened, produce output and exit, reader threads end, sessions are killed
and reaped, and console pages are requested.  An operation that raises leaves
the state it had reached.
-/

namespace MultipassWebui.Terminals

open MultipassWebui.Collections
open MultipassWebui.Effect
open MultipassWebui.Transition

/-! ## Reaping -/

/-- `30.minutes` -/
def IDLE_TTL : Int := 30 * 60 * 1000000

/-- The clock and the count of subscribers for each output stream. -/
structure ReapEnvironment where
  now : Int
  subscribers : String → Int

/-- The name of a session's output stream. -/
def outputStream (sessionId : String) : String := "terminal:" ++ sessionId ++ ":output"

/-- The session is old enough and has no subscribers. -/
def reapable (env : ReapEnvironment) (sessionId : String) (session : Session) : Bool :=
  session.createdAt ≤ env.now - IDLE_TTL && env.subscribers (outputStream sessionId) ≤ 0

namespace Server

/-- `SESSIONS.each do |id, sess| … end`.  A kill deletes the entry at hand and
no other, so the entries may be read beforehand. -/
def reapEach (env : ReapEnvironment) :
    List (String × SessionRef) → Exec Server RubyError (List String)
  | [] => pure []
  | (sessionId, ref) :: rest => do
      if (← Exec.gets fun server => server.objects[ref]?).any (reapable env sessionId) then do
        killObject ref
        return sessionId :: (← reapEach env rest)
      else reapEach env rest

/-- `ReapIdleSessionsJob#perform` -/
def reap (env : ReapEnvironment) : Exec Server RubyError (List String) := do
  reapEach env (← Exec.gets fun server => server.sessions.entries)

/-! ## The console page -/

/-- What a console request meets: the failure of `get_vm_info`, if any, the
drawn session id, and what opening a session meets. -/
structure ConsoleEnvironment where
  vmError : Option RubyError
  sessionId : String
  spawn : SpawnEnvironment

inductive ConsoleReply where
  | page (sessionId : String)
  | redirect
  deriving DecidableEq, Repr

/-- `multipass.get_vm_info(@vm_name)` -/
def getVmInfo (env : ConsoleEnvironment) : Exec Server RubyError PUnit :=
  match env.vmError with
  | none => pure ⟨⟩
  | some error => Exec.raise error

/-- `VmsController#console` -/
def console (vmName : String) (env : ConsoleEnvironment) : Exec Server RubyError ConsoleReply :=
  Exec.rescue
    (do
      getVmInfo env
      match (← forVm vmName).head? with
      | some existing => pure (.page existing)
      | none => do
          let _ ← openSession vmName env.sessionId env.spawn
          pure (.page env.sessionId))
    fun error => if error.isCommandError then some (pure .redirect) else none

end Server

/-! ## The steps -/

namespace Session

/-- The reader thread takes turns. -/
def reading (session : Session) : Bool := !session.closed && session.child.isSome

/-- One turn of the reader thread. -/
def afterRead (result : ReadResult) (session : Session) : Session :=
  match Reader.next (Reader.start session) result with
  | some reader => reader.session
  | none => session

/-- The shell exits by itself. -/
def exited (session : Session) : Session :=
  { session with child := session.child.map fun child => { child with running := false } }

end Session

namespace Server

inductive Action where
  | openSession (vmName sessionId : String) (env : SpawnEnvironment)
  /-- The reader thread of a session takes a turn. -/
  | read (ref : SessionRef) (result : ReadResult)
  | shellExits (ref : SessionRef)
  /-- `Session.kill(session_id)` -/
  | kill (sessionId : String)
  /-- `kill` of the session that is registered under an id. -/
  | killObject (sessionId : String)
  | reap (env : ReapEnvironment)
  | console (vmName : String) (env : ConsoleEnvironment)

def next : Step Server Action
  | server, .openSession vmName sessionId env => some (openSession vmName sessionId env server).2
  | server, .read ref result =>
      if (server.objects[ref]?).any Session.reading then
        some (server.updateObject ref (Session.afterRead result))
      else none
  | server, .shellExits ref => some (server.updateObject ref Session.exited)
  | server, .kill sessionId => some (kill sessionId server).2
  | server, .killObject sessionId =>
      (server.sessions.get? sessionId).map fun ref => (killObject ref server).2
  | server, .reap env => some (reap env server).2
  | server, .console vmName env => some (console vmName env server).2

end Server

end MultipassWebui.Terminals
