import MultipassWebui.Collections.OrderedHash
import MultipassWebui.Terminals.Session
import MultipassWebui.Text.Strings

/-!
# The registry of sessions

`SESSIONS`, its lock, and the operations that go through it: opening a session,
looking sessions up, and killing one.  The class method `kill` takes the lock
and, holding it, calls the method of the session, whose `ensure` clause takes
the lock again.  A session object lives on after it has left the registry, so
the objects are kept apart and the registry refers to them.
-/

namespace MultipassWebui.Terminals

open MultipassWebui.Collections
open MultipassWebui.Effect
open MultipassWebui.Text

/-- The place of a session among the objects that were ever created. -/
abbrev SessionRef := Nat

structure Server where
  objects : List Session
  /-- `SESSIONS` -/
  sessions : OrderedHash String SessionRef
  /-- `SESSIONS_MUTEX` is locked. -/
  mutexHeld : Bool
  /-- The objects that a kill has removed from `SESSIONS`, recorded for the
  statements only. -/
  removed : List SessionRef

/-- `/\A[a-zA-Z0-9][a-zA-Z0-9-]{0,62}\z/` -/
def validVmName (name : String) : Bool :=
  matchesLeading isAlnum (fun char => isAlnum char || char = '-') 62 name

/-- What opening a session meets: the clock, and the failures of `PTY.open` and
of `spawn`, if any. -/
structure SpawnEnvironment where
  now : Int
  ptyError : Option String
  spawnError : Option String
  deriving DecidableEq, Repr

namespace Session

/-- `validate_vm_name!` -/
def validateVmName (name : String) : Exec Session RubyError PUnit :=
  if validVmName name then pure ⟨⟩ else Exec.raise (.validationError name)

/-- `@master, @slave = PTY.open` and the window size. -/
def openPty (env : SpawnEnvironment) : Exec Session RubyError PUnit :=
  match env.ptyError with
  | some errno => Exec.raise (.systemCallError errno)
  | none => Exec.modify fun session =>
      { session with master := some ⟨.opened, ⟨40, 120⟩, []⟩, slave := some .opened }

/-- `@pid = spawn(…)` -/
def spawn (env : SpawnEnvironment) : Exec Session RubyError PUnit :=
  match env.spawnError with
  | some errno => Exec.raise (.systemCallError errno)
  | none => Exec.modify fun session => { session with child := some ⟨true, false⟩ }

/-- `start`.  The reader thread runs from here on until `@closed` is set. -/
def start (env : SpawnEnvironment) : Exec Session RubyError PUnit := do
  validateVmName (← Exec.gets vmName)
  openPty env
  spawn env
  Exec.modify fun session => { session with slave := some .closed }

/-- The session after `PTY.open`. -/
def withPty (session : Session) : Session :=
  { session with master := some ⟨.opened, ⟨40, 120⟩, []⟩, slave := some .opened }

/-- Starting succeeds, or raises with or without an open terminal. -/
theorem start_cases (env : SpawnEnvironment) (session : Session) :
    start env session = (.ok ⟨⟩, session.spawned) ∨
      ∃ error, start env session = (.error error, session) ∨
        start env session = (.error error, session.withPty) := by
  rw [start, Exec.bind_ok (Exec.gets_apply _ _), validateVmName]
  by_cases valid : validVmName session.vmName = true
  · rw [if_pos valid, Exec.bind_ok (Exec.pure_apply _ _), openPty]
    cases env.ptyError with
    | some errno => exact Or.inr ⟨.systemCallError errno, Or.inl rfl⟩
    | none =>
        rw [Exec.bind_ok (Exec.modify_apply _ _), spawn]
        cases env.spawnError with
        | some errno => exact Or.inr ⟨.systemCallError errno, Or.inr rfl⟩
        | none => exact Or.inl rfl
  · rw [if_neg valid]
    exact Or.inr ⟨.validationError session.vmName, Or.inl rfl⟩

/-- `Process.kill("TERM", -@pid) if @pid` -/
def killGroup : Exec Session RubyError PUnit := fun session =>
  match session.child with
  | none => (.ok ⟨⟩, session)
  | some child =>
      if child.running then (.ok ⟨⟩, { session with child := some { child with termSent := true } })
      else (.error (.systemCallError "ESRCH"), session)

/-- The body of `kill`.  Killing the reader thread needs no step of its own:
the thread takes no turn once `@closed` is set. -/
def terminate : Exec Session RubyError PUnit :=
  Exec.rescue
    (do
      if ← Exec.gets closed then pure ⟨⟩
      else do
        Exec.modify fun session => { session with closed := true }
        killGroup)
    fun error => if error.isSystemCallError then some (pure ⟨⟩) else none

/-- The session after the body of `kill`: on a closed session it does nothing. -/
def terminated (session : Session) : Session :=
  if session.closed then session
  else
    { session with
      closed := true
      child := session.child.map fun child =>
        if child.running then { child with termSent := true } else child }

theorem terminate_apply (session : Session) :
    terminate session = (.ok ⟨⟩, session.terminated) := by
  rw [terminate, Exec.rescue, Exec.bind_ok (Exec.gets_apply _ _)]
  cases closed : session.closed with
  | true => simp [terminated, closed]
  | false =>
      rw [if_neg Bool.false_ne_true, Exec.bind_ok (Exec.modify_apply _ _), killGroup]
      cases child : session.child with
      | none => simp [terminated, closed, child]
      | some child' =>
          cases running : child'.running with
          | true => simp [terminated, closed, child, running]
          | false => simp [terminated, closed, child, running, RubyError.isSystemCallError]

/-- `@master&.close` and `@slave&.close unless @slave&.closed?` -/
def closeDescriptors (session : Session) : Session :=
  { session with
    master := session.master.map fun master => { master with descriptor := .closed }
    slave := session.slave.map fun _ => .closed }

/-- The session after a kill. -/
def killed (session : Session) : Session := closeDescriptors session.terminated

@[simp]
theorem killed_sessionId (session : Session) : session.killed.sessionId = session.sessionId := by
  unfold killed terminated
  split_ifs <;> rfl

@[simp]
theorem killed_closed (session : Session) : session.killed.closed = true := by
  unfold killed terminated
  split_ifs with closed
  · exact closed
  · rfl

end Session

namespace Server

def empty : Server := ⟨[], OrderedHash.empty, false, []⟩

def setMutex (held : Bool) (server : Server) : Server :=
  { server with mutexHeld := held }

/-- What locking raises when the running thread holds the lock. -/
def recursiveLocking : RubyError := .threadError "deadlock; recursive locking"

/-- `SESSIONS_MUTEX.synchronize` -/
def synchronize {α : Type} (body : Exec Server RubyError α) : Exec Server RubyError α :=
  Exec.synchronize mutexHeld setMutex recursiveLocking body

/-- Run an operation on one object. -/
def onObject {α : Type} (ref : SessionRef) (body : Exec Session RubyError α) :
    Exec Server RubyError α := fun server =>
  match server.objects[ref]? with
  | none => (.error (.noMethodError "nil"), server)
  | some session =>
      ((body session).1, { server with objects := server.objects.set ref (body session).2 })

/-- The session registered under an id. -/
def sessionAt (server : Server) (sessionId : String) : Option Session :=
  (server.sessions.get? sessionId).bind fun ref => server.objects[ref]?

/-! ## The class methods -/

/-- `new(vm_name:, session_id:)` -/
def create (vmName sessionId : String) (env : SpawnEnvironment) :
    Exec Server RubyError SessionRef := fun server =>
  (.ok server.objects.length,
    { server with objects := server.objects ++ [Session.new vmName sessionId env.now] })

/-- `Session.open` -/
def openSession (vmName sessionId : String) (env : SpawnEnvironment) :
    Exec Server RubyError SessionRef := do
  let ref ← create vmName sessionId env
  synchronize (Exec.modify fun server =>
    { server with sessions := server.sessions.insert sessionId ref })
  onObject ref (Session.start env)
  pure ref

/-- `Session.find` -/
def find (sessionId : String) : Exec Server RubyError (Option SessionRef) :=
  synchronize (Exec.gets fun server => server.sessions.get? sessionId)

/-- `SESSIONS.delete(session_id)` within a kill. -/
def forget (sessionId : String) : Exec Server RubyError (Option SessionRef) := fun server =>
  (.ok (server.sessions.get? sessionId),
    { server with
      sessions := server.sessions.delete sessionId
      removed := server.removed ++ (server.sessions.get? sessionId).toList })

/-- `kill` of a session object. -/
def killObject (ref : SessionRef) : Exec Server RubyError PUnit :=
  Exec.ensure (onObject ref Session.terminate)
    (do
      let sessionId ← onObject ref do
        Exec.modify Session.closeDescriptors
        Exec.gets Session.sessionId
      let _ ← synchronize (forget sessionId)
      pure ⟨⟩)

/-- `Session.kill(session_id)` -/
def kill (sessionId : String) : Exec Server RubyError PUnit :=
  synchronize do
    match ← forget sessionId with
    | none => pure ⟨⟩
    | some ref => killObject ref

/-- `for_vm(vm_name).keys`; objects are never given up, so every reference finds one. -/
def keysForVm (server : Server) (vmName : String) : List String :=
  (server.sessions.entries.filter fun entry =>
    (server.objects[entry.2]?).any fun session => session.vmName = vmName).map Prod.fst

/-- `Session.for_vm(vm_name).keys` -/
def forVm (vmName : String) : Exec Server RubyError (List String) :=
  synchronize (Exec.gets fun server => server.keysForVm vmName)

/-! ## What the operations do -/

/-- Change one object. -/
def updateObject (ref : SessionRef) (change : Session → Session) (server : Server) : Server :=
  { server with objects := server.objects.modify ref change }

/-- The server after a session was killed and left the registry. -/
def withKilled (sessionId : String) (ref : SessionRef) (server : Server) : Server :=
  { server with
    objects := server.objects.modify ref Session.killed
    sessions := server.sessions.delete sessionId
    removed := server.removed ++ [ref] }

/-- The session object that an opening leaves, whether or not it could be started. -/
def openedSession (vmName sessionId : String) (env : SpawnEnvironment) : Session :=
  (Session.start env (Session.new vmName sessionId env.now)).2

/-- The server after an opening. -/
def withOpened (vmName sessionId : String) (env : SpawnEnvironment) (server : Server) : Server :=
  { server with
    objects := server.objects ++ [openedSession vmName sessionId env]
    sessions := server.sessions.insert sessionId server.objects.length }

section Operations

variable {server : Server} {ref : SessionRef} {session : Session} {sessionId : String}

theorem synchronize_free {α : Type} (free : server.mutexHeld = false)
    (body : Exec Server RubyError α) :
    synchronize body server =
      ((body (server.setMutex true)).1, (body (server.setMutex true)).2.setMutex false) :=
  Exec.synchronize_free free body

theorem synchronize_held {α : Type} (held : server.mutexHeld = true)
    (body : Exec Server RubyError α) :
    synchronize body server = (.error recursiveLocking, server) :=
  Exec.synchronize_held held body

theorem setMutex_false (free : server.mutexHeld = false) : server.setMutex false = server := by
  rw [setMutex, ← free]

theorem set_eq_modify (found : server.objects[ref]? = some session) (change : Session → Session) :
    server.objects.set ref (change session) = server.objects.modify ref change := by
  apply List.ext_getElem?
  intro other
  rw [List.getElem?_set, List.getElem?_modify]
  by_cases same : ref = other
  · subst same
    rcases List.getElem?_eq_some_iff.mp found with ⟨bound, rfl⟩
    simp [bound]
  · simp [same]

/-- An operation on an object that is there. -/
theorem onObject_apply {α : Type} {body : Exec Session RubyError α}
    (found : server.objects[ref]? = some session) (change : Session → Session)
    {outcome : Except RubyError α} (ran : body session = (outcome, change session)) :
    onObject ref body server = (outcome, server.updateObject ref change) := by
  simp only [onObject, found, ran, updateObject, set_eq_modify found]

/-- What an operation leaves of the objects. -/
theorem onObject_state {α : Type} (ref : SessionRef) (body : Exec Session RubyError α) :
    (onObject ref body server).2 = server.updateObject ref fun session => (body session).2 := by
  cases found : server.objects[ref]? with
  | none =>
      have outside := List.getElem?_eq_none_iff.mp found
      simp only [onObject, found, updateObject]
      rw [List.modify_eq_self outside]
  | some session =>
      simp only [onObject, found, updateObject]
      rw [← set_eq_modify found fun session => (body session).2]

theorem getElem?_updateObject (other : SessionRef) (change : Session → Session) :
    (server.updateObject ref change).objects[other]? =
      (server.objects[other]?).map fun session =>
        if ref = other then change session else session := by
  rw [updateObject, List.getElem?_modify]
  rfl

theorem getElem?_updateObject_self (found : server.objects[ref]? = some session)
    (change : Session → Session) :
    (server.updateObject ref change).objects[ref]? = some (change session) := by
  rw [getElem?_updateObject, found, Option.map_some, if_pos rfl]

theorem updateObject_updateObject (first second : Session → Session) :
    (server.updateObject ref first).updateObject ref second =
      server.updateObject ref (second ∘ first) := by
  simp only [updateObject, List.modify_modify_eq]

/-- The lock, taken for leaving the registry. -/
def leaveRegistry (sessionId : String) : Exec Server RubyError PUnit := do
  let _ ← synchronize (forget sessionId)
  pure ⟨⟩

/-- A kill marks and closes the object, then wants the lock. -/
theorem killObject_apply (found : server.objects[ref]? = some session) :
    killObject ref server =
      Exec.ensure (pure ⟨⟩) (leaveRegistry session.sessionId)
        (server.updateObject ref Session.killed) := by
  have terminated : onObject ref Session.terminate server =
      (.ok ⟨⟩, server.updateObject ref Session.terminated) :=
    onObject_apply found Session.terminated (Session.terminate_apply session)
  have closed : (do
        Exec.modify Session.closeDescriptors
        Exec.gets Session.sessionId : Exec Session RubyError String) session.terminated =
      (.ok session.sessionId, session.terminated.closeDescriptors) := by
    rw [Exec.bind_ok (Exec.modify_apply _ _), Exec.gets_apply]
    exact congrArg (fun id => (Except.ok id, session.killed)) session.killed_sessionId
  have closing := onObject_apply (getElem?_updateObject_self found Session.terminated)
    Session.closeDescriptors closed
  rw [updateObject_updateObject] at closing
  simp only [killObject, Exec.ensure, terminated]
  rw [Exec.bind_ok closing]
  rfl

/-- With the lock free, a kill returns and the session leaves the registry. -/
theorem killObject_free (free : server.mutexHeld = false)
    (found : server.objects[ref]? = some session)
    (registered : server.sessions.get? session.sessionId = some ref) :
    killObject ref server = (.ok ⟨⟩, server.withKilled session.sessionId ref) := by
  have left : leaveRegistry session.sessionId (server.updateObject ref Session.killed) =
      (.ok ⟨⟩, server.withKilled session.sessionId ref) := by
    have unlocked : (server.updateObject ref Session.killed).mutexHeld = false := free
    rw [leaveRegistry, Exec.bind_apply, synchronize_free unlocked]
    simp only [forget, setMutex, updateObject, registered, withKilled, Option.toList_some, free]
    rfl
  rw [killObject_apply found, Exec.ensure_ok left]
  rfl

/-- With the lock held, a kill raises after it has closed the session. -/
theorem killObject_held (held : server.mutexHeld = true)
    (found : server.objects[ref]? = some session) :
    killObject ref server =
      (.error recursiveLocking, server.updateObject ref Session.killed) := by
  have locked : leaveRegistry session.sessionId (server.updateObject ref Session.killed) =
      (.error recursiveLocking, server.updateObject ref Session.killed) := by
    have stillHeld : (server.updateObject ref Session.killed).mutexHeld = true := held
    exact Exec.bind_error (synchronize_held stillHeld _) _
  rw [killObject_apply found]
  exact Exec.ensure_error locked

/-- Killing an id that is not registered does nothing. -/
theorem kill_of_none (free : server.mutexHeld = false)
    (unregistered : server.sessions.get? sessionId = none) :
    kill sessionId server = (.ok ⟨⟩, server) := by
  have forgotten : forget sessionId (server.setMutex true) = (.ok none, server.setMutex true) := by
    simp only [forget, setMutex, unregistered, OrderedHash.delete_of_get?_eq_none unregistered,
      Option.toList_none, List.append_nil]
  rw [kill, synchronize_free free, Exec.bind_ok forgotten]
  exact congrArg (fun last => (Except.ok PUnit.unit, last)) (setMutex_false free)

/-- Killing a registered id closes the session, removes it and raises. -/
theorem kill_of_some (free : server.mutexHeld = false)
    (registered : server.sessions.get? sessionId = some ref)
    (found : server.objects[ref]? = some session) :
    kill sessionId server = (.error recursiveLocking, server.withKilled sessionId ref) := by
  let inside : Server :=
    ⟨server.objects, server.sessions.delete sessionId, true, server.removed ++ [ref]⟩
  have forgotten : forget sessionId (server.setMutex true) = (.ok (some ref), inside) := by
    simp only [forget, setMutex, registered, Option.toList_some, inside]
  have foundInside : inside.objects[ref]? = some session := found
  have raised : killObject ref inside =
      (.error recursiveLocking, inside.updateObject ref Session.killed) :=
    killObject_held rfl foundInside
  rw [kill, synchronize_free free, Exec.bind_ok forgotten]
  dsimp only
  rw [raised]
  simp only [updateObject, setMutex, withKilled, inside, free]

/-- An opening registers its session in any case. -/
theorem openSession_apply (free : server.mutexHeld = false) (vmName sessionId : String)
    (env : SpawnEnvironment) :
    openSession vmName sessionId env server =
      ((Session.start env (Session.new vmName sessionId env.now)).1.map fun _ =>
          server.objects.length,
        server.withOpened vmName sessionId env) := by
  let created : Server := { server with
    objects := server.objects ++ [Session.new vmName sessionId env.now] }
  let registered : Server := { created with
    sessions := server.sessions.insert sessionId server.objects.length }
  have made : create vmName sessionId env server = (.ok server.objects.length, created) := rfl
  have inserted : synchronize (Exec.modify fun server' =>
      { server' with
        sessions := server'.sessions.insert sessionId server.objects.length }) created =
          (.ok ⟨⟩, registered) := by
    have createdFree : created.mutexHeld = false := free
    rw [synchronize_free createdFree]
    simp only [Exec.modify_apply, setMutex, created, registered, free]
  have started : onObject server.objects.length (Session.start env) registered =
      ((Session.start env (Session.new vmName sessionId env.now)).1,
        server.withOpened vmName sessionId env) := by
    simp [onObject, registered, created, withOpened, openedSession]
  rw [openSession, Exec.bind_ok made, Exec.bind_ok inserted]
  cases outcome : (Session.start env (Session.new vmName sessionId env.now)).1 with
  | ok value =>
      rw [outcome] at started
      rw [Exec.bind_ok started]
      rfl
  | error error =>
      rw [outcome] at started
      rw [Exec.bind_error started]
      rfl

theorem find_apply (free : server.mutexHeld = false) (sessionId : String) :
    find sessionId server = (.ok (server.sessions.get? sessionId), server) := by
  rw [find, synchronize_free free, Exec.gets_apply]
  exact congrArg (fun last => (Except.ok (server.sessions.get? sessionId), last))
    (setMutex_false free)

theorem forVm_apply (free : server.mutexHeld = false) (vmName : String) :
    forVm vmName server = (.ok (server.keysForVm vmName), server) := by
  rw [forVm, synchronize_free free, Exec.gets_apply]
  exact congrArg (fun last => (Except.ok (server.keysForVm vmName), last)) (setMutex_false free)

end Operations

end Server

end MultipassWebui.Terminals
