import MultipassWebui.Terminals.Invariant

/-!
# Openings that raise

`Session.open` registers the session before it starts it, and nothing takes the
entry out again when the start raises.  A start that raises in `spawn` has
opened a terminal by then, which nobody closes.
-/

namespace MultipassWebui.Terminals

open MultipassWebui.Collections
open MultipassWebui.Effect
open MultipassWebui.Transition

namespace Session

/-- No side of the terminal is open. -/
def Shut (session : Session) : Prop :=
  (∀ master ∈ session.master, master.descriptor = .closed) ∧
    ∀ descriptor ∈ session.slave, descriptor = .closed

instance : DecidablePred Shut := fun session =>
  inferInstanceAs (Decidable ((∀ master ∈ session.master, _) ∧ ∀ descriptor ∈ session.slave, _))

/-- The name passes, a terminal can be opened and the shell can be spawned. -/
def Startable (env : SpawnEnvironment) (vmName : String) : Prop :=
  validVmName vmName = true ∧ env.ptyError = none ∧ env.spawnError = none

instance (env : SpawnEnvironment) (vmName : String) : Decidable (Startable env vmName) :=
  inferInstanceAs (Decidable (_ ∧ _))

/-- What starting does at each of its failure points. -/
theorem start_eq (env : SpawnEnvironment) (session : Session) :
    start env session =
      if validVmName session.vmName = false then
        (.error (.validationError session.vmName), session)
      else
        match env.ptyError, env.spawnError with
        | some errno, _ => (.error (.systemCallError errno), session)
        | none, some errno => (.error (.systemCallError errno), session.withPty)
        | none, none => (.ok ⟨⟩, session.spawned) := by
  rw [start, Exec.bind_ok (Exec.gets_apply _ _), validateVmName]
  cases valid : validVmName session.vmName with
  | false => rfl
  | true =>
      rw [if_pos rfl, Exec.bind_ok (Exec.pure_apply _ _), openPty]
      cases env.ptyError with
      | some errno => rfl
      | none =>
          rw [Exec.bind_ok (Exec.modify_apply _ _), spawn]
          cases env.spawnError with
          | some errno => rfl
          | none => rfl

theorem start_raises_iff (env : SpawnEnvironment) (session : Session) :
    (∃ error, (start env session).1 = .error error) ↔ ¬ Startable env session.vmName := by
  rw [start_eq, Startable]
  cases validVmName session.vmName with
  | false => simp
  | true => cases env.ptyError <;> cases env.spawnError <;> simp

/-- The terminal that a raising start leaves open is the one opened before
`spawn` raised. -/
theorem shut_start_iff {env : SpawnEnvironment} {vmName sessionId : String}
    (raises : ¬ Startable env vmName) :
    (start env (new vmName sessionId env.now)).2.Shut ↔
      validVmName vmName = false ∨ env.ptyError.isSome = true := by
  have isName : (new vmName sessionId env.now).vmName = vmName := rfl
  rw [start_eq, isName]
  unfold Startable at raises
  cases valid : validVmName vmName with
  | false => simp [Shut, new]
  | true =>
      cases pty : env.ptyError with
      | some errno => simp [Shut, new]
      | none =>
          cases spawn : env.spawnError with
          | some errno => simp [Shut, withPty]
          | none => exact absurd ⟨valid, pty, spawn⟩ raises

end Session

namespace Server

/-- An opening that raises leaves `SESSIONS` as it was and no terminal open, and
from then on neither `find` nor `for_vm` returns the session. -/
def AllOrNothing (server : Server) (vmName sessionId : String) (env : SpawnEnvironment) : Prop :=
  ∀ error after, openSession vmName sessionId env server = (.error error, after) →
    after.sessions = server.sessions ∧
    (∀ session ∈ after.objects[server.objects.length]?, session.Shut) ∧
    ∀ later, Reachable next after later →
      (∀ key, (find key later).1 ≠ .ok (some server.objects.length)) ∧
      ∀ vm keys, (forVm vm later).1 = .ok keys →
        ∀ key ∈ keys, later.sessions.get? key ≠ some server.objects.length

section Openings

variable {server : Server} {vmName sessionId : String} {env : SpawnEnvironment}

theorem openSession_raises_iff (free : server.mutexHeld = false) :
    (∃ error, (openSession vmName sessionId env server).1 = .error error) ↔
      ¬ Session.Startable env vmName := by
  have raises := Session.start_raises_iff env (Session.new vmName sessionId env.now)
  rw [openSession_apply free]
  rw [show (Session.new vmName sessionId env.now).vmName = vmName from rfl] at raises
  rw [← raises]
  cases (Session.start env (Session.new vmName sessionId env.now)).1 <;> simp [Except.map]

/-- An opening always changes the registry: the entry refers to a new object. -/
theorem WellFormed.sessions_withOpened_ne (wf : server.WellFormed) :
    (server.withOpened vmName sessionId env).sessions ≠ server.sessions := by
  intro same
  have registered : (server.withOpened vmName sessionId env).sessions.get? sessionId =
      some server.objects.length := OrderedHash.get?_insert_self _ _ _
  rw [same] at registered
  exact Nat.lt_irrefl _ (wf.bound (OrderedHash.get?_eq_some_iff.mp registered))

/-- `Session.open` is all or nothing precisely if it does not raise. -/
theorem allOrNothing_iff (wf : server.WellFormed) :
    AllOrNothing server vmName sessionId env ↔ Session.Startable env vmName := by
  constructor
  · intro allOrNothing
    by_contra notStartable
    rcases (openSession_raises_iff wf.free).mpr notStartable with ⟨error, raised⟩
    have state := congrArg Prod.snd (openSession_apply wf.free vmName sessionId env)
    have opened : openSession vmName sessionId env server =
        (.error error, server.withOpened vmName sessionId env) := Prod.ext raised state
    exact wf.sessions_withOpened_ne (allOrNothing error _ opened).1
  · intro startable error after opened
    have raised : ∃ error, (openSession vmName sessionId env server).1 = .error error :=
      ⟨error, congrArg Prod.fst opened⟩
    exact absurd startable ((openSession_raises_iff wf.free).mp raised)

/-- A second shell, with everything in place and with no terminal to be had. -/
theorem allOrNothing_iff_secondShell :
    AllOrNothing oneShell "db" "s2" ⟨0, none, none⟩ ∧
      (openSession "db" "s2" ⟨0, some "ENXIO", none⟩ oneShell).1 =
        .error (.systemCallError "ENXIO") ∧
      ¬ AllOrNothing oneShell "db" "s2" ⟨0, some "ENXIO", none⟩ := by
  refine ⟨(allOrNothing_iff wellFormed_oneShell).mpr (by decide), by decide, ?_⟩
  intro allOrNothing
  exact absurd ((allOrNothing_iff wellFormed_oneShell).mp allOrNothing) (by decide)

/-- The `multipass` binary is missing: the session stays registered with its
terminal open, and `find` returns it. -/
theorem missingBinary_keeps :
    ¬ AllOrNothing empty "web" "s1" ⟨0, none, some "ENOENT"⟩ ∧
      (openSession "web" "s1" ⟨0, none, some "ENOENT"⟩ empty).1 =
        .error (.systemCallError "ENOENT") ∧
      (find "s1" (openSession "web" "s1" ⟨0, none, some "ENOENT"⟩ empty).2).1 = .ok (some 0) ∧
      ∃ session ∈ (openSession "web" "s1" ⟨0, none, some "ENOENT"⟩ empty).2.objects[0]?,
        ¬ session.Shut := by
  refine ⟨?_, by decide, by decide, by decide⟩
  intro allOrNothing
  have kept := (allOrNothing (.systemCallError "ENOENT") _ rfl).2.2 _ (Reachable.refl _ _)
  exact kept.1 "s1" rfl

end Openings

end Server

end MultipassWebui.Terminals
