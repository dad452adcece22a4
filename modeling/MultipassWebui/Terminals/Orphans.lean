import MultipassWebui.Terminals.Invariant

/-!
# Orphaned shells

A kill sends TERM unless the session is closed, and takes a closed session for
one whose shell is gone.  The reader thread closes its session on every exit,
also when it crashes while the shell runs.  A killed session therefore leaves
no orphan precisely if it was not closed before its shell had exited.
-/

namespace MultipassWebui.Terminals.Server

open MultipassWebui.Collections
open MultipassWebui.Transition

/-- Every session that a kill has removed from the registry has a shell that
exited by itself or was sent TERM. -/
def NoOrphans (server : Server) : Prop :=
  ∀ ref ∈ server.removed, ∀ session ∈ server.objects[ref]?, session.Settled

instance : DecidablePred NoOrphans := fun server =>
  inferInstanceAs (Decidable (∀ ref ∈ server.removed, ∀ session ∈ server.objects[ref]?, _))

/-- No step kills a session that was closed while its shell runs. -/
def KillsSettled (server : Server) (action : Action) : Prop :=
  ∀ entry ∈ killedBy server action, ∀ session ∈ server.objects[entry.2]?,
    session.closed = true → session.Settled

section Kills

variable {server : Server}

theorem removed_withKilledAll (entries : List (String × SessionRef)) :
    (server.withKilledAll entries).removed = server.removed ++ entries.map Prod.snd := by
  induction entries generalizing server with
  | nil => simp [withKilledAll]
  | cons entry rest ih =>
      rw [withKilledAll, List.foldl_cons, ← withKilledAll, ih]
      simp [withKilled]

/-- Kills leave no orphan precisely if the sessions they find closed are settled. -/
theorem noOrphans_withKilledAll_iff (noOrphans : NoOrphans server)
    (entries : List (String × SessionRef)) :
    NoOrphans (server.withKilledAll entries) ↔
      ∀ entry ∈ entries, ∀ session ∈ server.objects[entry.2]?,
        session.closed = true → session.Settled := by
  constructor
  · intro after entry member session found
    have listed : entry.2 ∈ entries.map Prod.snd := List.mem_map.mpr ⟨entry, member, rfl⟩
    have isRemoved : entry.2 ∈ (server.withKilledAll entries).removed := by
      rw [removed_withKilledAll]
      exact List.mem_append_right _ listed
    apply (Session.settled_killed_iff session).mp
    apply after entry.2 isRemoved
    rw [getElem?_withKilledAll, Option.mem_def.mp found]
    simp only [listed, if_true, Option.map_some, Option.mem_some_iff]
  · intro settled ref isRemoved session isSession
    rw [getElem?_withKilledAll] at isSession
    rcases Option.map_eq_some_iff.mp isSession with ⟨before, found, rfl⟩
    split_ifs with listed
    · rcases List.mem_map.mp listed with ⟨entry, member, rfl⟩
      exact (Session.settled_killed_iff before).mpr (settled entry member before found)
    · rw [removed_withKilledAll] at isRemoved
      rcases List.mem_append.mp isRemoved with old | new
      · exact noOrphans ref old before found
      · exact absurd new listed

theorem NoOrphans.withOpened (noOrphans : NoOrphans server) (wf : server.WellFormed)
    (vmName sessionId : String) (env : SpawnEnvironment) :
    NoOrphans (server.withOpened vmName sessionId env) := by
  intro ref isRemoved session found
  have bound := wf.removed ref isRemoved
  rw [Server.withOpened, List.getElem?_append_left bound] at found
  exact noOrphans ref isRemoved session found

theorem NoOrphans.updateObject (noOrphans : NoOrphans server) {ref : SessionRef}
    {change : Session → Session}
    (benign : ∀ session, server.objects[ref]? = some session →
      Session.Benign session (change session)) :
    NoOrphans (server.updateObject ref change) := by
  intro other isRemoved session isSession
  rw [getElem?_updateObject] at isSession
  rcases Option.map_eq_some_iff.mp isSession with ⟨before, found, rfl⟩
  have settled := noOrphans other isRemoved before found
  split_ifs with same
  · subst same
    exact (benign before found).settled settled
  · exact settled

/-- One step. -/
theorem noOrphans_next_iff (wf : server.WellFormed) (noOrphans : NoOrphans server)
    {action : Action} {target : Server} (step : next server action = some target) :
    NoOrphans target ↔ KillsSettled server action := by
  rcases next_cases wf step with ⟨none, vmName, sessionId, env, rfl⟩ |
    ⟨none, ref, change, rfl, benign⟩ | rfl
  · apply iff_of_true (noOrphans.withOpened wf vmName sessionId env)
    simp [KillsSettled, none]
  · apply iff_of_true (noOrphans.updateObject benign)
    simp [KillsSettled, none]
  · exact noOrphans_withKilledAll_iff noOrphans _

end Kills

/-- Along every run no shell is orphaned if and only if no step kills a session
that was closed while its shell runs. -/
theorem noOrphans_iff (actions : List Action) :
    Always next NoOrphans empty actions ↔ Throughout next KillsSettled empty actions := by
  apply always_iff_throughout (J := WellFormed)
  · intro server action target wf step
    exact wf.next step
  · intro server action target wf noOrphans step
    exact noOrphans_next_iff wf noOrphans step
  · exact wellFormed_empty
  · intro ref isRemoved
    cases isRemoved

/-- Opening a terminal without trouble. -/
def quietSpawn (now : Int) : SpawnEnvironment := ⟨now, none, none⟩

/-- The reader thread crashes, as it does on a failing broadcast, and the
session is killed while its shell runs. -/
def crashedReader : List Action :=
  [.openSession "web" "a1" (quietSpawn 0), .read 0 (.raised (.standardError "broadcast failed")),
    .kill "a1"]

theorem crashedReader_orphans : ¬ Always next NoOrphans empty crashedReader := by
  decide

end MultipassWebui.Terminals.Server
