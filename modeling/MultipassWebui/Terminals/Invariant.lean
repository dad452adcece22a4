import MultipassWebui.Terminals.Lifecycle

/-!
# What every step of the registry keeps

One step opens a session, changes one session in a way that matters to nobody
else, or kills the sessions of some entries; `next_cases` says so once for all
actions.  The invariant is kept by each of the three: the lock is free, every
entry refers to a session of its id, and a terminal is closed only together
with its session.
-/

namespace MultipassWebui.Terminals

open MultipassWebui.Collections
open MultipassWebui.Effect
open MultipassWebui.Transition

namespace Session

/-- A spawned shell has a terminal, and the terminal is closed only together
with the session. -/
structure Sound (session : Session) : Prop where
  terminal : session.child.isSome = true → session.master.isSome = true
  closing : ∀ master, session.master = some master → master.descriptor = .closed →
    session.closed = true

theorem sound_of_opened {session : Session} {winsize : Winsize} {input : Encoding.Bytes}
    (isMaster : session.master = some ⟨.opened, winsize, input⟩) : Sound session where
  terminal _ := by rw [isMaster]; rfl
  closing master equal closed := by
    rw [isMaster] at equal
    cases equal
    cases closed

theorem sound_of_nil {session : Session} (noMaster : session.master = none)
    (noChild : session.child = none) : Sound session where
  terminal present := by simp [noChild] at present
  closing master equal := by simp [noMaster] at equal

theorem Sound.killed {session : Session} (sound : Sound session) : Sound session.killed where
  terminal present := by
    have child : session.child.isSome = true := by
      unfold Session.killed terminated at present
      split_ifs at present
      · exact present
      · simpa [closeDescriptors] using present
    have master := sound.terminal child
    unfold Session.killed terminated
    split_ifs <;> simpa [closeDescriptors] using master
  closing _ _ _ := session.killed_closed

theorem Sound.exited {session : Session} (sound : Sound session) : Sound session.exited where
  terminal present := sound.terminal (by simpa [Session.exited] using present)
  closing := sound.closing

/-- A turn of the reader thread changes the scrollback and may close. -/
theorem afterRead_eq {session : Session} (result : ReadResult) (alive : session.closed = false) :
    ∃ scrollback closed, session.afterRead result =
      { session with scrollback := scrollback, closed := closed } := by
  have waiting : Reader.Waiting (Reader.start session) := ⟨rfl, alive⟩
  cases result with
  | waitReadable =>
      refine ⟨session.scrollback, session.closed, ?_⟩
      rw [afterRead, Reader.next_waitReadable waiting]
      rfl
  | nil =>
      refine ⟨session.scrollback, true, ?_⟩
      rw [afterRead, Reader.next_nil waiting]
      rfl
  | chunk bytes =>
      by_cases fits : (session.scrollback ++ bytes).length ≤ SCROLLBACK_CAP
      · refine ⟨session.scrollback ++ bytes, session.closed, ?_⟩
        rw [afterRead, Reader.next_chunk_of_le waiting fits]
        rfl
      · refine ⟨session.scrollback ++ bytes, true, ?_⟩
        rw [afterRead, Reader.next_chunk_of_lt waiting (Nat.lt_of_not_le fits)]
        rfl
  | raised error =>
      refine ⟨session.scrollback, true, ?_⟩
      cases isIoError : error.isIoError with
      | true =>
          rw [afterRead, Reader.next_ioError waiting isIoError]
          rfl
      | false =>
          rw [afterRead, Reader.next_otherError waiting isIoError]
          rfl

theorem Sound.afterRead {session : Session} (sound : Sound session) (result : ReadResult)
    (alive : session.closed = false) : Sound (session.afterRead result) := by
  rcases afterRead_eq result alive with ⟨scrollback, closed, read⟩
  rw [read]
  constructor
  · exact sound.terminal
  · intro master isMaster isClosed
    have wasClosed := sound.closing master isMaster isClosed
    rw [alive] at wasClosed
    cases wasClosed

/-- The shell has exited by itself or was sent TERM, if there was one. -/
def Settled (session : Session) : Prop :=
  ∀ child ∈ session.child, child.running = false ∨ child.termSent = true

instance (session : Session) : Decidable session.Settled :=
  inferInstanceAs (Decidable (∀ child ∈ session.child, _))

/-- What input, output, an end of the reader thread or of the shell may change. -/
structure Benign (before after : Session) : Prop where
  sessionId : after.sessionId = before.sessionId
  opening : after.Open → before.Open
  sound : before.Sound → after.Sound
  settled : before.Settled → after.Settled

theorem benign_afterRead {session : Session} (result : ReadResult)
    (alive : session.closed = false) : Benign session (session.afterRead result) := by
  rcases afterRead_eq result alive with ⟨scrollback, closed, read⟩
  refine ⟨?_, ?_, fun sound => sound.afterRead result alive, ?_⟩
  · rw [read]
  · rw [read]
    exact fun opened => ⟨alive, opened.2⟩
  · intro settled
    rw [read]
    exact settled

theorem benign_exited (session : Session) : Benign session session.exited := by
  refine ⟨rfl, fun opened => opened, Sound.exited, ?_⟩
  intro _ child isChild
  left
  rcases Option.map_eq_some_iff.mp isChild with ⟨_, _, rfl⟩
  rfl

/-- A kill settles every session that was not closed before. -/
theorem settled_killed_iff (session : Session) :
    session.killed.Settled ↔ (session.closed = true → session.Settled) := by
  cases closed : session.closed with
  | true => simp [killed, terminated, closed, closeDescriptors, Settled]
  | false =>
      have settled : session.killed.Settled := by
        intro child isChild
        simp only [killed, terminated, closed, closeDescriptors, Bool.false_eq_true, if_false]
          at isChild
        rcases Option.map_eq_some_iff.mp isChild with ⟨before, _, rfl⟩
        cases running : before.running <;> simp [running]
      simp [settled]

/-- A second kill changes nothing. -/
theorem killed_killed (session : Session) : session.killed.killed = session.killed := by
  have closed := session.killed_closed
  rw [Session.killed, Session.terminated, if_pos closed, Session.killed, Session.closeDescriptors,
    Session.closeDescriptors]
  simp [Function.comp_def]

theorem not_open_killed (session : Session) : ¬ session.killed.Open := by
  rintro ⟨alive, _⟩
  rw [session.killed_closed] at alive
  cases alive

theorem benign_killed (session : Session) : Benign session session.killed where
  sessionId := session.killed_sessionId
  opening opened := absurd opened session.not_open_killed
  sound := Sound.killed
  settled settled := (settled_killed_iff session).mpr fun _ => settled

end Session

namespace Server

/-- The lock is free, entries refer to sessions of their id, sessions are sound
and what was removed is among the objects. -/
structure WellFormed (server : Server) : Prop where
  free : server.mutexHeld = false
  entries : ∀ entry ∈ server.sessions.entries,
    ∃ session, server.objects[entry.2]? = some session ∧ session.sessionId = entry.1
  sound : ∀ session ∈ server.objects, session.Sound
  removed : ∀ ref ∈ server.removed, ref < server.objects.length

theorem wellFormed_empty : empty.WellFormed where
  free := rfl
  entries _ member := absurd member List.not_mem_nil
  sound _ member := absurd member List.not_mem_nil
  removed _ member := absurd member List.not_mem_nil

/-- The server after the sessions of some entries were killed. -/
def withKilledAll (entries : List (String × SessionRef)) (server : Server) : Server :=
  entries.foldl (fun server entry => server.withKilled entry.1 entry.2) server

section Preservation

variable {server : Server} {ref : SessionRef}

theorem WellFormed.session (wf : server.WellFormed) {sessionId : String}
    (registered : server.sessions.get? sessionId = some ref) :
    ∃ session, server.objects[ref]? = some session ∧ session.sessionId = sessionId :=
  wf.entries _ (OrderedHash.get?_eq_some_iff.mp registered)

theorem sound_openedSession (vmName sessionId : String) (env : SpawnEnvironment) :
    (openedSession vmName sessionId env).Sound := by
  unfold openedSession
  rcases Session.start_cases env (Session.new vmName sessionId env.now) with
    started | ⟨error, failed | failed⟩
  · rw [started]
    exact Session.sound_of_opened rfl
  · rw [failed]
    exact Session.sound_of_nil rfl rfl
  · rw [failed]
    exact Session.sound_of_opened rfl

theorem openedSession_sessionId (vmName sessionId : String) (env : SpawnEnvironment) :
    (openedSession vmName sessionId env).sessionId = sessionId := by
  unfold openedSession
  rcases Session.start_cases env (Session.new vmName sessionId env.now) with
    started | ⟨error, failed | failed⟩
  · rw [started]
    rfl
  · rw [failed]
    rfl
  · rw [failed]
    rfl

theorem WellFormed.withOpened (wf : server.WellFormed) (vmName sessionId : String)
    (env : SpawnEnvironment) : (server.withOpened vmName sessionId env).WellFormed := by
  constructor
  · exact wf.free
  · rintro ⟨key, ref⟩ member
    rcases OrderedHash.mem_insert_iff.mp member with ⟨rfl, rfl⟩ | ⟨_, old⟩
    · exact ⟨openedSession vmName key env, by simp [Server.withOpened],
        openedSession_sessionId vmName key env⟩
    · rcases wf.entries _ old with ⟨session, found, key⟩
      refine ⟨session, ?_, key⟩
      rcases List.getElem?_eq_some_iff.mp found with ⟨bound, _⟩
      rw [Server.withOpened, List.getElem?_append_left bound]
      exact found
  · intro session member
    rcases List.mem_append.mp member with old | new
    · exact wf.sound session old
    · rw [List.mem_singleton] at new
      rw [new]
      exact sound_openedSession vmName sessionId env
  · intro ref member
    have bound := wf.removed ref member
    simp only [Server.withOpened, List.length_append]
    exact Nat.lt_add_right _ bound

theorem WellFormed.updateObject (wf : server.WellFormed) {change : Session → Session}
    (benign : ∀ session, server.objects[ref]? = some session →
      Session.Benign session (change session)) :
    (server.updateObject ref change).WellFormed := by
  constructor
  · exact wf.free
  · intro entry member
    rcases wf.entries entry member with ⟨session, found, key⟩
    rw [getElem?_updateObject, found]
    by_cases same : ref = entry.2
    · subst same
      refine ⟨change session, by simp, ?_⟩
      rw [(benign session found).sessionId, key]
    · exact ⟨session, by simp [same], key⟩
  · intro session member
    rcases List.getElem?_of_mem member with ⟨other, isSession⟩
    rw [getElem?_updateObject] at isSession
    rcases Option.map_eq_some_iff.mp isSession with ⟨before, found, rfl⟩
    have sound := wf.sound before (List.mem_of_getElem? found)
    split_ifs with same
    · subst same
      exact (benign before found).sound sound
    · exact sound
  · intro other member
    simp only [Server.updateObject, List.length_modify]
    exact wf.removed other member

theorem WellFormed.withKilled (wf : server.WellFormed) {sessionId : String}
    (bound : ref < server.objects.length) : (server.withKilled sessionId ref).WellFormed := by
  have updated : (server.updateObject ref Session.killed).WellFormed :=
    wf.updateObject fun session _ => Session.benign_killed session
  constructor
  · exact wf.free
  · intro entry member
    exact updated.entries entry (OrderedHash.mem_delete_iff.mp member).2
  · exact updated.sound
  · intro other member
    rcases List.mem_append.mp member with old | new
    · exact updated.removed other old
    · rw [List.mem_singleton] at new
      rw [new]
      simpa [Server.withKilled] using bound

theorem WellFormed.withKilledAll (wf : server.WellFormed) {entries : List (String × SessionRef)}
    (bounds : ∀ entry ∈ entries, entry.2 < server.objects.length) :
    (server.withKilledAll entries).WellFormed := by
  induction entries generalizing server with
  | nil => exact wf
  | cons entry rest ih =>
      apply ih (wf.withKilled (bounds entry List.mem_cons_self))
      intro other member
      simp only [Server.withKilled, List.length_modify]
      exact bounds other (List.mem_cons_of_mem _ member)

/-- The objects of the server after kills. -/
theorem getElem?_withKilledAll (entries : List (String × SessionRef)) (ref : SessionRef) :
    (server.withKilledAll entries).objects[ref]? =
      (server.objects[ref]?).map fun session =>
        if ref ∈ entries.map Prod.snd then session.killed else session := by
  induction entries generalizing server with
  | nil => simp [withKilledAll]
  | cons entry rest ih =>
      rw [withKilledAll, List.foldl_cons, ← withKilledAll, ih, withKilled, List.getElem?_modify]
      cases server.objects[ref]? with
      | none => rfl
      | some session =>
          by_cases here : entry.2 = ref
          · by_cases later : ref ∈ rest.map Prod.snd
            · simp [here, later, Session.killed_killed]
            · simp [here, later]
          · have listed : ref ∈ (entry :: rest).map Prod.snd ↔ ref ∈ rest.map Prod.snd := by
              rw [List.map_cons, List.mem_cons]
              exact or_iff_right fun equal => here equal.symm
            simp only [here, if_false, listed]
            rfl

theorem WellFormed.bound (wf : server.WellFormed) {entry : String × SessionRef}
    (member : entry ∈ server.sessions.entries) : entry.2 < server.objects.length := by
  rcases wf.entries entry member with ⟨session, found, _⟩
  exact (List.getElem?_eq_some_iff.mp found).1

/-! ## What a step does -/

/-- The entries whose sessions a reaping kills. -/
def reaped (env : ReapEnvironment) (server : Server) (entries : List (String × SessionRef)) :
    List (String × SessionRef) :=
  entries.filter fun entry => (server.objects[entry.2]?).any (reapable env entry.1)

/-- The entries whose sessions a step kills. -/
def killedBy (server : Server) : Action → List (String × SessionRef)
  | .kill sessionId => (server.sessions.get? sessionId).toList.map fun ref => (sessionId, ref)
  | .killObject sessionId => (server.sessions.get? sessionId).toList.map fun ref => (sessionId, ref)
  | .reap env => reaped env server server.sessions.entries
  | _ => []

theorem killedBy_registered {action : Action} {entry : String × SessionRef}
    (member : entry ∈ killedBy server action) : entry ∈ server.sessions.entries := by
  have single : ∀ sessionId, entry ∈ (server.sessions.get? sessionId).toList.map
      (fun ref => (sessionId, ref)) → entry ∈ server.sessions.entries := by
    intro sessionId listed
    rcases List.mem_map.mp listed with ⟨ref, found, rfl⟩
    exact OrderedHash.get?_eq_some_iff.mp (by simpa using found)
  cases action with
  | kill sessionId => exact single sessionId member
  | killObject sessionId => exact single sessionId member
  | reap env => exact (List.mem_filter.mp member).1
  | openSession vmName sessionId env => cases member
  | read ref result => cases member
  | shellExits ref => cases member
  | console vmName env => cases member

/-- A kill of one session leaves the other entries and their sessions alone. -/
theorem WellFormed.entry_withKilled (wf : server.WellFormed) {sessionId other : String}
    {otherRef : SessionRef} (registered : (sessionId, ref) ∈ server.sessions.entries)
    (otherRegistered : (other, otherRef) ∈ server.sessions.entries)
    (different : other ≠ sessionId) :
    (other, otherRef) ∈ (server.withKilled sessionId ref).sessions.entries ∧
      (server.withKilled sessionId ref).objects[otherRef]? = server.objects[otherRef]? := by
  rcases wf.entries _ registered with ⟨session, found, key⟩
  rcases wf.entries _ otherRegistered with ⟨otherSession, otherFound, otherKey⟩
  have apart : ref ≠ otherRef := by
    rintro rfl
    rw [found] at otherFound
    cases otherFound
    exact different (otherKey.symm.trans key)
  refine ⟨OrderedHash.mem_delete_iff.mpr ⟨different, otherRegistered⟩, ?_⟩
  rw [Server.withKilled, List.getElem?_modify]
  simp [apart]

theorem WellFormed.killObject (wf : server.WellFormed) {sessionId : String}
    (registered : (sessionId, ref) ∈ server.sessions.entries) :
    killObject ref server = (.ok ⟨⟩, server.withKilled sessionId ref) := by
  rcases wf.entries _ registered with ⟨session, found, key⟩
  change session.sessionId = sessionId at key
  subst key
  exact killObject_free wf.free found (OrderedHash.get?_eq_some_iff.mpr registered)

theorem reaped_cons_pos {env : ReapEnvironment} {sessionId : String}
    (due : (server.objects[ref]?).any (reapable env sessionId) = true)
    (rest : List (String × SessionRef)) :
    reaped env server ((sessionId, ref) :: rest) = (sessionId, ref) :: reaped env server rest :=
  List.filter_cons_of_pos due

theorem reaped_cons_neg {env : ReapEnvironment} {sessionId : String}
    (spared : ¬ (server.objects[ref]?).any (reapable env sessionId) = true)
    (rest : List (String × SessionRef)) :
    reaped env server ((sessionId, ref) :: rest) = reaped env server rest :=
  List.filter_cons_of_neg spared

/-- The loop of the reaper kills the sessions that are to be reaped. -/
theorem reapEach_apply (env : ReapEnvironment) {entries : List (String × SessionRef)}
    (wf : server.WellFormed) (registered : entries ⊆ server.sessions.entries)
    (distinct : (entries.map Prod.fst).Nodup) :
    reapEach env entries server =
      (.ok ((reaped env server entries).map Prod.fst),
        server.withKilledAll (reaped env server entries)) := by
  induction entries generalizing server with
  | nil => rfl
  | cons entry rest ih =>
      rcases entry with ⟨sessionId, ref⟩
      rcases List.nodup_cons.mp distinct with ⟨fresh, distinctRest⟩
      have here := registered List.mem_cons_self
      have later : rest ⊆ server.sessions.entries := fun _ member =>
        registered (List.mem_cons_of_mem _ member)
      have others : ∀ entry ∈ rest,
          entry ∈ (server.withKilled sessionId ref).sessions.entries ∧
            (server.withKilled sessionId ref).objects[entry.2]? = server.objects[entry.2]? := by
        intro entry member
        apply wf.entry_withKilled here (later member)
        rintro rfl
        exact fresh (List.mem_map.mpr ⟨entry, member, rfl⟩)
      have sameReaped :
          reaped env (server.withKilled sessionId ref) rest = reaped env server rest := by
        apply List.filter_congr
        intro entry member
        rw [(others entry member).2]
      rw [reapEach, Exec.bind_ok (Exec.gets_apply _ _)]
      by_cases due : (server.objects[ref]?).any (reapable env sessionId) = true
      · have looped := ih (wf.withKilled (wf.bound here))
          (fun entry member => (others entry member).1) distinctRest
        rw [sameReaped] at looped
        rw [if_pos due, Exec.bind_ok (wf.killObject here), Exec.bind_ok looped,
          reaped_cons_pos due]
        rfl
      · rw [if_neg due, ih wf later distinctRest, reaped_cons_neg due]

theorem reap_apply (wf : server.WellFormed) (env : ReapEnvironment) :
    reap env server =
      (.ok ((killedBy server (.reap env)).map Prod.fst),
        server.withKilledAll (killedBy server (.reap env))) := by
  rw [reap, Exec.bind_ok (Exec.gets_apply _ _)]
  exact reapEach_apply env wf (List.Subset.refl _) server.sessions.nodup

/-- Without the VM there is no page, and nothing changes. -/
theorem console_of_error {vmName : String} {env : ConsoleEnvironment} {error : RubyError}
    (failed : env.vmError = some error) :
    (console vmName env server).2 = server ∧
      ∀ sessionId, (console vmName env server).1 ≠ .ok (.page sessionId) := by
  have raised : getVmInfo env server = (.error error, server) := by
    rw [getVmInfo, failed]
    rfl
  rw [console, Exec.rescue, Exec.bind_error raised]
  dsimp only
  split_ifs with handled
  · exact ⟨rfl, fun _ equal => by cases equal⟩
  · exact ⟨rfl, fun _ equal => by cases equal⟩

/-- The first registered session of the VM is handed out as it is. -/
theorem console_of_existing (free : server.mutexHeld = false) {vmName : String}
    {env : ConsoleEnvironment} (found : env.vmError = none) {existing : String}
    (first : (server.keysForVm vmName).head? = some existing) :
    console vmName env server = (.ok (.page existing), server) := by
  have got : getVmInfo env server = (.ok ⟨⟩, server) := by
    rw [getVmInfo, found]
    rfl
  rw [console, Exec.rescue, Exec.bind_ok got, Exec.bind_ok (forVm_apply free vmName), first]
  rfl

/-- Otherwise a session is opened. -/
theorem console_of_none (free : server.mutexHeld = false) {vmName : String}
    {env : ConsoleEnvironment} (found : env.vmError = none)
    (nothing : (server.keysForVm vmName).head? = none) :
    (console vmName env server).2 = server.withOpened vmName env.sessionId env.spawn ∧
      ∀ sessionId, (console vmName env server).1 = .ok (.page sessionId) →
        sessionId = env.sessionId ∧ openedSession vmName env.sessionId env.spawn =
          (Session.new vmName env.sessionId env.spawn.now).spawned := by
  have got : getVmInfo env server = (.ok ⟨⟩, server) := by
    rw [getVmInfo, found]
    rfl
  have opened := openSession_apply free vmName env.sessionId env.spawn
  rw [console, Exec.rescue, Exec.bind_ok got, Exec.bind_ok (forVm_apply free vmName), nothing]
  dsimp only
  rcases Session.start_cases env.spawn (Session.new vmName env.sessionId env.spawn.now) with
    started | ⟨error, failed⟩
  · rw [started] at opened
    rw [Exec.bind_ok opened]
    refine ⟨rfl, fun sessionId equal => ?_⟩
    cases equal
    exact ⟨rfl, congrArg Prod.snd started⟩
  · have outcome : (Session.start env.spawn
        (Session.new vmName env.sessionId env.spawn.now)).1 = .error error := by
      rcases failed with failed | failed <;> rw [failed]
    rw [outcome] at opened
    rw [Exec.bind_error opened]
    dsimp only
    split_ifs
    · exact ⟨rfl, fun _ equal => by cases equal⟩
    · exact ⟨rfl, fun _ equal => by cases equal⟩

theorem kill_state (wf : server.WellFormed) (sessionId : String) :
    (kill sessionId server).2 = server.withKilledAll (killedBy server (.kill sessionId)) := by
  cases registered : server.sessions.get? sessionId with
  | none =>
      rw [kill_of_none wf.free registered]
      simp [killedBy, registered, withKilledAll]
  | some ref =>
      rcases wf.session registered with ⟨session, found, _⟩
      rw [kill_of_some wf.free registered found]
      simp [killedBy, registered, withKilledAll]

/-- What one step can do: open a session, change one session in a benign way,
or kill the sessions of some entries. -/
theorem next_cases (wf : server.WellFormed) {action : Action} {target : Server}
    (step : next server action = some target) :
    (killedBy server action = [] ∧ ∃ vmName sessionId env,
      target = server.withOpened vmName sessionId env) ∨
    (killedBy server action = [] ∧ ∃ ref change, target = server.updateObject ref change ∧
      ∀ session, server.objects[ref]? = some session → Session.Benign session (change session)) ∨
    target = server.withKilledAll (killedBy server action) := by
  cases action with
  | openSession vmName sessionId env =>
      cases step
      left
      exact ⟨rfl, vmName, sessionId, env, congrArg Prod.snd (openSession_apply wf.free _ _ _)⟩
  | read ref result =>
      simp only [next] at step
      split_ifs at step with reading
      cases step
      right; left
      refine ⟨rfl, ref, _, rfl, ?_⟩
      intro session found
      rw [found, Option.any_some, Session.reading, Bool.and_eq_true, Bool.not_eq_true'] at reading
      exact Session.benign_afterRead result reading.1
  | shellExits ref =>
      cases step
      right; left
      exact ⟨rfl, ref, _, rfl, fun session _ => Session.benign_exited session⟩
  | kill sessionId =>
      cases step
      right; right
      exact kill_state wf sessionId
  | killObject sessionId =>
      rcases Option.map_eq_some_iff.mp step with ⟨ref, registered, rfl⟩
      right; right
      rw [wf.killObject (OrderedHash.get?_eq_some_iff.mp registered)]
      simp [killedBy, registered, withKilledAll]
  | reap env =>
      cases step
      right; right
      rw [reap_apply wf env]
  | console vmName env =>
      cases step
      cases found : env.vmError with
      | some error =>
          right; right
          exact (console_of_error found).1
      | none =>
          cases first : (server.keysForVm vmName).head? with
          | some existing =>
              right; right
              rw [console_of_existing wf.free found first]
              rfl
          | none =>
              left
              exact ⟨rfl, vmName, env.sessionId, env.spawn, (console_of_none wf.free found first).1⟩

theorem WellFormed.next (wf : server.WellFormed) {action : Action} {target : Server}
    (step : next server action = some target) : target.WellFormed := by
  rcases next_cases wf step with
    ⟨_, vmName, sessionId, env, rfl⟩ | ⟨_, ref, change, rfl, benign⟩ | rfl
  · exact wf.withOpened vmName sessionId env
  · exact wf.updateObject benign
  · exact wf.withKilledAll fun entry member => wf.bound (killedBy_registered member)

/-- The session under a reference is there and cannot be written to. -/
def Shut (server : Server) (ref : SessionRef) : Prop :=
  ∃ session, server.objects[ref]? = some session ∧ ¬ session.Open

theorem Shut.updateObject {other : SessionRef} (shut : server.Shut other)
    {change : Session → Session}
    (benign : ∀ session, server.objects[ref]? = some session →
      Session.Benign session (change session)) :
    (server.updateObject ref change).Shut other := by
  rcases shut with ⟨session, found, notOpen⟩
  refine ⟨if ref = other then change session else session, ?_, ?_⟩
  · rw [getElem?_updateObject, found, Option.map_some]
  · split_ifs with same
    · subst same
      exact fun opened => notOpen ((benign session found).opening opened)
    · exact notOpen

/-- A session that cannot be written to never can be again. -/
theorem Shut.next (wf : server.WellFormed) {other : SessionRef} (shut : server.Shut other)
    {action : Action} {target : Server} (step : next server action = some target) :
    target.Shut other := by
  rcases next_cases wf step with
    ⟨_, vmName, sessionId, env, rfl⟩ | ⟨_, ref, change, rfl, benign⟩ | rfl
  · rcases shut with ⟨session, found, notOpen⟩
    have bound := (List.getElem?_eq_some_iff.mp found).1
    refine ⟨session, ?_, notOpen⟩
    rw [withOpened, List.getElem?_append_left bound]
    exact found
  · exact shut.updateObject benign
  · rcases shut with ⟨session, found, notOpen⟩
    refine ⟨_, by rw [getElem?_withKilledAll, found]; rfl, ?_⟩
    split_ifs
    · exact session.not_open_killed
    · exact notOpen

theorem WellFormed.reachable (wf : server.WellFormed) {target : Server}
    (reachable : Reachable Server.next server target) : target.WellFormed :=
  reachable.preserves (fun _ _ _ wf step => WellFormed.next wf step) wf

theorem Shut.reachable (wf : server.WellFormed) {other : SessionRef} (shut : server.Shut other)
    {target : Server} (reachable : Reachable Server.next server target) : target.Shut other := by
  have keep : ∀ state action target, state.WellFormed ∧ state.Shut other →
      Server.next state action = some target → target.WellFormed ∧ target.Shut other := by
    rintro state action target ⟨wf, shut⟩ step
    exact ⟨wf.next step, shut.next wf step⟩
  exact (reachable.preserves keep ⟨wf, shut⟩).2

theorem wellFormed_of_reachable (reachable : Reachable next empty server) : server.WellFormed :=
  wellFormed_empty.reachable reachable

end Preservation

/-- The server after one shell was opened. -/
def oneShell : Server := empty.withOpened "web" "a1" ⟨0, none, none⟩

theorem wellFormed_oneShell : oneShell.WellFormed := wellFormed_empty.withOpened "web" "a1" _

end Server

end MultipassWebui.Terminals
