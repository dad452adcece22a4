import MultipassWebui.Terminals.Invariant

/-!
# The reaper and the two processes

`SESSIONS` is a table of the process.  Terminals are opened in the web process,
and the deployed job runs in the worker, whose table stays empty: a run of the
job does nothing to the sessions of the web process.  In the web process it
would go by the creation time, which says nothing about input and output.

What a session has seen is recorded in a log beside the processes, since the
code keeps no such time.
-/

namespace MultipassWebui.Terminals

open MultipassWebui.Collections
open MultipassWebui.Effect
open MultipassWebui.Encoding
open MultipassWebui.Transition

/-! ## The history of the sessions -/

inductive Activity where
  | output
  | input
  | subscribed
  | unsubscribed
  deriving DecidableEq, Repr

structure LogEntry where
  time : Int
  ref : SessionRef
  activity : Activity
  deriving DecidableEq, Repr

structure Deployment where
  web : Server
  worker : Server
  clock : Int
  log : List LogEntry

namespace Deployment

def fresh : Deployment := ⟨Server.empty, Server.empty, 0, []⟩

/-- The entries of one session and kind. -/
def count (deployment : Deployment) (ref : SessionRef) (activity : Activity) : Nat :=
  deployment.log.countP fun entry => entry.ref = ref && entry.activity = activity

/-- The session has a subscriber. -/
def Attended (deployment : Deployment) (ref : SessionRef) : Prop :=
  deployment.count ref .unsubscribed < deployment.count ref .subscribed

instance (deployment : Deployment) (ref : SessionRef) : Decidable (deployment.Attended ref) :=
  inferInstanceAs (Decidable (_ < _))

/-- The session had a subscriber, input or output within the last 30 minutes.
Whoever subscribed or unsubscribed was a subscriber then. -/
def Active (deployment : Deployment) (ref : SessionRef) : Prop :=
  deployment.Attended ref ∨
    ∃ entry ∈ deployment.log, entry.ref = ref ∧ deployment.clock - IDLE_TTL ≤ entry.time

instance (deployment : Deployment) (ref : SessionRef) : Decidable (deployment.Active ref) :=
  inferInstanceAs (Decidable (_ ∨ ∃ entry ∈ deployment.log, _))

/-- The session is older than 30 minutes, and had no subscriber, input or output
for longer than that. -/
def Idle (deployment : Deployment) (ref : SessionRef) : Prop :=
  ¬ deployment.Active ref ∧
    ∃ session ∈ deployment.web.objects[ref]?,
      session.createdAt < deployment.clock - IDLE_TTL

instance (deployment : Deployment) (ref : SessionRef) : Decidable (deployment.Idle ref) :=
  inferInstanceAs (Decidable (_ ∧ ∃ session ∈ deployment.web.objects[ref]?, _))

def record (deployment : Deployment) (ref : SessionRef) (activity : Activity) : Deployment :=
  { deployment with log := deployment.log ++ [⟨deployment.clock, ref, activity⟩] }

/-! ## The steps -/

inductive Host where
  | web
  | worker
  deriving DecidableEq, Repr

/-- A run of `ReapIdleSessionsJob` in one of the processes. -/
def reapIn (host : Host) (subscribers : String → Int) (deployment : Deployment) : Deployment :=
  match host with
  | .web =>
      { deployment with
        web := (Server.reap ⟨deployment.clock, subscribers⟩ deployment.web).2 }
  | .worker =>
      { deployment with
        worker := (Server.reap ⟨deployment.clock, subscribers⟩ deployment.worker).2 }

inductive Action where
  | pass (duration : Nat)
  | openSession (vmName sessionId : String) (ptyError spawnError : Option String)
  | console (vmName : String) (vmError : Option RubyError) (sessionId : String)
      (ptyError spawnError : Option String)
  /-- The reader thread of a session takes a turn. -/
  | read (ref : SessionRef) (result : ReadResult)
  | input (ref : SessionRef) (data : Bytes) (binary : Bool)
  | subscribe (ref : SessionRef)
  | unsubscribe (ref : SessionRef)
  | shellExits (ref : SessionRef)
  | kill (sessionId : String)
  /-- The worker takes the job up. -/
  | reap (subscribers : String → Int)

/-- A step of the web process. -/
def onWeb (deployment : Deployment) (action : Server.Action) : Option Deployment :=
  (Server.next deployment.web action).map fun web => { deployment with web := web }

/-- A chunk that was read is output. -/
def recordRead (deployment : Deployment) (ref : SessionRef) : ReadResult → Deployment
  | .chunk _ => deployment.record ref .output
  | _ => deployment

def next : Step Deployment Action
  | deployment, .pass duration =>
      some { deployment with clock := deployment.clock + duration }
  | deployment, .openSession vmName sessionId ptyError spawnError =>
      deployment.onWeb (.openSession vmName sessionId ⟨deployment.clock, ptyError, spawnError⟩)
  | deployment, .console vmName vmError sessionId ptyError spawnError =>
      deployment.onWeb
        (.console vmName ⟨vmError, sessionId, ⟨deployment.clock, ptyError, spawnError⟩⟩)
  | deployment, .read ref result =>
      (deployment.onWeb (.read ref result)).map fun after => after.recordRead ref result
  | deployment, .input ref data binary =>
      some ({ deployment with
        web := (Server.onObject ref (Session.write data binary) deployment.web).2 }.record ref
          .input)
  | deployment, .subscribe ref => some (deployment.record ref .subscribed)
  | deployment, .unsubscribe ref =>
      if deployment.Attended ref then some (deployment.record ref .unsubscribed) else none
  | deployment, .shellExits ref => deployment.onWeb (.shellExits ref)
  | deployment, .kill sessionId => deployment.onWeb (.kill sessionId)
  | deployment, .reap subscribers => some (deployment.reapIn .worker subscribers)

/-! ## What a run of the job should do -/

/-- The active sessions of the web process are left as they were, and no idle one
stays registered. -/
def ReapsIdle (before after : Deployment) : Prop :=
  (∀ entry ∈ before.web.sessions.entries, before.Active entry.2 →
    entry ∈ after.web.sessions.entries ∧
      after.web.objects[entry.2]? = before.web.objects[entry.2]?) ∧
  ∀ entry ∈ after.web.sessions.entries, ¬ before.Idle entry.2

instance (before after : Deployment) : Decidable (ReapsIdle before after) :=
  inferInstanceAs (Decidable ((∀ entry ∈ before.web.sessions.entries, _) ∧
    ∀ entry ∈ after.web.sessions.entries, _))

/-! ## In the worker -/

theorem reap_empty {server : Server} (empty : server.sessions.entries = [])
    (env : ReapEnvironment) : Server.reap env server = (.ok [], server) := by
  rw [Server.reap, Exec.bind_ok (Exec.gets_apply _ _), empty]
  rfl

/-- Nothing in the worker opens a session, so the job finds none there. -/
theorem worker_of_reachable {deployment : Deployment}
    (reachable : Reachable next fresh deployment) : deployment.worker = Server.empty := by
  refine reachable.preserves (I := fun deployment => deployment.worker = Server.empty) ?_ rfl
  intro before action after here step
  have onWeb : ∀ {action : Server.Action} {after : Deployment},
      before.onWeb action = some after → after.worker = Server.empty := by
    intro action after step
    rcases Option.map_eq_some_iff.mp step with ⟨web, _, rfl⟩
    exact here
  cases action with
  | pass duration =>
      cases step
      exact here
  | openSession vmName sessionId ptyError spawnError => exact onWeb step
  | console vmName vmError sessionId ptyError spawnError => exact onWeb step
  | read ref result =>
      rcases Option.map_eq_some_iff.mp step with ⟨middle, served, rfl⟩
      have kept := onWeb served
      cases result <;> exact kept
  | input ref data binary =>
      cases step
      exact here
  | subscribe ref =>
      cases step
      exact here
  | unsubscribe ref =>
      simp only [next] at step
      split_ifs at step
      cases step
      exact here
  | shellExits ref => exact onWeb step
  | kill sessionId => exact onWeb step
  | reap subscribers =>
      cases step
      rw [reapIn, here]
      exact congrArg Prod.snd (reap_empty rfl _)

/-- After any history, a run of the deployed job changes nothing at all. -/
theorem reapIn_worker {deployment : Deployment} (reachable : Reachable next fresh deployment)
    (subscribers : String → Int) : deployment.reapIn .worker subscribers = deployment := by
  have worker := worker_of_reachable reachable
  have empty : deployment.worker.sessions.entries = [] := by
    rw [worker]
    rfl
  rw [reapIn, reap_empty empty]

/-- So it does what it should precisely if no session is idle. -/
theorem reapsIdle_iff {deployment after : Deployment}
    (reachable : Reachable next fresh deployment) {subscribers : String → Int}
    (ran : next deployment (.reap subscribers) = some after) :
    ReapsIdle deployment after ↔
      ∀ entry ∈ deployment.web.sessions.entries, ¬ deployment.Idle entry.2 := by
  cases ran
  rw [reapIn_worker reachable]
  exact ⟨fun reaps => reaps.2, fun noneIdle => ⟨fun _ member _ => ⟨member, rfl⟩, noneIdle⟩⟩

/-- A shell opened at noon, a chunk of output, and the job ten minutes later. -/
def tenMinutes : List Action :=
  [.openSession "web" "s1" none none, .read 0 (.chunk []), .pass (10 * 60 * 1000000)]

/-- A shell that nobody has looked at for 31 minutes. -/
def abandoned : List Action :=
  [.openSession "web" "s1" none none, .pass (31 * 60 * 1000000)]

theorem reapsIdle_iff_tenMinutes :
    ∃ deployment after, run next fresh tenMinutes = some deployment ∧
      next deployment (.reap fun _ => 0) = some after ∧
      (ReapsIdle deployment after ↔
        ∀ entry ∈ deployment.web.sessions.entries, ¬ deployment.Idle entry.2) :=
  ⟨_, _, rfl, rfl, reapsIdle_iff ⟨tenMinutes, rfl⟩ rfl⟩

theorem abandoned_stays :
    ∃ deployment after, run next fresh abandoned = some deployment ∧
      next deployment (.reap fun _ => 0) = some after ∧ ¬ ReapsIdle deployment after :=
  ⟨_, _, rfl, rfl, by decide⟩

/-! ## In the web process -/

theorem mem_sessions_withKilledAll {server : Server} {entries : List (String × SessionRef)}
    {entry : String × SessionRef} :
    entry ∈ (server.withKilledAll entries).sessions.entries ↔
      entry ∈ server.sessions.entries ∧ entry.1 ∉ entries.map Prod.fst := by
  induction entries generalizing server with
  | nil => simp [Server.withKilledAll]
  | cons killed rest ih =>
      have first : entry ∈ (server.withKilled killed.1 killed.2).sessions.entries ↔
          entry.1 ≠ killed.1 ∧ entry ∈ server.sessions.entries :=
        OrderedHash.mem_delete_iff
      rw [Server.withKilledAll, List.foldl_cons, ← Server.withKilledAll, ih, first, List.map_cons,
        List.mem_cons, not_or]
      tauto

/-- A registered entry is killed precisely if its session is reapable. -/
theorem mem_reaped_iff {server : Server} {env : ReapEnvironment} {session : Session}
    {entry : String × SessionRef} (member : entry ∈ server.sessions.entries)
    (found : session ∈ server.objects[entry.2]?) :
    entry.1 ∈ (Server.reaped env server server.sessions.entries).map Prod.fst ↔
      reapable env entry.1 session = true := by
  constructor
  · intro listed
    rcases List.mem_map.mp listed with ⟨other, otherReaped, sameKey⟩
    rcases List.mem_filter.mp otherReaped with ⟨otherMember, due⟩
    have same : other = entry :=
      List.inj_on_of_nodup_map server.sessions.nodup otherMember member sameKey
    rw [same, Option.mem_def.mp found, Option.any_some] at due
    exact due
  · intro due
    refine List.mem_map.mpr ⟨entry, List.mem_filter.mpr ⟨member, ?_⟩, rfl⟩
    rw [Option.mem_def.mp found, Option.any_some]
    exact due

/-- Run in the web process, the job goes by the age of a session and the count of
its subscribers, and both have to agree with what the session has seen. -/
theorem reapsIdle_web_iff {deployment : Deployment} (wf : deployment.web.WellFormed)
    (subscribers : String → Int) :
    ReapsIdle deployment (deployment.reapIn .web subscribers) ↔
      ∀ entry ∈ deployment.web.sessions.entries, ∀ session ∈ deployment.web.objects[entry.2]?,
        (reapable ⟨deployment.clock, subscribers⟩ entry.1 session = true →
          ¬ deployment.Active entry.2) ∧
        (deployment.Idle entry.2 →
          reapable ⟨deployment.clock, subscribers⟩ entry.1 session = true) := by
  let env : ReapEnvironment := ⟨deployment.clock, subscribers⟩
  let reaped := Server.reaped env deployment.web deployment.web.sessions.entries
  have web : (deployment.reapIn .web subscribers).web = deployment.web.withKilledAll reaped :=
    congrArg Prod.snd (Server.reap_apply wf env)
  constructor
  · rintro ⟨activeStay, idleGo⟩ entry member session found
    constructor
    · intro due active
      have stays := (activeStay entry member active).1
      rw [web, mem_sessions_withKilledAll] at stays
      exact stays.2 ((mem_reaped_iff member found).mpr due)
    · intro idle
      by_contra spared
      refine idleGo entry ?_ idle
      rw [web, mem_sessions_withKilledAll]
      exact ⟨member, fun listed => spared ((mem_reaped_iff member found).mp listed)⟩
  · intro agree
    constructor
    · intro entry member active
      rcases wf.entries entry member with ⟨session, found, key⟩
      have spared : ¬ reapable env entry.1 session = true := fun due =>
        (agree entry member session found).1 due active
      have unlisted : entry.1 ∉ reaped.map Prod.fst := fun listed =>
        spared ((mem_reaped_iff member found).mp listed)
      rw [web]
      refine ⟨mem_sessions_withKilledAll.mpr ⟨member, unlisted⟩, ?_⟩
      rw [Server.getElem?_withKilledAll, found, Option.map_some, if_neg]
      intro listed
      rcases List.mem_map.mp listed with ⟨other, otherReaped, sameRef⟩
      rcases wf.entries other (List.mem_filter.mp otherReaped).1 with
          ⟨otherSession, otherFound, otherKey⟩
      rw [sameRef, found] at otherFound
      cases otherFound
      exact unlisted (List.mem_map.mpr ⟨other, otherReaped, otherKey.symm.trans key⟩)
    · intro entry member idle
      rw [web, mem_sessions_withKilledAll] at member
      rcases wf.entries entry member.1 with ⟨session, found, _⟩
      have due := (agree entry member.1 session found).2 idle
      exact member.2 ((mem_reaped_iff member.1 found).mpr due)

end Deployment

end MultipassWebui.Terminals
