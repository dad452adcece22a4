import MultipassWebui.Multipass.Names
import MultipassWebui.Transition.Pool

/-!
# Launches at the same time

Every request has a client of its own, and a launch with a cloud-init file runs
for minutes.  It is split into the steps between which other launches can move:
read the template, write the staged copy, let multipass read the staged path,
remove the staged copy.  The staged path is made of the base name of the
template alone, so two launches can have the same one.  A launch that runs
alone does what `launch_vm` does.
-/

namespace MultipassWebui.Multipass

open MultipassWebui.Collections
open MultipassWebui.Effect
open MultipassWebui.Effect.Value (nilOrEmpty requireText)
open MultipassWebui.Encoding
open MultipassWebui.Transition

abbrev Files := OrderedHash String (List UInt8)

/-- Where a launch stands. -/
inductive Phase where
  | started
  /-- The template was read. -/
  | loaded (data : List UInt8)
  /-- The staged copy is written, and multipass is running. -/
  | staged
  /-- Multipass has read the staged path, or ended without reading it. -/
  | launched
  | finished
  /-- The template could not be read or the copy not be written; whether a part
  of the copy was written. -/
  | raised (left : Bool)
  deriving DecidableEq, Repr

/-- A launch with a cloud-init file. -/
structure Launch where
  env : Environment
  template : String
  phase : Phase
  /-- What multipass found at the staged path. -/
  seen : Option (Option (List UInt8))

namespace Launch

def enter (launch : Launch) (phase : Phase) : Launch := { launch with phase := phase }

/-- The path of its staged copy. -/
def path (launch : Launch) : String := stagedPath launch.env launch.template

/-- The next step of a launch. -/
def step (launch : Launch) (files : Files) : Option (Launch × Files) :=
  match launch.phase with
  | .started =>
      match files.get? launch.template, launch.env.readError launch.template with
      | some data, none => some (launch.enter (.loaded data), files)
      | _, _ => some (launch.enter (.raised false), files)
  | .loaded data =>
      match launch.env.writeError launch.path with
      | none => some (launch.enter .staged, files.insert launch.path data)
      | some ⟨_, none⟩ => some (launch.enter (.raised false), files)
      | some ⟨_, some written⟩ =>
          some (launch.enter (.raised true), files.insert launch.path written)
  | .staged => some ({ launch.enter .launched with seen := some (files.get? launch.path) }, files)
  | .launched =>
      some (launch.enter .finished,
        if launch.env.removeFails launch.path then files else files.delete launch.path)
  | .finished => none
  | .raised _ => none

/-- Multipass fails before it reads the staged path. -/
def skip (launch : Launch) (files : Files) : Option (Launch × Files) :=
  match launch.phase with
  | .staged => some (launch.enter .launched, files)
  | _ => none

/-- The request has returned or raised. -/
def Done (launch : Launch) : Prop := launch.phase = .finished ∨ ∃ left, launch.phase = .raised left

/-- The copy of the launch, or a part of it, was written. -/
def Wrote (launch : Launch) : Prop :=
  launch.phase = .staged ∨ launch.phase = .launched ∨ launch.phase = .finished ∨
    launch.phase = .raised true

/-- The copy of the launch is in use. -/
def Holds (launch : Launch) : Prop := launch.phase = .staged ∨ launch.phase = .launched

instance (launch : Launch) : Decidable launch.Holds := inferInstanceAs (Decidable (_ ∨ _))

end Launch

abbrev LaunchPool := Pool Files Launch

inductive LaunchAction where
  /-- A request comes in. -/
  | begin (env : Environment) (template : String)
  /-- The launch at a position takes its next step. -/
  | step (i : Nat)
  /-- Multipass fails before it reads the staged path of the launch. -/
  | skip (i : Nat)

def launchNext : Step LaunchPool LaunchAction
  | pool, .begin env template =>
      some { pool with threads := pool.threads ++ [⟨env, template, .started, none⟩] }
  | pool, .step i => Pool.stepAt Launch.step pool i
  | pool, .skip i => Pool.stepAt Launch.skip pool i

/-- No launch is running. -/
def noLaunches (files : Files) : LaunchPool := ⟨files, []⟩

/-! ## A launch that runs alone -/

section

variable (env : Environment) (host : Host)

/-- What happens to the files once the copy was staged, or could not be. -/
def afterRun (staged : Except RubyError String × Host) : Files :=
  match staged with
  | (.error _, after) => after.files
  | (.ok dst, after) => if env.removeFails dst then after.files else after.files.delete dst

theorem copyForSnap_staged {srcPath dst : String} {after : Host}
    (copied : copyForSnap env srcPath host = (.ok dst, after)) :
    after.lastCloudInitTmp = some dst := by
  unfold copyForSnap at copied
  split at copied
  · cases copied
  · cases copied
  · simp only at copied
    split at copied
    · cases copied
    · cases copied
    · obtain ⟨same, rfl⟩ := Prod.mk.inj copied
      exact congrArg some (Except.ok.inj same)

/-- The staged copy is removed, unless that fails, and the rest of the host is kept. -/
theorem removeStaged_staged {dst : String} (staged : host.lastCloudInitTmp = some dst) :
    ∃ after, removeStaged env host = (.ok ⟨⟩, after) ∧ after.commands = host.commands ∧
      after.filesFound = host.filesFound ∧
      after.files = if env.removeFails dst then host.files else host.files.delete dst := by
  unfold removeStaged
  simp only [staged]
  split
  · exact ⟨host, rfl, rfl, rfl, rfl⟩
  · exact ⟨_, rfl, rfl, rfl, rfl⟩

theorem cloudInitFlags_text {template : String} (given : template ≠ "") :
    cloudInitFlags env (.string template) = copyForSnap env template >>= fun tmpFile =>
      pure [.literal "--cloud-init", .given tmpFile] := by
  have nonempty : nilOrEmpty (.string template) = .ok false :=
    congrArg Except.ok (decide_eq_false given)
  unfold cloudInitFlags
  rw [nonempty]
  rfl

/-- A launch whose name and release are accepted stages its copy, issues its command
and removes the copy. -/
theorem launchVm_state {arguments : LaunchArguments} {template name : String} {release : Word}
    (file : arguments.cloudInitFile = .string template) (given : template ≠ "")
    (named : LaunchesAs env arguments.name name) (released : ReleasesAs arguments.release release) :
    (launchVm env arguments host).2 =
      match copyForSnap env template host with
      | (.error _, after) => after
      | (.ok dst, after) =>
          let argv := launchArgv env arguments name [.literal "--cloud-init", .given dst] release
          (removeStaged env (after.issue argv (succeeds env after.commands.length argv))).2 := by
  unfold launchVm
  rcases launchName_apply env host arguments.name with ⟨text, isText, read⟩ | ⟨unnamed, _⟩
  · cases isText.unique named
    rw [Exec.bind_ok read, Exec.bind_apply, Exec.ofExcept_apply]
    rcases blank : nilOrEmpty arguments.release with raised | isBlank
    · rcases released with ⟨isOk, _⟩ | ⟨text, isText, _⟩
      · cases blank.symm.trans isOk
      · rw [isText] at blank
        cases blank
    · simp only
      rw [file]
      rcases copied : copyForSnap env template host with ⟨raised | dst, after⟩
      · have flags : cloudInitFlags env (.string template) host = (.error raised, after) := by
          rw [cloudInitFlags_text env given]
          exact Exec.bind_error copied _
        rw [Exec.bind_error flags]
      · have flags : cloudInitFlags env (.string template) host =
            (.ok [.literal "--cloud-init", .given dst], after) := by
          rw [cloudInitFlags_text env given]
          exact Exec.bind_ok copied _
        rw [Exec.bind_ok flags, Exec.bind_state fun _ _ => rfl]
        rcases releaseWord_apply after arguments.release with ⟨word, isWord, read⟩ | ⟨none, _⟩
        · cases isWord.unique released
          rw [Exec.ensure_state, Exec.bind_ok read, run_state]
          rfl
        · exact absurd released (none release)
  · exact absurd named (unnamed name)

/-- A launch with a staged copy issues one command, which finds the files as they are
with the copy. -/
theorem launchVm_of_staged {arguments : LaunchArguments} {template name dst : String}
    {release : Word} {after : Host} (file : arguments.cloudInitFile = .string template)
    (given : template ≠ "") (named : LaunchesAs env arguments.name name)
    (released : ReleasesAs arguments.release release)
    (copied : copyForSnap env template host = (.ok dst, after)) :
    ∃ succeeded, (launchVm env arguments host).2.commands = after.commands ++
        [⟨launchArgv env arguments name [.literal "--cloud-init", .given dst] release,
          succeeded⟩] ∧
      (launchVm env arguments host).2.filesFound = after.filesFound ++ [after.files] := by
  have state := launchVm_state env host file given named released
  rw [copied] at state
  have staged := copyForSnap_staged env host copied
  obtain ⟨last, removed, commands, found, _⟩ :=
    @removeStaged_staged env (after.issue _ _) dst staged
  dsimp only at state
  rw [removed] at state
  rw [state]
  exact ⟨_, commands, found⟩

/-- Where the copy can be written, it is staged precisely if the template can be read. -/
theorem copyForSnap_cases {template : String}
    (writable : env.writeError (stagedPath env template) = none) :
    (∃ data, host.files.get? template = some data ∧ env.readError template = none ∧
      copyForSnap env template host = (.ok (stagedPath env template),
        { host with
          files := host.files.insert (stagedPath env template) data
          lastCloudInitTmp := some (stagedPath env template) })) ∨
    (¬ ∃ data, host.files.get? template = some data ∧ env.readError template = none) ∧
      ∃ raised, copyForSnap env template host = (.error raised, host) := by
  cases stands : host.files.get? template with
  | none => exact Or.inr ⟨by simp, _, by simp only [copyForSnap, stands]; rfl⟩
  | some data =>
      cases readable : env.readError template with
      | some raised => exact Or.inr ⟨by simp, raised, by simp only [copyForSnap, stands, readable]⟩
      | none =>
          exact Or.inl ⟨data, rfl, rfl, by simp only [copyForSnap, stands, readable, writable]⟩

/-- A launch whose name and release are accepted does nothing to the files but
to stage its copy and to remove it. -/
theorem launchVm_files {arguments : LaunchArguments} {template name : String} {release : Word}
    (file : arguments.cloudInitFile = .string template) (given : template ≠ "")
    (named : LaunchesAs env arguments.name name) (released : ReleasesAs arguments.release release) :
    (launchVm env arguments host).2.files = afterRun env (copyForSnap env template host) := by
  rw [launchVm_state env host file given named released]
  rcases copied : copyForSnap env template host with ⟨raised | dst, after⟩
  · rfl
  · have staged := copyForSnap_staged env host copied
    obtain ⟨last, removed, _, _, files⟩ := @removeStaged_staged env (after.issue _ _) dst staged
    dsimp only
    rw [removed, files]
    rfl

theorem solo_step {launch : Launch} {files : Files} {after : Launch × Files}
    (stepped : launch.step files = some after) :
    Reachable (Pool.solo Launch.step) (launch, files) after :=
  @Reachable.single _ _ (Pool.solo Launch.step) _ _ () stepped

/-- A launch whose copy was staged hands it to multipass and removes it. -/
theorem finished_alone {template : String} {data : List UInt8}
    (written : env.writeError (stagedPath env template) = none) (files : Files) :
    ∃ launch : Launch, launch.Done ∧ Reachable (Pool.solo Launch.step)
      (⟨env, template, .loaded data, none⟩, files)
      (launch, if env.removeFails (stagedPath env template) then
          files.insert (stagedPath env template) data
        else (files.insert (stagedPath env template) data).delete (stagedPath env template)) := by
  let loaded : Launch := ⟨env, template, .loaded data, none⟩
  let staged := files.insert (stagedPath env template) data
  let running : Launch := { loaded.enter .launched with
    seen := some (staged.get? (stagedPath env template)) }
  have stage : Reachable (Pool.solo Launch.step) (loaded, files) (loaded.enter .staged, staged) :=
    solo_step (by simp [Launch.step, loaded, Launch.path, written, staged])
  have launch : Reachable (Pool.solo Launch.step) (loaded.enter .staged, staged)
      (running, staged) := solo_step rfl
  have finish : Reachable (Pool.solo Launch.step) (running, staged) (running.enter .finished,
      if env.removeFails (stagedPath env template) then staged
      else staged.delete (stagedPath env template)) := solo_step rfl
  exact ⟨_, Or.inl rfl, (stage.trans launch).trans finish⟩

/-- A launch that has read its template does to the files what is left to do. -/
theorem loaded_alone {template : String} {data : List UInt8}
    (found : host.files.get? template = some data) (readable : env.readError template = none) :
    ∃ launch : Launch, launch.Done ∧ Reachable (Pool.solo Launch.step)
      (⟨env, template, .loaded data, none⟩, host.files)
      (launch, afterRun env (copyForSnap env template host)) := by
  rcases failure : env.writeError (stagedPath env template) with _ | ⟨raised, _ | part⟩
  · have copied : copyForSnap env template host = (.ok (stagedPath env template),
        { host with
          files := host.files.insert (stagedPath env template) data
          lastCloudInitTmp := some (stagedPath env template) }) := by
      simp [copyForSnap, found, readable, failure]
    rw [copied]
    exact finished_alone env failure host.files
  · have failed : copyForSnap env template host = (.error raised, host) := by
      simp [copyForSnap, found, readable, failure]
    rw [failed]
    refine ⟨Launch.enter ⟨env, template, .loaded data, none⟩ (.raised false),
      Or.inr ⟨false, rfl⟩, ?_⟩
    exact solo_step (by simp [Launch.step, Launch.path, failure, afterRun])
  · have failed : copyForSnap env template host = (.error raised,
        { host with files := host.files.insert (stagedPath env template) part }) := by
      simp [copyForSnap, found, readable, failure]
    rw [failed]
    refine ⟨Launch.enter ⟨env, template, .loaded data, none⟩ (.raised true),
      Or.inr ⟨true, rfl⟩, ?_⟩
    exact solo_step (by simp [Launch.step, Launch.path, failure, afterRun])

/-- The steps of a launch that runs alone do to the files what `launch_vm` does. -/
theorem launchVm_alone {arguments : LaunchArguments} {template name : String} {release : Word}
    (file : arguments.cloudInitFile = .string template) (given : template ≠ "")
    (named : LaunchesAs env arguments.name name) (released : ReleasesAs arguments.release release) :
    ∃ launch : Launch, launch.Done ∧ Reachable (Pool.solo Launch.step)
      (⟨env, template, .started, none⟩, host.files)
      (launch, (launchVm env arguments host).2.files) := by
  rw [launchVm_files env host file given named released]
  let start : Launch := ⟨env, template, .started, none⟩
  have unread : start.step host.files = some (start.enter (.raised false), host.files) →
      ∃ launch : Launch, launch.Done ∧
        Reachable (Pool.solo Launch.step) (start, host.files) (launch, host.files) :=
    fun stepped => ⟨_, Or.inr ⟨false, rfl⟩, solo_step stepped⟩
  cases found : host.files.get? template with
  | none =>
      have missing : copyForSnap env template host =
          (.error (.systemCallError "ENOENT"), host) := by
        simp [copyForSnap, found]
      rw [missing]
      exact unread (by simp [Launch.step, start, found])
  | some data =>
      cases readable : env.readError template with
      | some raised =>
          have unreadable : copyForSnap env template host = (.error raised, host) := by
            simp [copyForSnap, found, readable]
          rw [unreadable]
          exact unread (by simp [Launch.step, start, found, readable])
      | none =>
          have load : Reachable (Pool.solo Launch.step) (start, host.files)
              (start.enter (.loaded data), host.files) :=
            solo_step (by simp [Launch.step, start, found, readable])
          rcases loaded_alone env host found readable with ⟨launch, done, later⟩
          exact ⟨launch, done, load.trans later⟩

end

/-! ## What launches are to keep apart -/

/-- Every multipass read exactly the template of its own request, only staged
paths were touched, and once all requests are done no copy is left. -/
structure Isolated (files : Files) (pool : LaunchPool) : Prop where
  faithful : ∀ launch ∈ pool.threads, ∀ found ∈ launch.seen,
    (files.get? launch.template).isSome ∧ found = files.get? launch.template
  untouched : ∀ path, (∀ launch ∈ pool.threads, launch.Wrote → launch.path ≠ path) →
    pool.shared.get? path = files.get? path
  cleaned : (∀ launch ∈ pool.threads, launch.Done) →
    ∀ launch ∈ pool.threads, launch.Wrote → pool.shared.get? launch.path = none

/-- No launch has a copy in use at a path. -/
def Unused (pool : LaunchPool) (path : String) : Prop :=
  ∀ launch ∈ pool.threads, launch.Holds → launch.path ≠ path

instance (pool : LaunchPool) (path : String) : Decidable (Unused pool path) :=
  inferInstanceAs (Decidable (∀ launch ∈ pool.threads, _))

/-- A template is not read from a staged copy in use, a copy is not written
over one in use nor in part, and removing a copy does not fail. -/
def Launch.KeepsApart (launch : Launch) (pool : LaunchPool) : Prop :=
  match launch.phase with
  | .started => Unused pool launch.template
  | .loaded _ => Unused pool launch.path ∧
      ∀ failure ∈ launch.env.writeError launch.path, failure.written = none
  | .launched => launch.env.removeFails launch.path = false
  | _ => True

/-- The step of a launch keeps the copies apart. -/
def KeptApart (pool : LaunchPool) : LaunchAction → Prop
  | .step i => ∀ launch ∈ pool.threads[i]?, launch.KeepsApart pool
  | _ => True

instance (launch : Launch) (pool : LaunchPool) : Decidable (launch.KeepsApart pool) := by
  unfold Launch.KeepsApart
  cases launch.phase <;> infer_instance

instance (pool : LaunchPool) (action : LaunchAction) : Decidable (KeptApart pool action) :=
  match action with
  | .step i => inferInstanceAs (Decidable (∀ launch ∈ pool.threads[i]?, _))
  | .begin _ _ => isTrue trivial
  | .skip _ => isTrue trivial

/-- What holds of the copies in use, and of the files outside them. -/
structure CopiesApart (files : Files) (pool : LaunchPool) : Prop where
  /-- The launches with a copy in use, or about to write it, have read their template. -/
  loaded : ∀ launch ∈ pool.threads, ∀ data, launch.phase = .loaded data →
    files.get? launch.template = some data
  /-- A copy in use is the template of its launch. -/
  copies : ∀ launch ∈ pool.threads, launch.Holds →
    (files.get? launch.template).isSome ∧
      pool.shared.get? launch.path = files.get? launch.template
  apart : ∀ (i j : Nat) (first second : Launch), pool.threads[i]? = some first →
    pool.threads[j]? = some second → first.Holds → second.Holds → first.path = second.path → i = j
  faithful : ∀ launch ∈ pool.threads, ∀ found ∈ launch.seen,
    (files.get? launch.template).isSome ∧ found = files.get? launch.template
  untouched : ∀ path, (∀ launch ∈ pool.threads, launch.Wrote → launch.path ≠ path) →
    pool.shared.get? path = files.get? path
  /-- Outside the copies in use a file is as it was, or gone. -/
  original : ∀ path, Unused pool path →
    pool.shared.get? path = files.get? path ∨ pool.shared.get? path = none
  /-- A copy that was removed is gone, unless another one is in use there. -/
  removed : ∀ launch ∈ pool.threads, launch.phase = .finished → Unused pool launch.path →
    pool.shared.get? launch.path = none
  whole : ∀ launch ∈ pool.threads, launch.phase ≠ .raised true

theorem isolated_of_copiesApart {files : Files} {pool : LaunchPool}
    (apart : CopiesApart files pool) : Isolated files pool where
  faithful := apart.faithful
  untouched := apart.untouched
  cleaned := by
    intro done launch member wrote
    have unused : Unused pool launch.path := by
      intro other otherMember holds
      rcases done other otherMember with finished | ⟨left, raised⟩
      · rcases holds with staged | launched
        · rw [finished] at staged
          cases staged
        · rw [finished] at launched
          cases launched
      · rcases holds with staged | launched
        · rw [raised] at staged
          cases staged
        · rw [raised] at launched
          cases launched
    rcases done launch member with finished | ⟨left, raised⟩
    · exact apart.removed launch member finished unused
    · rcases wrote with staged | launched | finished | partly
      · rw [raised] at staged
        cases staged
      · rw [raised] at launched
        cases launched
      · rw [raised] at finished
        cases finished
      · exact absurd partly (apart.whole launch member)

/-! ## What a step keeps -/

section

variable {files : Files} {pool : LaunchPool} {i : Nat} {launch moved : Launch}

/-- A step that leaves the files and the use of the copy alone. -/
theorem CopiesApart.of_same_files (apart : CopiesApart files pool)
    (found : pool.threads[i]? = some launch) (path : moved.path = launch.path)
    (template : moved.template = launch.template) (holds : moved.Holds ↔ launch.Holds)
    (wrote : moved.Wrote ↔ launch.Wrote)
    (loaded : ∀ data, moved.phase = .loaded data → files.get? moved.template = some data)
    (faithful : ∀ found ∈ moved.seen,
      (files.get? moved.template).isSome ∧ found = files.get? moved.template)
    (unfinished : moved.phase ≠ .finished) (whole : moved.phase ≠ .raised true) :
    CopiesApart files ⟨pool.shared, pool.threads.set i moved⟩ := by
  have unused : ∀ {other}, Unused ⟨pool.shared, pool.threads.set i moved⟩ other →
      Unused pool other := fun unused =>
    Pool.forall_of_forall_set found
      (fun free isHeld same => free (holds.mpr isHeld) (path.trans same)) unused
  refine ⟨Pool.forall_set found apart.loaded loaded, ?_, ?_,
    Pool.forall_set found apart.faithful faithful, ?_, ?_, ?_,
    Pool.forall_set found apart.whole whole⟩
  · refine Pool.forall_set found apart.copies fun isHeld => ?_
    rw [path, template]
    exact apart.copies launch (List.mem_of_getElem? found) (holds.mp isHeld)
  · intro j k first second atJ atK firstHolds secondHolds same
    have earlier : ∀ {j : Nat} {other : Launch}, (pool.threads.set i moved)[j]? = some other →
        other.Holds → ∃ old, pool.threads[j]? = some old ∧ old.Holds ∧ old.path = other.path := by
      intro j other atJ isHeld
      rcases Pool.getElem?_of_set found atJ with ⟨rfl, rfl⟩ | ⟨_, before⟩
      · exact ⟨launch, found, holds.mp isHeld, path.symm⟩
      · exact ⟨other, before, isHeld, rfl⟩
    obtain ⟨firstOld, atFirst, firstHeld, firstPath⟩ := earlier atJ firstHolds
    obtain ⟨secondOld, atSecond, secondHeld, secondPath⟩ := earlier atK secondHolds
    exact apart.apart j k firstOld secondOld atFirst atSecond firstHeld secondHeld
      (firstPath.trans (same.trans secondPath.symm))
  · intro other free
    refine apart.untouched other (Pool.forall_of_forall_set found ?_ free)
    intro here isWritten same
    exact here (wrote.mpr isWritten) (path.trans same)
  · exact fun path free => apart.original path (unused free)
  · refine Pool.forall_set found (fun other member finished free =>
      apart.removed other member finished (unused free)) fun finished => absurd finished unfinished

/-- The template is read. -/
theorem CopiesApart.read (apart : CopiesApart files pool) (found : pool.threads[i]? = some launch)
    (started : launch.phase = .started) (unused : Unused pool launch.template) {data : List UInt8}
    (read : pool.shared.get? launch.template = some data) :
    CopiesApart files ⟨pool.shared, pool.threads.set i (launch.enter (.loaded data))⟩ := by
  have content : files.get? launch.template = some data := by
    rcases apart.original _ unused with same | gone
    · rw [← same, read]
    · rw [read] at gone
      cases gone
  refine apart.of_same_files found rfl rfl ?_ ?_ ?_
    (apart.faithful launch (List.mem_of_getElem? found)) nofun nofun
  · simp [Launch.Holds, Launch.enter, started]
  · simp [Launch.Wrote, Launch.enter, started]
  · rintro other same
    rw [← Phase.loaded.inj same]
    exact content

/-- A launch gives up before it has written anything. -/
theorem CopiesApart.giveUp (apart : CopiesApart files pool)
    (found : pool.threads[i]? = some launch)
    (early : launch.phase = .started ∨ ∃ data, launch.phase = .loaded data) :
    CopiesApart files ⟨pool.shared, pool.threads.set i (launch.enter (.raised false))⟩ := by
  refine apart.of_same_files found rfl rfl ?_ ?_ nofun
    (apart.faithful launch (List.mem_of_getElem? found)) nofun nofun
  · rcases early with started | ⟨data, loaded⟩
    · simp [Launch.Holds, Launch.enter, started]
    · simp [Launch.Holds, Launch.enter, loaded]
  · rcases early with started | ⟨data, loaded⟩
    · simp [Launch.Wrote, Launch.enter, started]
    · simp [Launch.Wrote, Launch.enter, loaded]

/-- Multipass reads the staged path, or ends without reading it. -/
theorem CopiesApart.launched (apart : CopiesApart files pool)
    (found : pool.threads[i]? = some launch) (staged : launch.phase = .staged)
    {seen : Option (Option (List UInt8))}
    (read : ∀ found ∈ seen, found = pool.shared.get? launch.path ∨ found ∈ launch.seen) :
    CopiesApart files
      ⟨pool.shared, pool.threads.set i { launch.enter .launched with seen := seen }⟩ := by
  have member := List.mem_of_getElem? found
  obtain ⟨present, copy⟩ := apart.copies launch member (Or.inl staged)
  refine apart.of_same_files found rfl rfl ?_ ?_ nofun ?_ nofun nofun
  · simp [Launch.Holds, Launch.enter, staged]
  · simp [Launch.Wrote, Launch.enter, staged]
  · intro content isSeen
    rcases read content isSeen with rfl | earlier
    · exact ⟨present, copy⟩
    · exact apart.faithful launch member content earlier

/-- The copy is written where none is in use. -/
theorem CopiesApart.write (apart : CopiesApart files pool) (found : pool.threads[i]? = some launch)
    {data : List UInt8} (loaded : launch.phase = .loaded data) (unused : Unused pool launch.path) :
    CopiesApart files ⟨pool.shared.insert launch.path data,
      pool.threads.set i (launch.enter .staged)⟩ := by
  have member := List.mem_of_getElem? found
  have content := apart.loaded launch member data loaded
  have notHeld : ¬ launch.Holds := by simp [Launch.Holds, loaded]
  have notWritten : ¬ launch.Wrote := by simp [Launch.Wrote, loaded]
  have free : ∀ {path}, Unused ⟨pool.shared.insert launch.path data,
      pool.threads.set i (launch.enter .staged)⟩ path → path ≠ launch.path ∧ Unused pool path := by
    intro path free
    refine ⟨fun same => ?_, Pool.forall_of_forall_set found
        (fun _ held => absurd held notHeld) free⟩
    exact free _ ((Pool.mem_set found).mpr (Or.inl rfl)) (Or.inl rfl) same.symm
  refine ⟨Pool.forall_set found apart.loaded nofun, ?_, ?_,
    Pool.forall_set found apart.faithful (apart.faithful launch member), ?_, ?_, ?_,
    Pool.forall_set found apart.whole nofun⟩
  · intro other otherMember held
    rcases (Pool.mem_set found).mp otherMember with rfl | ⟨j, different, atJ⟩
    · have written := OrderedHash.get?_insert_self pool.shared launch.path data
      exact ⟨Option.isSome_iff_exists.mpr ⟨data, content⟩, written.trans content.symm⟩
    · have old := List.mem_of_getElem? atJ
      have apartFrom := unused other old held
      rw [OrderedHash.get?_insert_of_ne _ apartFrom]
      exact apart.copies other old held
  · intro j k first second atJ atK firstHolds secondHolds same
    rcases Pool.getElem?_of_set found atJ with ⟨rfl, rfl⟩ | ⟨_, atFirst⟩
    · rcases Pool.getElem?_of_set found atK with ⟨rfl, _⟩ | ⟨_, atSecond⟩
      · rfl
      · exact absurd same.symm (unused second (List.mem_of_getElem? atSecond) secondHolds)
    · rcases Pool.getElem?_of_set found atK with ⟨rfl, rfl⟩ | ⟨_, atSecond⟩
      · exact absurd same (unused first (List.mem_of_getElem? atFirst) firstHolds)
      · exact apart.apart j k first second atFirst atSecond firstHolds secondHolds same
  · intro path untouched
    have different : path ≠ launch.path := fun same =>
      untouched _ ((Pool.mem_set found).mpr (Or.inl rfl)) (Or.inl rfl) same.symm
    rw [OrderedHash.get?_insert_of_ne _ different]
    exact apart.untouched path
      (Pool.forall_of_forall_set found (fun _ written => absurd written notWritten) untouched)
  · intro path isFree
    obtain ⟨different, before⟩ := free isFree
    rw [OrderedHash.get?_insert_of_ne _ different]
    exact apart.original path before
  · refine Pool.forall_set found (fun other otherMember finished isFree => ?_) nofun
    obtain ⟨different, before⟩ := free isFree
    rw [OrderedHash.get?_insert_of_ne _ different]
    exact apart.removed other otherMember finished before

/-- The copy is removed. -/
theorem CopiesApart.remove (apart : CopiesApart files pool) (found : pool.threads[i]? = some launch)
    (launched : launch.phase = .launched) :
    CopiesApart files ⟨pool.shared.delete launch.path,
      pool.threads.set i (launch.enter .finished)⟩ := by
  have member := List.mem_of_getElem? found
  have held : launch.Holds := Or.inr launched
  have free : ∀ {path}, path ≠ launch.path → Unused ⟨pool.shared.delete launch.path,
      pool.threads.set i (launch.enter .finished)⟩ path → Unused pool path :=
    fun different => Pool.forall_of_forall_set found fun _ _ same => different same.symm
  refine ⟨Pool.forall_set found apart.loaded nofun, ?_, ?_,
    Pool.forall_set found apart.faithful (apart.faithful launch member), ?_, ?_, ?_,
    Pool.forall_set found apart.whole nofun⟩
  · intro other otherMember otherHeld
    rcases (Pool.mem_set found).mp otherMember with rfl | ⟨j, different, atJ⟩
    · rcases otherHeld with staged | launched
      · cases staged
      · cases launched
    · have otherPath : other.path ≠ launch.path :=
        fun same => different (apart.apart j i other launch atJ found otherHeld held same)
      rw [OrderedHash.get?_delete_of_ne _ otherPath]
      exact apart.copies other (List.mem_of_getElem? atJ) otherHeld
  · have idle : ¬ (launch.enter .finished).Holds := by simp [Launch.Holds, Launch.enter]
    intro j k first second atJ atK firstHolds secondHolds same
    rcases Pool.getElem?_of_set found atJ with ⟨rfl, rfl⟩ | ⟨_, atFirst⟩
    · exact absurd firstHolds idle
    · rcases Pool.getElem?_of_set found atK with ⟨rfl, rfl⟩ | ⟨_, atSecond⟩
      · exact absurd secondHolds idle
      · exact apart.apart j k first second atFirst atSecond firstHolds secondHolds same
  · intro path untouched
    have different : path ≠ launch.path := fun same =>
      untouched _ ((Pool.mem_set found).mpr (Or.inl rfl)) (Or.inr (Or.inr (Or.inl rfl))) same.symm
    rw [OrderedHash.get?_delete_of_ne _ different]
    exact apart.untouched path
      (Pool.forall_of_forall_set found (fun _ _ same => different same.symm) untouched)
  · intro path isFree
    by_cases same : path = launch.path
    · rw [same]
      exact Or.inr (OrderedHash.get?_delete_self pool.shared launch.path)
    · rw [OrderedHash.get?_delete_of_ne _ same]
      exact apart.original path (free same isFree)
  · intro other otherMember finished isFree
    by_cases same : other.path = launch.path
    · rw [same]
      exact OrderedHash.get?_delete_self pool.shared launch.path
    · rw [OrderedHash.get?_delete_of_ne _ same]
      rcases (Pool.mem_set found).mp otherMember with rfl | ⟨j, _, atJ⟩
      · exact absurd rfl same
      · exact apart.removed other (List.mem_of_getElem? atJ) finished (free same isFree)

/-- A request comes in. -/
theorem CopiesApart.begin (apart : CopiesApart files pool) (env : Environment)
    (template : String) :
    CopiesApart files
      { pool with threads := pool.threads ++ [⟨env, template, .started, none⟩] } := by
  have both : ∀ {P : Launch → Prop}, (∀ launch ∈ pool.threads, P launch) →
      P ⟨env, template, .started, none⟩ →
      ∀ launch ∈ pool.threads ++ [⟨env, template, .started, none⟩], P launch := by
    intro P old new launch member
    rcases List.mem_append.mp member with isOld | isNew
    · exact old launch isOld
    · rw [List.mem_singleton.mp isNew]
      exact new
  have idle : ¬ (⟨env, template, .started, none⟩ : Launch).Holds := by simp [Launch.Holds]
  have older : ∀ {j : Nat} {launch : Launch},
      (pool.threads ++ [⟨env, template, .started, none⟩])[j]? = some launch → launch.Holds →
      pool.threads[j]? = some launch := by
    intro j launch atJ held
    rw [List.getElem?_append] at atJ
    split at atJ
    · exact atJ
    · rw [List.mem_singleton.mp (List.mem_of_getElem? atJ)] at held
      exact absurd held idle
  refine ⟨both apart.loaded nofun, both apart.copies (fun held => absurd held idle), ?_,
    both apart.faithful nofun, ?_, ?_, ?_, both apart.whole nofun⟩
  · intro j k first second atJ atK firstHolds secondHolds
    exact apart.apart j k first second (older atJ firstHolds) (older atK secondHolds) firstHolds
      secondHolds
  · exact fun path free => apart.untouched path fun launch member =>
      free launch (List.mem_append_left _ member)
  · exact fun path free => apart.original path fun launch member =>
      free launch (List.mem_append_left _ member)
  · refine both (fun launch member finished free => apart.removed launch member finished
      fun other otherMember => free other (List.mem_append_left _ otherMember)) nofun

/-- A step that keeps the copies apart keeps what holds of them. -/
theorem copiesApart_next {action : LaunchAction} {target : LaunchPool}
    (apart : CopiesApart files pool) (kept : KeptApart pool action)
    (stepped : launchNext pool action = some target) : CopiesApart files target := by
  cases action with
  | begin env template =>
      obtain rfl := Option.some.inj stepped
      exact apart.begin env template
  | step i =>
      obtain ⟨launch, moved, found, took, rfl⟩ := Pool.stepAt_eq_some_iff.mp stepped
      have keeps := kept launch found
      unfold Launch.step at took
      unfold Launch.KeepsApart at keeps
      cases phase : launch.phase with
      | started =>
          simp only [phase] at took keeps
          split at took
          · rename_i data read _
            obtain rfl := Option.some.inj took
            exact apart.read found phase keeps read
          · obtain rfl := Option.some.inj took
            exact apart.giveUp found (Or.inl phase)
      | loaded data =>
          simp only [phase] at took keeps
          obtain ⟨unused, whole⟩ := keeps
          split at took
          · obtain rfl := Option.some.inj took
            exact apart.write found phase unused
          · obtain rfl := Option.some.inj took
            exact apart.giveUp found (Or.inr ⟨data, phase⟩)
          · rename_i error written failure
            cases whole _ failure
      | staged =>
          simp only [phase] at took
          obtain rfl := Option.some.inj took
          apply apart.launched found phase
          rintro content isSeen
          exact Or.inl (Option.some.inj isSeen).symm
      | launched =>
          simp only [phase] at took keeps
          obtain rfl := Option.some.inj took
          rw [if_neg (by rw [keeps]; exact Bool.false_ne_true)]
          exact apart.remove found phase
      | finished =>
          simp only [phase] at took
          cases took
      | raised left =>
          simp only [phase] at took
          cases took
  | skip i =>
      obtain ⟨launch, moved, found, took, rfl⟩ := Pool.stepAt_eq_some_iff.mp stepped
      unfold Launch.skip at took
      cases phase : launch.phase with
      | staged =>
          simp only [phase] at took
          obtain rfl := Option.some.inj took
          exact apart.launched found phase fun content isSeen => Or.inr isSeen
      | _ =>
          simp only [phase] at took
          cases took

theorem copiesApart_noLaunches (files : Files) : CopiesApart files (noLaunches files) where
  loaded := nofun
  copies := nofun
  apart := fun _ _ _ _ atI => by cases atI
  faithful := nofun
  untouched := fun _ _ => rfl
  original := fun _ _ => Or.inl rfl
  removed := nofun
  whole := nofun

end

/-- Along every run in which the copies in use are kept apart, launches are
isolated from each other. -/
theorem isolated_of_keptApart {files : Files} {actions : List LaunchAction}
    (steps : Throughout launchNext KeptApart (noLaunches files) actions) :
    Always launchNext (Isolated files) (noLaunches files) actions :=
  (always_of_throughout (fun _ _ _ apart kept stepped => copiesApart_next apart kept stepped)
    (copiesApart_noLaunches files) steps).imp fun _ => isolated_of_copiesApart

/-- Two templates with the same base name, and one with another. -/
def templates : Files :=
  ((OrderedHash.empty.insert "/a/web.yaml" [1]).insert "/b/web.yaml" [2]).insert "/b/db.yaml" [3]

/-- Two launches that overlap: both have written their copy before multipass
reads the first one. -/
def overlapping (first second : String) : List LaunchAction :=
  [.begin quietEnvironment first, .begin quietEnvironment second, .step 0, .step 1,
      .step 0, .step 1,
    .step 0, .step 1, .step 0, .step 1]

theorem isolated_of_keptApart_twoNames :
    Throughout launchNext KeptApart (noLaunches templates)
        (overlapping "/a/web.yaml" "/b/db.yaml") ∧
      Always launchNext (Isolated templates) (noLaunches templates)
        (overlapping "/a/web.yaml" "/b/db.yaml") :=
  have steps : Throughout launchNext KeptApart (noLaunches templates)
      (overlapping "/a/web.yaml" "/b/db.yaml") := by decide +kernel
  ⟨steps, isolated_of_keptApart steps⟩

/-- With the same base name, the first launch reads the template of the second. -/
theorem overlapping_not_isolated :
    ((Transition.run launchNext (noLaunches templates)
        (overlapping "/a/web.yaml" "/b/web.yaml")).map
        fun pool => pool.threads.map fun launch => (launch.template, launch.seen)) =
      some [("/a/web.yaml", some (some [2])), ("/b/web.yaml", some (some [2]))] ∧
    ¬ Always launchNext (Isolated templates) (noLaunches templates)
      (overlapping "/a/web.yaml" "/b/web.yaml") := by
  have seen : ((Transition.run launchNext (noLaunches templates)
      (overlapping "/a/web.yaml" "/b/web.yaml")).map
        fun pool => pool.threads.map fun launch => (launch.template, launch.seen)) =
      some [("/a/web.yaml", some (some [2])), ("/b/web.yaml", some (some [2]))] := by
    decide +kernel
  refine ⟨seen, fun always => ?_⟩
  obtain ⟨pool, executed, threads⟩ := Option.map_eq_some_iff.mp seen
  have isolated := always.last executed
  have first : ("/a/web.yaml", some (some [(2 : UInt8)])) ∈
      pool.threads.map fun launch => (launch.template, launch.seen) := by
    rw [threads]
    exact List.mem_cons_self ..
  obtain ⟨launch, member, same⟩ := List.mem_map.mp first
  obtain ⟨template, read⟩ := Prod.mk.inj same
  obtain ⟨_, content⟩ := isolated.faithful launch member _ read
  rw [template] at content
  exact absurd content (by decide +kernel)

end MultipassWebui.Multipass
