import MultipassWebui.Multipass.Snapshots

/-!
# The operations of the client

All operations that hand an argv to multipass, and what each of them can issue:
one lemma for each operation, from which every statement about the commands
follows.
-/

namespace MultipassWebui.Multipass

open MultipassWebui.Collections
open MultipassWebui.Effect
open MultipassWebui.Effect.Value (nilOrEmpty givenAndNotEmpty requireText)
open MultipassWebui.Encoding
open MultipassWebui.Text

/-- The methods that take the name of a machine or a snapshot. -/
inductive NamedOperation where
  | getVmInfo (name : Json)
  | launchVm (arguments : LaunchArguments)
  | cloneVm (source destName : Json)
  | startVm (name : Json)
  | stopVm (name : Json)
  | suspendVm (name : Json)
  | deleteVm (name : Json) (purge : Bool)
  | recoverVm (name : Json)
  | execInVm (vmName : Json) (command : List String)
  | getVmConfig (name : Json)
  | setVmCpus (name : Json) (cpus : Int)
  | setVmMemory (name : Json) (memoryMb : Int)
  | setVmDisk (name : Json) (diskGb : Int)
  | getRawInfo (name : Json)
  | getCloudInitStatus (vmName : Json)
  | listSnapshots (vmName : Json)
  | createSnapshot (vmName snapshotName comment : Json)
  | restoreSnapshot (vmName snapshotName : Json)
  | deleteSnapshot (vmName snapshotName : Json)
  | listMounts (vmName : Json)
  | addMount (vmName source target : Json)
  | removeMount (vmName target : Json)
  | transferFromVm (vmName remotePath : Json)
  | transferToVm (vmName remotePath : Json)

/-- All operations. -/
inductive Operation where
  | named (operation : NamedOperation)
  | listVms
  | startAll
  | stopAll
  | purgeDeleted
  | listNetworks
  | findImages

section

variable (env : Environment)

/-- A computation without its value. -/
def discard {α : Type} (body : Exec Host RubyError α) : Exec Host RubyError PUnit := do
  let _ ← body
  return ⟨⟩

/-- Carry out an operation. -/
def NamedOperation.exec : NamedOperation → Exec Host RubyError PUnit
  | getVmInfo name => discard (Multipass.getVmInfo env name)
  | launchVm arguments => discard (Multipass.launchVm env arguments)
  | cloneVm source destName => discard (Multipass.cloneVm env source destName)
  | startVm name => discard (Multipass.startVm env name)
  | stopVm name => discard (Multipass.stopVm env name)
  | suspendVm name => discard (Multipass.suspendVm env name)
  | deleteVm name purge => discard (Multipass.deleteVm env name purge)
  | recoverVm name => discard (Multipass.recoverVm env name)
  | execInVm vmName command => discard (Multipass.execInVm env vmName command)
  | getVmConfig name => discard (Multipass.getVmConfig env name)
  | setVmCpus name cpus => discard (Multipass.setVmCpus env name cpus)
  | setVmMemory name memoryMb => discard (Multipass.setVmMemory env name memoryMb)
  | setVmDisk name diskGb => discard (Multipass.setVmDisk env name diskGb)
  | getRawInfo name => discard (Multipass.getRawInfo env name)
  | getCloudInitStatus vmName => discard (Multipass.getCloudInitStatus env vmName)
  | listSnapshots vmName => discard (Multipass.listSnapshots env vmName)
  | createSnapshot vmName snapshotName comment =>
      discard (Multipass.createSnapshot env vmName snapshotName comment)
  | restoreSnapshot vmName snapshotName =>
      discard (Multipass.restoreSnapshot env vmName snapshotName)
  | deleteSnapshot vmName snapshotName =>
      discard (Multipass.deleteSnapshot env vmName snapshotName)
  | listMounts vmName => discard (Multipass.listMounts env vmName)
  | addMount vmName source target => discard (Multipass.addMount env vmName source target)
  | removeMount vmName target => discard (Multipass.removeMount env vmName target)
  | transferFromVm vmName remotePath => discard (Multipass.transferFromVm env vmName remotePath)
  | transferToVm vmName remotePath => discard (Multipass.transferToVm env vmName remotePath)

/-- Carry out an operation. -/
def Operation.exec : Operation → Exec Host RubyError PUnit
  | named operation => operation.exec env
  | listVms => discard (Multipass.listVms env)
  | startAll => Multipass.startAll env
  | stopAll => Multipass.stopAll env
  | purgeDeleted => discard (Multipass.purgeDeleted env)
  | listNetworks => discard (Multipass.listNetworks env)
  | findImages => discard (Multipass.findImages env)

end

/-! ## Validated names -/

/-- A valid name is the text it was given as. -/
theorem validateVmName_of_valid {text : String} (valid : IsVmName text) :
    NameValidator.validateVmName (.string text) = pure text :=
  if_pos ((vmNamePattern_iff text).mpr valid)

/-- Anything but a valid name raises. -/
theorem validateVmName_of_invalid {name : Json} (invalid : ∀ text, name = .string text →
    ¬ IsVmName text) : ∃ shown, NameValidator.validateVmName name =
      Exec.raise (.validationError shown) := by
  cases name with
  | string text =>
      exact ⟨text, if_neg fun pattern => invalid text rfl ((vmNamePattern_iff text).mp pattern)⟩
  | _ => exact ⟨"nil", rfl⟩

/-- The generated name is a valid one. -/
theorem randomVmName_valid (env : Environment) : IsVmName (randomVmName env) := by
  have letters : ∀ index : Fin 36, isAlnum (charset.get index) = true := by decide
  have text : (randomVmName env).toList = 'V' :: 'M' :: '-' ::
      ((List.range VM_NAME_RANDOM_LENGTH).map fun draw => charset.get (env.randomNumber draw)) := by
    rw [randomVmName, String.toList_append, String.toList_ofList]
    rfl
  refine ⟨'V', _, text, rfl, ?_, ?_⟩
  · intro char member
    simp only [List.mem_cons, List.mem_map] at member
    rcases member with rfl | rfl | ⟨draw, _, rfl⟩
    · exact Or.inl rfl
    · exact Or.inr rfl
    · exact Or.inl (letters _)
  · simp [VM_NAME_RANDOM_LENGTH]

/-- A name is not empty. -/
theorem IsVmName.ne_empty {text : String} (valid : IsVmName text) : text ≠ "" := by
  rintro rfl
  obtain ⟨first, rest, shape, _⟩ := valid
  cases shape

/-- The text begins with a hyphen. -/
def Hyphened (text : String) : Prop := text.toList.head? = some '-'

instance (text : String) : Decidable (Hyphened text) :=
  inferInstanceAs (Decidable (_ = _))

/-- What begins with a name does not begin with a hyphen. -/
theorem IsVmName.append_not_hyphened {text : String} (valid : IsVmName text) (rest : String) :
    ¬ Hyphened (text ++ rest) := by
  obtain ⟨first, others, shape, head, _⟩ := valid
  intro hyphen
  rw [Hyphened, String.toList_append, shape] at hyphen
  obtain rfl : first = '-' := Option.some.inj hyphen
  exact absurd head (by decide)

theorem IsVmName.not_hyphened {text : String} (valid : IsVmName text) : ¬ Hyphened text := by
  have whole := valid.append_not_hyphened ""
  rwa [String.append_empty] at whole

/-! ## Launching -/

section

variable (env : Environment) (host : Host)

/-- The name of a machine that is launched. -/
def LaunchesAs (name : Json) (text : String) : Prop :=
  (nilOrEmpty name = .ok true ∧ text = randomVmName env) ∨ (name = .string text ∧ IsVmName text)

/-- The flags of a cloud-init file, which has to be staged if there is one. -/
def StagesAs (cloudInitFile : Json) (flags : List Word) : Prop :=
  (nilOrEmpty cloudInitFile = .ok true ∧ flags = []) ∨
    ∃ srcPath, cloudInitFile = .string srcPath ∧ srcPath ≠ "" ∧
      (host.files.get? srcPath).isSome ∧ env.readError srcPath = none ∧
      env.writeError (stagedPath env srcPath) = none ∧
      flags = [.literal "--cloud-init", .given (stagedPath env srcPath)]

/-- The word of a release. -/
def ReleasesAs (release : Json) (word : Word) : Prop :=
  (nilOrEmpty release = .ok true ∧ word = .literal DEFAULT_UBUNTU_RELEASE) ∨
    ∃ text, release = .string text ∧ text ≠ "" ∧ word = .given text

variable {env host}

/-- The name, the flags and the release are determined by the arguments. -/
theorem LaunchesAs.unique {name : Json} {text other : String} (launches : LaunchesAs env name text)
    (otherLaunches : LaunchesAs env name other) : other = text := by
  rcases launches with ⟨blank, rfl⟩ | ⟨rfl, named⟩
  · rcases otherLaunches with ⟨_, rfl⟩ | ⟨rfl, named⟩
    · rfl
    · exact absurd (of_decide_eq_true (Except.ok.inj blank)) named.ne_empty
  · rcases otherLaunches with ⟨blank, _⟩ | ⟨isText, _⟩
    · exact absurd (of_decide_eq_true (Except.ok.inj blank)) named.ne_empty
    · exact (Json.string.inj isText).symm

theorem StagesAs.unique {cloudInitFile : Json} {flags other : List Word}
    (stages : StagesAs env host cloudInitFile flags)
    (otherStages : StagesAs env host cloudInitFile other) : other = flags := by
  rcases stages with ⟨blank, rfl⟩ | ⟨srcPath, rfl, nonempty, _, _, _, rfl⟩
  · rcases otherStages with ⟨_, rfl⟩ | ⟨srcPath, rfl, nonempty, _⟩
    · rfl
    · exact absurd (of_decide_eq_true (Except.ok.inj blank)) nonempty
  · rcases otherStages with ⟨blank, _⟩ | ⟨otherPath, isText, _, _, _, _, rfl⟩
    · exact absurd (of_decide_eq_true (Except.ok.inj blank)) nonempty
    · rw [Json.string.inj isText]

theorem ReleasesAs.unique {release : Json} {word other : Word} (releases : ReleasesAs release word)
    (otherReleases : ReleasesAs release other) : other = word := by
  rcases releases with ⟨blank, rfl⟩ | ⟨text, rfl, nonempty, rfl⟩
  · rcases otherReleases with ⟨_, rfl⟩ | ⟨text, rfl, nonempty, _⟩
    · rfl
    · exact absurd (of_decide_eq_true (Except.ok.inj blank)) nonempty
  · rcases otherReleases with ⟨blank, _⟩ | ⟨otherText, isText, _, rfl⟩
    · exact absurd (of_decide_eq_true (Except.ok.inj blank)) nonempty
    · rw [Json.string.inj isText]

variable (env host)

/-- The argv of a launch. -/
def launchArgv (arguments : LaunchArguments) (name : String) (flags : List Word)
    (release : Word) : List Word :=
  resourceFlags arguments name ++ flags ++ networkFlags env arguments.networkName ++ [release]

theorem launchName_apply (name : Json) :
    (∃ text, LaunchesAs env name text ∧ launchName env name host = (.ok text, host)) ∨
      (∀ text, ¬ LaunchesAs env name text) ∧
        ∃ raised, launchName env name host = (.error raised, host) := by
  unfold launchName LaunchesAs
  rw [Exec.bind_apply, Exec.ofExcept_apply]
  rcases empty : nilOrEmpty name with raised | _ | _
  · refine Or.inr ⟨?_, raised, rfl⟩
    rintro text (⟨bad, _⟩ | ⟨rfl, _⟩)
    · cases bad
    · cases empty
  · by_cases valid : ∃ text, name = .string text ∧ IsVmName text
    · obtain ⟨text, rfl, isName⟩ := valid
      refine Or.inl ⟨text, Or.inr ⟨rfl, isName⟩, ?_⟩
      simp only [Bool.false_eq_true, if_false, validateVmName_of_valid isName, Exec.pure_apply]
    · obtain ⟨shown, raises⟩ :=
        validateVmName_of_invalid fun text isText isName => valid ⟨text, isText, isName⟩
      refine Or.inr ⟨?_, .validationError shown, ?_⟩
      · rintro text (⟨bad, _⟩ | named)
        · cases bad
        · exact valid ⟨text, named⟩
      · simp only [Bool.false_eq_true, if_false, raises, Exec.raise_apply]
  · refine Or.inl ⟨randomVmName env, Or.inl ⟨rfl, rfl⟩, ?_⟩
    simp only [if_true, validateVmName_of_valid (randomVmName_valid env), Exec.pure_apply]

/-- A copy is staged precisely if the file can be read and the copy written. -/
theorem copyForSnap_apply (srcPath : String) :
    (∃ after, (host.files.get? srcPath).isSome ∧ env.readError srcPath = none ∧
        env.writeError (stagedPath env srcPath) = none ∧ after.commands = host.commands ∧
        copyForSnap env srcPath host = (.ok (stagedPath env srcPath), after)) ∨
      ¬ ((host.files.get? srcPath).isSome ∧ env.readError srcPath = none ∧
          env.writeError (stagedPath env srcPath) = none) ∧
        ∃ raised after, after.commands = host.commands ∧
          copyForSnap env srcPath host = (.error raised, after) := by
  unfold copyForSnap
  cases host.files.get? srcPath with
  | none => exact Or.inr ⟨by simp, _, _, rfl, rfl⟩
  | some data =>
      cases env.readError srcPath with
      | some raised => exact Or.inr ⟨by simp, _, _, rfl, rfl⟩
      | none =>
          cases failure : env.writeError (stagedPath env srcPath) with
          | none =>
              exact Or.inl ⟨{ host with
                  files := host.files.insert (stagedPath env srcPath) data
                  lastCloudInitTmp := some (stagedPath env srcPath) }, rfl, rfl, rfl, rfl,
                by simp only [failure]⟩
          | some failed =>
              obtain ⟨raised, _ | written⟩ := failed
              · exact Or.inr ⟨by simp, raised, host, rfl, by simp only [failure]⟩
              · exact Or.inr ⟨by simp, raised,
                  { host with files := host.files.insert (stagedPath env srcPath) written }, rfl,
                  by simp only [failure]⟩

theorem cloudInitFlags_apply (cloudInitFile : Json) :
    (∃ flags after, StagesAs env host cloudInitFile flags ∧ after.commands = host.commands ∧
        cloudInitFlags env cloudInitFile host = (.ok flags, after)) ∨
      (∀ flags, ¬ StagesAs env host cloudInitFile flags) ∧
        ∃ raised after, after.commands = host.commands ∧
          cloudInitFlags env cloudInitFile host = (.error raised, after) := by
  unfold cloudInitFlags StagesAs
  rw [Exec.bind_apply, Exec.ofExcept_apply]
  rcases empty : nilOrEmpty cloudInitFile with raised | _ | _
  · refine Or.inr ⟨?_, raised, host, rfl, rfl⟩
    rintro flags (⟨bad, _⟩ | ⟨srcPath, rfl, _⟩)
    · cases bad
    · cases empty
  · cases cloudInitFile with
    | string srcPath =>
        have nonempty : srcPath ≠ "" := of_decide_eq_false (Except.ok.inj empty)
        simp only [Bool.false_eq_true, if_false, requireText, Exec.bind_apply, Exec.ofExcept_apply]
        rcases copyForSnap_apply env host srcPath with
          ⟨after, found, readable, writable, same, copied⟩ | ⟨unstaged, raised, after, same, copied⟩
        · rw [copied]
          exact Or.inl ⟨_, after, Or.inr ⟨srcPath, rfl, nonempty, found, readable, writable, rfl⟩,
            same, rfl⟩
        · rw [copied]
          refine Or.inr ⟨?_, raised, after, same, rfl⟩
          rintro flags (⟨bad, _⟩ | ⟨other, isText, _, found, readable, writable, _⟩)
          · cases bad
          · obtain rfl := Json.string.inj isText
            exact unstaged ⟨found, readable, writable⟩
    | _ =>
        refine Or.inr ⟨?_, _, _, rfl, rfl⟩
        rintro flags (⟨bad, _⟩ | ⟨srcPath, bad, _⟩) <;> cases bad
  · exact Or.inl ⟨[], host, Or.inl ⟨rfl, rfl⟩, rfl, rfl⟩

theorem releaseWord_apply (release : Json) :
    (∃ word, ReleasesAs release word ∧ releaseWord release host = (.ok word, host)) ∨
      (∀ word, ¬ ReleasesAs release word) ∧
        ∃ raised, releaseWord release host = (.error raised, host) := by
  unfold releaseWord ReleasesAs
  rw [Exec.bind_apply, Exec.ofExcept_apply]
  rcases empty : nilOrEmpty release with raised | _ | _
  · refine Or.inr ⟨?_, raised, rfl⟩
    rintro word (⟨bad, _⟩ | ⟨text, rfl, _⟩)
    · cases bad
    · cases empty
  · cases release with
    | string text =>
        have nonempty : text ≠ "" := of_decide_eq_false (Except.ok.inj empty)
        exact Or.inl ⟨.given text, Or.inr ⟨text, rfl, nonempty, rfl⟩, rfl⟩
    | _ =>
        refine Or.inr ⟨?_, _, rfl⟩
        rintro word (⟨bad, _⟩ | ⟨text, bad, _⟩) <;> cases bad
  · exact Or.inl ⟨_, Or.inl ⟨rfl, rfl⟩, rfl⟩

theorem removeStaged_apply :
    ∃ after, removeStaged env host = (.ok ⟨⟩, after) ∧ after.commands = host.commands := by
  unfold removeStaged
  split
  · split
    · exact ⟨_, rfl, rfl⟩
    · exact ⟨_, rfl, rfl⟩
  · exact ⟨_, rfl, rfl⟩

/-- Removing the staged copy changes neither the outcome nor the commands. -/
theorem ensure_removeStaged {α : Type} {body : Exec Host RubyError α} {middle : Host}
    {outcome : Except RubyError α} (ran : body host = (outcome, middle)) :
    ∃ last, Exec.ensure body (removeStaged env) host = (outcome, last) ∧
      last.commands = middle.commands := by
  obtain ⟨last, removed, kept⟩ := removeStaged_apply env middle
  refine ⟨last, ?_, kept⟩
  rw [Exec.ensure, ran, removed]

/-- A launch issues one command if its name is accepted, its cloud-init file
staged and its release a text, and none otherwise; it returns the name if the
command succeeds and raises in every other case. -/
theorem launchVm_apply (arguments : LaunchArguments) :
    (∃ name flags release, LaunchesAs env arguments.name name ∧
        StagesAs env host arguments.cloudInitFile flags ∧
        ReleasesAs arguments.release release ∧
        (launchVm env arguments host).2.commands = host.commands ++
          [⟨launchArgv env arguments name flags release,
            succeeds env host.commands.length (launchArgv env arguments name flags release)⟩] ∧
        if succeeds env host.commands.length (launchArgv env arguments name flags release) then
          (launchVm env arguments host).1 = .ok name
        else ∃ raised, (launchVm env arguments host).1 = .error raised) ∨
      (∀ name flags release, ¬ (LaunchesAs env arguments.name name ∧
          StagesAs env host arguments.cloudInitFile flags ∧
          ReleasesAs arguments.release release)) ∧
        (launchVm env arguments host).2.commands = host.commands ∧
        ∃ raised, (launchVm env arguments host).1 = .error raised := by
  unfold launchVm
  rcases launchName_apply env host arguments.name with
    ⟨name, named, nameRead⟩ | ⟨unnamed, raised, nameRead⟩
  · rw [Exec.bind_ok nameRead, Exec.bind_apply, Exec.ofExcept_apply]
    rcases empty : nilOrEmpty arguments.release with raised | isEmpty
    · refine Or.inr ⟨?_, rfl, raised, rfl⟩
      rintro _ _ release ⟨_, _, ⟨bad, _⟩ | ⟨text, isText, _⟩⟩
      · rw [empty] at bad
        cases bad
      · rw [isText] at empty
        cases empty
    · simp only
      rcases cloudInitFlags_apply env host arguments.cloudInitFile with
        ⟨flags, after, staged, same, flagsRead⟩ | ⟨unstaged, raised, after, same, flagsRead⟩
      · rw [Exec.bind_ok flagsRead]
        rcases releaseWord_apply after arguments.release with
          ⟨release, released, wordRead⟩ | ⟨unreleased, raised, wordRead⟩
        · refine Or.inl ⟨name, flags, release, named, staged, released, ?_⟩
          rw [← same]
          have body : (releaseWord arguments.release >>= fun release =>
              run env (launchArgv env arguments name flags release)) after =
                run env (launchArgv env arguments name flags release) after :=
            Exec.bind_ok wordRead _
          cases success : succeeds env after.commands.length
              (launchArgv env arguments name flags release) with
          | true =>
              obtain ⟨stdout, ran⟩ := run_of_success success
              obtain ⟨last, ensured, kept⟩ := ensure_removeStaged env after (body.trans ran)
              have whole := Exec.bind_ok ensured fun _ => pure name
              refine ⟨(congrArg (fun result => result.2.commands) whole).trans kept, ?_⟩
              exact congrArg Prod.fst whole
          | false =>
              obtain ⟨raised, ran⟩ := run_of_failure success
              obtain ⟨last, ensured, kept⟩ := ensure_removeStaged env after (body.trans ran)
              have whole := Exec.bind_error ensured fun _ => pure name
              refine ⟨(congrArg (fun result => result.2.commands) whole).trans kept, ?_⟩
              exact ⟨raised, congrArg Prod.fst whole⟩
        · have body : (releaseWord arguments.release >>= fun release =>
              run env (launchArgv env arguments name flags release)) after =
                (.error raised, after) := Exec.bind_error wordRead _
          obtain ⟨last, ensured, kept⟩ := ensure_removeStaged env after body
          have whole := Exec.bind_error ensured fun _ => (pure name : Exec Host RubyError String)
          exact Or.inr ⟨fun _ _ release three => unreleased release three.2.2,
            (congrArg (fun result => result.2.commands) whole).trans (kept.trans same), raised,
            congrArg Prod.fst whole⟩
      · rw [Exec.bind_error flagsRead]
        exact Or.inr ⟨fun _ flags _ three => unstaged flags three.2.1, same, raised, rfl⟩
  · rw [Exec.bind_error nameRead]
    exact Or.inr ⟨fun text _ _ three => unnamed text three.1, rfl, raised, rfl⟩

end

section

variable {env : Environment} {P : List Word → Prop} {α β : Type}

theorem issues_discard {body : Exec Host RubyError α} (holds : Exec.Keeps (Issues P) body) :
    Exec.Keeps (Issues P) (discard body) :=
  Exec.keeps_bind holds fun _ => Exec.keeps_pure _

/-- What follows a validation is run with a valid name, or not at all. -/
theorem issues_validated {name : Json} {next : String → Exec Host RubyError β}
    (holds : ∀ text, name = .string text → IsVmName text → Exec.Keeps (Issues P) (next text)) :
    Exec.Keeps (Issues P) (NameValidator.validateVmName name >>= next) := by
  by_cases valid : ∃ text, name = .string text ∧ IsVmName text
  · obtain ⟨text, rfl, isName⟩ := valid
    rw [validateVmName_of_valid isName]
    exact holds text rfl isName
  · obtain ⟨shown, raises⟩ :=
      validateVmName_of_invalid fun text isText isName => valid ⟨text, isText, isName⟩
    rw [raises]
    exact Exec.keeps_raise _

end

/-! ## What an operation can issue -/

/-- A valid name with its text. -/
def Named (name : Json) (text : String) : Prop := name = .string text ∧ IsVmName text

theorem validVmName_iff {name : Json} :
    NameValidator.validVmName name = true ↔ ∃ text, Named name text := by
  constructor
  · intro matched
    cases name with
    | string text => exact ⟨text, rfl, (vmNamePattern_iff text).mp matched⟩
    | _ => cases matched
  · rintro ⟨text, rfl, valid⟩
    exact (vmNamePattern_iff text).mpr valid

/-- The argv of a `get` or `set` of a machine's configuration. -/
def localKey (text key : String) : String := "local." ++ text ++ "." ++ key

/-- The commands that an operation can issue. -/
def NamedOperation.Commands (env : Environment) (operation : NamedOperation)
    (argv : List Word) : Prop :=
  match operation with
  | getVmInfo name | listMounts name => ∃ text, Named name text ∧
      argv = [.literal "info", .given text, .literal "--format", .literal "json"]
  | launchVm arguments => ∃ host name flags release, LaunchesAs env arguments.name name ∧
      StagesAs env host arguments.cloudInitFile flags ∧ ReleasesAs arguments.release release ∧
      argv = launchArgv env arguments name flags release
  | cloneVm source destName => ∃ text, Named source text ∧
      ((givenAndNotEmpty destName = .ok false ∧ argv = [.literal "clone", .given text]) ∨
        ∃ dest, Named destName dest ∧
          argv = [.literal "clone", .given text, .literal "--name", .given dest])
  | startVm name => ∃ text, Named name text ∧ argv = [.literal "start", .given text]
  | stopVm name => ∃ text, Named name text ∧ argv = [.literal "stop", .given text]
  | suspendVm name => ∃ text, Named name text ∧ argv = [.literal "suspend", .given text]
  | deleteVm name purge => ∃ text, Named name text ∧
      argv = [.literal "delete", .given text] ++ if purge then [.literal "--purge"] else []
  | recoverVm name => ∃ text, Named name text ∧ argv = [.literal "recover", .given text]
  | execInVm vmName command => ∃ text, Named vmName text ∧
      argv = [.literal "exec", .given text, .literal "--"] ++ command.map Word.given
  | getVmConfig name => ∃ text key, Named name text ∧ argv =
      [.literal "get", .given (localKey text key)]
  | setVmCpus name _ | setVmMemory name _ | setVmDisk name _ => ∃ text key, Named name text ∧
      argv = [.literal "set", .given (localKey text key)]
  | getRawInfo name => ∃ text, Named name text ∧ argv = [.literal "info", .given text]
  | getCloudInitStatus vmName => ∃ text script, Named vmName text ∧
      argv = [.literal "exec", .given text, .literal "--", .literal "sh", .literal "-c",
        .literal script]
  | listSnapshots vmName => ∃ text, Named vmName text ∧
      argv = [.literal "info", .given text, .literal "--snapshots", .literal "--format",
        .literal "json"]
  | createSnapshot vmName snapshotName _ => ∃ text snapshot comment, Named vmName text ∧
      Named snapshotName snapshot ∧
      argv = [.literal "snapshot", .literal "--name", .given snapshot] ++
        (match comment with
          | some comment => [.literal "--comment", .given comment]
          | none => []) ++ [.given text]
  | restoreSnapshot vmName snapshotName => ∃ text snapshot, Named vmName text ∧
      Named snapshotName snapshot ∧
      argv = [.literal "restore", .literal "--destructive", .given (text ++ "." ++ snapshot)]
  | deleteSnapshot vmName snapshotName => ∃ text snapshot, Named vmName text ∧
      Named snapshotName snapshot ∧
      argv = [.literal "delete", .literal "--purge", .given (text ++ "." ++ snapshot)]
  | addMount vmName source target => ∃ text path, Named vmName text ∧ source = .string path ∧
      argv = [.literal "mount", .given path, .given (text ++ ":" ++ interpolate env target)]
  | removeMount vmName target => ∃ text, Named vmName text ∧
      argv = [.literal "umount", .given (text ++ ":" ++ interpolate env target)]
  | transferFromVm vmName remotePath => ∃ text, Named vmName text ∧
      argv = [.literal "transfer", .given (text ++ ":" ++ interpolate env remotePath), .literal "-"]
  | transferToVm vmName remotePath => ∃ text, Named vmName text ∧
      argv = [.literal "transfer", .literal "-", .given (text ++ ":" ++ interpolate env remotePath)]

/-- The commands of `list_vms`. -/
def ListCommands (argv : List Word) : Prop :=
  argv = [.literal "info", .literal "--all", .literal "--format", .literal "json"] ∨
    argv = [.literal "list", .literal "--format", .literal "json"]

/-- The commands that an operation can issue. -/
def Operation.Commands (env : Environment) (operation : Operation) (argv : List Word) : Prop :=
  match operation with
  | named operation => operation.Commands env argv
  | listVms => ListCommands argv
  | startAll => ListCommands argv ∨ ∃ text, IsVmName text ∧ argv = [.literal "start", .given text]
  | stopAll => ListCommands argv ∨ ∃ text, IsVmName text ∧ argv = [.literal "stop", .given text]
  | purgeDeleted => argv = [.literal "purge"]
  | listNetworks => argv = [.literal "networks", .literal "--format", .literal "json"]
  | findImages => argv = [.literal "find", .literal "--format", .literal "json"]

section

variable {env : Environment} {P : List Word → Prop}

theorem issues_listVms (holds : ∀ argv, ListCommands argv → P argv) :
    Exec.Keeps (Issues P) (listVms env) := by
  refine Exec.keeps_rescue ?_ ?_
  · exact Exec.keeps_bind (issues_run (holds _ (Or.inl rfl))) fun output =>
      Exec.keeps_bind (issues_parse output) fun resp => Exec.keeps_ofExcept _
  · intro error handled member
    split at member
    · obtain rfl := Option.mem_some_iff.mp member
      refine Exec.keeps_bind ?_ fun output => Exec.keeps_bind (issues_parse output) fun resp =>
        Exec.keeps_bind (Exec.keeps_ofExcept _) fun vms => Exec.keeps_ofExcept _
      apply Exec.keeps_rescue (issues_run (holds _ (Or.inr rfl)))
      intro second handled member
      split at member
      · obtain rfl := Option.mem_some_iff.mp member
        exact Exec.keeps_raise _
      · cases member
    · cases member

theorem issues_lifecycle {verb : String} {name : Json}
    (holds : ∀ text, Named name text → P [.literal verb, .given text]) :
    Exec.Keeps (Issues P) (lifecycle env verb name) :=
  issues_validated fun text isText isName => issues_run (holds text ⟨isText, isName⟩)

theorem issues_runOne {state : String} {block : Json → Exec Host RubyError String}
    (holds : ∀ name, Exec.Keeps (Issues P) (block name)) (vm : VmInfo) :
    Exec.Keeps (Issues P) (runOne env state block vm) := by
  unfold runOne
  split
  · refine Exec.keeps_rescue
      (Exec.keeps_bind (holds vm.name) fun _ => Exec.keeps_pure _) ?_
    intro error handled member
    split at member
    · obtain rfl := Option.mem_some_iff.mp member
      exact Exec.keeps_pure _
    · cases member
  · exact Exec.keeps_pure _

theorem issues_runEach {state : String} {block : Json → Exec Host RubyError String}
    (holds : ∀ name, Exec.Keeps (Issues P) (block name)) :
    ∀ vms : List VmInfo, Exec.Keeps (Issues P) (runEach env state block vms)
  | [] => Exec.keeps_pure _
  | vm :: rest => Exec.keeps_bind (issues_runOne holds vm) fun _ =>
      Exec.keeps_bind (issues_runEach holds rest) fun _ => Exec.keeps_pure _

theorem issues_runAllInState {state : String} {block : Json → Exec Host RubyError String}
    (lists : ∀ argv, ListCommands argv → P argv)
    (holds : ∀ name, Exec.Keeps (Issues P) (block name)) :
    Exec.Keeps (Issues P) (runAllInState env state block) := by
  unfold runAllInState
  refine Exec.keeps_bind (issues_listVms lists) fun vms =>
    Exec.keeps_bind (issues_runEach holds vms) fun errors => ?_
  split
  · exact Exec.keeps_pure _
  · exact Exec.keeps_raise _

theorem issues_shell {vmName : String}
    (holds : ∀ script, P [.literal "exec", .given vmName, .literal "--", .literal "sh",
      .literal "-c", .literal script]) (script : String) :
    Exec.Keeps (Issues P) (shell env vmName script) :=
  issues_run (holds script)

theorem issues_getCloudInitStatus {vmName : Json}
    (holds : ∀ text script, Named vmName text → P [.literal "exec", .given text, .literal "--",
      .literal "sh", .literal "-c", .literal script]) :
    Exec.Keeps (Issues P) (getCloudInitStatus env vmName) := by
  refine issues_validated fun text isText isName => ?_
  have shells := fun script => holds text script ⟨isText, isName⟩
  refine Exec.keeps_bind (Exec.keeps_rescue
    (Exec.keeps_bind (issues_shell shells _) fun _ => Exec.keeps_pure _) ?_) ?_
  · intro error handled member
    split at member
    · obtain rfl := Option.mem_some_iff.mp member
      exact Exec.keeps_pure _
    · cases member
  · intro jsonOutput
    cases jsonOutput with
    | none => exact Exec.keeps_pure _
    | some jsonOutput =>
        refine Exec.keeps_bind (Exec.keeps_ofExcept _) fun result =>
          Exec.keeps_bind (Exec.keeps_rescue (issues_shell shells _) ?_) fun _ => Exec.keeps_pure _
        intro error handled member
        split at member
        · obtain rfl := Option.mem_some_iff.mp member
          exact Exec.keeps_pure _
        · cases member

theorem issues_launchVm {arguments : LaunchArguments}
    (holds : ∀ argv, (NamedOperation.launchVm arguments).Commands env argv → P argv) :
    Exec.Keeps (Issues P) (launchVm env arguments) := by
  intro host
  rcases launchVm_apply env host arguments with
    ⟨name, flags, release, named, staged, released, commands, _⟩ | ⟨_, commands, _⟩
  · refine ⟨_, commands, ?_⟩
    intro command member
    rw [List.mem_singleton.mp member]
    exact holds _ ⟨host, name, flags, release, named, staged, released, rfl⟩
  · exact ⟨[], by rw [commands, List.append_nil], List.forall_mem_nil _⟩

theorem issues_getVmInfo {name : Json}
    (holds : ∀ text, Named name text →
      P [.literal "info", .given text, .literal "--format", .literal "json"]) :
    Exec.Keeps (Issues P) (getVmInfo env name) := by
  refine issues_validated fun text isText isName => ?_
  refine Exec.keeps_bind (issues_run (holds text ⟨isText, isName⟩)) fun output =>
    Exec.keeps_bind (issues_parse output) fun resp =>
      Exec.keeps_bind (Exec.keeps_ofExcept _) fun vms => ?_
  split
  · exact Exec.keeps_pure _
  · exact Exec.keeps_raise _

theorem issues_cloneVm {source destName : Json}
    (holds : ∀ argv, (NamedOperation.cloneVm source destName).Commands env argv → P argv) :
    Exec.Keeps (Issues P) (cloneVm env source destName) := by
  refine issues_validated fun text isText isName => Exec.keeps_ofExcept_bind fun given isGiven => ?_
  cases given with
  | true =>
      refine issues_validated fun dest isDest destNamed => ?_
      refine Exec.keeps_bind (issues_run (holds _ ?_)) fun _ => Exec.keeps_pure _
      exact ⟨text, ⟨isText, isName⟩, Or.inr ⟨dest, ⟨isDest, destNamed⟩, rfl⟩⟩
  | false =>
      refine Exec.keeps_bind (issues_run (holds _ ?_)) fun _ => Exec.keeps_pure _
      exact ⟨text, ⟨isText, isName⟩, Or.inl ⟨isGiven, rfl⟩⟩

theorem issues_setVm {key unit : String} {name : Json} {value : Int}
    (holds : ∀ text setting, Named name text →
      P [.literal "set", .given (localKey text setting)]) :
    Exec.Keeps (Issues P) (setVm env key unit name value) := by
  refine issues_validated fun text isText isName => issues_run ?_
  have word : "local." ++ text ++ "." ++ key ++ "=" ++ toString value ++ unit =
      localKey text (key ++ "=" ++ toString value ++ unit) := by
    simp only [localKey, String.append_assoc]
  rw [word]
  exact holds text _ ⟨isText, isName⟩

theorem issues_getVmConfig {name : Json}
    (holds : ∀ text key, Named name text → P [.literal "get", .given (localKey text key)]) :
    Exec.Keeps (Issues P) (getVmConfig env name) := by
  refine issues_validated fun text isText isName => ?_
  have gets : ∀ key suffix, "." ++ key = suffix → Exec.Keeps (Issues P)
      (run env [.literal "get", .given ("local." ++ text ++ suffix)]) := by
    rintro key suffix rfl
    rw [← String.append_assoc]
    exact issues_run (holds text key ⟨isText, isName⟩)
  exact Exec.keeps_bind (gets "cpus" _ (by decide)) fun _ =>
    Exec.keeps_bind (gets "memory" _ (by decide)) fun _ =>
      Exec.keeps_bind (gets "disk" _ (by decide)) fun _ =>
        Exec.keeps_bind (Exec.keeps_ofExcept _) fun _ =>
          Exec.keeps_bind (Exec.keeps_ofExcept _) fun _ => Exec.keeps_pure _

/-- An operation issues nothing but its commands. -/
theorem NamedOperation.issues_exec (operation : NamedOperation) :
    Exec.Keeps (Issues (operation.Commands env)) (operation.exec env) := by
  cases operation with
  | getVmInfo name =>
      exact issues_discard (issues_getVmInfo fun text named => ⟨text, named, rfl⟩)
  | launchVm arguments => exact issues_discard (issues_launchVm fun _ => id)
  | cloneVm source destName => exact issues_discard (issues_cloneVm fun _ => id)
  | startVm name | stopVm name | suspendVm name | recoverVm name | getRawInfo name =>
      exact issues_discard (issues_lifecycle fun text named => ⟨text, named, rfl⟩)
  | deleteVm name purge =>
      exact issues_discard (issues_validated fun text isText isName =>
        issues_run ⟨text, ⟨isText, isName⟩, rfl⟩)
  | execInVm vmName command =>
      exact issues_discard (issues_validated fun text isText isName =>
        issues_run ⟨text, ⟨isText, isName⟩, rfl⟩)
  | getVmConfig name =>
      exact issues_discard (issues_getVmConfig fun text key named => ⟨text, key, named, rfl⟩)
  | setVmCpus name value | setVmMemory name value | setVmDisk name value =>
      exact issues_discard (issues_setVm fun text key named => ⟨text, key, named, rfl⟩)
  | getCloudInitStatus vmName =>
      exact issues_discard (issues_getCloudInitStatus fun text script named =>
        ⟨text, script, named, rfl⟩)
  | listSnapshots vmName =>
      exact issues_discard (issues_validated fun text isText isName =>
        Exec.keeps_bind (issues_run ⟨text, ⟨isText, isName⟩, rfl⟩) fun output =>
          Exec.keeps_bind (issues_parse output) fun resp => Exec.keeps_ofExcept _)
  | createSnapshot vmName snapshotName comment =>
      refine issues_discard (issues_validated fun text isText isName =>
        issues_validated fun snapshot isSnapshot snapshotNamed =>
          Exec.keeps_ofExcept_bind fun commented isCommented => issues_run ?_)
      refine ⟨text, snapshot, if commented then some (interpolate env comment) else none,
        ⟨isText, isName⟩, ⟨isSnapshot, snapshotNamed⟩, ?_⟩
      cases commented <;> rfl
  | restoreSnapshot vmName snapshotName | deleteSnapshot vmName snapshotName =>
      exact issues_discard (issues_validated fun text isText isName =>
        issues_validated fun snapshot isSnapshot snapshotNamed =>
          issues_run ⟨text, snapshot, ⟨isText, isName⟩, ⟨isSnapshot, snapshotNamed⟩, rfl⟩)
  | listMounts vmName =>
      exact issues_discard (Exec.keeps_bind
        (issues_getVmInfo fun text named => ⟨text, named, rfl⟩) fun _ => Exec.keeps_pure _)
  | addMount vmName source target =>
      refine issues_discard (issues_validated fun text isText isName =>
        Exec.keeps_ofExcept_bind fun path isPath => issues_run ?_)
      refine ⟨text, path, ⟨isText, isName⟩, ?_, rfl⟩
      cases source <;> cases isPath
      rfl
  | removeMount vmName target =>
      exact issues_discard (issues_validated fun text isText isName =>
        issues_run ⟨text, ⟨isText, isName⟩, rfl⟩)
  | transferFromVm vmName remotePath | transferToVm vmName remotePath =>
      exact issues_discard (issues_validated fun text isText isName =>
        Exec.keeps_bind (issues_capture ⟨text, ⟨isText, isName⟩, rfl⟩) fun _ => Exec.keeps_pure _)

/-- An operation issues nothing but its commands. -/
theorem Operation.issues_exec (operation : Operation) :
    Exec.Keeps (Issues (operation.Commands env)) (operation.exec env) := by
  cases operation with
  | named operation => exact operation.issues_exec
  | listVms => exact issues_discard (issues_listVms fun _ => id)
  | startAll | stopAll =>
      exact issues_runAllInState (fun _ => Or.inl) fun name =>
        issues_lifecycle fun text named => Or.inr ⟨text, named.2, rfl⟩
  | purgeDeleted => exact issues_discard (issues_run rfl)
  | listNetworks =>
      exact issues_discard (Exec.keeps_bind (issues_run rfl) fun output =>
        Exec.keeps_bind (issues_parse output) fun resp => Exec.keeps_ofExcept _)
  | findImages =>
      exact issues_discard (Exec.keeps_bind (issues_run rfl) fun output =>
        Exec.keeps_bind (issues_parse output) fun resp =>
          Exec.keeps_bind (Exec.keeps_ofExcept _) fun images =>
            Exec.keeps_bind (Exec.keeps_ofExcept _) fun blueprints => Exec.keeps_pure _)

end

end MultipassWebui.Multipass
