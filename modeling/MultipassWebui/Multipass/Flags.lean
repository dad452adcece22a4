import MultipassWebui.Multipass.Names

/-!
# Flags in the argv

Which words of an argv multipass takes for an option: those that begin with a
hyphen, unless they fill the slot of a flag or stand after `--`.  A name never
begins with a hyphen; the release of a launch and the source of a mount are not
names, and stand where multipass looks for options.
-/

namespace MultipassWebui.Multipass

open MultipassWebui.Effect
open MultipassWebui.Effect.Value (nilOrEmpty)
open MultipassWebui.Encoding

/-- The flags that are followed by a value. -/
def VALUE_FLAGS : List String :=
  ["--name", "--cpus", "--memory", "--disk", "--cloud-init", "--network", "--comment", "--format"]

/-- The word is a flag written in the code that is followed by a value. -/
def Word.takesValue : Word → Bool
  | literal text => VALUE_FLAGS.contains text
  | given _ => false

def Word.isLiteral : Word → Bool
  | literal _ => true
  | given _ => false

/-- Every word that begins with a hyphen, up to the separator `--`, is written
in the code or the value of the flag before it. -/
def AccountedAfter : Option Word → List Word → Prop
  | _, [] => True
  | previous, word :: rest =>
      word = .literal "--" ∨
        (Hyphened word.text →
            word.isLiteral = true ∨ (previous.map Word.takesValue).getD false = true) ∧
          AccountedAfter (some word) rest

def Accounted (argv : List Word) : Prop := AccountedAfter none argv

section

variable {previous : Option Word} {rest : List Word} {text : String}

theorem accountedAfter_separator : AccountedAfter previous (.literal "--" :: rest) := Or.inl rfl

theorem accountedAfter_literal (other : text ≠ "--") :
    AccountedAfter previous (.literal text :: rest) ↔
      AccountedAfter (some (.literal text)) rest := by
  constructor
  · rintro (separator | ⟨_, holds⟩)
    · exact absurd (Word.literal.inj separator) other
    · exact holds
  · exact fun holds => Or.inr ⟨fun _ => Or.inl rfl, holds⟩

theorem accountedAfter_given (plain : ¬ Hyphened text) :
    AccountedAfter previous (.given text :: rest) ↔ AccountedAfter (some (.given text)) rest := by
  constructor
  · rintro (separator | ⟨_, holds⟩)
    · cases separator
    · exact holds
  · exact fun holds => Or.inr ⟨fun hyphen => absurd hyphen plain, holds⟩

/-- The value of a flag can be anything. -/
theorem accountedAfter_value {flag : String} (known : flag ∈ VALUE_FLAGS) :
    AccountedAfter previous (.literal flag :: .given text :: rest) ↔
      AccountedAfter (some (.given text)) rest := by
  have other : flag ≠ "--" := by
    rintro rfl
    exact absurd known (by decide)
  have taken : (Word.literal flag).takesValue = true := List.contains_iff_mem.mpr known
  rw [accountedAfter_literal other]
  constructor
  · rintro (separator | ⟨_, holds⟩)
    · cases separator
    · exact holds
  · exact fun holds => Or.inr ⟨fun _ => Or.inr taken, holds⟩

/-- The last word, where it is not the value of a flag. -/
theorem accountedAfter_last {last : Word}
    (noValue : (previous.map Word.takesValue).getD false = false) :
    AccountedAfter previous [last] ↔ (Hyphened last.text → last.isLiteral = true) := by
  simp only [AccountedAfter, noValue, Bool.false_eq_true, or_false, and_true]
  constructor
  · rintro (rfl | holds) hyphen
    · rfl
    · exact holds hyphen
  · exact Or.inr

end

/-! ## The commands of each operation -/

section

variable {env : Environment} {name : String} {flags : List Word}

/-- Everything that a launch puts before the release is accounted for. -/
theorem accounted_launchArgv (arguments : LaunchArguments) {host : Host}
    (staged : StagesAs env host arguments.cloudInitFile flags) (release : Word) :
    Accounted (launchArgv env arguments name flags release) ↔
      (Hyphened release.text → release.isLiteral = true) := by
  have network : ∀ {given : String}, AccountedAfter (some (.given given))
      (networkFlags env arguments.networkName ++ [release]) ↔
        (Hyphened release.text → release.isLiteral = true) := by
    intro given
    unfold networkFlags
    split
    · exact accountedAfter_last rfl
    · exact accountedAfter_last rfl
    · exact accountedAfter_last rfl
    · exact (accountedAfter_literal (by decide)).trans (accountedAfter_last (by decide))
    · exact (accountedAfter_value (by decide)).trans (accountedAfter_last rfl)
  have resources : ∀ {tail : List Word},
      Accounted (resourceFlags arguments name ++ tail) ↔
        AccountedAfter (some (.given (toString (orDefault MIN_DISK_GB DEFAULT_DISK_GB
          arguments.diskGb) ++ "G"))) tail := by
    intro tail
    apply (accountedAfter_literal (by decide)).trans
    apply (accountedAfter_value (by decide)).trans
    apply (accountedAfter_value (by decide)).trans
    exact (accountedAfter_value (by decide)).trans (accountedAfter_value (by decide))
  rw [launchArgv, List.append_assoc, List.append_assoc, resources]
  rcases staged with ⟨_, rfl⟩ | ⟨_, _, _, _, _, _, rfl⟩
  · exact network
  · exact (accountedAfter_value (by decide)).trans network

theorem IsVmName.join_not_hyphened {text : String} (valid : IsVmName text)
    (mark rest : String) : ¬ Hyphened (text ++ mark ++ rest) := by
  rw [String.append_assoc]
  exact valid.append_not_hyphened (mark ++ rest)

theorem localKey_not_hyphened (text key : String) : ¬ Hyphened (localKey text key) := by
  have leads : (localKey text key).toList.head? = some 'l' := by
    simp [localKey]
  rw [Hyphened, leads]
  decide

/-- A verb, a name and literal words that are not the separator. -/
theorem accounted_verb {verb text : String} (valid : IsVmName text) (other : verb ≠ "--") :
    Accounted [.literal verb, .given text] :=
  (accountedAfter_literal other).mpr
    ((accountedAfter_given valid.not_hyphened).mpr trivial)

/-- The commands of an operation are accounted for, unless a release or the
source of a mount begins with a hyphen. -/
theorem accounted_commands {operation : NamedOperation} {argv : List Word}
    (issued : operation.Commands env argv)
    (release : ∀ arguments text, operation = .launchVm arguments →
      arguments.release = .string text → ¬ Hyphened text)
    (source : ∀ vmName path target, operation = .addMount vmName (.string path) target →
      ¬ Hyphened path) : Accounted argv := by
  have literal := @accountedAfter_literal
  have given := @accountedAfter_given
  cases operation with
  | launchVm arguments =>
      obtain ⟨host, name, flags, word, _, staged, released, rfl⟩ := issued
      rw [accounted_launchArgv arguments staged]
      intro hyphen
      rcases released with ⟨_, rfl⟩ | ⟨text, isText, _, rfl⟩
      · rfl
      · exact absurd hyphen (release arguments text rfl isText)
  | cloneVm vmName destName =>
      obtain ⟨text, named, ⟨_, rfl⟩ | ⟨dest, destNamed, rfl⟩⟩ := issued
      · exact accounted_verb named.2 (by decide)
      · refine (literal (by decide)).mpr ((given named.2.not_hyphened).mpr ?_)
        exact (accountedAfter_value (by decide)).mpr trivial
  | startVm name | stopVm name | suspendVm name | recoverVm name | getRawInfo name =>
      obtain ⟨text, named, rfl⟩ := issued
      exact accounted_verb named.2 (by decide)
  | deleteVm name purge =>
      obtain ⟨text, named, rfl⟩ := issued
      refine (literal (by decide)).mpr ((given named.2.not_hyphened).mpr ?_)
      cases purge with
      | true => exact (literal (by decide)).mpr trivial
      | false => trivial
  | getVmInfo name | listMounts name | listSnapshots name =>
      obtain ⟨text, named, rfl⟩ := issued
      refine (literal (by decide)).mpr ((given named.2.not_hyphened).mpr ?_)
      simp [AccountedAfter, Word.isLiteral]
  | execInVm vmName command =>
      obtain ⟨text, named, rfl⟩ := issued
      exact (literal (by decide)).mpr ((given named.2.not_hyphened).mpr accountedAfter_separator)
  | getCloudInitStatus vmName =>
      obtain ⟨text, script, named, rfl⟩ := issued
      exact (literal (by decide)).mpr ((given named.2.not_hyphened).mpr accountedAfter_separator)
  | getVmConfig name | setVmCpus name _ | setVmMemory name _ | setVmDisk name _ =>
      obtain ⟨text, key, named, rfl⟩ := issued
      exact (literal (by decide)).mpr ((given (localKey_not_hyphened text key)).mpr trivial)
  | createSnapshot vmName snapshotName comment =>
      obtain ⟨text, snapshot, comment, named, _, rfl⟩ := issued
      refine (literal (by decide)).mpr ((accountedAfter_value (by decide)).mpr ?_)
      cases comment with
      | none => exact (given named.2.not_hyphened).mpr trivial
      | some comment =>
          exact (accountedAfter_value (by decide)).mpr ((given named.2.not_hyphened).mpr trivial)
  | restoreSnapshot vmName snapshotName | deleteSnapshot vmName snapshotName =>
      obtain ⟨text, snapshot, named, _, rfl⟩ := issued
      refine (literal (by decide)).mpr ((literal (by decide)).mpr ?_)
      exact (given (named.2.join_not_hyphened _ _)).mpr trivial
  | addMount vmName mountSource target =>
      obtain ⟨text, path, named, rfl, rfl⟩ := issued
      refine (literal (by decide)).mpr ((given (source vmName path target rfl)).mpr ?_)
      exact (given (named.2.join_not_hyphened _ _)).mpr trivial
  | removeMount vmName target =>
      obtain ⟨text, named, rfl⟩ := issued
      exact (literal (by decide)).mpr ((given (named.2.join_not_hyphened _ _)).mpr trivial)
  | transferFromVm vmName remotePath =>
      obtain ⟨text, named, rfl⟩ := issued
      refine (literal (by decide)).mpr ((given (named.2.join_not_hyphened _ _)).mpr ?_)
      exact (literal (by decide)).mpr trivial
  | transferToVm vmName remotePath =>
      obtain ⟨text, named, rfl⟩ := issued
      refine (literal (by decide)).mpr ((literal (by decide)).mpr ?_)
      exact (given (named.2.join_not_hyphened _ _)).mpr trivial

theorem accounted_list {argv : List Word} (listed : ListCommands argv) : Accounted argv := by
  rcases listed with rfl | rfl <;> simp [Accounted, AccountedAfter, Word.isLiteral]

end

/-! ## When an operation hands over nothing but accounted words -/

/-- The runner gets a release or a source only if the rest of the arguments is
accepted; what it then gets must not begin with a hyphen. -/
def Operation.PlainPositionals (env : Environment) (host : Host) : Operation → Prop
  | named (.launchVm arguments) => ∀ text, arguments.release = .string text → Hyphened text →
      ¬ ∃ name flags, LaunchesAs env arguments.name name ∧
        StagesAs env host arguments.cloudInitFile flags
  | named (.addMount vmName source _) => ∀ path, source = .string path → Hyphened path →
      ¬ ∃ text, Named vmName text
  | _ => True

theorem Issues.mono {P Q : List Word → Prop} {before after : Host} (holds : Issues P before after)
    (weaker : ∀ argv, P argv → Q argv) : Issues Q before after := by
  obtain ⟨added, commands, each⟩ := holds
  exact ⟨added, commands, fun command member => weaker _ (each command member)⟩

theorem issues_none {P : List Word → Prop} {before after : Host}
    (same : after.commands = before.commands) : Issues P before after :=
  ⟨[], by rw [same, List.append_nil], List.forall_mem_nil _⟩

theorem issues_one {P : List Word → Prop} {before after : Host} {command : Command}
    (issued : after.commands = before.commands ++ [command]) :
    Issues P before after ↔ P command.argv := by
  constructor
  · rintro ⟨added, commands, each⟩
    obtain rfl := List.append_cancel_left (issued.symm.trans commands)
    exact each command (List.mem_singleton.mpr rfl)
  · intro holds
    refine ⟨[command], issued, fun other member => ?_⟩
    rw [List.mem_singleton.mp member]
    exact holds

section

variable (env : Environment) (host : Host)

theorem discard_state {α : Type} (body : Exec Host RubyError α) :
    (discard body host).2 = (body host).2 :=
  congrArg Prod.snd (Exec.bind_pure_apply body (fun _ => PUnit.unit) host)

theorem launchVm_accounted_iff (arguments : LaunchArguments) :
    Issues Accounted host (launchVm env arguments host).2 ↔
      (Operation.named (.launchVm arguments)).PlainPositionals env host := by
  rcases launchVm_apply env host arguments with
    ⟨name, flags, release, named, staged, released, commands, _⟩ | ⟨none, commands, _⟩
  · rw [issues_one commands, accounted_launchArgv arguments staged]
    rcases released with ⟨blank, rfl⟩ | ⟨text, isText, _, rfl⟩
    · refine ⟨fun _ text isText hyphen => ?_, fun _ _ => rfl⟩
      rw [isText] at blank
      obtain rfl : text = "" := of_decide_eq_true (Except.ok.inj blank)
      exact absurd hyphen (by decide)
    · constructor
      · intro plain other isOther hyphen
        obtain rfl := Json.string.inj (isText.symm.trans isOther)
        cases plain hyphen
      · intro plain hyphen
        exact absurd ⟨name, flags, named, staged⟩ (plain text isText hyphen)
  · refine ⟨fun _ text isText hyphen => ?_, fun _ => issues_none commands⟩
    rintro ⟨name, flags, named, staged⟩
    have nonempty : text ≠ "" := by
      rintro rfl
      exact absurd hyphen (by decide)
    exact none name flags (.given text) ⟨named, staged, Or.inr ⟨text, isText, nonempty, rfl⟩⟩

theorem addMount_accounted_iff (vmName source target : Json) :
    Issues Accounted host (addMount env vmName source target host).2 ↔
      (Operation.named (.addMount vmName source target)).PlainPositionals env host := by
  by_cases valid : ∃ text, Named vmName text
  · obtain ⟨text, named⟩ := valid
    unfold addMount
    rw [named.1, validateVmName_of_valid named.2]
    cases source with
    | string path =>
        have issued := capture_state env [.literal "mount", .given path,
          .given (text ++ ":" ++ interpolate env target)] host
        have ran := (congrArg Prod.snd (Exec.bind_pure_apply
          (capture env [.literal "mount", .given path,
              .given (text ++ ":" ++ interpolate env target)])
          Text.strip host)).trans issued
        have commands := congrArg Host.commands ran
        apply (issues_one commands).trans
        constructor
        · intro accounted other isOther hyphen
          obtain rfl := Json.string.inj isOther
          rw [Accounted, accountedAfter_literal (by decide)] at accounted
          rcases accounted with separator | ⟨slot, _⟩
          · cases separator
          · rcases slot hyphen with literal | value
            · cases literal
            · exact absurd value (by decide)
        · intro plain
          have notHyphened : ¬ Hyphened path :=
            fun hyphen => plain path rfl hyphen ⟨text, named.1 ▸ named⟩
          refine (accountedAfter_literal (by decide)).mpr
              ((accountedAfter_given notHyphened).mpr ?_)
          exact (accountedAfter_given (named.2.join_not_hyphened _ _)).mpr trivial
    | _ => exact ⟨fun _ path isPath => (by cases isPath), fun _ => issues_none rfl⟩
  · have rejected : Rejects _ host := rejects_validated valid fun vmName => do
      let source ← Exec.ofExcept (Value.requireText source)
      run env [.literal "mount", .given source, .given (vmName ++ ":" ++ interpolate env target)]
    obtain ⟨shown, raised⟩ := rejected
    refine ⟨fun _ _ _ _ => valid, fun _ => issues_none ?_⟩
    exact congrArg (fun result => result.2.commands) raised

end

/-- An operation hands the runner an argv with a hyphened word of its caller
precisely if it is a launch with such a release or a mount with such a source,
and the rest of its arguments is accepted. -/
theorem accounted_iff (env : Environment) (operation : Operation) (host : Host) :
    Issues Accounted host (operation.exec env host).2 ↔ operation.PlainPositionals env host := by
  have always : (∀ argv, operation.Commands env argv → Accounted argv) →
      Issues Accounted host (operation.exec env host).2 :=
    fun accounted => (operation.issues_exec host).mono accounted
  have named : ∀ operation : NamedOperation,
      (∀ argv, operation.Commands env argv → Accounted argv) →
        Issues Accounted host ((Operation.named operation).exec env host).2 :=
    fun operation accounted => (operation.issues_exec host).mono accounted
  cases operation with
  | named operation =>
      cases operation with
      | launchVm arguments =>
          exact (discard_state host (launchVm env arguments)).symm ▸
            launchVm_accounted_iff env host arguments
      | addMount vmName source target =>
          exact (discard_state host (addMount env vmName source target)).symm ▸
            addMount_accounted_iff env host vmName source target
      | _ =>
          refine ⟨fun _ => trivial, fun _ => named _ fun argv issued => ?_⟩
          exact accounted_commands issued (fun _ _ same => by cases same)
            (fun _ _ _ same => by cases same)
  | startAll | stopAll =>
      refine ⟨fun _ => trivial, fun _ => always ?_⟩
      rintro argv (listed | ⟨text, isName, rfl⟩)
      · exact accounted_list listed
      · exact accounted_verb isName (by decide)
  | listVms => exact ⟨fun _ => trivial, fun _ => always fun _ => accounted_list⟩
  | purgeDeleted | listNetworks | findImages =>
      refine ⟨fun _ => trivial, fun _ => always ?_⟩
      rintro argv rfl
      simp [Accounted, AccountedAfter, Word.isLiteral]

/-- A launch whose release is an option. -/
def hyphenedLaunch : LaunchArguments where
  name := .string "web"
  release := .string "--mount=/etc:/mnt"
  cpus := none
  memoryMb := none
  diskGb := none
  cloudInitFile := .null
  networkName := .null

/-- The option reaches the runner as a word of its own. -/
theorem hyphenedLaunch_not_accounted :
    (((Operation.named (.launchVm hyphenedLaunch)).exec quietEnvironment freshHost).2.commands.map
        fun command => command.argv.map Word.text) =
      [["launch", "--name", "web", "--cpus", "2", "--memory", "1024M", "--disk", "8G",
        "--mount=/etc:/mnt"]] ∧
    ¬ Issues Accounted freshHost
      ((Operation.named (.launchVm hyphenedLaunch)).exec quietEnvironment freshHost).2 := by
  refine ⟨by decide, fun accounted => ?_⟩
  have plain := (launchVm_accounted_iff quietEnvironment freshHost hyphenedLaunch).mp accounted
  have web : IsVmName "web" := (vmNamePattern_iff _).mp (by decide)
  exact plain "--mount=/etc:/mnt" rfl (by decide)
    ⟨"web", [], Or.inr ⟨rfl, web⟩, Or.inl ⟨rfl, rfl⟩⟩

end MultipassWebui.Multipass
