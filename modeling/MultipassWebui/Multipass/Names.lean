import MultipassWebui.Multipass.Operations

/-!
# Names are validated before anything else

A method that takes names raises before it does anything if one of them is not
valid, and the words it builds from valid names can be taken apart again: a
name has no dot and no colon in it.
-/

namespace MultipassWebui.Multipass

open MultipassWebui.Effect
open MultipassWebui.Effect.Value (nilOrEmpty givenAndNotEmpty)
open MultipassWebui.Encoding
open MultipassWebui.Text

/-- The name arguments of a method, and whether each of them may be left out. -/
def NamedOperation.names : NamedOperation → List (Json × Bool)
  | launchVm arguments => [(arguments.name, true)]
  | cloneVm source destName => [(source, false), (destName, true)]
  | createSnapshot vmName snapshotName _ | restoreSnapshot vmName snapshotName
  | deleteSnapshot vmName snapshotName => [(vmName, false), (snapshotName, false)]
  | getVmInfo name | startVm name | stopVm name | suspendVm name | deleteVm name _
  | recoverVm name | getVmConfig name | setVmCpus name _ | setVmMemory name _ | setVmDisk name _
  | getRawInfo name => [(name, false)]
  | execInVm vmName _ | getCloudInitStatus vmName | listSnapshots vmName | listMounts vmName
  | addMount vmName _ _ | removeMount vmName _ | transferFromVm vmName _
  | transferToVm vmName _ => [(vmName, false)]

/-- A text or `nil`. -/
def TextOrNil (name : Json) : Prop := name = .null ∨ ∃ text, name = .string text

/-- A valid name, or a blank one where it may be left out. -/
def ValidName (name : Json × Bool) : Prop :=
  (∃ text, Named name.1 text) ∨ (name.2 = true ∧ (name.1 = .null ∨ name.1 = .string ""))

/-- All names are valid. -/
def NamedOperation.NamesValid (operation : NamedOperation) : Prop :=
  ∀ name ∈ operation.names, ValidName name

/-- The text of a name that is not left out. -/
def givenName (name : Json × Bool) : Option String := name.1.text?.filter fun text => text ≠ ""

/-- The names that are given, and the generated one where none is. -/
def NamedOperation.givenNames (env : Environment) (operation : NamedOperation) : List String :=
  match operation, operation.names.filterMap givenName with
  | launchVm _, [] => [randomVmName env]
  | _, given => given

/-! ## Taking the words apart -/

/-- What stands before the first mark. -/
def before (mark : Char) (word : String) : String :=
  String.ofList (word.toList.takeWhile fun char => char ≠ mark)

/-- What stands after the first mark. -/
def after (mark : Char) (word : String) : String :=
  String.ofList (word.toList.dropWhile fun char => char ≠ mark).tail

/-- The names in the texts of an argv. -/
def namesIn (argv : List String) : List String :=
  let word := fun position => argv.getD position ""
  match word 0 with
  | "launch" => [word 2]
  | "clone" => word 1 :: argv.drop 3
  | "snapshot" => [argv.getLastD "", word 2]
  | "restore" => [before '.' (word 2), after '.' (word 2)]
  | "delete" =>
      if word 1 = "--purge" then [before '.' (word 2), after '.' (word 2)] else [word 1]
  | "get" | "set" => [before '.' (after '.' (word 1))]
  | "mount" => [before ':' (word 2)]
  | "umount" => [before ':' (word 1)]
  | "transfer" => [before ':' (if word 1 = "-" then word 2 else word 1)]
  | _ => [word 1]

/-- No character of a name is a dot or a colon. -/
theorem IsVmName.chars {text : String} (valid : IsVmName text) :
    ∀ char ∈ text.toList, isAlnum char = true ∨ char = '-' := by
  obtain ⟨first, rest, shape, head, tail, _⟩ := valid
  intro char member
  rw [shape] at member
  rcases List.mem_cons.mp member with rfl | later
  · exact Or.inl head
  · exact tail char later

theorem IsVmName.ne_mark {text : String} (valid : IsVmName text) {mark : Char}
    (special : isAlnum mark = false ∧ mark ≠ '-') : ∀ char ∈ text.toList, char ≠ mark := by
  rintro char member rfl
  rcases valid.chars char member with alnum | hyphen
  · rw [special.1] at alnum
    cases alnum
  · exact special.2 hyphen

section

variable {mark : Char} {text : String}

theorem before_append (free : ∀ char ∈ text.toList, char ≠ mark) (rest : String) :
    before mark (text ++ String.singleton mark ++ rest) = text := by
  have stops : (mark :: rest.toList).takeWhile (fun char => char ≠ mark) = [] :=
    List.takeWhile_cons_of_neg (by simp)
  have chars : (text ++ String.singleton mark ++ rest).toList =
      text.toList ++ mark :: rest.toList := by simp
  rw [before, chars, List.takeWhile_append_of_pos (by simpa using free), stops, List.append_nil,
    String.ofList_toList]

theorem after_append (free : ∀ char ∈ text.toList, char ≠ mark) (rest : String) :
    after mark (text ++ String.singleton mark ++ rest) = rest := by
  have stops : (mark :: rest.toList).dropWhile (fun char => char ≠ mark) = mark :: rest.toList :=
    List.dropWhile_cons_of_neg (by simp)
  have chars : (text ++ String.singleton mark ++ rest).toList =
      text.toList ++ mark :: rest.toList := by simp
  rw [after, chars, List.dropWhile_append_of_pos (by simpa using free), stops, List.tail_cons,
    String.ofList_toList]

end

theorem before_dot {text : String} (valid : IsVmName text) (rest : String) :
    before '.' (text ++ "." ++ rest) = text :=
  before_append (valid.ne_mark (by decide)) rest

theorem after_dot {text : String} (valid : IsVmName text) (rest : String) :
    after '.' (text ++ "." ++ rest) = rest :=
  after_append (valid.ne_mark (by decide)) rest

theorem before_colon {text : String} (valid : IsVmName text) (rest : String) :
    before ':' (text ++ ":" ++ rest) = text :=
  before_append (valid.ne_mark (by decide)) rest

theorem localKey_name {text : String} (valid : IsVmName text) (key : String) :
    before '.' (after '.' (localKey text key)) = text := by
  have dotless : ∀ char ∈ "local".toList, char ≠ '.' := by
    rintro char member rfl
    exact absurd member (by decide)
  have first : after '.' ("local" ++ "." ++ (text ++ "." ++ key)) = text ++ "." ++ key :=
    after_append dotless _
  have word : localKey text key = "local" ++ "." ++ (text ++ "." ++ key) := by
    simp only [localKey, ← String.append_assoc]
    rfl
  rw [word, first, before_dot valid]

section

variable {env : Environment} {text : String}

theorem given_named {name : Json} (named : Named name text) (optional : Bool) :
    givenName (name, optional) = some text := by
  rw [givenName, named.1]
  exact Option.filter_some_pos (by simpa using named.2.ne_empty)

/-- A blank name is not given. -/
theorem given_blank {name : Json} (blank : nilOrEmpty name = .ok true) (optional : Bool) :
    givenName (name, optional) = none := by
  cases name with
  | string text =>
      obtain rfl : text = "" := of_decide_eq_true (Except.ok.inj blank)
      rfl
  | _ => rfl

theorem given_omitted {name : Json} (omitted : givenAndNotEmpty name = .ok false)
    (optional : Bool) : givenName (name, optional) = none := by
  by_cases true : Value.truthy name = true
  · rw [givenAndNotEmpty, if_pos true] at omitted
    refine given_blank ?_ optional
    cases empty : nilOrEmpty name with
    | error raised =>
        rw [empty] at omitted
        cases omitted
    | ok isEmpty =>
        rw [empty] at omitted
        cases isEmpty with
        | true => rfl
        | false => cases omitted
  · cases name <;> first | rfl | exact absurd rfl true

theorem givenNames_one {operation : NamedOperation} {name : Json} {optional : Bool}
    (single : operation.names = [(name, optional)]) (named : Named name text) :
    operation.givenNames env = [text] := by
  have given : operation.names.filterMap givenName = [text] := by
    rw [single, List.filterMap_cons, given_named named, List.filterMap_nil]
  unfold NamedOperation.givenNames
  rw [given]
  split
  · contradiction
  · rfl

theorem givenNames_two {operation : NamedOperation} {name other : Json} {optional also : Bool}
    {otherText : String} (pair : operation.names = [(name, optional), (other, also)])
    (named : Named name text) (otherNamed : Named other otherText) :
    operation.givenNames env = [text, otherText] := by
  have given : operation.names.filterMap givenName = [text, otherText] := by
    rw [pair, List.filterMap_cons, given_named named, List.filterMap_cons, given_named otherNamed,
      List.filterMap_nil]
  unfold NamedOperation.givenNames
  rw [given]
  split
  · contradiction
  · rfl

/-- A place in a VM is not the dash that stands for a stream. -/
theorem IsVmName.join_ne_dash {name : String} (valid : IsVmName name) (path : String) :
    name ++ ":" ++ path ≠ "-" := by
  intro dash
  have head := valid.append_not_hyphened (":" ++ path)
  rw [← String.append_assoc, dash] at head
  exact head (by decide)

/-- The words of a command give back the names. -/
theorem namesIn_commands {operation : NamedOperation} {argv : List Word}
    (issued : operation.Commands env argv) :
    namesIn (argv.map Word.text) = operation.givenNames env := by
  cases operation with
  | launchVm arguments =>
      obtain ⟨host, name, flags, release, named, _, _, rfl⟩ := issued
      have words : namesIn ((launchArgv env arguments name flags release).map Word.text) = [name] :=
        rfl
      rw [words]
      rcases named with ⟨blank, rfl⟩ | named
      · simp only [NamedOperation.givenNames, NamedOperation.names, List.filterMap_cons,
          given_blank blank, List.filterMap_nil]
      · rw [givenNames_one rfl named]
  | cloneVm source destName =>
      obtain ⟨text, named, ⟨omitted, rfl⟩ | ⟨dest, destNamed, rfl⟩⟩ := issued
      · simp only [NamedOperation.givenNames, NamedOperation.names, List.filterMap_cons,
          given_named named, given_omitted omitted, List.filterMap_nil]
        rfl
      · rw [givenNames_two rfl named destNamed]
        rfl
  | createSnapshot vmName snapshotName comment =>
      obtain ⟨text, snapshot, comment, named, snapshotNamed, rfl⟩ := issued
      rw [givenNames_two rfl named snapshotNamed]
      cases comment <;> rfl
  | restoreSnapshot vmName snapshotName =>
      obtain ⟨text, snapshot, named, snapshotNamed, rfl⟩ := issued
      rw [givenNames_two rfl named snapshotNamed]
      exact congrArg₂ (fun vm snap => [vm, snap]) (before_dot named.2 _) (after_dot named.2 _)
  | deleteSnapshot vmName snapshotName =>
      obtain ⟨text, snapshot, named, snapshotNamed, rfl⟩ := issued
      rw [givenNames_two rfl named snapshotNamed]
      exact congrArg₂ (fun vm snap => [vm, snap]) (before_dot named.2 _) (after_dot named.2 _)
  | deleteVm name purge =>
      obtain ⟨text, named, rfl⟩ := issued
      rw [givenNames_one rfl named]
      have notFlag : text ≠ "--purge" := by
        rintro rfl
        exact named.2.not_hyphened (by decide)
      cases purge <;> exact if_neg notFlag
  | getVmConfig name =>
      obtain ⟨text, key, named, rfl⟩ := issued
      rw [givenNames_one rfl named]
      exact congrArg (fun name => [name]) (localKey_name named.2 key)
  | setVmCpus name _ | setVmMemory name _ | setVmDisk name _ =>
      obtain ⟨text, key, named, rfl⟩ := issued
      rw [givenNames_one rfl named]
      exact congrArg (fun name => [name]) (localKey_name named.2 key)
  | addMount vmName source target =>
      obtain ⟨text, path, named, _, rfl⟩ := issued
      rw [givenNames_one rfl named]
      exact congrArg (fun name => [name]) (before_colon named.2 _)
  | removeMount vmName target =>
      obtain ⟨text, named, rfl⟩ := issued
      rw [givenNames_one rfl named]
      exact congrArg (fun name => [name]) (before_colon named.2 _)
  | transferFromVm vmName remotePath =>
      obtain ⟨text, named, rfl⟩ := issued
      rw [givenNames_one rfl named]
      have notDash := named.2.join_ne_dash (interpolate env remotePath)
      exact congrArg (fun name => [name]) ((congrArg (before ':') (if_neg notDash)).trans
        (before_colon named.2 _))
  | transferToVm vmName remotePath =>
      obtain ⟨text, named, rfl⟩ := issued
      rw [givenNames_one rfl named]
      exact congrArg (fun name => [name]) (before_colon named.2 _)
  | getCloudInitStatus vmName =>
      obtain ⟨text, script, named, rfl⟩ := issued
      rw [givenNames_one rfl named]
      rfl
  | getVmInfo name | startVm name | stopVm name | suspendVm name | recoverVm name
  | getRawInfo name | execInVm vmName command | listSnapshots vmName | listMounts vmName =>
      obtain ⟨text, named, rfl⟩ := issued
      rw [givenNames_one rfl named]
      rfl

end

/-! ## Names that are not valid -/

/-- A validation error is raised, and nothing else happens. -/
def Rejects {α : Type} (body : Exec Host RubyError α) (host : Host) : Prop :=
  ∃ shown, body host = (.error (.validationError shown), host)

section

variable {α β : Type} {host : Host}

theorem Rejects.bind {first : Exec Host RubyError α} (rejects : Rejects first host)
    (next : α → Exec Host RubyError β) : Rejects (first >>= next) host := by
  obtain ⟨shown, raised⟩ := rejects
  exact ⟨shown, Exec.bind_error raised next⟩

/-- What comes after a validation is not reached with a name that is not valid. -/
theorem rejects_validated {name : Json} (invalid : ¬ ∃ text, Named name text)
    (next : String → Exec Host RubyError β) :
    Rejects (NameValidator.validateVmName name >>= next) host := by
  obtain ⟨shown, raises⟩ :=
    validateVmName_of_invalid fun text isText isName => invalid ⟨text, isText, isName⟩
  rw [raises]
  exact ⟨shown, rfl⟩

/-- A second validation comes right after the first. -/
theorem rejects_second {name : Json} {next : String → Exec Host RubyError β}
    (rejects : ∀ text, Named name text → Rejects (next text) host) :
    Rejects (NameValidator.validateVmName name >>= next) host := by
  by_cases valid : ∃ text, Named name text
  · obtain ⟨text, named⟩ := valid
    obtain ⟨shown, raised⟩ := rejects text named
    rw [named.1, validateVmName_of_valid named.2]
    exact ⟨shown, raised⟩
  · exact rejects_validated valid next

/-- One of two names is not valid. -/
theorem rejects_pair {name other : Json} {next : String → String → Exec Host RubyError β}
    (invalid : ¬ ((∃ text, Named name text) ∧ ∃ text, Named other text)) :
    Rejects (do
      let text ← NameValidator.validateVmName name
      let otherText ← NameValidator.validateVmName other
      next text otherText) host :=
  rejects_second fun _ named =>
    rejects_validated (fun otherValid => invalid ⟨⟨_, named⟩, otherValid⟩) _

/-- A name that is a text, not valid and not left out. -/
theorem text_of_not_validName {name : Json} (text : TextOrNil name)
    (invalid : ¬ ValidName (name, true)) :
    (¬ ∃ text, Named name text) ∧ nilOrEmpty name = .ok false ∧
      givenAndNotEmpty name = .ok true := by
  have unnamed : ¬ ∃ text, Named name text := fun named => invalid (Or.inl named)
  have given : ¬ (name = .null ∨ name = .string "") := fun blank => invalid (Or.inr ⟨rfl, blank⟩)
  rcases text with rfl | ⟨text, rfl⟩
  · exact absurd (Or.inl rfl) given
  · have nonempty : nilOrEmpty (.string text) = .ok false :=
      congrArg Except.ok (decide_eq_false fun empty => given (Or.inr (congrArg Json.string empty)))
    refine ⟨unnamed, nonempty, (if_pos rfl).trans ?_⟩
    rw [nonempty]
    rfl

theorem rejects_launchVm {env : Environment} {arguments : LaunchArguments}
    (text : TextOrNil arguments.name) (invalid : ¬ ValidName (arguments.name, true)) :
    Rejects (launchVm env arguments) host := by
  obtain ⟨unnamed, nonempty, _⟩ := text_of_not_validName text invalid
  refine Rejects.bind ?_ _
  unfold launchName
  rw [nonempty]
  obtain ⟨shown, raises⟩ :=
    validateVmName_of_invalid fun text isText isName => unnamed ⟨text, isText, isName⟩
  rw [raises]
  exact ⟨shown, rfl⟩

theorem rejects_cloneVm {env : Environment} {source destName : Json} (text : TextOrNil destName)
    (invalid : ¬ (ValidName (source, false) ∧ ValidName (destName, true))) :
    Rejects (cloneVm env source destName) host := by
  refine rejects_second fun sourceText named => ?_
  have destInvalid : ¬ ValidName (destName, true) :=
    fun valid => invalid ⟨Or.inl ⟨sourceText, named⟩, valid⟩
  obtain ⟨unnamed, _, given⟩ := text_of_not_validName text destInvalid
  rw [given]
  exact rejects_validated unnamed _

/-- A method with a name that is not valid raises and does nothing. -/
theorem rejects_exec (env : Environment) {operation : NamedOperation}
    (texts : ∀ name ∈ operation.names, TextOrNil name.1) (invalid : ¬ operation.NamesValid) :
    Rejects (operation.exec env) host := by
  cases operation with
  | launchVm arguments =>
      refine Rejects.bind (rejects_launchVm (texts _ (List.mem_cons_self ..)) ?_) _
      simpa [NamedOperation.NamesValid, NamedOperation.names] using invalid
  | cloneVm source destName =>
      refine Rejects.bind (rejects_cloneVm (texts (destName, true) (by simp [NamedOperation.names]))
        ?_) _
      simpa [NamedOperation.NamesValid, NamedOperation.names] using invalid
  | createSnapshot vmName snapshotName _ | restoreSnapshot vmName snapshotName
  | deleteSnapshot vmName snapshotName =>
      refine Rejects.bind (rejects_pair fun valid => invalid ?_) _
      intro name member
      rcases List.mem_cons.mp member with rfl | member
      · exact Or.inl valid.1
      · rw [List.mem_singleton.mp member]
        exact Or.inl valid.2
  | listMounts vmName =>
      refine Rejects.bind (Rejects.bind (rejects_validated ?_ _) _) _
      simpa [NamedOperation.NamesValid, NamedOperation.names, ValidName] using invalid
  | _ =>
      refine Rejects.bind (rejects_validated ?_ _) _
      simpa [NamedOperation.NamesValid, NamedOperation.names, ValidName] using invalid

end

/-- A method with a name that is not valid raises before anything else happens,
and the words of every command that is issued give back the names. -/
theorem nameGate (env : Environment) (operation : NamedOperation) (host : Host)
    (texts : ∀ name ∈ operation.names, TextOrNil name.1) :
    (¬ operation.NamesValid → Rejects (operation.exec env) host) ∧
      (operation.NamesValid →
        Issues (fun argv => namesIn (argv.map Word.text) = operation.givenNames env) host
          (operation.exec env host).2) := by
  refine ⟨rejects_exec env texts, fun _ => ?_⟩
  obtain ⟨added, commands, issued⟩ := @NamedOperation.issues_exec env operation host
  exact ⟨added, commands, fun command member => namesIn_commands (issued command member)⟩

/-- An environment in which every command succeeds and prints nothing. -/
def quietEnvironment : Environment where
  runner _ _ := .ok ⟨"", "", true, 0⟩
  parseJson _ := .error (.standardError "unexpected end of input")
  toText _ := ""
  parseFloat _ := none
  randomNumber _ := 0
  tmpdir := "/tmp"
  snapDirExists := false
  readError _ := none
  writeError _ := none
  removeFails _ := false
  zone := utcHost

def freshHost : Host := ⟨[], .empty, none, []⟩

theorem nameGate_restore :
    Rejects ((NamedOperation.restoreSnapshot (.string "web") (.string "--all")).exec
        quietEnvironment) freshHost ∧
      Issues (fun argv => namesIn (argv.map Word.text) = ["web", "s1"]) freshHost
        ((NamedOperation.restoreSnapshot (.string "web") (.string "s1")).exec
          quietEnvironment freshHost).2 := by
  constructor
  · refine (nameGate quietEnvironment _ freshHost ?_).1 ?_
    · simp [NamedOperation.names, TextOrNil]
    · intro valid
      obtain ⟨text, isText, isName⟩ | ⟨required, _⟩ :=
        valid (.string "--all", false) (by simp [NamedOperation.names])
      · obtain rfl := Json.string.inj isText
        exact isName.not_hyphened (by decide)
      · cases required
  · refine (nameGate quietEnvironment _ freshHost ?_).2 ?_
    · simp [NamedOperation.names, TextOrNil]
    · intro name member
      have web : IsVmName "web" := (vmNamePattern_iff _).mp (by decide)
      have snapshot : IsVmName "s1" := (vmNamePattern_iff _).mp (by decide)
      simp only [NamedOperation.names, List.mem_cons, List.not_mem_nil, or_false] at member
      rcases member with rfl | rfl
      · exact Or.inl ⟨"web", rfl, web⟩
      · exact Or.inl ⟨"s1", rfl, snapshot⟩

end MultipassWebui.Multipass
