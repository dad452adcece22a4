import MultipassWebui.Files.Storing
import MultipassWebui.Multipass.PlaybookStore
import MultipassWebui.Multipass.TemplateScan

/-!
# Templates that were saved

`validate_cloud_init_yaml!` looks for the header in the stripped content, a scan
in the first line of the file.  The two agree unless the content begins with an
empty line.
-/

namespace MultipassWebui.Multipass.Cloudinit

open MultipassWebui.Effect
open MultipassWebui.Encoding
open MultipassWebui.Files
open MultipassWebui.Text

/-! ## The header of a content -/

/-- `#cloud-config` -/
def HEADER : List Char := "#cloud-config".toList

theorem strip_eq_header_iff (chars : List Char) :
    strip (String.ofList chars) = "#cloud-config" ↔ stripChars chars = HEADER := by
  rw [strip_ofList, ← String.toList_inj, String.toList_ofList]
  rfl

/-- The scan finds the header in the first line of what was written. -/
theorem headerOf_utf8Bytes {content : String} (given : content.toList ≠ []) :
    headerOf (utf8Bytes content) = .ok (stripChars (firstLine content.toList) = HEADER) := by
  rcases gets_flatMap given with ⟨ending, line, ends⟩
  have blank : ∀ char ∈ ending, isStripped char = true := by
    intro char member
    rw [ends char member]
    decide
  rw [headerOf, utf8Bytes, line]
  dsimp only
  rw [isHeaderLine, decodeUtf8_flatMap]
  refine congrArg Except.ok (decide_eq_decide.mpr ?_)
  rw [strip_eq_header_iff, stripChars_append_blank _ blank]

/-- The validation finds the header in the stripped content. -/
theorem header_of_valid {toText : Json → String} {yamlError : Json → Option RubyError}
    {content : String} (valid : validateCloudInitYaml toText yamlError (.string content) = .ok ⟨⟩) :
    stripChars (firstLine (stripChars content.toList)) = HEADER := by
  unfold validateCloudInitYaml at valid
  dsimp only [toS] at valid
  split_ifs at valid with empty noHeader
  have header := not_not.mp noHeader
  rw [strip_eq_header_iff, toList_strip] at header
  exact header

/-- Of a content that is accepted, the scan finds the header if and only if there
is no empty line before it. -/
theorem firstLine_header_iff {chars : List Char}
    (valid : stripChars (firstLine (stripChars chars)) = HEADER) :
    stripChars (firstLine chars) = HEADER ↔ '\n' ∉ leading chars := by
  constructor
  · intro header emptyLine
    rw [stripChars_firstLine_of_emptyLine emptyLine] at header
    cases header
  · intro noEmptyLine
    rw [stripChars_firstLine noEmptyLine, valid]

theorem nonempty_of_header {chars : List Char}
    (valid : stripChars (firstLine (stripChars chars)) = HEADER) : chars ≠ [] := by
  rintro rfl
  cases valid

/-! ## The header of a file -/

section

variable {kernel : Kernel} {tree : Tree} {path : String}

/-- The first line of the file that a path leads to is the header. -/
def HasHeader (kernel : Kernel) (tree : Tree) (path : String) : Prop :=
  ∃ place content line text, locate kernel tree path = .ok place ∧
    tree.node? place = some (.file content) ∧ gets content = some line ∧
    decodeUtf8 line = some text ∧ strip text = "#cloud-config"

theorem headerOf_eq_true_iff {content : List UInt8} :
    headerOf content = .ok true ↔ ∃ line text, gets content = some line ∧
      decodeUtf8 line = some text ∧ strip text = "#cloud-config" := by
  unfold headerOf
  cases gets content with
  | none => simp
  | some line =>
      unfold isHeaderLine
      cases decoded : decodeUtf8 line with
      | none => simp [decoded]
      | some text => simp [decoded]

theorem unlessSystemCall_eq_true_iff {outcome : Except RubyError Bool} :
    unlessSystemCall false outcome = .ok true ↔ outcome = .ok true := by
  cases outcome with
  | ok answer => exact Iff.rfl
  | error raised =>
      unfold unlessSystemCall
      dsimp only
      split_ifs <;> simp

theorem readAt_eq_ok_iff {content : List UInt8} :
    readAt kernel tree path = .ok content ↔ ∃ place, locate kernel tree path = .ok place ∧
      tree.node? place = some (.file content) ∧ kernel.readError place = none := by
  unfold readAt
  rcases locate kernel tree path with raised | place
  · simp
  · dsimp only
    rcases found : tree.node? place with _ | other | _ | target
    · simp [found]
    · cases failing : kernel.readError place with
      | none => simp [found, failing]
      | some raised => simp [failing]
    · simp [found]
    · simp [found]

theorem headerAt_eq_true_iff :
    headerAt kernel tree path = .ok true ↔ ∃ content, readAt kernel tree path = .ok content ∧
      headerOf content = .ok true := by
  rw [headerAt, unlessSystemCall_eq_true_iff, bind_eq_ok_iff]

theorem hasHeader_of_headerAt (answered : headerAt kernel tree path = .ok true) :
    HasHeader kernel tree path := by
  rcases headerAt_eq_true_iff.mp answered with ⟨content, isRead, header⟩
  rcases readAt_eq_ok_iff.mp isRead with ⟨place, located, isFile, _⟩
  rcases headerOf_eq_true_iff.mp header with ⟨line, text, isLine, decoded, stripped⟩
  exact ⟨place, content, line, text, located, isFile, isLine, decoded, stripped⟩

/-! ### Where the check of a file fails -/

/-- A file that can be opened begins with a line that is well encoded. -/
structure Inspectable (kernel : Kernel) (tree : Tree) (path : String) : Prop where
  opened : ∀ place content raised, locate kernel tree path = .ok place →
    tree.node? place = some (.file content) → kernel.readError place = some raised →
    raised.isSystemCallError = true
  encoded : ∀ content line, readAt kernel tree path = .ok content → gets content = some line →
    (decodeUtf8 line).isSome = true

theorem walkFrom_raises {jump : Place → List String → Except RubyError Place}
    (jumps : ∀ here names, Raises (fun raised => raised.isSystemCallError = true) (jump here names))
    (here : Place) (names : List String) :
    Raises (fun raised => raised.isSystemCallError = true)
        (Tree.walkFrom tree jump here names) := by
  induction names generalizing here with
  | nil => exact raises_ok here
  | cons first rest ih =>
      rw [Tree.walkFrom]
      split
      · split
        · exact ih here
        · split
          · exact ih here.tail
          · split
            · exact jumps _ _
            · exact ih _
            · split
              · exact raises_ok _
              · exact raises_error rfl
      · exact raises_error rfl
      · exact raises_error rfl

theorem walk_raises (links : ℕ) (here : Place) (names : List String) :
    Raises (fun raised => raised.isSystemCallError = true) (tree.walk links here names) := by
  induction links generalizing here names with
  | zero => exact walkFrom_raises (fun _ _ => raises_error rfl) here names
  | succ links ih => exact walkFrom_raises ih here names

theorem locate_raises (noNull : null ∉ path.toList) :
    Raises (fun raised => raised.isSystemCallError = true) (locate kernel tree path) := by
  rw [locate, if_neg noNull]
  split
  · exact raises_error rfl
  · exact walk_raises _ _ _

/-- Reading a file fails in a system call, apart from opening it. -/
theorem readAt_raises (noNull : null ∉ path.toList)
    (opened : ∀ place content raised, locate kernel tree path = .ok place →
      tree.node? place = some (.file content) → kernel.readError place = some raised →
      raised.isSystemCallError = true) :
    Raises (fun raised => raised.isSystemCallError = true) (readAt kernel tree path) := by
  unfold readAt
  cases located : locate kernel tree path with
  | error raised => exact raises_error (locate_raises noNull raised located)
  | ok place =>
      dsimp only
      rcases found : tree.node? place with _ | content | _ | target
      · exact raises_error rfl
      · cases failing : kernel.readError place with
        | none => exact raises_ok content
        | some raised => exact raises_error (opened place content raised located found failing)
      · exact raises_error rfl
      · exact raises_error rfl

/-- The check of a content answers unless the first line is not well encoded. -/
theorem exists_headerOf_iff (content : List UInt8) :
    (∃ answer, headerOf content = .ok answer) ↔
      ∀ line, gets content = some line → (decodeUtf8 line).isSome = true := by
  unfold headerOf
  cases isLine : gets content with
  | none => exact iff_of_true ⟨false, rfl⟩ nofun
  | some line =>
      cases decoded : decodeUtf8 line with
      | some text =>
          refine iff_of_true ?_ fun other isOther => ?_
          · simp only [isHeaderLine, decoded]
            exact ⟨_, rfl⟩
          · rw [← Option.some.inj isOther, decoded]
            rfl
      | none =>
          refine iff_of_false ?_ fun encoded => ?_
          · simp only [isHeaderLine, decoded]
            rintro ⟨answer, ⟨⟩⟩
          · have isSome := encoded line rfl
            rw [decoded] at isSome
            cases isSome

/-- The check of a content fails in no system call. -/
theorem unlessSystemCall_headerOf (content : List UInt8) :
    unlessSystemCall false (headerOf content) = headerOf content := by
  unfold headerOf
  cases gets content with
  | none => rfl
  | some line =>
      unfold isHeaderLine
      dsimp only
      cases decodeUtf8 line with
      | none => rfl
      | some text => rfl

/-- The check answers unless the file cannot be opened, or its first line is not
well encoded. -/
theorem exists_headerAt_iff (noNull : null ∉ path.toList) :
    (∃ answer, headerAt kernel tree path = .ok answer) ↔ Inspectable kernel tree path := by
  unfold headerAt
  constructor
  · rintro ⟨answer, answered⟩
    constructor
    · intro place content raised located isFile failing
      have failed : readAt kernel tree path = .error raised := by
        simp only [readAt, located, isFile, failing]
      rw [failed] at answered
      by_contra notSystem
      have passes : unlessSystemCall false (Except.error raised >>= headerOf) = .error raised :=
        if_neg notSystem
      rw [passes] at answered
      cases answered
    · intro content line isRead isLine
      rw [isRead] at answered
      change unlessSystemCall false (headerOf content) = .ok answer at answered
      rw [unlessSystemCall_headerOf] at answered
      exact (exists_headerOf_iff content).mp ⟨answer, answered⟩ line isLine
  · intro inspectable
    cases isRead : readAt kernel tree path with
    | ok content =>
        rcases (exists_headerOf_iff content).mpr fun line =>
          inspectable.encoded content line isRead with ⟨answer, answered⟩
        exact ⟨answer, congrArg (unlessSystemCall false) answered⟩
    | error raised =>
        exact ⟨false, if_pos (readAt_raises noNull inspectable.opened raised isRead)⟩

end

/-! ## What was written -/

section

variable {kernel : Kernel} {disk after : Disk} {dir name content : String} {count : ℕ}

/-- The path of a template that was saved leads to a file with its content. -/
structure Saved (kernel : Kernel) (dir name : String) (content : List UInt8) (after : Disk)
    (path : String) : Prop where
  sanitized : sanitizeTemplateName kernel.toSurroundings dir name = .ok path
  noNull : null ∉ path.toList
  isFile : ∃ place, locate kernel after.tree path = .ok place ∧
    after.tree.node? place = some (.file content)

theorem saved_of_written {content : List UInt8}
    (written : writeCloudInitTemplate kernel dir name content disk = (.ok count, after)) :
    ∃ path, Saved kernel dir name content after path := by
  rcases @sanitizeName_cases "template" kernel.toSurroundings dir name with
    ⟨raised, rejected⟩ | ⟨base, accepted, expanded, sanitized⟩
  · rw [writeCloudInitTemplate, writeNamed,
      Exec.bind_error (by rw [Exec.ofExcept_apply, rejected])] at written
    cases written
  · have clean := clean_child accepted expanded
    refine ⟨text (name :: base), sanitized, null_not_mem_text clean, ?_⟩
    rw [writeCloudInitTemplate, writeNamed,
      Exec.bind_ok (by rw [Exec.ofExcept_apply, sanitized])] at written
    rcases made : mkdirP kernel dir disk with ⟨raised | ⟨⟩, middle⟩
    · rw [Exec.bind_error made] at written
      cases written
    · rw [Exec.bind_ok made] at written
      rcases wrote_of_write written with ⟨place, wrote⟩
      refine ⟨place, wrote.located_after ?_, wrote.isFile⟩
      rw [start, isAbsolute_text, if_pos rfl]
      exact middle.tree.directory_root

/-- A saved template has the header for a scan if and only if it can be opened and
does not begin with an empty line. -/
theorem Saved.headerAt_iff {path : String}
    (saved : Saved kernel dir name (utf8Bytes content) after path)
    (valid : stripChars (firstLine (stripChars content.toList)) = HEADER) :
    headerAt kernel after.tree path = .ok true ↔
      (∀ place, locate kernel after.tree path = .ok place → kernel.readError place = none) ∧
        '\n' ∉ leading content.toList := by
  rcases saved.isFile with ⟨place, located, isFile⟩
  have header := headerOf_utf8Bytes (nonempty_of_header valid)
  rw [headerAt_eq_true_iff, ← firstLine_header_iff valid]
  constructor
  · rintro ⟨read, isRead, answered⟩
    rcases readAt_eq_ok_iff.mp isRead with ⟨other, otherLocated, otherFile, readable⟩
    cases located.symm.trans otherLocated
    cases isFile.symm.trans otherFile
    refine ⟨fun third thirdLocated => ?_, ?_⟩
    · cases located.symm.trans thirdLocated
      exact readable
    · rw [header] at answered
      exact of_decide_eq_true (Except.ok.inj answered)
  · rintro ⟨readable, isHeader⟩
    refine ⟨utf8Bytes content, readAt_eq_ok_iff.mpr ⟨place, located, isFile, ?_⟩, ?_⟩
    · exact readable place located
    · rw [header, isHeader]
      rfl

end

/-! ## What is listed -/

/-- A scan of the directories returns, and has one option for the path. -/
def ListedOnce (kernel : Kernel) (searchDirs : List String) (path : String) (disk : Disk) : Prop :=
  ∃ options, (scanCloudInitTemplates kernel searchDirs disk).1 = .ok options ∧
    (options.map TemplateOption.path).count path = 1

/-- What a directory and a content must be like for a saved template to be listed. -/
structure Shows (kernel : Kernel) (dir content path : String) (tree : Tree) : Prop where
  noEmptyLine : '\n' ∉ leading content.toList
  readable : ∀ place, locate kernel tree path = .ok place → kernel.readError place = none
  /-- The directory as it is given has an entry that expands to the path. -/
  listed : ∃ names, listingOf kernel tree dir = .ok names ∧
    ∃ entry ∈ names, Candidate kernel tree dir entry path
  /-- The first lines of the other files are well encoded. -/
  others : ∀ names, listingOf kernel tree dir = .ok names → ∀ entry ∈ names,
    Considered kernel tree dir entry →
      ∃ other, Candidate kernel tree dir entry other ∧ Inspectable kernel tree other

section

variable {kernel : Kernel}

theorem Candidate.noNull {tree : Tree} {dir entry path : String}
    (candidate : Candidate kernel tree dir entry path) : null ∉ path.toList := by
  have expanded := candidate.expanded
  cases place : expandPath kernel.toSurroundings (join dir entry) with
  | error raised =>
      rw [place] at expanded
      cases expanded
  | ok place' =>
      rw [place] at expanded
      cases expanded
      exact null_not_mem_text (expandPath_clean place)

theorem tolerated_iff {tree : Tree} {dir entry : String} :
    Tolerated kernel tree dir entry ↔ (Considered kernel tree dir entry →
      ∃ other, Candidate kernel tree dir entry other ∧ Inspectable kernel tree other) := by
  refine forall_congr' fun considered => exists_congr fun path =>
      and_congr_right fun candidate => ?_
  exact exists_headerAt_iff candidate.noNull

/-- A scan of directories that can be searched lists what is found in one of them. -/
theorem listedOnce_iff (searchDirs : List String) (path : String) (disk : Disk) :
    ListedOnce kernel searchDirs path disk ↔
      (∀ dir ∈ searchDirs, Searchable kernel disk.tree dir) ∧
        ∃ dir ∈ searchDirs, FoundIn kernel disk.tree dir path := by
  have headed : AllHeaded kernel disk.tree .none := nofun
  have finds := finds_searchAll searchDirs headed
  have looks := (@looks_scanCloudInitTemplates kernel disk.tree searchDirs disk rfl).1
  constructor
  · rintro ⟨options, scanned, once⟩
    rw [looks] at scanned
    cases searched : searchAll kernel disk.tree searchDirs .none with
    | error raised =>
        rw [searched] at scanned
        cases scanned
    | ok found =>
        rw [searched] at scanned
        cases scanned
        refine ⟨finds.ok_iff.mp ⟨found, searched⟩, ?_⟩
        have member : path ∈ found.seen := List.count_pos_iff.mp (once ▸ Nat.one_pos)
        rcases (finds.seen found searched path).mp member with old | isFound
        · cases old
        · exact isFound
  · rintro ⟨searchable, isFound⟩
    rcases finds.ok_iff.mpr searchable with ⟨found, searched⟩
    refine ⟨found.options, by rw [looks, searched]; rfl, ?_⟩
    have member : path ∈ found.seen := (finds.seen found searched path).mpr (.inr isFound)
    exact List.count_eq_one_of_mem found.distinct member

/-- Every file that a scan lists begins with the header. -/
theorem hasHeader_of_scanned {searchDirs : List String} {disk : Disk}
    {options : List TemplateOption}
    (scanned : (scanCloudInitTemplates kernel searchDirs disk).1 = .ok options)
    {option : TemplateOption} (member : option ∈ options) :
    HasHeader kernel disk.tree option.path := by
  have headed : AllHeaded kernel disk.tree .none := nofun
  have finds := finds_searchAll searchDirs headed
  rw [(@looks_scanCloudInitTemplates kernel disk.tree searchDirs disk rfl).1] at scanned
  cases searched : searchAll kernel disk.tree searchDirs .none with
  | error raised =>
      rw [searched] at scanned
      cases scanned
  | ok found =>
      rw [searched] at scanned
      cases scanned
      have seen : option.path ∈ found.seen := List.mem_map_of_mem member
      rcases (finds.seen found searched _).mp seen with old | ⟨dir, _, isFound⟩
      · cases old
      · exact hasHeader_of_headerAt isFound.header

/-- A saved template is listed if and only if its directory shows it. -/
theorem Saved.listedOnce_iff {after : Disk} {dir name content path : String}
    (saved : Saved kernel dir name (utf8Bytes content) after path)
    (valid : stripChars (firstLine (stripChars content.toList)) = HEADER) (times : ℕ) :
    ListedOnce kernel (List.replicate (times + 1) dir) path after ↔
      Shows kernel dir content path after.tree := by
  have only : ∀ other ∈ List.replicate (times + 1) dir, other = dir :=
    fun other member => List.eq_of_mem_replicate member
  have member : dir ∈ List.replicate (times + 1) dir := List.mem_replicate.mpr ⟨by simp, rfl⟩
  rw [Cloudinit.listedOnce_iff]
  constructor
  · rintro ⟨searchable, other, inDirs, names, listed, entry, inNames, candidate, answered⟩
    rw [only other inDirs] at listed candidate
    have header := (saved.headerAt_iff valid).mp answered
    refine ⟨header.2, header.1, ⟨names, listed, entry, inNames, candidate⟩, ?_⟩
    intro others isOthers entry inOthers
    exact tolerated_iff.mp ((searchable dir member).listed others isOthers entry inOthers)
  · intro shows
    rcases shows.listed with ⟨names, listed, entry, inNames, candidate⟩
    refine ⟨fun other inDirs => ?_, dir, member, names, listed, entry, inNames, candidate, ?_⟩
    · rw [only other inDirs]
      refine ⟨fun others isOthers entry inOthers => ?_, fun raised failed => ?_⟩
      · exact tolerated_iff.mpr (shows.others others isOthers entry inOthers)
      · cases listed.symm.trans failed
    · exact (saved.headerAt_iff valid).mpr ⟨shows.readable, shows.noEmptyLine⟩

/-- A saved template is listed once, however often its directory is searched, if
and only if its directory shows it; and whatever a scan lists has the header. -/
theorem savedTemplate_iff {disk after : Disk} {dir name content path : String} {count : ℕ}
    {toText : Json → String} {yamlError : Json → Option RubyError}
    (valid : validateCloudInitYaml toText yamlError (.string content) = .ok ⟨⟩)
    (sanitized : sanitizeTemplateName kernel.toSurroundings dir name = .ok path)
    (written : writeCloudInitTemplate kernel dir name (utf8Bytes content) disk =
      (.ok count, after)) (times : ℕ) :
    (ListedOnce kernel (List.replicate (times + 1) dir) path after ↔
      Shows kernel dir content path after.tree) ∧
    ∀ searchDirs disk options, (scanCloudInitTemplates kernel searchDirs disk).1 = .ok options →
      ∀ option ∈ options, HasHeader kernel disk.tree option.path := by
  rcases saved_of_written written with ⟨other, saved⟩
  obtain rfl : path = other := Except.ok.inj (sanitized.symm.trans saved.sanitized)
  refine ⟨saved.listedOnce_iff (header_of_valid valid) times, ?_⟩
  intro searchDirs disk options scanned option member
  exact hasHeader_of_scanned scanned member

end

/-- The disk after a template has been saved under `/data`. -/
def savedDisk (content : String) : Disk :=
  (writeCloudInitTemplate Playbooks.process "/data" "web.yml" (utf8Bytes content)
    Playbooks.provisioned).2

theorem savedTemplate_iff_web :
    (ListedOnce Playbooks.process (List.replicate (1 + 1) "/data") "/data/web.yml"
        (savedDisk "#cloud-config\n") ↔
      Shows Playbooks.process "/data" "#cloud-config\n" "/data/web.yml"
        (savedDisk "#cloud-config\n").tree) ∧
    ∀ searchDirs disk options,
      (scanCloudInitTemplates Playbooks.process searchDirs disk).1 = .ok options →
      ∀ option ∈ options, HasHeader Playbooks.process disk.tree option.path :=
  @savedTemplate_iff.{0} Playbooks.process Playbooks.provisioned
      (savedDisk "#cloud-config\n") "/data"
    "web.yml" "#cloud-config\n" "/data/web.yml" 14 (fun _ => "") (fun _ => none)
    (by decide +kernel) (by decide +kernel)
    (Prod.ext (by decide +kernel) rfl) 1

/-- A template with an empty line before the header is saved and not listed. -/
theorem emptyLine_not_listed :
    validateCloudInitYaml (fun _ => "") (fun _ => none) (.string "\n#cloud-config\n") =
      .ok PUnit.unit.{1} ∧
    (writeCloudInitTemplate Playbooks.process "/data" "web.yml" (utf8Bytes "\n#cloud-config\n")
      Playbooks.provisioned).1 = .ok 15 ∧
    ¬ ListedOnce Playbooks.process ["/data"] "/data/web.yml" (savedDisk "\n#cloud-config\n") := by
  have valid : validateCloudInitYaml (fun _ => "") (fun _ => none) (.string "\n#cloud-config\n") =
      .ok PUnit.unit.{1} := by decide +kernel
  have written : (writeCloudInitTemplate Playbooks.process "/data" "web.yml"
      (utf8Bytes "\n#cloud-config\n") Playbooks.provisioned).1 = .ok 15 := by decide +kernel
  have sanitized : sanitizeTemplateName Playbooks.process.toSurroundings "/data" "web.yml" =
      .ok "/data/web.yml" := by decide +kernel
  refine ⟨valid, written, fun listed => ?_⟩
  rcases @saved_of_written Playbooks.process Playbooks.provisioned (savedDisk "\n#cloud-config\n")
    "/data" "web.yml" 15 _ (Prod.ext written rfl) with ⟨path, saved⟩
  obtain rfl : path = "/data/web.yml" := Except.ok.inj (saved.sanitized.symm.trans sanitized)
  have shows := (saved.listedOnce_iff (header_of_valid valid) 0).mp listed
  exact shows.noEmptyLine (by decide)

end MultipassWebui.Multipass.Cloudinit
