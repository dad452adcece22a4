import MultipassWebui.Effect.Fallible
import MultipassWebui.Files.Directories
import MultipassWebui.Multipass.Cloudinit

/-!
# What a scan finds

A scan looks at the tree and leaves it as it is, so that its outcome is one of
pure steps over the entries.  It finds each template once, under its expanded
path, and only files that begin with the header.
-/

namespace MultipassWebui.Multipass.Cloudinit

open MultipassWebui.Effect
open MultipassWebui.Encoding
open MultipassWebui.Files
open MultipassWebui.Text

section

variable (kernel : Kernel) (tree : Tree)

/-- What `File.read` finds. -/
def readAt (path : String) : Except RubyError (List UInt8) :=
  match locate kernel tree path with
  | .error raised => .error raised
  | .ok place =>
      match tree.node? place, kernel.readError place with
      | some (.file content), none => .ok content
      | some (.file _), some raised => .error raised
      | some .directory, _ => .error (.systemCallError "EISDIR")
      | _, _ => .error (.systemCallError "ENOENT")

/-- What is made of the content of a file. -/
def headerOf (content : List UInt8) : Except RubyError Bool :=
  match gets content with
  | none => .ok false
  | some line => isHeaderLine line

/-- `rescue SystemCallError` -/
def unlessSystemCall {α : Type} (instead : α) : Except RubyError α → Except RubyError α
  | .ok value => .ok value
  | .error raised => if raised.isSystemCallError then .ok instead else .error raised

/-- What `cloud_config_header?` says of a path. -/
def headerAt (path : String) : Except RubyError Bool :=
  unlessSystemCall false (readAt kernel tree path >>= headerOf)

/-- What `Dir.entries` says of a path. -/
def listingOf (path : String) : Except RubyError (List String) := (entries kernel path ⟨tree, []⟩).1

/-- An entry that is looked into. -/
structure Considered (dir entry : String) : Prop where
  named : entry ≠ "." ∧ entry ≠ ".."
  notDirectory : isDirectoryAt kernel tree (join dir entry) = false
  yaml : endsInYaml entry.toList = true

/-- An entry that is looked into at an expanded path. -/
structure Candidate (dir entry path : String) : Prop extends Considered kernel tree dir entry where
  expanded : (expandPath kernel.toSurroundings (join dir entry)).map text = .ok path

/-- An entry on which the scan does not fail. -/
def Tolerated (dir entry : String) : Prop :=
  Considered kernel tree dir entry → ∃ path, Candidate kernel tree dir entry path ∧
    ∃ answer, headerAt kernel tree path = .ok answer

/-- An entry whose file begins with the header. -/
def Headed (dir entry path : String) : Prop :=
  Candidate kernel tree dir entry path ∧ headerAt kernel tree path = .ok true

/-- One entry, as a pure step. -/
def visit (dir entry : String) (found : Found) : Except RubyError Found :=
  if entry = "." || entry = ".." then .ok found
  else if isDirectoryAt kernel tree (join dir entry) || !endsInYaml entry.toList then .ok found
  else (expandPath kernel.toSurroundings (join dir entry)).map text >>= fun absPath =>
    if seen : absPath ∈ found.seen then .ok found
    else headerAt kernel tree absPath >>= fun header =>
      if header then .ok (found.add entry absPath seen) else .ok found

def visitAll (dir : String) : List String → Found → Except RubyError Found
  | [], found => .ok found
  | entry :: rest, found => visit kernel tree dir entry found >>= visitAll dir rest

/-- One directory, as a pure step. -/
def search (dir : String) (found : Found) : Except RubyError Found :=
  unlessSystemCall none ((listingOf kernel tree dir).map some) >>= fun entries =>
    match entries with
    | none => .ok found
    | some entries => visitAll kernel tree dir entries found

def searchAll : List String → Found → Except RubyError Found
  | [], found => .ok found
  | dir :: rest, found => search kernel tree dir found >>= searchAll rest

end

/-! ## The tree is not changed -/

/-- On a tree that it leaves as it is, the computation has an outcome. -/
def Looks {α : Type} (tree : Tree) (body : Exec Disk RubyError α) (outcome : Except RubyError α) :
    Prop :=
  ∀ disk, disk.tree = tree → (body disk).1 = outcome ∧ (body disk).2.tree = tree

section

variable {α β : Type} {kernel : Kernel} {tree : Tree}

theorem looks_ofExcept (outcome : Except RubyError α) :
    Looks tree (Exec.ofExcept outcome) outcome := by
  intro disk same
  rw [Exec.ofExcept_apply]
  exact ⟨rfl, same⟩

theorem looks_pure (value : α) : Looks tree (pure value) (.ok value) := fun _ same => ⟨rfl, same⟩

theorem looks_bind {first : Exec Disk RubyError α} {next : α → Exec Disk RubyError β}
    {early : Except RubyError α} {late : α → Except RubyError β}
        (looksFirst : Looks tree first early)
    (looksNext : ∀ value, Looks tree (next value) (late value)) :
    Looks tree (first >>= next) (early >>= late) := by
  intro disk same
  have before := looksFirst disk same
  rw [Exec.bind_apply]
  rcases ran : first disk with ⟨raised | value, middle⟩
  · rw [ran] at before
    rw [← before.1]
    exact ⟨rfl, before.2⟩
  · rw [ran] at before
    rw [← before.1]
    exact looksNext value middle before.2

theorem looks_tree_bind {next : Tree → Exec Disk RubyError β} {late : Except RubyError β}
    (looksNext : Looks tree (next tree) late) : Looks tree (Exec.gets Disk.tree >>= next) late := by
  rintro disk rfl
  exact looksNext disk rfl

theorem looks_rescue {body : Exec Disk RubyError α} {outcome : Except RubyError α}
    (looks : Looks tree body outcome) (instead : α) :
    Looks tree
      (Exec.rescue body fun error => if error.isSystemCallError then some (pure instead) else none)
      (unlessSystemCall instead outcome) := by
  intro disk same
  have before := looks disk same
  rcases ran : body disk with ⟨raised | value, middle⟩
  · rw [ran] at before
    rw [Exec.rescue_error ran, ← before.1, unlessSystemCall]
    cases isSystem : raised.isSystemCallError with
    | true => exact ⟨rfl, before.2⟩
    | false => exact ⟨rfl, before.2⟩
  · rw [ran] at before
    rw [Exec.rescue_ok ran, ← before.1]
    exact ⟨rfl, before.2⟩

theorem looks_read (path : String) :
    Looks tree (Files.read kernel path) (readAt kernel tree path) := by
  rintro disk rfl
  unfold Files.read readAt
  rcases locate kernel disk.tree path with raised | place
  · exact ⟨rfl, rfl⟩
  · dsimp only
    rcases disk.tree.node? place with _ | content | _ | target
    · exact ⟨rfl, rfl⟩
    · rcases kernel.readError place with _ | raised
      · exact ⟨rfl, rfl⟩
      · exact ⟨rfl, rfl⟩
    · exact ⟨rfl, rfl⟩
    · exact ⟨rfl, rfl⟩

theorem looks_entries (path : String) :
    Looks tree (entries kernel path) (listingOf kernel tree path) := by
  rintro disk rfl
  unfold listingOf entries
  dsimp only
  rcases locate kernel disk.tree path with raised | place
  · exact ⟨rfl, rfl⟩
  · dsimp only
    rcases disk.tree.node? place with _ | content | _ | target
    · exact ⟨rfl, rfl⟩
    · exact ⟨rfl, rfl⟩
    · rcases kernel.listError place with _ | raised
      · exact ⟨rfl, rfl⟩
      · exact ⟨rfl, rfl⟩
    · exact ⟨rfl, rfl⟩

theorem looks_cloudConfigHeader (path : String) :
    Looks tree (cloudConfigHeader kernel path) (headerAt kernel tree path) := by
  refine looks_rescue (looks_bind (looks_read path) fun content => ?_) false
  unfold headerOf
  cases gets content with
  | none => exact looks_pure false
  | some line => exact looks_ofExcept (isHeaderLine line)

theorem looks_scanEntry (dir entry : String) (found : Found) :
    Looks tree (scanEntry kernel dir entry found) (visit kernel tree dir entry found) := by
  unfold scanEntry visit
  by_cases special : (decide (entry = ".") || decide (entry = "..")) = true
  · rw [if_pos special, if_pos special]
    exact looks_pure found
  · rw [if_neg special, if_neg special]
    refine looks_tree_bind ?_
    by_cases skipped :
        (isDirectoryAt kernel tree (join dir entry) || !endsInYaml entry.toList) = true
    · rw [if_pos skipped, if_pos skipped]
      exact looks_pure found
    · rw [if_neg skipped, if_neg skipped]
      refine looks_bind (looks_ofExcept _) fun absPath => ?_
      split_ifs with seen
      · exact looks_pure found
      · refine looks_bind (looks_cloudConfigHeader absPath) fun header => ?_
        cases header with
        | false => exact looks_pure found
        | true => exact looks_pure _

theorem looks_scanEntries (dir : String) (names : List String) (found : Found) :
    Looks tree (scanEntries kernel dir names found) (visitAll kernel tree dir names found) := by
  induction names generalizing found with
  | nil => exact looks_pure found
  | cons entry rest ih => exact looks_bind (looks_scanEntry dir entry found) ih

theorem looks_scanDirectory (dir : String) (found : Found) :
    Looks tree (scanDirectory kernel dir found) (search kernel tree dir found) := by
  have listed : Looks tree (do return some (← entries kernel dir))
      ((listingOf kernel tree dir).map some) := by
    have both := looks_bind (@looks_entries kernel tree dir) fun names =>
      @looks_pure _ tree (some names)
    cases listing : listingOf kernel tree dir <;> rw [listing] at both <;> exact both
  refine looks_bind (looks_rescue listed none) fun names => ?_
  cases names with
  | none => exact looks_pure found
  | some names => exact looks_scanEntries dir names found

theorem looks_scanDirectories (dirs : List String) (found : Found) :
    Looks tree (scanDirectories kernel dirs found) (searchAll kernel tree dirs found) := by
  induction dirs generalizing found with
  | nil => exact looks_pure found
  | cons dir rest ih => exact looks_bind (looks_scanDirectory dir found) ih

/-- A scan gives the options that the pure steps find. -/
theorem looks_scanCloudInitTemplates (searchDirs : List String) :
    Looks tree (scanCloudInitTemplates kernel searchDirs)
      ((searchAll kernel tree searchDirs .none).map Found.options) := by
  have both := looks_bind (@looks_scanDirectories kernel tree searchDirs .none) fun found =>
    @looks_pure _ tree found.options
  cases searched : searchAll kernel tree searchDirs .none <;> rw [searched] at both <;> exact both

end

/-! ## What is found -/

/-- The search goes on if what it meets is tolerated, and then it has seen the
paths with a property besides those from before. -/
structure Finds (before : Found) (isFound : String → Prop) (tolerated : Prop)
    (outcome : Except RubyError Found) : Prop where
  ok_iff : (∃ after, outcome = .ok after) ↔ tolerated
  seen : ∀ after, outcome = .ok after →
    ∀ path, path ∈ after.seen ↔ path ∈ before.seen ∨ isFound path

theorem finds_nothing (before : Found) : Finds before (fun _ => False) True (.ok before) := by
  refine ⟨⟨fun _ => trivial, fun _ => ⟨before, rfl⟩⟩, ?_⟩
  rintro after ⟨⟩ path
  rw [or_false]

theorem Finds.congr {before : Found} {isFound found : String → Prop} {tolerated passed : Prop}
    {outcome : Except RubyError Found} (finds : Finds before isFound tolerated outcome)
    (sameFound : ∀ path, isFound path ↔ found path) (samePassed : tolerated ↔ passed) :
    Finds before found passed outcome :=
  ⟨finds.ok_iff.trans samePassed, fun after isAfter path => by
    rw [finds.seen after isAfter path, sameFound path]⟩

theorem finds_bind {before : Found} {firstFound nextFound : String → Prop}
    {firstTolerated nextTolerated : Prop} {first : Except RubyError Found}
    {next : Found → Except RubyError Found}
    (findsFirst : Finds before firstFound firstTolerated first)
    (findsNext : ∀ middle, first = .ok middle →
        Finds middle nextFound nextTolerated (next middle)) :
    Finds before (fun path => firstFound path ∨ nextFound path) (firstTolerated ∧ nextTolerated)
      (first >>= next) := by
  constructor
  · rw [← findsFirst.ok_iff]
    constructor
    · rintro ⟨after, isAfter⟩
      rcases bind_eq_ok_iff.mp isAfter with ⟨middle, isMiddle, later⟩
      exact ⟨⟨middle, isMiddle⟩, (findsNext middle isMiddle).ok_iff.mp ⟨after, later⟩⟩
    · rintro ⟨⟨middle, isMiddle⟩, passed⟩
      rcases (findsNext middle isMiddle).ok_iff.mpr passed with ⟨after, later⟩
      exact ⟨after, bind_eq_ok_iff.mpr ⟨middle, isMiddle, later⟩⟩
  · intro after isAfter path
    rcases bind_eq_ok_iff.mp isAfter with ⟨middle, isMiddle, later⟩
    rw [(findsNext middle isMiddle).seen after later path, findsFirst.seen middle isMiddle path,
      or_assoc]

section

variable {kernel : Kernel} {tree : Tree}

/-- What was seen so far has the header. -/
def AllHeaded (kernel : Kernel) (tree : Tree) (found : Found) : Prop :=
  ∀ path ∈ found.seen, headerAt kernel tree path = .ok true

theorem Finds.allHeaded {before after : Found} {isFound : String → Prop} {tolerated : Prop}
    {outcome : Except RubyError Found} (finds : Finds before isFound tolerated outcome)
    (headed : AllHeaded kernel tree before)
    (hasHeader : ∀ path, isFound path → headerAt kernel tree path = .ok true)
    (isAfter : outcome = .ok after) : AllHeaded kernel tree after := by
  intro path member
  rcases (finds.seen after isAfter path).mp member with old | new
  · exact headed path old
  · exact hasHeader path new

theorem mem_seen_add {found : Found} {entry absPath : String} (fresh : absPath ∉ found.seen)
    (path : String) : path ∈ (found.add entry absPath fresh).seen ↔
      path ∈ found.seen ∨ path = absPath := by
  simp [Found.add, Found.seen]

theorem visit_of_not_considered {dir entry : String} (not : ¬ Considered kernel tree dir entry)
    (found : Found) : visit kernel tree dir entry found = .ok found := by
  unfold visit
  split_ifs with special skipped
  · rfl
  · rfl
  · refine absurd ⟨?_, ?_, ?_⟩ not
    · simpa using special
    · exact Bool.eq_false_iff.mpr fun isDirectory => skipped (by rw [isDirectory]; rfl)
    · exact not_not.mp fun notYaml => skipped (by simp [notYaml])

theorem visit_of_considered {dir entry : String} (considered : Considered kernel tree dir entry)
    (found : Found) :
    visit kernel tree dir entry found =
      ((expandPath kernel.toSurroundings (join dir entry)).map text >>= fun absPath =>
        if seen : absPath ∈ found.seen then .ok found
        else headerAt kernel tree absPath >>= fun header =>
          if header then .ok (found.add entry absPath seen) else .ok found) := by
  unfold visit
  rw [if_neg (by simpa using considered.named),
    if_neg (by simp [considered.notDirectory, considered.yaml])]

section Candidate

variable {dir entry absPath : String} (candidate : Candidate kernel tree dir entry absPath)

include candidate

/-- An entry expands to one path. -/
theorem Candidate.unique {path : String} (other : Candidate kernel tree dir entry path) :
    path = absPath :=
  Except.ok.inj (other.expanded.symm.trans candidate.expanded)

theorem Candidate.tolerated_iff :
    Tolerated kernel tree dir entry ↔ ∃ answer, headerAt kernel tree absPath = .ok answer := by
  constructor
  · intro tolerated
    rcases tolerated candidate.toConsidered with ⟨path, other, answer, answered⟩
    exact ⟨answer, candidate.unique other ▸ answered⟩
  · rintro answered _
    exact ⟨absPath, candidate, answered⟩

theorem Candidate.headed_iff (path : String) :
    Headed kernel tree dir entry path ↔
      path = absPath ∧ headerAt kernel tree absPath = .ok true := by
  constructor
  · rintro ⟨other, answered⟩
    rw [← candidate.unique other]
    exact ⟨rfl, answered⟩
  · rintro ⟨rfl, answered⟩
    exact ⟨candidate, answered⟩

end Candidate

theorem finds_visit (dir entry : String) {found : Found} (headed : AllHeaded kernel tree found) :
    Finds found (Headed kernel tree dir entry) (Tolerated kernel tree dir entry)
      (visit kernel tree dir entry found) := by
  by_cases considered : Considered kernel tree dir entry
  · rw [visit_of_considered considered]
    cases expanded : (expandPath kernel.toSurroundings (join dir entry)).map text with
    | error raised =>
        refine ⟨⟨nofun, fun tolerated => ?_⟩, nofun⟩
        rcases tolerated considered with ⟨path, candidate, _⟩
        cases expanded.symm.trans candidate.expanded
    | ok absPath =>
        have candidate : Candidate kernel tree dir entry absPath := ⟨considered, expanded⟩
        change Finds found _ _ (if seen : absPath ∈ found.seen then .ok found else _)
        by_cases seen : absPath ∈ found.seen
        · rw [dif_pos seen]
          have answered := headed absPath seen
          have tolerated := candidate.tolerated_iff.mpr ⟨true, answered⟩
          refine ⟨⟨fun _ => tolerated, fun _ => ⟨found, rfl⟩⟩, ?_⟩
          rintro after ⟨⟩ path
          rw [candidate.headed_iff]
          constructor
          · exact Or.inl
          · rintro (old | ⟨rfl, _⟩)
            · exact old
            · exact seen
        · rw [dif_neg seen]
          cases answered : headerAt kernel tree absPath with
          | error raised =>
              refine ⟨⟨nofun, fun tolerated => ?_⟩, nofun⟩
              rcases candidate.tolerated_iff.mp tolerated with ⟨answer, other⟩
              cases answered.symm.trans other
          | ok header =>
              have tolerated := candidate.tolerated_iff.mpr ⟨header, answered⟩
              cases header with
              | true =>
                  refine ⟨⟨fun _ => tolerated, fun _ => ⟨_, rfl⟩⟩, ?_⟩
                  rintro after ⟨⟩ path
                  rw [mem_seen_add seen, candidate.headed_iff]
                  simp [answered]
              | false =>
                  refine ⟨⟨fun _ => tolerated, fun _ => ⟨_, rfl⟩⟩, ?_⟩
                  rintro after ⟨⟩ path
                  rw [candidate.headed_iff]
                  simp [answered]
  · rw [visit_of_not_considered considered]
    refine (finds_nothing found).congr (fun path => ?_) ?_
    · exact ⟨False.elim, fun headed => considered headed.1.toConsidered⟩
    · exact ⟨fun _ isConsidered => absurd isConsidered considered, fun _ => trivial⟩

theorem finds_visitAll (dir : String) (names : List String) {found : Found}
    (headed : AllHeaded kernel tree found) :
    Finds found (fun path => ∃ entry ∈ names, Headed kernel tree dir entry path)
      (∀ entry ∈ names, Tolerated kernel tree dir entry)
      (visitAll kernel tree dir names found) := by
  induction names generalizing found with
  | nil => exact (finds_nothing found).congr (by simp) (by simp)
  | cons entry rest ih =>
      have first := finds_visit dir entry headed
      refine (finds_bind first fun middle isMiddle => ih (first.allHeaded headed ?_ isMiddle)).congr
        (by simp) (by simp)
      exact fun path isHeaded => isHeaded.2

/-- A directory in which a search does not fail. -/
structure Searchable (kernel : Kernel) (tree : Tree) (dir : String) : Prop where
  listed : ∀ names, listingOf kernel tree dir = .ok names →
    ∀ entry ∈ names, Tolerated kernel tree dir entry
  skipped : ∀ raised, listingOf kernel tree dir = .error raised → raised.isSystemCallError = true

/-- A path that a search of a directory finds. -/
def FoundIn (kernel : Kernel) (tree : Tree) (dir path : String) : Prop :=
  ∃ names, listingOf kernel tree dir = .ok names ∧
    ∃ entry ∈ names, Headed kernel tree dir entry path

theorem FoundIn.header {dir path : String} (foundIn : FoundIn kernel tree dir path) :
    headerAt kernel tree path = .ok true := by
  rcases foundIn with ⟨_, _, _, _, _, answered⟩
  exact answered

/-- A directory that cannot be listed is left out, if a system call says so. -/
theorem search_of_error {dir : String} {raised : RubyError}
    (failed : listingOf kernel tree dir = .error raised) (found : Found) :
    search kernel tree dir found =
      if raised.isSystemCallError then .ok found else .error raised := by
  unfold search
  rw [failed]
  simp only [Except.map, unlessSystemCall]
  split
  · rfl
  · rfl

theorem finds_search (dir : String) {found : Found} (headed : AllHeaded kernel tree found) :
    Finds found (FoundIn kernel tree dir) (Searchable kernel tree dir)
      (search kernel tree dir found) := by
  cases listed : listingOf kernel tree dir with
  | ok names =>
      unfold search
      rw [listed]
      refine (finds_visitAll dir names headed).congr (fun path => ?_) ?_
      · constructor
        · exact fun isFound => ⟨names, listed, isFound⟩
        · rintro ⟨others, isOthers, isFound⟩
          cases listed.symm.trans isOthers
          exact isFound
      · constructor
        · intro tolerated
          refine ⟨fun others isOthers => ?_, fun raised failed => ?_⟩
          · cases listed.symm.trans isOthers
            exact tolerated
          · cases listed.symm.trans failed
        · exact fun searchable => searchable.listed names listed
  | error raised =>
      have nothing : ∀ path, ¬ FoundIn kernel tree dir path := by
        rintro path ⟨names, isNames, _⟩
        cases listed.symm.trans isNames
      rw [search_of_error listed]
      by_cases isSystem : raised.isSystemCallError = true
      · rw [if_pos isSystem]
        refine (finds_nothing found).congr (fun path => (iff_false_intro (nothing path)).symm) ?_
        refine ⟨fun _ => ⟨fun names isNames => ?_, fun other failed => ?_⟩, fun _ => trivial⟩
        · cases listed.symm.trans isNames
        · cases listed.symm.trans failed
          exact isSystem
      · rw [if_neg isSystem]
        exact ⟨⟨nofun, fun searchable => absurd (searchable.skipped raised listed) isSystem⟩, nofun⟩

theorem finds_searchAll (dirs : List String) {found : Found}
    (headed : AllHeaded kernel tree found) :
    Finds found (fun path => ∃ dir ∈ dirs, FoundIn kernel tree dir path)
      (∀ dir ∈ dirs, Searchable kernel tree dir) (searchAll kernel tree dirs found) := by
  induction dirs generalizing found with
  | nil => exact (finds_nothing found).congr (by simp) (by simp)
  | cons dir rest ih =>
      have first := finds_search dir headed
      refine (finds_bind first fun middle isMiddle => ih (first.allHeaded headed ?_ isMiddle)).congr
        (by simp) (by simp)
      exact fun path foundIn => foundIn.header

/-! ### Labels -/

/-- An option that a search of a directory adds: the label is that of an entry. -/
structure ListedIn (kernel : Kernel) (tree : Tree) (dir : String) (option : TemplateOption) :
    Prop where
  entry : ∃ names, listingOf kernel tree dir = .ok names ∧ option.label ∈ names
  headed : Headed kernel tree dir option.label option.path

theorem options_visit {dir entry : String} {found after : Found}
    (visited : visit kernel tree dir entry found = .ok after) :
    ∀ option ∈ after.options, option ∈ found.options ∨
      option.label = entry ∧ Headed kernel tree dir entry option.path := by
  intro option member
  by_cases considered : Considered kernel tree dir entry
  · rw [visit_of_considered considered] at visited
    rcases bind_eq_ok_iff.mp visited with ⟨absPath, expanded, later⟩
    split at later
    · cases later
      exact Or.inl member
    · rcases bind_eq_ok_iff.mp later with ⟨header, answered, last⟩
      cases header with
      | false =>
          cases last
          exact Or.inl member
      | true =>
          cases last
          rcases List.mem_append.mp member with old | new
          · exact Or.inl old
          · rw [List.mem_singleton.mp new]
            exact Or.inr ⟨rfl, ⟨considered, expanded⟩, answered⟩
  · rw [visit_of_not_considered considered] at visited
    cases visited
    exact Or.inl member

theorem options_visitAll {dir : String} {names : List String} {found after : Found}
    (visited : visitAll kernel tree dir names found = .ok after) :
    ∀ option ∈ after.options, option ∈ found.options ∨
      option.label ∈ names ∧ Headed kernel tree dir option.label option.path := by
  induction names generalizing found with
  | nil =>
      cases visited
      exact fun option member => Or.inl member
  | cons entry rest ih =>
      intro option member
      rcases bind_eq_ok_iff.mp visited with ⟨middle, first, later⟩
      rcases ih later option member with inMiddle | ⟨inRest, headed⟩
      · rcases options_visit first option inMiddle with old | ⟨rfl, headed⟩
        · exact Or.inl old
        · exact Or.inr ⟨List.mem_cons_self, headed⟩
      · exact Or.inr ⟨List.mem_cons_of_mem _ inRest, headed⟩

theorem options_search {dir : String} {found after : Found}
    (searched : search kernel tree dir found = .ok after) :
    ∀ option ∈ after.options, option ∈ found.options ∨ ListedIn kernel tree dir option := by
  intro option member
  unfold search at searched
  rcases bind_eq_ok_iff.mp searched with ⟨names, listed, visited⟩
  cases names with
  | none =>
      cases visited
      exact Or.inl member
  | some names =>
      refine (options_visitAll visited option member).imp_right fun ⟨inNames, headed⟩ => ?_
      refine ⟨⟨names, ?_, inNames⟩, headed⟩
      cases listing : listingOf kernel tree dir with
      | ok others =>
          rw [listing] at listed
          cases listed
          rfl
      | error raised =>
          rw [listing] at listed
          cases isSystem : raised.isSystemCallError with
          | true =>
              simp only [Except.map, unlessSystemCall, isSystem, if_true] at listed
              cases listed
          | false =>
              simp only [Except.map, unlessSystemCall, isSystem] at listed
              cases listed

/-- Every option of a scan of one directory is listed in it. -/
theorem listedIn_of_searchAll {dir : String} {after : Found}
    (searched : searchAll kernel tree [dir] .none = .ok after) :
    ∀ option ∈ after.options, ListedIn kernel tree dir option := by
  intro option member
  rcases bind_eq_ok_iff.mp searched with ⟨middle, first, last⟩
  cases last
  rcases options_search first option member with old | listed
  · cases old
  · exact listed

end

end MultipassWebui.Multipass.Cloudinit
