import MultipassWebui.Files.Growing
import MultipassWebui.Multipass.TemplateStore

/-!
# Two stores on one disk

Playbooks and templates are kept in two directories.  As long as neither is
inside the other, the calls on the two are answered by two maps, in whatever
order they come.
-/

namespace MultipassWebui.Multipass.Stores

open MultipassWebui.Effect
open MultipassWebui.Encoding
open MultipassWebui.Files
open MultipassWebui.Text
open MultipassWebui.Multipass.Playbooks (Fits Holds Leads Library Missing Represents Starts Straight
  Succeeds Unfolded located_child)

/-! ## What one call changes -/

/-- The tree is as it was. -/
def SameTree (before after : Disk) : Prop := after.tree = before.tree

instance isPreorder_sameTree : IsPreorder Disk SameTree where
  refl _ := rfl
  trans _ _ _ early late := Eq.trans late early

section

variable {kernel : Kernel} {kind baseDir name path : String} {outer : Place} {disk : Disk}
  {library : Library}

theorem sameTree_read (kernel : Kernel) (path : String) :
    Exec.Keeps SameTree (read kernel path) := by
  intro disk
  rcases @read_cases kernel path disk with ⟨raised, failed⟩ | ⟨place, content, _, _, _, returned⟩
  · rw [failed]
    rfl
  · rw [returned]
    rfl

theorem sameTree_entries (kernel : Kernel) (path : String) :
    Exec.Keeps SameTree (entries kernel path) :=
  fun disk => (@Cloudinit.looks_entries kernel disk.tree path disk rfl).2

theorem sameTree_readNamed (kind : String) (kernel : Kernel) (baseDir name : String) :
    Exec.Keeps SameTree (readNamed kind kernel baseDir name) := by
  apply Exec.keeps_rescue
  · exact Exec.keeps_bind (Exec.keeps_ofExcept _) fun path => sameTree_read kernel path
  · intro error handled handles
    split at handles
    · obtain rfl := Option.some.inj handles
      exact Exec.keeps_raise _
    · cases handles

theorem sameTree_listPlaybooks (kernel : Kernel) (baseDir : String) :
    Exec.Keeps SameTree (Playbooks.listPlaybooks kernel baseDir) := by
  apply Exec.keeps_bind
  · apply Exec.keeps_rescue
    · exact Exec.keeps_bind (sameTree_entries kernel baseDir) fun _ => Exec.keeps_pure _
    · intro error handled handles
      split at handles
      · obtain rfl := Option.some.inj handles
        exact Exec.keeps_pure _
      · cases handles
  · intro found
    cases found with
    | none => exact Exec.keeps_pure _
    | some names => exact Exec.keeps_bind (Exec.keeps_gets _) fun tree => Exec.keeps_pure _

theorem changes_of_sameTree {after : Disk} (same : SameTree disk after) :
    Changes outer disk.tree after.tree := by
  rw [show after.tree = disk.tree from same]
  exact Std.Refl.refl disk.tree

/-- The directory is there, or it is made. -/
theorem mkdirP_of_represents (succeeds : Succeeds kernel)
    (represents : Represents kernel baseDir outer disk library) :
    ∃ middle, mkdirP kernel baseDir disk = (.ok ⟨⟩, middle) ∧
      Leads kernel baseDir middle.tree outer ∧ Holds middle.tree outer library ∧
      Changes outer disk.tree middle.tree := by
  rcases represents with ⟨leads, holds⟩ | ⟨missing, rfl⟩
  · exact ⟨disk, mkdirP_of_leadsTo leads.literal, leads, holds, Std.Refl.refl disk.tree⟩
  · obtain ⟨middle, made, leads, nothing⟩ := missing.made succeeds
    have changes := @changes_mkdirP kernel disk baseDir outer missing.literal succeeds.make
    rw [made] at changes
    refine ⟨middle, made, leads, ⟨fun other => ?_, fun other member => ?_⟩, changes⟩
    · rw [nothing, Finmap.lookup_empty]
      rfl
    · exact absurd member Finmap.notMem_empty

/-- A step that changes nothing, and then another. -/
theorem changes_bind {α β : Type} {first : Exec Disk RubyError α} {next : α → Exec Disk RubyError β}
    (same : SameTree disk (first disk).2)
    (changes : ∀ value middle, first disk = (.ok value, middle) →
      Changes outer disk.tree (next value middle).2.tree) :
    Changes outer disk.tree ((first >>= next) disk).2.tree := by
  rcases ran : first disk with ⟨raised | value, middle⟩
  · rw [ran] at same
    rw [Exec.bind_error ran]
    exact changes_of_sameTree same
  · rw [Exec.bind_ok ran]
    exact changes value middle ran

/-- A name that is rejected changes nothing. -/
theorem changes_sanitizeName {β : Type} {next : String → Exec Disk RubyError β}
    (changes : ∀ base, Accepted name → expandPath kernel.toSurroundings baseDir = .ok base →
      Changes outer disk.tree (next (text (name :: base)) disk).2.tree) :
    Changes outer disk.tree
      ((Exec.ofExcept (sanitizeName kind kernel.toSurroundings baseDir name) >>=
        next) disk).2.tree := by
  apply changes_bind
  · exact Exec.keeps_ofExcept _ disk
  · intro path middle returned
    rw [Exec.ofExcept_apply] at returned
    obtain ⟨isPath, rfl⟩ := Prod.mk.inj returned
    rcases @sanitizeName_cases kind kernel.toSurroundings baseDir name with
      ⟨raised, rejected⟩ | ⟨base, accepted, expanded, sanitized⟩
    · cases rejected.symm.trans isPath
    · cases sanitized.symm.trans isPath
      exact changes base accepted expanded

theorem changes_writeNamed (succeeds : Succeeds kernel)
    (represents : Represents kernel baseDir outer disk library) (kind name : String)
    (content : List UInt8) :
    Changes outer disk.tree (writeNamed kind kernel baseDir name content disk).2.tree := by
  apply changes_sanitizeName
  intro base accepted expanded
  obtain ⟨middle, made, leads, holds, changes⟩ := mkdirP_of_represents succeeds represents
  rw [Exec.bind_ok made]
  apply IsTrans.trans _ _ _ changes
  rcases @write_cases kernel (text (name :: base)) middle content with
    ⟨raised, failed⟩ | ⟨place, written, tree, located, isStored, wrote⟩
  · rw [failed]
    exact Std.Refl.refl middle.tree
  · obtain ⟨found, isBase, _, child⟩ := located_child leads holds accepted
    cases expanded.symm.trans isBase
    cases located.symm.trans child
    obtain ⟨_, notDirectory, _, others⟩ := store_eq_some isStored
    rw [wrote]
    exact changes_child notDirectory (holds.not_link name) others

/-- A file that is there is an entry of the directory. -/
theorem changes_delete (represents : Represents kernel baseDir outer disk library)
    {base : Place} (accepted : Accepted name)
    (expanded : expandPath kernel.toSurroundings baseDir = .ok base)
    (there : exist kernel (text (name :: base)) disk = (.ok true, disk)) :
    Changes outer disk.tree (delete kernel (text (name :: base)) disk).2.tree := by
  have clean := clean_child accepted expanded
  rcases @delete_cases kernel (text (name :: base)) disk with
    ⟨raised, failed⟩ | ⟨parent, last, free, isParent, isLast, plain, present, deleted⟩
  · rw [failed]
    exact Std.Refl.refl disk.tree
  · obtain ⟨walked, directory, named⟩ := parent_text clean isParent
    cases isLast.trans named
    rw [deleted]
    rcases represents with ⟨leads, holds⟩ | ⟨missing, rfl⟩
    · obtain ⟨other, isBase, walkedBase⟩ := leads.expanded
      cases expanded.symm.trans isBase
      cases walked.symm.trans walkedBase
      apply changes_child free (holds.not_link name)
      intro other different
      rw [Tree.node?_remove, if_neg different]
    · -- of a directory that is missing no entry is found
      obtain ⟨other, isBase, leaves⟩ := missing.expanded
      cases expanded.symm.trans isBase
      have located := @locate_text kernel disk.tree _ clean (List.cons_ne_nil name base)
      rw [List.reverse_cons, leaves.walk_append name] at located
      cases there.symm.trans (exist_of_error (null_not_mem_text clean) located)

theorem changes_deleteNamed (represents : Represents kernel baseDir outer disk library)
    (kind name : String) :
    Changes outer disk.tree (deleteNamed kind kernel baseDir name disk).2.tree := by
  apply changes_sanitizeName
  intro base accepted expanded
  have looked := @exist_state kernel (text (name :: base)) disk
  apply changes_bind
  · rw [SameTree, looked]
  · intro there middle found
    rw [found] at looked
    obtain rfl : middle = disk := looked
    cases there with
    | false => exact Std.Refl.refl middle.tree
    | true => exact changes_delete represents accepted expanded found

end

/-! ## What the calls on the other directory change -/

/-- Neither of the places is inside the other. -/
def Apart (first second : Place) : Prop := ¬ first <:+ second ∧ ¬ second <:+ first

theorem Apart.symm {first second : Place} (apart : Apart first second) : Apart second first :=
  ⟨apart.2, apart.1⟩

instance decidableApart (first second : Place) : Decidable (Apart first second) :=
  inferInstanceAs (Decidable (_ ∧ _))

section

variable {kernel : Kernel} {baseDir : String} {outer other : Place} {disk after : Disk}
  {library : Library}

/-- The path and what it expands to still lead to the directory. -/
theorem leads_of_within {tree larger : Tree} (leads : Leads kernel baseDir tree outer)
    (within : Tree.Within tree larger) : Leads kernel baseDir larger outer := by
  obtain ⟨base, expanded, walked⟩ := leads.expanded
  obtain ⟨noNull, nonempty, literal⟩ := leads.literal.walked
  refine ⟨⟨?_, within.directories _ leads.literal.directory⟩, base, expanded,
    Tree.walk_within within walked leads.literal.directory⟩
  rw [locate, if_neg noNull, if_neg nonempty]
  exact Tree.walk_within within literal leads.literal.directory

/-- The path still leaves off. -/
theorem leavesOff_of_changes {begin : Place} {names : List String} {tree larger : Tree}
    (apart : Apart outer other) (changes : Changes other tree larger)
    (leaves : LeavesOff tree begin names outer) : LeavesOff larger begin names outer := by
  have notChild : ∀ inner, inner <:+ outer → ∀ name, inner ≠ name :: other := by
    rintro inner onWay name rfl
    exact apart.2 ((List.suffix_cons name other).trans onWay)
  apply leaves.of_made changes.within
  · intro inner onWay
    by_cases onOther : inner <:+ other
    · exact changes.made inner onOther
    · exact Or.inl (changes.elsewhere inner onOther (notChild inner onWay))
  · intro directory
    rw [Tree.Directory, changes.elsewhere outer apart.1 (notChild outer (List.suffix_refl outer))]
      at directory
    exact leaves.not_directory directory

/-- A directory goes on representing its map when calls change the other one. -/
theorem represents_of_changes (apart : Apart outer other)
    (changes : Changes other disk.tree after.tree)
    (represents : Represents kernel baseDir outer disk library) :
    Represents kernel baseDir outer after library := by
  rcases represents with ⟨leads, holds⟩ | ⟨missing, rfl⟩
  · refine Or.inl ⟨leads_of_within leads changes.within, fun name => ?_, holds.named⟩
    have same : after.tree.node? (name :: outer) = disk.tree.node? (name :: outer) := by
      apply changes.elsewhere
      · exact fun onWay => apart.1 ((List.suffix_cons name outer).trans onWay)
      · intro another sameChild
        cases sameChild
        exact apart.1 (List.suffix_refl outer)
    rw [same, holds.files name]
  · obtain ⟨base, expanded, leaves⟩ := missing.expanded
    exact Or.inr ⟨⟨missing.noNull, leavesOff_of_changes apart changes missing.literal, base,
      expanded, leavesOff_of_changes apart changes leaves⟩, rfl⟩

end

/-! ## The calls on both -/

/-- A call on one of the stores. -/
inductive Call where
  | playbook (call : Playbooks.Call)
  | template (call : Cloudinit.Call)
  deriving DecidableEq, Repr

/-- The paths of the two directories, as the settings give them. -/
structure Paths where
  playbooksDir : String
  cloudInitDir : String

/-- What a call answers. -/
abbrev Answer := Except RubyError Playbooks.Answer ⊕ Except RubyError Cloudinit.Answer

def perform (kernel : Kernel) (paths : Paths) : Call → Disk → Answer × Disk
  | .playbook call, disk =>
      let (answer, after) := Playbooks.perform kernel paths.playbooksDir call disk
      (.inl answer, after)
  | .template call, disk =>
      let (answer, after) := Cloudinit.perform kernel paths.cloudInitDir call disk
      (.inr answer, after)

/-- Carry out calls, whether they return or raise. -/
def performAll (kernel : Kernel) (paths : Paths) : List Call → Disk → List Answer × Disk
  | [], disk => ([], disk)
  | call :: rest, disk =>
      let (answer, middle) := perform kernel paths call disk
      let (answers, last) := performAll kernel paths rest middle
      (answer :: answers, last)

/-- The maps of the playbooks and of the templates. -/
structure Maps where
  playbooks : Library
  templates : Library

abbrev Expected := Option Playbooks.Answer ⊕ Option Cloudinit.Expected

/-- Each call is answered by the map of its store, and changes no other. -/
def specify (maps : Maps) : Call → Expected × Maps
  | .playbook call =>
      let (answer, playbooks) := Playbooks.specify maps.playbooks call
      (.inl answer, { maps with playbooks := playbooks })
  | .template call =>
      let (answer, templates) := Cloudinit.specify maps.templates call
      (.inr answer, { maps with templates := templates })

def specifyAll : Maps → List Call → List Expected × Maps
  | maps, [] => ([], maps)
  | maps, call :: rest =>
      let (answer, middle) := specify maps call
      let (answers, last) := specifyAll middle rest
      (answer :: answers, last)

/-- Answers as the maps answer; `base` is what the path of the templates expands to. -/
def Matches (base : Place) : Answer → Expected → Prop :=
  Sum.LiftRel Playbooks.Matches (Cloudinit.Matches base)

/-- The name in a call. -/
def Call.name? : Call → Option String
  | .playbook call => call.name?
  | .template (.write name _) | .template (.read name) | .template (.delete name) => some name
  | .template .scan => none

/-- The name in a call fits, and holds neither of the two characters that merely equal a letter
without regard to case. -/
def Ordinary (call : Call) : Prop := ∀ name ∈ call.name?, Fits name ∧ Unfolded name

instance decidableOrdinary (call : Call) : Decidable (Ordinary call) :=
  inferInstanceAs (Decidable (∀ name ∈ call.name?, _))

section

variable {kernel : Kernel} {paths : Paths} {playbooksAt templatesAt base : Place} {disk : Disk}
  {maps : Maps}

/-- The disk represents both maps. -/
structure Represented (kernel : Kernel) (paths : Paths) (playbooksAt templatesAt : Place)
    (disk : Disk) (maps : Maps) : Prop where
  playbooks : Represents kernel paths.playbooksDir playbooksAt disk maps.playbooks
  templates : Represents kernel paths.cloudInitDir templatesAt disk maps.templates
  fits : ∀ name ∈ maps.templates, Fits name

theorem changes_playbooks (succeeds : Succeeds kernel)
    (represented : Represented kernel paths playbooksAt templatesAt disk maps)
    (call : Playbooks.Call) :
    Changes playbooksAt disk.tree
      (Playbooks.perform kernel paths.playbooksDir call disk).2.tree := by
  cases call with
  | write name content =>
      rw [Playbooks.perform, Exec.bind_pure_apply]
      exact changes_writeNamed succeeds represented.playbooks "playbook" name content
  | read name =>
      rw [Playbooks.perform, Exec.bind_pure_apply]
      exact changes_of_sameTree (sameTree_readNamed "playbook" kernel paths.playbooksDir name disk)
  | delete name =>
      rw [Playbooks.perform, Exec.bind_pure_apply]
      exact changes_deleteNamed represented.playbooks "playbook" name
  | list =>
      rw [Playbooks.perform, Exec.bind_pure_apply]
      exact changes_of_sameTree (sameTree_listPlaybooks kernel paths.playbooksDir disk)

theorem changes_templates (succeeds : Succeeds kernel)
    (represented : Represented kernel paths playbooksAt templatesAt disk maps)
    (call : Cloudinit.Call) :
    Changes templatesAt disk.tree
      (Cloudinit.perform kernel paths.cloudInitDir call disk).2.tree := by
  cases call with
  | write name content =>
      rw [Cloudinit.perform, Exec.bind_pure_apply]
      exact changes_writeNamed succeeds represented.templates "template" name content
  | read name =>
      rw [Cloudinit.perform, Exec.bind_pure_apply]
      exact changes_of_sameTree (sameTree_readNamed "template" kernel paths.cloudInitDir name disk)
  | delete name =>
      rw [Cloudinit.perform, Exec.bind_pure_apply]
      exact changes_deleteNamed represented.templates "template" name
  | scan =>
      rw [Cloudinit.perform, Exec.bind_pure_apply]
      exact changes_of_sameTree
        (Cloudinit.looks_scanCloudInitTemplates [paths.cloudInitDir] disk rfl).2

/-- The names in the map go on to fit. -/
theorem fits_specify {library : Library} (fits : ∀ name ∈ library, Fits name)
    {call : Cloudinit.Call} (ordinary : Ordinary (.template call)) :
    ∀ name ∈ (Cloudinit.specify library call).2, Fits name := by
  cases call with
  | write name content =>
      rw [Cloudinit.specify]
      split_ifs
      · intro other member
        rcases Finmap.mem_insert.mp member with rfl | old
        · exact (ordinary _ rfl).1
        · exact fits other old
      · exact fits
  | read name =>
      rw [Cloudinit.specify]
      split_ifs
      · exact fits
      · exact fits
  | delete name =>
      rw [Cloudinit.specify]
      split_ifs
      · exact fun other member => fits other (Finmap.mem_erase.mp member).2
      · exact fits
  | scan =>
      rw [Cloudinit.specify]
      split_ifs
      · exact fits
      · exact fits

theorem agrees_template (succeeds : Succeeds kernel)
    (expanded : expandPath kernel.toSurroundings paths.cloudInitDir = .ok base)
    (represented : Represented kernel paths playbooksAt templatesAt disk maps)
    {call : Cloudinit.Call} (ordinary : Ordinary (.template call)) :
    Cloudinit.Agrees kernel paths.cloudInitDir templatesAt base
      (Cloudinit.perform kernel paths.cloudInitDir call disk).1
      (Cloudinit.perform kernel paths.cloudInitDir call disk).2
      (Cloudinit.specify maps.templates call) := by
  cases call with
  | write name content =>
      obtain ⟨fits, unfolded⟩ := ordinary name rfl
      exact Cloudinit.agrees_write succeeds fits unfolded represented.templates content
  | read name =>
      obtain ⟨fits, unfolded⟩ := ordinary name rfl
      exact Cloudinit.agrees_read succeeds fits unfolded represented.templates
  | delete name =>
      obtain ⟨fits, unfolded⟩ := ordinary name rfl
      exact Cloudinit.agrees_delete succeeds fits unfolded represented.templates
  | scan => exact Cloudinit.agrees_scan succeeds represented.fits expanded represented.templates

/-- One call is answered as the maps answer, and the disk represents the maps after it. -/
theorem agrees_call (succeeds : Succeeds kernel) (apart : Apart playbooksAt templatesAt)
    (expanded : expandPath kernel.toSurroundings paths.cloudInitDir = .ok base)
    (represented : Represented kernel paths playbooksAt templatesAt disk maps) {call : Call}
    (ordinary : Ordinary call) :
    Matches base (perform kernel paths call disk).1 (specify maps call).1 ∧
      Represented kernel paths playbooksAt templatesAt (perform kernel paths call disk).2
        (specify maps call).2 := by
  cases call with
  | playbook call =>
      have agrees := Playbooks.agrees_call succeeds ordinary represented.playbooks
      have changes := changes_playbooks succeeds represented call
      exact ⟨.inl agrees.answer, agrees.represents,
        represents_of_changes apart.symm changes represented.templates, represented.fits⟩
  | template call =>
      have agrees := agrees_template succeeds expanded represented ordinary
      have changes := changes_templates succeeds represented call
      exact ⟨.inr agrees.answer, represents_of_changes apart changes represented.playbooks,
        agrees.represents, fits_specify represented.fits ordinary⟩

/-- So are all calls. -/
theorem agrees_all (succeeds : Succeeds kernel) (apart : Apart playbooksAt templatesAt)
    (expanded : expandPath kernel.toSurroundings paths.cloudInitDir = .ok base)
    (represented : Represented kernel paths playbooksAt templatesAt disk maps) {calls : List Call}
    (ordinary : ∀ call ∈ calls, Ordinary call) :
    List.Forall₂ (Matches base) (performAll kernel paths calls disk).1 (specifyAll maps calls).1 ∧
      Represented kernel paths playbooksAt templatesAt (performAll kernel paths calls disk).2
        (specifyAll maps calls).2 := by
  induction calls generalizing disk maps with
  | nil => exact ⟨.nil, represented⟩
  | cons call rest ih =>
      have first := agrees_call succeeds apart expanded represented (ordinary call (by simp))
      obtain ⟨answers, last⟩ :=
        ih first.2 fun other member => ordinary other (List.mem_cons_of_mem _ member)
      exact ⟨.cons first.1 answers, last⟩

/-- The maps hold what the files of the two directories hold. -/
structure Maps.Hold (maps : Maps) (playbooksAt templatesAt : Place) (tree : Tree) : Prop where
  playbooks : ∀ name, maps.playbooks.lookup name = tree.file? (name :: playbooksAt)
  templates : ∀ name, maps.templates.lookup name = tree.file? (name :: templatesAt)

theorem Represented.hold
    (represented : Represented kernel paths playbooksAt templatesAt disk maps) :
    maps.Hold playbooksAt templatesAt disk.tree :=
  ⟨represented.playbooks.lookup, represented.templates.lookup⟩

/-- Directories to start from represent maps. -/
theorem exists_maps (playbooksStart : Starts kernel paths.playbooksDir playbooksAt disk)
    (templatesStart : Starts kernel paths.cloudInitDir templatesAt disk)
    (fits : ∀ name node, disk.tree.node? (name :: templatesAt) = some node → Fits name) :
    ∃ maps, Represented kernel paths playbooksAt templatesAt disk maps := by
  obtain ⟨playbooks, representsPlaybooks⟩ := Playbooks.exists_library playbooksStart
  obtain ⟨templates, representsTemplates⟩ := Playbooks.exists_library templatesStart
  refine ⟨⟨playbooks, templates⟩, representsPlaybooks, representsTemplates, ?_⟩
  intro name member
  obtain ⟨content, lookup⟩ := Finmap.mem_iff.mp member
  rw [representsTemplates.lookup name, Tree.file?] at lookup
  cases found : disk.tree.node? (name :: templatesAt) with
  | none =>
      rw [found] at lookup
      cases lookup
  | some node => exact fits name node found

theorem exists_expanded (starts : Starts kernel paths.cloudInitDir templatesAt disk) :
    ∃ base, expandPath kernel.toSurroundings paths.cloudInitDir = .ok base := by
  rcases starts with ⟨leads, _⟩ | missing
  · obtain ⟨base, expanded, _⟩ := leads.expanded
    exact ⟨base, expanded⟩
  · obtain ⟨base, expanded, _⟩ := missing.expanded
    exact ⟨base, expanded⟩

end

/-- Two directories, neither inside the other, that are missing or hold files with names of the
grammar only, answer the calls on playbooks and templates as two maps, in whatever order the calls
come, and hold what the maps hold. -/
theorem refine_maps (kernel : Kernel) (paths : Paths) (playbooksAt templatesAt : Place)
    (disk : Disk) (calls : List Call) (succeeds : Succeeds kernel)
    (apart : Apart playbooksAt templatesAt)
    (playbooksStart : Starts kernel paths.playbooksDir playbooksAt disk)
    (templatesStart : Starts kernel paths.cloudInitDir templatesAt disk)
    (fits : ∀ name node, disk.tree.node? (name :: templatesAt) = some node → Fits name)
    (ordinary : ∀ call ∈ calls, Ordinary call) :
    ∃ base maps, expandPath kernel.toSurroundings paths.cloudInitDir = .ok base ∧
      maps.Hold playbooksAt templatesAt disk.tree ∧
      List.Forall₂ (Matches base) (performAll kernel paths calls disk).1
        (specifyAll maps calls).1 ∧
      (specifyAll maps calls).2.Hold playbooksAt templatesAt
        (performAll kernel paths calls disk).2.tree := by
  obtain ⟨base, expanded⟩ := exists_expanded templatesStart
  obtain ⟨maps, represented⟩ := exists_maps playbooksStart templatesStart fits
  obtain ⟨answers, last⟩ := agrees_all succeeds apart expanded represented ordinary
  exact ⟨base, maps, expanded, represented.hold, answers, last.hold⟩

/-- Two directories that are still to be made, next to each other. -/
def dataPaths : Paths := ⟨"/data/playbooks", "/data/cloud-init"⟩

/-- A playbook and a template of one name. -/
def mixedCalls : List Call :=
  [.template (.write "site.yml" (utf8Bytes "#cloud-config\n")), .playbook .list,
    .playbook (.write "site.yml" [1]), .template .scan, .playbook (.delete "site.yml"),
    .template (.read "site.yml")]

theorem refine_maps_data :
    ∃ base maps, expandPath Playbooks.process.toSurroundings dataPaths.cloudInitDir = .ok base ∧
      maps.Hold ["playbooks", "data"] ["cloud-init", "data"] Playbooks.provisioned.tree ∧
      List.Forall₂ (Matches base)
        (performAll Playbooks.process dataPaths mixedCalls Playbooks.provisioned).1
        (specifyAll maps mixedCalls).1 ∧
      (specifyAll maps mixedCalls).2.Hold ["playbooks", "data"] ["cloud-init", "data"]
        (performAll Playbooks.process dataPaths mixedCalls Playbooks.provisioned).2.tree := by
  have succeeds : Succeeds Playbooks.process :=
    ⟨fun _ _ _ => rfl, fun _ _ _ => rfl, fun _ _ _ => rfl, fun _ => rfl, fun _ => rfl⟩
  have leavesOff : ∀ path name, segments path = ["", "data"] ++ [name] → Plain name →
      start Playbooks.process path = [] →
      Playbooks.provisioned.tree.node? [name, "data"] = none →
      LeavesOff Playbooks.provisioned.tree (start Playbooks.process path) (segments path)
        [name, "data"] := by
    intro path name names plain begins nothing
    rw [names, begins]
    exact @LeavesOff.mk _ _ ["", "data"] [] name ["data"] rfl rfl plain nothing List.not_mem_nil
  have playbooks := leavesOff "/data/playbooks" "playbooks" (by decide +kernel) (by decide) rfl rfl
  have templates := leavesOff "/data/cloud-init" "cloud-init" (by decide +kernel) (by decide) rfl
    rfl
  have straight : ∀ path : String, null ∉ path.toList → path.toList.head? ≠ some '~' →
      ".." ∉ segments path → Straight Playbooks.process path Playbooks.provisioned.tree :=
    fun _ noNull noHome noUp => ⟨noNull, noHome, noUp, rfl⟩
  apply refine_maps Playbooks.process dataPaths ["playbooks", "data"] ["cloud-init", "data"]
    Playbooks.provisioned mixedCalls succeeds (by decide)
  · exact Or.inr ((straight _ (by decide) (by decide) (by decide +kernel)).missing playbooks)
  · exact Or.inr ((straight _ (by decide) (by decide) (by decide +kernel)).missing templates)
  · intro name node found
    cases (Tree.node?_of_not_directory templates.not_directory name).symm.trans found
  · decide +kernel

end MultipassWebui.Multipass.Stores
