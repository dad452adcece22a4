import MultipassWebui.Collections.Sorting
import MultipassWebui.Files.Directories
import MultipassWebui.Multipass.Playbooks

/-!
# The playbook store is a map

As long as the path of the base directory and what it expands to lead to one
directory, and no name holds a character that merely equals a letter without
regard to case, the calls answer as the map does, and the directory holds what
the map holds.
-/

namespace MultipassWebui.Multipass.Playbooks

open MultipassWebui.Collections (pairwise_mergeSort_of_nodup eq_of_perm_of_ascending)
open MultipassWebui.Effect
open MultipassWebui.Files
open MultipassWebui.Text

/-- A name of at most 255 bytes. -/
def Fits (name : String) : Prop := name.utf8ByteSize ≤ 255

instance (name : String) : Decidable (Fits name) := inferInstanceAs (Decidable (_ ≤ _))

/-- The calls on files with names that fit succeed. -/
structure Succeeds (kernel : Kernel) : Prop where
  read : ∀ name outer, Fits name → kernel.readError (name :: outer) = none
  write : ∀ name outer, Fits name → kernel.writeError (name :: outer) = none
  delete : ∀ name outer, Fits name → kernel.deleteError (name :: outer) = none
  make : ∀ place, kernel.makeError place = none
  list : ∀ place, kernel.listError place = none

/-- The name in a call. -/
def Call.name? : Call → Option String
  | .write name _ | .read name | .delete name => some name
  | .list => none

/-- Every character of the name is one that the grammar could name. -/
def Unfolded (name : String) : Prop := ∀ char ∈ name.toList, foldsToLetter char = false

instance (name : String) : Decidable (Unfolded name) :=
  List.decidableBAll _ name.toList

/-- Answers as the map answers. -/
def Matches : Except RubyError Answer → Option Answer → Prop
  | .ok answer, some expected => answer = expected
  | .error raised, none => raised.isArgumentError = true
  | _, _ => False

section

variable (kernel : Kernel) (baseDir : String)

/-- The path and what it expands to lead to one directory. -/
structure Leads (tree : Tree) (outer : Place) : Prop where
  literal : LeadsTo kernel tree baseDir outer
  expanded : ∃ base, expandPath kernel.toSurroundings baseDir = .ok base ∧
    tree.walk LINKS [] base.reverse = .ok outer

/-- The path and what it expands to leave off where the directory would be. -/
structure Missing (tree : Tree) (outer : Place) : Prop where
  noNull : null ∉ baseDir.toList
  literal : LeavesOff tree (start kernel baseDir) (segments baseDir) outer
  expanded : ∃ base, expandPath kernel.toSurroundings baseDir = .ok base ∧
    LeavesOff tree [] base.reverse outer

/-- A directory holds what the map holds. -/
structure Holds (tree : Tree) (outer : Place) (library : Library) : Prop where
  files : ∀ name, tree.node? (name :: outer) = (library.lookup name).map Node.file
  named : ∀ name ∈ library, InGrammar name

/-- The disk represents the map. -/
def Represents (outer : Place) (disk : Disk) (library : Library) : Prop :=
  Leads kernel baseDir disk.tree outer ∧ Holds disk.tree outer library ∨
    Missing kernel baseDir disk.tree outer ∧ library = ∅

end

/-! ## Names -/

theorem leadingChar_of_unfolded {char : Char} (unfolded : foldsToLetter char = false) :
    leadingChar char = isAlnum char := by
  rw [leadingChar, unfolded, Bool.or_false]

/-- The names that are accepted are those of the grammar. -/
theorem accepted_iff {name : String} (unfolded : Unfolded name) :
    Accepted name ↔ InGrammar name := by
  have classes : ∀ chars : List Char, (∀ char ∈ chars, foldsToLetter char = false) →
      chars.all nameChar = chars.all fun char => isAlnum char || char = '_' || char = '.' ||
        char = '-' := by
    intro chars plain
    rw [Bool.eq_iff_iff, List.all_eq_true, List.all_eq_true]
    refine forall₂_congr fun char member => ?_
    rw [nameChar, leadingChar_of_unfolded (plain char member)]
  constructor
  · rintro ⟨stays, matched⟩
    refine ⟨?_, fun dots => stays (Or.inr (Or.inr dots))⟩
    unfold matchesFileName at matched
    split at matched
    · cases matched
    · rename_i first rest shape
      rw [Unfolded, shape] at unfolded
      simp only [Bool.and_eq_true] at matched
      obtain ⟨⟨leading, others⟩, ending⟩ := matched
      rw [leadingChar_of_unfolded (unfolded first (List.mem_cons_self ..))] at leading
      rw [classes rest fun char member => unfolded char (List.mem_cons_of_mem _ member)] at others
      exact ⟨first, rest, shape, leading, others, ending⟩
  · rintro ⟨⟨first, rest, shape, leading, others, ending⟩, noDots⟩
    rw [Unfolded, shape] at unfolded
    have leads := leadingChar_of_unfolded (unfolded first (List.mem_cons_self ..))
    have follows := classes rest fun char member => unfolded char (List.mem_cons_of_mem _ member)
    have matched : matchesFileName name = true := by
      rw [matchesFileName, shape]
      simp only [leads, leading, follows, others, ending, Bool.and_self]
    have nameChars : ∀ char ∈ name.toList, nameChar char = true := by
      rw [shape]
      intro char member
      rcases List.mem_cons.mp member with rfl | later
      · rw [nameChar, leads, leading]
        rfl
      · exact List.all_eq_true.mp (follows.trans others) char later
    refine ⟨?_, matched⟩
    rintro (slash | backslash | dots)
    · exact absurd (nameChars _ slash) (by decide)
    · exact absurd (nameChars _ backslash) (by decide)
    · exact noDots dots

/-- The names of the grammar hold none of the two characters. -/
theorem InGrammar.accepted {name : String} (inGrammar : InGrammar name) : Accepted name := by
  refine (accepted_iff ?_).mpr inGrammar
  have notAlnum : ∀ char, foldsToLetter char = true →
      (isAlnum char || char = '_' || char = '.' || char = '-') = false := by
    intro char folds
    simp only [foldsToLetter, Bool.or_eq_true, decide_eq_true_eq] at folds
    rcases folds with isLongS | isKelvin
    · rw [← Char.ofNat_toNat char, isLongS]
      decide
    · rw [← Char.ofNat_toNat char, isKelvin]
      decide
  obtain ⟨⟨first, rest, shape, leading, others, _⟩, _⟩ := inGrammar
  rw [Unfolded, shape]
  intro char member
  rw [← Bool.not_eq_true]
  intro folds
  have outside := notAlnum char folds
  rcases List.mem_cons.mp member with rfl | later
  · rw [leading] at outside
    cases outside
  · rw [List.all_eq_true.mp others char later] at outside
    cases outside

/-! ## One call -/

section

variable {kernel : Kernel} {baseDir name : String} {outer : Place} {disk : Disk}
  {library : Library}

/-- What stands in the directory is a file of the map, or nothing. -/
theorem Holds.not_directory {tree : Tree} (holds : Holds tree outer library) (name : String) :
    ¬ tree.Directory (name :: outer) := by
  intro directory
  obtain ⟨content, _, same⟩ :=
    Option.map_eq_some_iff.mp ((holds.files name).symm.trans directory)
  cases same

theorem Holds.not_link {tree : Tree} (holds : Holds tree outer library) (name target : String) :
    tree.node? (name :: outer) ≠ some (.link target) := by
  intro isLink
  obtain ⟨content, _, same⟩ :=
    Option.map_eq_some_iff.mp ((holds.files name).symm.trans isLink)
  cases same

/-- The path that a name is given leads to the name in the directory. -/
theorem located_child (leads : Leads kernel baseDir disk.tree outer)
    (holds : Holds disk.tree outer library) (accepted : Accepted name) :
    ∃ base, expandPath kernel.toSurroundings baseDir = .ok base ∧
      disk.tree.walk LINKS [] base.reverse = .ok outer ∧
      locate kernel disk.tree (text (name :: base)) = .ok (name :: outer) := by
  obtain ⟨base, expanded, walked⟩ := leads.expanded
  refine ⟨base, expanded, walked, ?_⟩
  rw [locate_text (clean_child accepted expanded) (List.cons_ne_nil name base), List.reverse_cons]
  exact (Tree.continues_walk accepted.clean.1 LINKS [] base.reverse).forward outer walked
    leads.literal.directory (holds.not_link name)

/-- The paths lead to the same directory after what is no directory changed. -/
theorem Leads.of_others {tree : Tree} (leads : Leads kernel baseDir disk.tree outer)
    {place : Place} (notDirectory : ¬ disk.tree.Directory place)
    (notLink : ∀ target, disk.tree.node? place ≠ some (.link target))
    (others : ∀ other, other ≠ place → tree.node? other = disk.tree.node? other) :
    Leads kernel baseDir tree outer := by
  have within : Tree.Within disk.tree tree := by
    constructor
    · intro other isDirectory
      exact (others other fun same => notDirectory (same ▸ isDirectory)).trans isDirectory
    · intro other target isLink
      exact (others other fun same => notLink target (same ▸ isLink)).trans isLink
  obtain ⟨base, expanded, walked⟩ := leads.expanded
  obtain ⟨noNull, nonempty, literal⟩ := leads.literal.walked
  refine ⟨⟨?_, within.directories _ leads.literal.directory⟩, base, expanded,
    Tree.walk_within within walked leads.literal.directory⟩
  rw [locate, if_neg noNull, if_neg nonempty]
  exact Tree.walk_within within literal leads.literal.directory

/-- Making the directory makes it for the path and for what it expands to. -/
theorem Missing.made (succeeds : Succeeds kernel)
    (missing : Missing kernel baseDir disk.tree outer) :
    ∃ after, mkdirP kernel baseDir disk = (.ok ⟨⟩, after) ∧
      Leads kernel baseDir after.tree outer ∧ ∀ name, after.tree.node? (name :: outer) = none := by
  obtain ⟨tree, made, isNew, isEmpty⟩ :=
    mkdirP_of_leavesOff missing.noNull missing.literal succeeds.make
  have within : Tree.Within disk.tree tree := by
    have grows := (grows_mkdirP kernel baseDir disk).tree.within
    rw [made] at grows
    exact grows
  obtain ⟨base, expanded, leaves⟩ := missing.expanded
  refine ⟨_, made, ⟨⟨?_, isNew⟩, base, expanded, leaves.walk within isNew⟩, isEmpty⟩
  rw [locate, if_neg missing.noNull, if_neg missing.literal.nonempty]
  exact missing.literal.walk within isNew

/-- Files of the directory, by names of the grammar. -/
def InLibrary (outer place : Place) : Prop := ∃ name, InGrammar name ∧ place = name :: outer

/-- One call answers as the map does, the disk represents the map afterwards, and
only files of the directory were touched. -/
structure Agrees (kernel : Kernel) (baseDir : String) (outer : Place) (disk : Disk)
    (answer : Except RubyError Answer) (after : Disk)
    (expected : Option Answer × Library) : Prop where
  answer : Matches answer expected.1
  represents : Represents kernel baseDir outer after expected.2
  touches : TouchesOnly (InLibrary outer) disk after

theorem agrees_of_same {answer : Except RubyError Answer} {expected : Option Answer}
    (matched : Matches answer expected)
    (represents : Represents kernel baseDir outer disk library) :
    Agrees kernel baseDir outer disk answer disk (expected, library) :=
  ⟨matched, represents, touchesOnly_self disk _⟩

/-- A name outside the grammar is rejected by a call that checks it first. -/
theorem rejected {α : Type} (notAccepted : ¬ Accepted name)
    (next : String → Exec Disk RubyError α) :
    ∃ message, (Exec.ofExcept (sanitizeName "playbook" kernel.toSurroundings baseDir name) >>= next)
      disk = (.error (.argumentError message), disk) := by
  obtain ⟨message, isRejected⟩ :=
    @sanitizeName_of_not_accepted "playbook" kernel.toSurroundings baseDir name notAccepted
  exact ⟨message, Exec.bind_error (by rw [Exec.ofExcept_apply, isRejected]) _⟩

/-- A call with an accepted name goes on with its path. -/
theorem sanitized {α : Type} {base : Place} (accepted : Accepted name)
    (expanded : expandPath kernel.toSurroundings baseDir = .ok base)
    (next : String → Exec Disk RubyError α) :
    (Exec.ofExcept (sanitizeName "playbook" kernel.toSurroundings baseDir name) >>= next) disk =
      next (text (name :: base)) disk :=
  Exec.bind_ok (by rw [Exec.ofExcept_apply, sanitizeName_of_accepted accepted expanded]) _

/-! ### Reading -/

/-- The playbook is missing. -/
theorem readPlaybook_of_missing {base : Place} (accepted : Accepted name)
    (expanded : expandPath kernel.toSurroundings baseDir = .ok base)
    (missing : read kernel (text (name :: base)) disk =
      (.error (.systemCallError "ENOENT"), disk)) :
    readPlaybook kernel baseDir name disk =
      (.error (.argumentError "playbook not found"), disk) :=
  Exec.rescue_error ((sanitized accepted expanded _).trans missing) _

theorem agrees_read (succeeds : Succeeds kernel) (fits : Fits name) (unfolded : Unfolded name)
    (represents : Represents kernel baseDir outer disk library) :
    Agrees kernel baseDir outer disk (perform kernel baseDir (.read name) disk).1
      (perform kernel baseDir (.read name) disk).2 (specify library (.read name)) := by
  have program := Exec.bind_pure_apply (readPlaybook kernel baseDir name) Answer.content disk
  rw [perform, program, specify]
  by_cases inGrammar : InGrammar name
  · rw [if_pos inGrammar]
    have accepted := (accepted_iff unfolded).mpr inGrammar
    rcases represents with ⟨leads, holds⟩ | ⟨missing, rfl⟩
    · obtain ⟨base, expanded, _, located⟩ := located_child leads holds accepted
      have stands := holds.files name
      cases lookup : library.lookup name with
      | some content =>
          rw [lookup] at stands
          have returned := read_of_readable located stands (succeeds.read name outer fits)
          have answered : readPlaybook kernel baseDir name disk =
              (.ok content, disk.record .read (name :: outer)) :=
            Exec.rescue_ok ((sanitized accepted expanded _).trans returned) _
          rw [answered]
          exact ⟨rfl, Or.inl ⟨leads, holds⟩, touchesOnly_one (Std.Refl.refl disk) rfl
            (fun _ _ => rfl) ⟨name, inGrammar, rfl⟩⟩
      | none =>
          rw [lookup] at stands
          have notThere : read kernel (text (name :: base)) disk =
              (.error (.systemCallError "ENOENT"), disk) := read_of_nothing located stands
          rw [readPlaybook_of_missing accepted expanded notThere]
          exact agrees_of_same rfl (Or.inl ⟨leads, holds⟩)
    · obtain ⟨base, expanded, leaves⟩ := missing.expanded
      have notThere : read kernel (text (name :: base)) disk =
          (.error (.systemCallError "ENOENT"), disk) := by
        have located := @locate_text kernel disk.tree _ (clean_child accepted expanded)
          (List.cons_ne_nil name base)
        rw [List.reverse_cons, leaves.walk_append name] at located
        exact read_of_error located
      rw [readPlaybook_of_missing accepted expanded notThere, Finmap.lookup_empty]
      exact agrees_of_same rfl (Or.inr ⟨missing, rfl⟩)
  · rw [if_neg inGrammar]
    have notAccepted := fun accepted => inGrammar ((accepted_iff unfolded).mp accepted)
    obtain ⟨message, isRejected⟩ := @rejected kernel baseDir name disk _ notAccepted (read kernel)
    have answered : readPlaybook kernel baseDir name disk =
        (.error (.argumentError message), disk) := Exec.rescue_error isRejected _
    rw [answered]
    exact agrees_of_same rfl represents

/-! ### Writing -/

/-- Writing into the directory. -/
theorem agrees_write_present (succeeds : Succeeds kernel) (fits : Fits name)
    (inGrammar : InGrammar name) (accepted : Accepted name) (content : List UInt8)
    {middle : Disk} (grows : Grows disk middle) (leads : Leads kernel baseDir middle.tree outer)
    (holds : Holds middle.tree outer library) {base : Place}
    (expanded : expandPath kernel.toSurroundings baseDir = .ok base)
    (made : mkdirP kernel baseDir disk = (.ok ⟨⟩, middle)) :
    Agrees kernel baseDir outer disk (perform kernel baseDir (.write name content) disk).1
      (perform kernel baseDir (.write name content) disk).2
      (some (.count content.length), library.insert name content) := by
  have program := Exec.bind_pure_apply (writePlaybook kernel baseDir name content) Answer.count disk
  obtain ⟨base', expanded', _, located⟩ := located_child leads holds accepted
  obtain rfl := Except.ok.inj (expanded.symm.trans expanded')
  have free := holds.not_directory name
  have stored : middle.tree.store content (name :: outer) =
      some (middle.tree.put name outer (.file content) leads.literal.directory free) :=
    (dif_pos leads.literal.directory).trans (dif_pos free)
  have wrote := write_of_located located (succeeds.write name outer fits) stored
  have answered : writePlaybook kernel baseDir name content disk =
      (.ok content.length, { middle.record .write (name :: outer) with
        tree := middle.tree.put name outer (.file content) leads.literal.directory free }) :=
    (sanitized accepted expanded _).trans ((Exec.bind_ok made _).trans wrote)
  have others : ∀ other, other ≠ name :: outer →
      (middle.tree.put name outer (.file content) leads.literal.directory free).node? other =
        middle.tree.node? other :=
    fun other different => by rw [Tree.node?_put, if_neg different]
  rw [perform, program, answered]
  refine ⟨rfl, Or.inl ⟨leads.of_others free (holds.not_link name) others, ?_, ?_⟩,
    touchesOnly_one grows rfl others ⟨name, inGrammar, rfl⟩⟩
  · intro other
    rw [Tree.node?_put]
    by_cases same : other = name
    · rw [same, if_pos rfl, Finmap.lookup_insert]
      rfl
    · rw [if_neg fun together => same (List.cons.inj together).1,
        Finmap.lookup_insert_of_ne _ same, holds.files other]
  · intro other member
    rcases Finmap.mem_insert.mp member with rfl | old
    · exact inGrammar
    · exact holds.named other old

theorem agrees_write (succeeds : Succeeds kernel) (fits : Fits name) (unfolded : Unfolded name)
    (represents : Represents kernel baseDir outer disk library) (content : List UInt8) :
    Agrees kernel baseDir outer disk (perform kernel baseDir (.write name content) disk).1
      (perform kernel baseDir (.write name content) disk).2
      (specify library (.write name content)) := by
  rw [specify]
  by_cases inGrammar : InGrammar name
  · rw [if_pos inGrammar]
    have accepted := (accepted_iff unfolded).mpr inGrammar
    rcases represents with ⟨leads, holds⟩ | ⟨missing, rfl⟩
    · obtain ⟨base, expanded, _⟩ := leads.expanded
      exact agrees_write_present succeeds fits inGrammar accepted content (Std.Refl.refl disk) leads
        holds expanded (mkdirP_of_leadsTo leads.literal)
    · obtain ⟨after, made, leads, nothing⟩ := missing.made succeeds
      obtain ⟨base, expanded, _⟩ := leads.expanded
      have grows := grows_mkdirP kernel baseDir disk
      rw [made] at grows
      have holds : Holds after.tree outer ∅ :=
        ⟨fun other => by rw [nothing, Finmap.lookup_empty]; rfl,
          fun other member => absurd member Finmap.notMem_empty⟩
      exact agrees_write_present succeeds fits inGrammar accepted content grows leads holds expanded
        made
  · rw [if_neg inGrammar]
    have notAccepted := fun accepted => inGrammar ((accepted_iff unfolded).mp accepted)
    obtain ⟨message, isRejected⟩ := @rejected kernel baseDir name disk _ notAccepted fun path => do
      mkdirP kernel baseDir
      write kernel path content
    have answered : writePlaybook kernel baseDir name content disk =
        (.error (.argumentError message), disk) := isRejected
    have program := Exec.bind_pure_apply (writePlaybook kernel baseDir name content) Answer.count
      disk
    rw [perform, program, answered]
    exact agrees_of_same rfl represents

/-! ### Deleting -/

/-- The playbook is missing. -/
theorem deletePlaybook_of_missing {base : Place} (accepted : Accepted name)
    (expanded : expandPath kernel.toSurroundings baseDir = .ok base)
    (missing : exist kernel (text (name :: base)) disk = (.ok false, disk)) :
    deletePlaybook kernel baseDir name disk =
      (.error (.argumentError "playbook not found"), disk) :=
  (sanitized accepted expanded _).trans (Exec.bind_ok missing _)

theorem agrees_delete (succeeds : Succeeds kernel) (fits : Fits name) (unfolded : Unfolded name)
    (represents : Represents kernel baseDir outer disk library) :
    Agrees kernel baseDir outer disk (perform kernel baseDir (.delete name) disk).1
      (perform kernel baseDir (.delete name) disk).2 (specify library (.delete name)) := by
  have program := Exec.bind_pure_apply (deletePlaybook kernel baseDir name) Answer.count disk
  rw [perform, program, specify]
  by_cases inGrammar : InGrammar name
  · have accepted := (accepted_iff unfolded).mpr inGrammar
    rcases represents with ⟨leads, holds⟩ | ⟨missing, rfl⟩
    · obtain ⟨base, expanded, walked, located⟩ := located_child leads holds accepted
      have looked := exist_of_located located
      have stands := holds.files name
      cases lookup : library.lookup name with
      | some content =>
          have member : name ∈ library := Finmap.mem_of_lookup_eq_some lookup
          rw [lookup] at stands
          obtain ⟨free, deleted⟩ := delete_of_file (clean_child accepted expanded) walked
            leads.literal.directory stands (succeeds.delete name outer fits)
          rw [stands] at looked
          have answered : deletePlaybook kernel baseDir name disk =
              (.ok 1, { disk.record .delete (name :: outer) with
                tree := disk.tree.remove name outer free }) :=
            (sanitized accepted expanded _).trans ((Exec.bind_ok looked _).trans deleted)
          have others : ∀ other, other ≠ name :: outer →
              (disk.tree.remove name outer free).node? other = disk.tree.node? other :=
            fun other different => by rw [Tree.node?_remove, if_neg different]
          rw [if_pos ⟨inGrammar, member⟩, answered]
          refine ⟨rfl, Or.inl ⟨leads.of_others free (holds.not_link name) others, ?_, ?_⟩,
            touchesOnly_one (Std.Refl.refl disk) rfl others ⟨name, inGrammar, rfl⟩⟩
          · intro other
            rw [Tree.node?_remove]
            by_cases same : other = name
            · rw [same, if_pos rfl, Finmap.lookup_erase]
              rfl
            · rw [if_neg fun together => same (List.cons.inj together).1,
                Finmap.lookup_erase_ne same, holds.files other]
          · intro other isIn
            exact holds.named other (Finmap.mem_erase.mp isIn).2
      | none =>
          rw [lookup] at stands
          rw [stands] at looked
          rw [if_neg fun isIn => Finmap.lookup_eq_none.mp lookup isIn.2,
            deletePlaybook_of_missing accepted expanded looked]
          exact agrees_of_same rfl (Or.inl ⟨leads, holds⟩)
    · obtain ⟨base, expanded, leaves⟩ := missing.expanded
      have clean := clean_child accepted expanded
      have located := @locate_text kernel disk.tree _ clean (List.cons_ne_nil name base)
      rw [List.reverse_cons, leaves.walk_append name] at located
      have looked := exist_of_error (null_not_mem_text clean) located
      rw [if_neg fun isIn => Finmap.notMem_empty isIn.2,
        deletePlaybook_of_missing accepted expanded looked]
      exact agrees_of_same rfl (Or.inr ⟨missing, rfl⟩)
  · rw [if_neg fun both => inGrammar both.1]
    have notAccepted := fun accepted => inGrammar ((accepted_iff unfolded).mp accepted)
    obtain ⟨message, isRejected⟩ := @rejected kernel baseDir name disk _ notAccepted fun path => do
      if ← exist kernel path then delete kernel path
      else Exec.raise (.argumentError ("playbook" ++ " not found"))
    have answered : deletePlaybook kernel baseDir name disk =
        (.error (.argumentError message), disk) := isRejected
    rw [answered]
    exact agrees_of_same rfl represents

/-! ### Listing -/

/-- The names of the grammar pass the filter of the listing. -/
theorem InGrammar.endsInYaml {name : String} (inGrammar : InGrammar name) :
    endsInYaml name.toList = true := by
  obtain ⟨⟨first, rest, shape, _, _, ending⟩, _⟩ := inGrammar
  rw [shape]
  exact endsInYaml_cons ending first

/-- The names in a directory that holds the map are those of the map. -/
theorem entries_perm_keys {tree : Tree} (holds : Holds tree outer library) :
    (tree.entries outer).Perm library.keys.sort := by
  refine (List.perm_ext_iff_of_nodup (Tree.nodup_entries tree outer)
    (Finset.sort_nodup _ _)).mpr fun name => ?_
  rw [Tree.mem_entries, holds.files name, Finset.mem_sort, Finmap.mem_keys, Finmap.mem_iff]
  constructor
  · rintro ⟨node, isNode⟩
    obtain ⟨content, lookup, _⟩ := Option.map_eq_some_iff.mp isNode
    exact ⟨content, lookup⟩
  · rintro ⟨content, lookup⟩
    exact ⟨.file content, by rw [lookup]; rfl⟩

theorem mergeSort_eq_sort {names : List String} {keys : Finset String}
    (same : names.Perm keys.sort) :
    names.mergeSort (fun first second => first ≤ second) = keys.sort := by
  have ascending : keys.sort.Pairwise (· < ·) := (Finset.sortedLT_sort keys).pairwise
  have distinct : (names.map id).Nodup := by
    rw [List.map_id]
    exact same.nodup_iff.mpr (Finset.sort_nodup keys _)
  have byName : ∀ first second : String, decide (first ≤ second) = true ↔ id first ≤ id second :=
    fun _ _ => decide_eq_true_iff
  refine eq_of_perm_of_ascending (pairwise_mergeSort_of_nodup byName distinct) ?_
    ((List.mergeSort_perm _ _).trans same)
  rw [List.map_id]
  exact ascending

/-- The filter of the listing keeps every name in a directory that holds the map. -/
theorem filter_of_holds (leads : Leads kernel baseDir disk.tree outer)
    (holds : Holds disk.tree outer library) :
    ("." :: ".." :: disk.tree.entries outer).filter (fun entry => entry ≠ "." && entry ≠ ".." &&
      !isDirectoryAt kernel disk.tree (join baseDir entry) && endsInYaml entry.toList) =
        disk.tree.entries outer := by
  rw [List.filter_cons_of_neg (by simp), List.filter_cons_of_neg (by simp), List.filter_eq_self]
  intro entry member
  obtain ⟨node, found⟩ := Tree.mem_entries.mp member
  rw [holds.files] at found
  obtain ⟨content, lookup, _⟩ := Option.map_eq_some_iff.mp found
  have inGrammar := holds.named entry (Finmap.mem_of_lookup_eq_some lookup)
  have clean := inGrammar.accepted.clean
  have located := locate_join leads.literal clean (holds.not_link entry)
  have notDirectory : isDirectoryAt kernel disk.tree (join baseDir entry) = false := by
    rw [isDirectoryAt, located]
    exact decide_eq_false (holds.not_directory entry)
  simp [clean.1.2.1, clean.1.2.2, notDirectory, inGrammar.endsInYaml]

theorem agrees_list (succeeds : Succeeds kernel)
    (represents : Represents kernel baseDir outer disk library) :
    Agrees kernel baseDir outer disk (perform kernel baseDir .list disk).1
      (perform kernel baseDir .list disk).2 (specify library .list) := by
  have program := Exec.bind_pure_apply (listPlaybooks kernel baseDir) Answer.names disk
  rw [perform, program, specify]
  rcases represents with ⟨leads, holds⟩ | ⟨missing, rfl⟩
  · have opened : entries kernel baseDir disk =
        (.ok ("." :: ".." :: disk.tree.entries outer), disk) := by
      have isDirectory : disk.tree.node? outer = some .directory := leads.literal.directory
      simp only [entries, leads.literal.located, isDirectory, succeeds.list outer]
    have listed : listPlaybooks kernel baseDir disk = (.ok library.keys.sort, disk) := by
      rw [listPlaybooks, Exec.bind_ok (Exec.rescue_ok (Exec.bind_ok opened _) _)]
      have sorted := mergeSort_eq_sort (entries_perm_keys holds)
      rw [← filter_of_holds leads holds] at sorted
      rw [← sorted]
      rfl
    rw [listed]
    exact agrees_of_same rfl (Or.inl ⟨leads, holds⟩)
  · have notThere := entries_of_leavesOff missing.noNull missing.literal
    have listed : listPlaybooks kernel baseDir disk = (.ok [], disk) := by
      rw [listPlaybooks, Exec.bind_ok (Exec.rescue_error (Exec.bind_error notThere _) _)]
      rfl
    rw [listed, Finmap.keys_empty, Finset.sort_empty]
    exact agrees_of_same rfl (Or.inr ⟨missing, rfl⟩)

/-! ## All calls -/

/-- The name in a call fits, and holds neither of the two characters. -/
def Ordinary (call : Call) : Prop := ∀ name ∈ call.name?, Fits name ∧ Unfolded name

instance (call : Call) : Decidable (Ordinary call) :=
  inferInstanceAs (Decidable (∀ name ∈ call.name?, _))

theorem agrees_call (succeeds : Succeeds kernel) {call : Call} (ordinary : Ordinary call)
    (represents : Represents kernel baseDir outer disk library) :
    Agrees kernel baseDir outer disk (perform kernel baseDir call disk).1
      (perform kernel baseDir call disk).2 (specify library call) := by
  cases call with
  | write name content =>
      obtain ⟨fits, unfolded⟩ := ordinary name rfl
      exact agrees_write succeeds fits unfolded represents content
  | read name =>
      obtain ⟨fits, unfolded⟩ := ordinary name rfl
      exact agrees_read succeeds fits unfolded represents
  | delete name =>
      obtain ⟨fits, unfolded⟩ := ordinary name rfl
      exact agrees_delete succeeds fits unfolded represents
  | list => exact agrees_list succeeds represents

theorem agrees_all (succeeds : Succeeds kernel) {calls : List Call}
    (ordinary : ∀ call ∈ calls, Ordinary call)
    (represents : Represents kernel baseDir outer disk library) :
    List.Forall₂ Matches (performAll kernel baseDir calls disk).1 (specifyAll library calls).1 ∧
      Represents kernel baseDir outer (performAll kernel baseDir calls disk).2
        (specifyAll library calls).2 ∧
      TouchesOnly (InLibrary outer) disk (performAll kernel baseDir calls disk).2 := by
  induction calls generalizing disk library with
  | nil => exact ⟨.nil, represents, touchesOnly_self disk _⟩
  | cons call rest ih =>
      have first := agrees_call succeeds (ordinary call (List.mem_cons_self ..)) represents
      obtain ⟨answers, represented, touches⟩ :=
        ih (fun other member => ordinary other (List.mem_cons_of_mem _ member)) first.represents
      exact ⟨.cons first.answer answers, represented, first.touches.trans touches⟩

/-! ## Where the store starts -/

/-- The base directory is missing, or holds nothing but files with names of the
grammar; its path and what that expands to agree. -/
def Starts (kernel : Kernel) (baseDir : String) (outer : Place) (disk : Disk) : Prop :=
  Leads kernel baseDir disk.tree outer ∧
      (∀ name node, disk.tree.node? (name :: outer) = some node →
        InGrammar name ∧ ∃ content, node = .file content) ∨
    Missing kernel baseDir disk.tree outer

/-- The path is taken as it is: it names no home directory and takes no step up. -/
structure Straight (kernel : Kernel) (baseDir : String) (tree : Tree) : Prop where
  noNull : null ∉ baseDir.toList
  noHome : baseDir.toList.head? ≠ some '~'
  noUp : ".." ∉ segments baseDir
  working : tree.Directory kernel.cwd

theorem Straight.expanded {tree : Tree} (straight : Straight kernel baseDir tree) :
    expandPath kernel.toSurroundings baseDir =
      .ok ((segments baseDir).foldl push (start kernel baseDir)) := by
  unfold expandPath
  split
  · rename_i rest shape
    exact absurd (by rw [shape]; rfl) straight.noHome
  · exact if_neg straight.noNull

theorem Straight.begins {tree : Tree} (straight : Straight kernel baseDir tree) :
    tree.Directory (start kernel baseDir) ∧ ∀ name ∈ start kernel baseDir, Plain name := by
  unfold start
  split
  · exact ⟨tree.directory_root, nofun⟩
  · exact ⟨straight.working, fun name member => (kernel.cwd_clean name member).1⟩

/-- A straight path leads where what it expands to leads. -/
theorem Straight.leads {tree : Tree} (straight : Straight kernel baseDir tree)
    (literal : LeadsTo kernel tree baseDir outer) : Leads kernel baseDir tree outer := by
  refine ⟨literal, _, straight.expanded, ?_⟩
  obtain ⟨_, _, walked⟩ := literal.walked
  obtain ⟨directory, plain⟩ := straight.begins
  rw [walk_read straight.noUp directory plain]
  exact Tree.walk_trims (Tree.trims_filter trivial_of_not_kept _) walked literal.directory

/-- A straight path leaves off where what it expands to leaves off. -/
theorem Straight.missing {tree : Tree} (straight : Straight kernel baseDir tree)
    (literal : LeavesOff tree (start kernel baseDir) (segments baseDir) outer) :
    Missing kernel baseDir tree outer := by
  obtain ⟨directory, plain⟩ := straight.begins
  exact ⟨straight.noNull, literal, _, straight.expanded,
    literal.read straight.noUp directory plain⟩

/-- Every straight path is one to start from, if its directory is missing or holds
files with names of the grammar only. -/
theorem starts_of_straight (straight : Straight kernel baseDir disk.tree)
    (found : LeavesOff disk.tree (start kernel baseDir) (segments baseDir) outer ∨
      LeadsTo kernel disk.tree baseDir outer ∧
        ∀ name node, disk.tree.node? (name :: outer) = some node →
          InGrammar name ∧ ∃ content, node = .file content) :
    Starts kernel baseDir outer disk := by
  rcases found with missing | ⟨literal, accepted⟩
  · exact Or.inr (straight.missing missing)
  · exact Or.inl ⟨straight.leads literal, accepted⟩

/-- The files of a directory under the given names. -/
def filesOf (tree : Tree) (outer : Place) (names : List String) : Library :=
  names.foldr (fun name library =>
    match tree.file? (name :: outer) with
    | some content => library.insert name content
    | none => library) ∅

theorem lookup_filesOf (tree : Tree) (outer : Place) (names : List String) (name : String) :
    (filesOf tree outer names).lookup name =
      if name ∈ names then tree.file? (name :: outer) else none := by
  induction names with
  | nil => rw [if_neg List.not_mem_nil]; exact Finmap.lookup_empty name
  | cons first rest ih =>
      rw [filesOf, List.foldr_cons, ← filesOf]
      by_cases same : name = first
      · rw [← same, if_pos (List.mem_cons_self ..)]
        cases content : tree.file? (name :: outer) with
        | some content => exact Finmap.lookup_insert _
        | none =>
            simp only [ih, content]
            exact ite_self none
      · have members : name ∈ first :: rest ↔ name ∈ rest := by simp [same]
        rw [if_congr members rfl rfl, ← ih]
        split
        · exact Finmap.lookup_insert_of_ne _ same
        · rfl

/-- A disk to start from represents a map, the one of its files. -/
theorem exists_library (starts : Starts kernel baseDir outer disk) :
    ∃ library, Represents kernel baseDir outer disk library := by
  rcases starts with ⟨leads, accepted⟩ | missing
  · have lookup : ∀ name, (filesOf disk.tree outer (disk.tree.entries outer)).lookup name =
        disk.tree.file? (name :: outer) := by
      intro name
      rw [lookup_filesOf]
      split
      · rfl
      · rename_i absent
        have nothing : disk.tree.node? (name :: outer) = none := by
          cases found : disk.tree.node? (name :: outer) with
          | none => rfl
          | some node => exact absurd (Tree.mem_entries.mpr ⟨node, found⟩) absent
        simp only [Tree.file?, nothing]
    refine ⟨filesOf disk.tree outer (disk.tree.entries outer),
      Or.inl ⟨leads, ⟨fun name => ?_, fun name member => ?_⟩⟩⟩
    · rw [lookup]
      cases found : disk.tree.node? (name :: outer) with
      | none => simp only [Tree.file?, found, Option.map_none]
      | some node =>
          obtain ⟨_, content, rfl⟩ := accepted name node found
          simp only [Tree.file?, found, Option.map_some]
    · obtain ⟨content, isContent⟩ := Finmap.mem_iff.mp member
      rw [lookup] at isContent
      cases found : disk.tree.node? (name :: outer) with
      | none => simp [Tree.file?, found] at isContent
      | some node => exact (accepted name node found).1
  · exact ⟨∅, Or.inr ⟨missing, rfl⟩⟩

/-- What the map holds is what the files of the directory hold. -/
theorem Represents.lookup (represents : Represents kernel baseDir outer disk library)
    (name : String) : library.lookup name = disk.tree.file? (name :: outer) := by
  rcases represents with ⟨_, holds⟩ | ⟨missing, rfl⟩
  · rw [Tree.file?, holds.files name]
    cases library.lookup name <;> rfl
  · have nothing := Tree.node?_of_not_directory missing.literal.not_directory name
    rw [Tree.file?, nothing, Finmap.lookup_empty]

end

/-- From a base directory that is missing or holds files with names of the grammar
only, the calls answer as a map from names to contents, and the directory holds
what the map holds; no other file is touched. -/
theorem refines_map (kernel : Kernel) (baseDir : String) (outer : Place) (disk : Disk)
    (calls : List Call) (succeeds : Succeeds kernel) (starts : Starts kernel baseDir outer disk)
    (ordinary : ∀ call ∈ calls, Ordinary call) :
    ∃ library : Library, (∀ name, library.lookup name = disk.tree.file? (name :: outer)) ∧
      List.Forall₂ Matches (performAll kernel baseDir calls disk).1 (specifyAll library calls).1 ∧
      (∀ name, (specifyAll library calls).2.lookup name =
        (performAll kernel baseDir calls disk).2.tree.file? (name :: outer)) ∧
      TouchesOnly (InLibrary outer) disk (performAll kernel baseDir calls disk).2 := by
  obtain ⟨library, represents⟩ := exists_library starts
  obtain ⟨answers, represented, touches⟩ := agrees_all succeeds ordinary represents
  exact ⟨library, represents.lookup, answers, represented.lookup, touches⟩

/-- A process whose calls do not fail. -/
def process : Kernel where
  cwd := []
  cwd_clean := clean_root
  home := fun _ => .ok "/root"
  readError := fun _ => none
  writeError := fun _ => none
  deleteError := fun _ => none
  makeError := fun _ => none
  listError := fun _ => none

/-- A disk with a data directory, and a directory for playbooks in the home directory. -/
def provisioned : Disk where
  tree := Tree.ofList [
    (["data"], .directory),
    (["root"], .directory),
    (["playbooks", "root"], .directory)]
  accesses := []

def roundTrip : List Call := [.write "site.yml" [1], .read "site.yml", .delete "../site.yml", .list]

theorem refines_map_data :
    ∃ library : Library,
      (∀ name, library.lookup name = provisioned.tree.file? [name, "playbooks", "data"]) ∧
      List.Forall₂ Matches (performAll process "/data/playbooks" roundTrip provisioned).1
        (specifyAll library roundTrip).1 ∧
      (∀ name, (specifyAll library roundTrip).2.lookup name =
        (performAll process "/data/playbooks" roundTrip provisioned).2.tree.file?
          [name, "playbooks", "data"]) ∧
      TouchesOnly (InLibrary ["playbooks", "data"]) provisioned
        (performAll process "/data/playbooks" roundTrip provisioned).2 := by
  have succeeds : Succeeds process :=
    ⟨fun _ _ _ => rfl, fun _ _ _ => rfl, fun _ _ _ => rfl, fun _ => rfl, fun _ => rfl⟩
  have straight : Straight process "/data/playbooks" provisioned.tree :=
    ⟨by decide +kernel, by decide +kernel, by decide +kernel, rfl⟩
  have names : segments "/data/playbooks" = ["", "data"] ++ ["playbooks"] := by decide +kernel
  have missing : LeavesOff provisioned.tree (start process "/data/playbooks")
      (segments "/data/playbooks") ["playbooks", "data"] := by
    rw [names]
    exact @LeavesOff.mk _ _ ["", "data"] [] "playbooks" ["data"] rfl (by decide +kernel) (by decide)
      (by decide +kernel) (by decide)
  exact refines_map process "/data/playbooks" ["playbooks", "data"] provisioned roundTrip succeeds
    (starts_of_straight straight (Or.inl missing)) (by decide +kernel)

/-- A name that begins with the Kelvin sign. -/
def kelvinName : String := String.ofList [Char.ofNat 0x212A, '.', 'y', 'm', 'l']

/-- A path that names the home directory is missing and holds nothing, but what is
written goes to the home directory; and a name outside the grammar is accepted. -/
theorem answers_differ :
    (entries process "~/playbooks" provisioned).1 = .error (.systemCallError "ENOENT") ∧
    ¬ List.Forall₂ Matches
        (performAll process "~/playbooks" [.write "site.yml" [1], .list] provisioned).1
        (specifyAll ∅ [.write "site.yml" [1], .list]).1 ∧
    ¬ Matches (perform process "/data/playbooks" (.write kelvinName []) provisioned).1
        (specify ∅ (.write kelvinName [])).1 := by
  have written : (performAll process "~/playbooks" [.write "site.yml" [1], .list] provisioned).1 =
      [.ok (.count 1), .ok (.names [])] := by decide +kernel
  have expected : (specifyAll ∅ [.write "site.yml" [1], .list]).1 =
      [some (.count 1), some (.names ["site.yml"])] := by decide +kernel
  have accepted : (perform process "/data/playbooks" (.write kelvinName []) provisioned).1 =
      .ok (.count 0) := by decide +kernel
  have outside : (specify ∅ (.write kelvinName [])).1 = none := by decide +kernel
  refine ⟨by decide +kernel, ?_, ?_⟩
  · rw [written, expected]
    intro matched
    cases matched with
    | cons _ rest =>
        cases rest with
        | cons listed _ => cases listed
  · rw [accepted, outside]
    exact id

end MultipassWebui.Multipass.Playbooks
