import MultipassWebui.Files.Disk

/-!
# Paths that lead to a directory

What the calls do with a path that leads to a directory, and with one that would
lead to a directory that is still to be made.
-/

namespace MultipassWebui.Files

open MultipassWebui.Effect

section

variable {kernel : Kernel} {path : String} {disk : Disk}

/-! ## Calls on a directory that is there -/

/-- A path leads to a directory. -/
structure LeadsTo (kernel : Kernel) (tree : Tree) (path : String) (outer : Place) : Prop where
  located : locate kernel tree path = .ok outer
  directory : tree.Directory outer

theorem LeadsTo.walked {tree : Tree} {outer : Place} (leads : LeadsTo kernel tree path outer) :
    null ∉ path.toList ∧ path ≠ "" ∧
      tree.walk LINKS (start kernel path) (segments path) = .ok outer := by
  have located := leads.located
  unfold locate at located
  split at located
  · cases located
  · split at located
    · cases located
    · exact ⟨‹_›, ‹_›, located⟩

/-- `mkdir_p` does nothing for a directory that is there. -/
theorem mkdirP_of_leadsTo {outer : Place} (leads : LeadsTo kernel disk.tree path outer) :
    mkdirP kernel path disk = (.ok ⟨⟩, disk) := by
  obtain ⟨noNull, nonempty, walked⟩ := leads.walked
  let names := (segments path).filter (· ≠ "")
  have trimmed : disk.tree.walk LINKS (start kernel path) names = .ok outer :=
    Tree.walk_trims (Tree.trims_filter (fun name isEmpty =>
        by simp at isEmpty; exact Or.inl isEmpty) _)
      walked leads.directory
  have isDirectory : disk.tree.isDirectory (start kernel path) names = true := by
    rw [Tree.isDirectory, trimmed]
    exact decide_eq_true leads.directory
  have none : missing disk.tree (start kernel path) names.reverse = [] := by
    cases shape : names.reverse with
    | nil => rfl
    | cons last rest =>
        rw [missing, ← shape, List.reverse_reverse, if_pos isDirectory]
  rw [mkdirP, if_neg noNull, if_neg nonempty]
  change makeEach kernel _ (missing disk.tree (start kernel path) names.reverse) disk = _
  rw [none]
  rfl

/-- Slashes at the end of a path do not matter. -/
theorem trims_segments_append (before after : List Char) :
    Tree.Trims (segments (String.ofList (before ++ after)))
      (segments (String.ofList (before ++ after.rdropWhile (· = '/')))) := by
  induction after using List.reverseRecOn with
  | nil => exact Tree.Trims.refl _
  | append_singleton init last ih =>
      by_cases slash : last = '/'
      · rw [List.rdropWhile_concat_pos _ _ _ (by simp [slash]), slash]
        have split : segments (String.ofList (before ++ (init ++ ['/']))) =
            segments (String.ofList (before ++ init)) ++ [""] := by
          have shape : String.ofList (before ++ (init ++ ['/'])) =
              String.ofList (before ++ init) ++ "/" ++ "" := by
            rw [← List.append_assoc, String.ofList_append, String.append_empty]
          rw [shape, segments_append_slash]
          rfl
        rw [split, ← List.append_nil (segments (String.ofList (before ++ List.rdropWhile _ init)))]
        exact ih.append (.drop (Or.inl rfl) .nil)
      · rw [List.rdropWhile_concat_neg _ _ _ (by simp [slash])]
        exact Tree.Trims.refl _

theorem trims_segments_rdropWhile (chars : List Char) :
    Tree.Trims (segments (String.ofList chars))
      (segments (String.ofList (chars.rdropWhile (· = '/')))) :=
  trims_segments_append [] chars

theorem foldl_push_trims {names trimmed : List String} (trims : Tree.Trims names trimmed)
    (place : Place) : names.foldl push place = trimmed.foldl push place := by
  induction trims generalizing place with
  | nil => rfl
  | keep name _ ih => exact ih (push place name)
  | drop isTrivial _ ih =>
      rw [List.foldl_cons, show push place _ = place from if_pos isTrivial]
      exact ih place

/-- A name after a slash is one step further, wherever the path begins. -/
theorem foldl_push_slash {name : String} (clean : Clean name) (before after : List Char)
    (place : Place) :
    (segments (String.ofList (before ++ after.rdropWhile (· = '/')) ++ "/" ++ name)).foldl push
      place = name :: (segments (String.ofList (before ++ after))).foldl push place := by
  rw [segments_append_slash, segments_of_no_slash clean.2.1, List.foldl_append,
    foldl_push_trims (trims_segments_append before after)]
  exact push_of_plain clean.1 _

theorem isAbsolute_join {path : String} (nonempty : path ≠ "") (name : String) :
    isAbsolute (join path name) = isAbsolute path := by
  rw [isAbsolute, isAbsolute, join, String.toList_append, String.toList_append,
    String.toList_ofList]
  cases shape : path.toList.rdropWhile (· = '/') with
  | nil =>
      have allSlashes := List.rdropWhile_eq_nil_iff.mp shape
      obtain ⟨head, rest, pathShape⟩ := List.exists_cons_of_ne_nil
        (fun empty => nonempty (String.toList_eq_nil_iff.mp empty))
      have isSlash := allSlashes head (by rw [pathShape]; exact List.mem_cons_self ..)
      rw [pathShape, of_decide_eq_true isSlash]
      rfl
  | cons head rest =>
      have inPath : path.toList.rdropWhile (· = '/') <+: path.toList := List.rdropWhile_prefix _ _
      rw [shape] at inPath
      obtain ⟨others, same⟩ := inPath
      rw [← same]
      rfl

/-- A name joined to a path is read as one step further. -/
theorem expandFrom_slash {name : String} (clean : Clean name) {before after : List Char}
    {begin place : Place}
    (expanded : expandFrom begin (String.ofList (before ++ after)) = .ok place) :
    expandFrom begin (String.ofList (before ++ after.rdropWhile (· = '/')) ++ "/" ++ name) =
      .ok (name :: place) := by
  unfold expandFrom at expanded ⊢
  split_ifs at expanded with noNull
  obtain rfl := Except.ok.inj expanded
  rw [if_neg, foldl_push_slash clean]
  rw [String.toList_ofList] at noNull
  rw [String.toList_append, String.toList_append, String.toList_ofList]
  intro isIn
  rcases List.mem_append.mp isIn with earlier | inName
  · rcases List.mem_append.mp earlier with inPath | isSlash
    · refine noNull (List.mem_append.mpr ?_)
      rcases List.mem_append.mp inPath with inBefore | inAfter
      · exact Or.inl inBefore
      · exact Or.inr ((List.rdropWhile_prefix _ _).subset inAfter)
    · exact absurd isSlash (by decide)
  · exact clean.2.2 inName

theorem rdropWhile_append_of_no_slash {before : List Char} (noSlash : '/' ∉ before)
    (after : List Char) :
    (before ++ after).rdropWhile (· = '/') = before ++ after.rdropWhile (· = '/') := by
  induction after using List.reverseRecOn with
  | nil =>
      rw [List.append_nil, List.rdropWhile_nil, List.append_nil, List.rdropWhile_eq_self_iff]
      intro given isSlash
      exact noSlash (of_decide_eq_true isSlash ▸ List.getLast_mem given)
  | append_singleton init last ih =>
      rw [← List.append_assoc]
      by_cases slash : last = '/'
      · rw [List.rdropWhile_concat_pos _ _ _ (by simp [slash]),
          List.rdropWhile_concat_pos _ _ _ (by simp [slash]), ih]
      · rw [List.rdropWhile_concat_neg _ _ _ (by simp [slash]),
          List.rdropWhile_concat_neg _ _ _ (by simp [slash]), List.append_assoc]

theorem expandPath_of_home {around : Surroundings} {user after : List Char}
    (shape : path.toList = '~' :: (user ++ after)) (noSlash : '/' ∉ user)
    (begins : ∀ char ∈ after.head?, char = '/') :
    expandPath around path = around.home (String.ofList user) >>= fun home =>
      if isAbsolute home then expandFrom [] (home ++ String.ofList after)
      else .error (.argumentError "non-absolute home") := by
  have inUser : ∀ char ∈ user, decide (char ≠ '/') = true := by
    intro char member
    refine decide_eq_true ?_
    rintro rfl
    exact noSlash member
  have stops : after.takeWhile (· ≠ '/') = [] ∧ after.dropWhile (· ≠ '/') = after := by
    cases after with
    | nil => exact ⟨rfl, rfl⟩
    | cons head rest =>
        obtain rfl := begins head rfl
        exact ⟨rfl, rfl⟩
  unfold expandPath
  rw [shape]
  change (around.home (String.ofList ((user ++ after).takeWhile (· ≠ '/'))) >>= fun home =>
    if isAbsolute home then
      expandFrom [] (home ++ String.ofList ((user ++ after).dropWhile (· ≠ '/')))
    else _) = _
  rw [List.takeWhile_append_of_pos inUser, List.dropWhile_append_of_pos inUser, stops.1, stops.2,
    List.append_nil]

theorem expandPath_of_no_home {around : Surroundings}
    (different : ∀ rest, path.toList ≠ '~' :: rest) :
    expandPath around path = expandFrom (if isAbsolute path then [] else around.cwd) path := by
  unfold expandPath
  split
  · exact absurd ‹_› (different _)
  · rfl

theorem toList_join (path name : String) :
    (join path name).toList = path.toList.rdropWhile (· = '/') ++ '/' :: name.toList := by
  rw [join, String.toList_append, String.toList_append, String.toList_ofList]
  simp

/-- A path that begins with a home directory names a user, up to the first slash. -/
theorem home_parts (rest : List Char) :
    ∃ user after, rest = user ++ after ∧ '/' ∉ user ∧ ∀ char ∈ after.head?, char = '/' := by
  refine ⟨rest.takeWhile (· ≠ '/'), rest.dropWhile (· ≠ '/'),
    List.takeWhile_append_dropWhile.symm, ?_, ?_⟩
  · exact fun member => absurd (List.mem_takeWhile_imp member) (by decide)
  · intro char first
    have stopped := List.head?_dropWhile_not (fun char => decide (char ≠ '/')) rest
    rw [show (rest.dropWhile fun char => decide (char ≠ '/')).head? = some char from first]
      at stopped
    simpa using stopped

/-- With a name joined to it the path names the same user. -/
theorem join_home {user after : List Char} (shape : path.toList = '~' :: (user ++ after))
    (noSlash : '/' ∉ user) (begins : ∀ char ∈ after.head?, char = '/') (name : String) :
    (join path name).toList =
        '~' :: (user ++ (after.rdropWhile (· = '/') ++ '/' :: name.toList)) ∧
      ∀ char ∈ (after.rdropWhile (· = '/') ++ '/' :: name.toList).head?, char = '/' := by
  constructor
  · have noSlashHome : '/' ∉ '~' :: user := List.not_mem_cons_of_ne_of_not_mem (by decide) noSlash
    rw [toList_join, shape, ← List.cons_append, rdropWhile_append_of_no_slash noSlashHome]
    simp
  · intro char first
    cases kept : after.rdropWhile (· = '/') with
    | nil =>
        rw [kept] at first
        exact (Option.some.inj first).symm
    | cons head others =>
        rw [kept] at first
        have inAfter : after.rdropWhile (· = '/') <+: after := List.rdropWhile_prefix _ _
        rw [kept] at inAfter
        obtain ⟨more, same⟩ := inAfter
        refine begins char ?_
        rw [← same]
        exact first

theorem join_no_home (different : ∀ rest, path.toList ≠ '~' :: rest) (name : String) :
    ∀ rest, (join path name).toList ≠ '~' :: rest := by
  intro rest shape
  rw [toList_join] at shape
  cases kept : path.toList.rdropWhile (· = '/') with
  | nil =>
      rw [kept] at shape
      exact absurd (List.cons.inj shape).1 (by decide)
  | cons head others =>
      have inPath : path.toList.rdropWhile (· = '/') <+: path.toList :=
        List.rdropWhile_prefix _ _
      rw [kept] at inPath shape
      obtain ⟨more, same⟩ := inPath
      rw [(List.cons.inj shape).1] at same
      exact different _ same.symm

/-- A name joined to a path expands to the name in what the path expands to. -/
theorem expandPath_join {around : Surroundings} {name : String} {place : Place}
    (clean : Clean name) (nonempty : path ≠ "") (expanded : expandPath around path = .ok place) :
    expandPath around (join path name) = .ok (name :: place) := by
  by_cases home : ∃ rest, path.toList = '~' :: rest
  · obtain ⟨rest, shape⟩ := home
    obtain ⟨user, after, rfl, noSlash, begins⟩ := home_parts rest
    obtain ⟨shapeJoined, beginsJoined⟩ := join_home shape noSlash begins name
    rw [expandPath_of_home shape noSlash begins] at expanded
    rw [expandPath_of_home shapeJoined noSlash beginsJoined]
    cases found : around.home (String.ofList user) with
    | error raised =>
        rw [found] at expanded
        cases expanded
    | ok homePath =>
        rw [found] at expanded
        change (if isAbsolute homePath then expandFrom [] (homePath ++ String.ofList after)
          else _) = _ at expanded
        change (if isAbsolute homePath then expandFrom []
          (homePath ++ String.ofList (after.rdropWhile (· = '/') ++ '/' :: name.toList)) else _) = _
        split_ifs at expanded ⊢ with absolute
        have split : homePath ++ String.ofList (after.rdropWhile (· = '/') ++ '/' :: name.toList) =
            String.ofList (homePath.toList ++ after.rdropWhile (· = '/')) ++ "/" ++ name := by
          rw [← String.toList_inj]
          simp
        have whole : homePath ++ String.ofList after =
            String.ofList (homePath.toList ++ after) := by
          rw [← String.toList_inj]
          simp
        rw [whole] at expanded
        rw [split]
        exact expandFrom_slash clean expanded
  · have different : ∀ rest, path.toList ≠ '~' :: rest := fun rest shape => home ⟨rest, shape⟩
    rw [expandPath_of_no_home different] at expanded
    rw [expandPath_of_no_home (join_no_home different name), isAbsolute_join nonempty]
    have whole : String.ofList ([] ++ path.toList) = path := by simp
    have isWhole : expandFrom (if isAbsolute path then [] else around.cwd)
        (String.ofList ([] ++ path.toList)) = .ok place := by rw [whole]; exact expanded
    have stepped := expandFrom_slash clean isWhole
    rw [List.nil_append] at stepped
    exact stepped

theorem expandFrom_of_no_null (begin : Place) (noNull : null ∉ path.toList) :
    ∃ place, expandFrom begin path = .ok place :=
  ⟨_, if_neg noNull⟩

/-- A path expands if it does with a name joined to it. -/
theorem expandPath_of_join {around : Surroundings} {name : String} {inner : Place}
    (noNull : null ∉ path.toList) (expanded : expandPath around (join path name) = .ok inner) :
    ∃ place, expandPath around path = .ok place := by
  by_cases home : ∃ rest, path.toList = '~' :: rest
  · obtain ⟨rest, shape⟩ := home
    obtain ⟨user, after, rfl, noSlash, begins⟩ := home_parts rest
    obtain ⟨shapeJoined, beginsJoined⟩ := join_home shape noSlash begins name
    rw [expandPath_of_home shapeJoined noSlash beginsJoined] at expanded
    rw [expandPath_of_home shape noSlash begins]
    cases found : around.home (String.ofList user) with
    | error raised =>
        rw [found] at expanded
        cases expanded
    | ok homePath =>
        rw [found] at expanded
        change (if isAbsolute homePath then expandFrom []
          (homePath ++ String.ofList (after.rdropWhile (· = '/') ++ '/' :: name.toList))
            else _) = _ at expanded
        change ∃ place, (if isAbsolute homePath then expandFrom []
          (homePath ++ String.ofList after) else _) = .ok place
        split_ifs at expanded ⊢ with absolute
        refine expandFrom_of_no_null [] ?_
        unfold expandFrom at expanded
        split_ifs at expanded with noNullHome
        rw [String.toList_append, List.mem_append, not_or] at noNullHome ⊢
        refine ⟨noNullHome.1, fun inAfter => noNull ?_⟩
        rw [String.toList_ofList] at inAfter
        rw [shape]
        exact List.mem_cons_of_mem _ (List.mem_append_right _ inAfter)
  · have different : ∀ rest, path.toList ≠ '~' :: rest := fun rest shape => home ⟨rest, shape⟩
    rw [expandPath_of_no_home different]
    exact expandFrom_of_no_null _ noNull

/-- A name joined to a path is found in the directory of the path. -/
theorem locate_join {tree : Tree} {outer : Place} {name : String}
    (leads : LeadsTo kernel tree path outer) (clean : Clean name)
    (noLink : ∀ target, tree.node? (name :: outer) ≠ some (.link target)) :
    locate kernel tree (join path name) = .ok (name :: outer) := by
  obtain ⟨noNull, nonempty, walked⟩ := leads.walked
  let stripped := path.toList.rdropWhile (· = '/')
  have inPath : stripped <+: path.toList := List.rdropWhile_prefix _ _
  have chars : (join path name).toList = stripped ++ '/' :: name.toList := by
    rw [join, String.toList_append, String.toList_append, String.toList_ofList]
    simp [stripped]
  have names : segments (join path name) = segments (String.ofList stripped) ++ [name] := by
    rw [join, segments_append_slash, segments_of_no_slash clean.2.1]
  have sameStart : start kernel (join path name) = start kernel path := by
    rw [start, start, isAbsolute_join nonempty]
  have trimmed : tree.walk LINKS (start kernel path) (segments (String.ofList stripped)) =
      .ok outer := by
    have trims := trims_segments_rdropWhile path.toList
    rw [String.ofList_toList] at trims
    exact Tree.walk_trims trims walked leads.directory
  have noNullJoined : null ∉ (join path name).toList := by
    rw [chars]
    intro isIn
    rcases List.mem_append.mp isIn with inStripped | later
    · exact noNull (inPath.subset inStripped)
    · rcases List.mem_cons.mp later with isSlash | inName
      · exact absurd isSlash (by decide)
      · exact clean.2.2 inName
  have nonemptyJoined : join path name ≠ "" := by
    intro empty
    rw [empty] at chars
    simp at chars
  rw [locate, if_neg noNullJoined, if_neg nonemptyJoined, sameStart, names]
  exact (Tree.continues_walk clean.1 LINKS _ _).forward outer trimmed leads.directory noLink

/-- A file right below a directory is written. -/
theorem write_of_located {place : Place} {content : List UInt8} {tree : Tree}
    (located : locate kernel disk.tree path = .ok place) (writable : kernel.writeError place = none)
    (stored : disk.tree.store content place = some tree) :
    write kernel path content disk =
      (.ok content.length, { disk.record .write place with tree := tree }) := by
  simp only [write, located, writable, stored]

/-- A file right below a directory is deleted. -/
theorem delete_of_file {base outer : Place} {name : String} {content : List UInt8}
    (clean : ∀ other ∈ name :: base, Clean other)
    (walked : disk.tree.walk LINKS [] base.reverse = .ok outer)
    (directory : disk.tree.Directory outer)
    (isFile : disk.tree.node? (name :: outer) = some (.file content))
    (deletable : kernel.deleteError (name :: outer) = none) :
    ∃ free, delete kernel (text (name :: base)) disk =
      (.ok 1, { disk.record .delete (name :: outer) with
        tree := disk.tree.remove name outer free }) := by
  have free : ¬ disk.tree.Directory (name :: outer) := fun isDirectory => by
    cases isFile.symm.trans isDirectory
  have isParent : disk.tree.parent (start kernel (text (name :: base)))
      (segments (text (name :: base))) = .ok outer := by
    have names : segments (text (name :: base)) = ("" :: base.reverse) ++ [name] := by
      rw [segments_text clean (List.cons_ne_nil name base), List.reverse_cons]
      rfl
    have walkedAll : disk.tree.walk LINKS [] ("" :: base.reverse) = .ok outer := walked
    have found : disk.tree.node? outer = some .directory := directory
    rw [names, Tree.parent, List.dropLast_concat, start, isAbsolute_text, if_pos rfl]
    simp only [walkedAll, bind, Except.bind, found]
  obtain ⟨_, _, last⟩ := parent_text clean isParent
  have nonempty : text (name :: base) ≠ "" := by
    intro empty
    have absolute := isAbsolute_text (name :: base)
    rw [empty] at absolute
    cases absolute
  refine ⟨free, ?_⟩
  rw [delete, if_neg (null_not_mem_text clean), if_neg nonempty]
  simp only [isParent, last]
  rw [if_neg (not_not.mpr (clean name (List.mem_cons_self ..)).1), dif_neg free]
  simp only [isFile, deletable]

/-! ## Names in directories that are there -/

section

variable {tree : Tree} {begin place outer : Place} {names : List String}

/-- The places on the way to a directory are directories. -/
theorem directory_of_foldl_push {rest : List String} (noUp : ".." ∉ rest)
    (directory : tree.Directory (rest.foldl push place)) : tree.Directory place := by
  induction rest generalizing place with
  | nil => exact directory
  | cons next rest ih =>
      obtain ⟨notUp, others⟩ := List.ne_and_not_mem_of_not_mem_cons noUp
      have pushed : tree.Directory (push place next) := ih others directory
      unfold push at pushed
      split at pushed
      · exact pushed
      · rw [if_neg notUp.symm] at pushed
        exact Tree.directory_outer pushed

/-- A walk goes on into a directory. -/
theorem walk_push {next : String} (walked : tree.walk LINKS begin names = .ok place)
    (directory : tree.Directory place) (notUp : next ≠ "..")
    (pushed : tree.Directory (push place next)) :
    tree.walk LINKS begin (names ++ [next]) = .ok (push place next) := by
  unfold push at pushed ⊢
  split at pushed
  · rename_i trivial
    have trims : Tree.Trims (names ++ [next]) names := by
      simpa using (Tree.Trims.refl names).append (.drop trivial .nil)
    rw [if_pos trivial]
    exact Tree.walk_untrim trims walked directory
  · rename_i named
    obtain ⟨nonempty, notDot⟩ := not_or.mp named
    rw [if_neg named, if_neg notUp]
    refine (Tree.continues_walk ⟨nonempty, notDot, notUp⟩ LINKS begin names).forward place walked
      directory ?_
    intro target isLink
    cases isLink.symm.trans pushed

/-- A walk goes on through directories. -/
theorem walk_foldl_push {rest : List String} (walked : tree.walk LINKS begin names = .ok place)
    (noUp : ".." ∉ rest) (directory : tree.Directory (rest.foldl push place)) :
    tree.walk LINKS begin (names ++ rest) = .ok (rest.foldl push place) := by
  induction rest generalizing names place with
  | nil =>
      rw [List.append_nil]
      exact walked
  | cons next rest ih =>
      obtain ⟨notUp, others⟩ := List.ne_and_not_mem_of_not_mem_cons noUp
      have above := directory_of_foldl_push noUp directory
      have next' := walk_push walked above notUp.symm (directory_of_foldl_push others directory)
      rw [List.append_cons]
      exact ih next' others directory

/-- Names that are left out push nothing. -/
theorem foldl_push_filter {keep : String → Bool}
    (trivial : ∀ name, keep name = false → name = "" ∨ name = ".") (names : List String) :
    (names.filter keep).foldl push place = names.foldl push place := by
  induction names generalizing place with
  | nil => rfl
  | cons name rest ih =>
      rw [List.filter_cons]
      split
      · exact ih
      · rename_i dropped
        have pushed : push place name = place :=
            if_pos (trivial name (Bool.not_eq_true _ ▸ dropped))
        rw [ih, List.foldl_cons, pushed]

/-- The names that are neither left out nor stand for the directory itself. -/
def keptName (name : String) : Bool := name ≠ "" && name ≠ "."

theorem trivial_of_not_kept (name : String) (dropped : keptName name = false) :
    name = "" ∨ name = "." := by
  by_cases nonempty : name = ""
  · exact Or.inl nonempty
  · apply Or.inr
    by_contra notDot
    simp [keptName, nonempty, notDot] at dropped

theorem plain_of_kept (noUp : ".." ∉ names) : ∀ name ∈ names.filter keptName, Plain name := by
  intro name member
  obtain ⟨isIn, kept⟩ := List.mem_filter.mp member
  rw [keptName, Bool.and_eq_true] at kept
  exact ⟨of_decide_eq_true kept.1, of_decide_eq_true kept.2, fun isUp => noUp (isUp ▸ isIn)⟩

/-- Reading names without a step up by their text gives the walk along those kept. -/
theorem walk_read (noUp : ".." ∉ names) (directory : tree.Directory begin)
    (plain : ∀ name ∈ begin, Plain name) :
    tree.walk LINKS [] (names.foldl push begin).reverse =
      tree.walk LINKS begin (names.filter keptName) := by
  rw [← foldl_push_filter trivial_of_not_kept, foldl_push_plain (plain_of_kept noUp),
    List.reverse_append, List.reverse_reverse]
  exact Tree.walk_directories directory plain LINKS _

/-! ## Making a directory that is missing -/

/-- A path leads to a directory and goes on with a name that is not in it; the
place is the one that the path would lead to. -/
inductive LeavesOff (tree : Tree) (begin : Place) : List String → Place → Prop where
  | mk {earlier rest : List String} {name : String} {place : Place} :
      tree.walk LINKS begin earlier = .ok place → tree.Directory place → Plain name →
      tree.node? (name :: place) = none → ".." ∉ rest →
      LeavesOff tree begin (earlier ++ name :: rest) (rest.foldl push (name :: place))

/-- The place of what is missing is no directory. -/
theorem LeavesOff.not_directory (leaves : LeavesOff tree begin names outer) :
    ¬ tree.Directory outer := by
  obtain ⟨_, _, _, nothing, noUp⟩ := leaves
  intro directory
  cases nothing.symm.trans (directory_of_foldl_push noUp directory)

/-- Once the directory is there, the path leads to it. -/
theorem LeavesOff.walk {larger : Tree} (leaves : LeavesOff tree begin names outer)
    (within : Tree.Within tree larger) (directory : larger.Directory outer) :
    larger.walk LINKS begin names = .ok outer := by
  obtain @⟨earlier, rest, name, place, walked, isDirectory, plain, _, noUp⟩ := leaves
  have noUps : ".." ∉ name :: rest := List.not_mem_cons_of_ne_of_not_mem plain.2.2.symm noUp
  have sameEnd : (name :: rest).foldl push place = rest.foldl push (name :: place) := by
    rw [List.foldl_cons, push_of_plain plain]
  rw [← sameEnd] at directory ⊢
  exact walk_foldl_push (Tree.walk_within within walked isDirectory) noUps directory

/-- A path that goes on from what is missing leads nowhere. -/
theorem LeavesOff.walk_append (leaves : LeavesOff tree begin names outer) (name : String) :
    tree.walk LINKS begin (names ++ [name]) = .error (.systemCallError "ENOENT") := by
  obtain ⟨walked, directory, plain, nothing, _⟩ := leaves
  rw [List.append_assoc, List.cons_append, Tree.walk_absent plain directory nothing walked,
    Tree.absent, if_neg (List.append_ne_nil_of_right_ne_nil _ (List.cons_ne_nil name []))]

/-- Reading a path by its text leaves off where the path does. -/
theorem LeavesOff.read (leaves : LeavesOff tree begin names outer) (noUp : ".." ∉ names)
    (directory : tree.Directory begin) (plain : ∀ name ∈ begin, Plain name) :
    LeavesOff tree [] (names.foldl push begin).reverse outer := by
  obtain @⟨earlier, rest, name, place, walked, isDirectory, isPlain, nothing, noUpRest⟩ := leaves
  have noUpEarlier : ".." ∉ earlier := fun isIn => noUp (List.mem_append_left _ isIn)
  have kept : keptName name = true := by
    rw [keptName, decide_eq_true isPlain.1, decide_eq_true isPlain.2.1]
    rfl
  have shape : ((earlier ++ name :: rest).foldl push begin).reverse =
      (earlier.foldl push begin).reverse ++ name :: rest.filter keptName := by
    rw [← foldl_push_filter trivial_of_not_kept, List.filter_append,
      List.filter_cons_of_pos kept, List.foldl_append, foldl_push_filter trivial_of_not_kept,
      foldl_push_plain]
    · simp
    · intro other member
      rcases List.mem_cons.mp member with rfl | later
      · exact isPlain
      · exact plain_of_kept noUpRest other later
  have walkedRead : tree.walk LINKS [] (earlier.foldl push begin).reverse = .ok place := by
    rw [walk_read noUpEarlier directory plain]
    exact Tree.walk_trims (Tree.trims_filter trivial_of_not_kept earlier) walked isDirectory
  rw [shape, ← foldl_push_filter trivial_of_not_kept rest]
  exact .mk walkedRead isDirectory isPlain nothing fun isIn =>
      noUpRest (List.mem_of_mem_filter isIn)

end

section

variable {begin place : Place} {name : String} {names : List String}

/-- The next directory on a path is made, and it is empty. -/
theorem makeMissing_of_absent (walked : disk.tree.walk LINKS begin names = .ok place)
    (directory : disk.tree.Directory place) (plain : Plain name)
    (nothing : disk.tree.node? (name :: place) = none)
    (makable : kernel.makeError (name :: place) = none) :
    ∃ tree, makeMissing kernel begin (names ++ [name]) disk = (.ok ⟨⟩, { disk with tree := tree }) ∧
      tree.walk LINKS begin (names ++ [name]) = .ok (name :: place) ∧
      tree.Directory (name :: place) ∧ ∀ inner, tree.node? (inner :: name :: place) = none := by
  have found : disk.tree.node? place = some .directory := directory
  have isParent : disk.tree.parent begin (names ++ [name]) = .ok place := by
    rw [Tree.parent, List.dropLast_concat]
    simp only [walked, bind, Except.bind, found]
  have last : (names ++ [name]).getLastD "" = name := List.getLastD_concat
  have free : ¬ (¬ Plain name ∨ (disk.tree.node? (name :: place)).isSome ∨
      ¬ disk.tree.Directory place) := by
    simp [plain, nothing, directory]
  have notDirectory : ¬ disk.tree.Directory (name :: place) := fun isDirectory => by
    cases nothing.symm.trans isDirectory
  let tree := disk.tree.put name place .directory directory notDirectory
  have made : make kernel begin (names ++ [name]) disk = (.ok ⟨⟩, { disk with tree := tree }) := by
    unfold make
    simp only [isParent, last, dif_neg free, makable]
    rfl
  have grown : Tree.Within disk.tree tree := by
    have grows := (grows_make kernel begin (names ++ [name]) disk).tree.within
    rw [made] at grows
    exact grows
  have isNew : tree.Directory (name :: place) := by
    change tree.node? (name :: place) = some .directory
    rw [Tree.node?_put, if_pos rfl]
  refine ⟨tree, Exec.rescue_ok made _, ?_, isNew, ?_⟩
  · refine (Tree.continues_walk plain LINKS begin names).forward place
      (Tree.walk_within grown walked directory) (grown.directories place directory) ?_
    intro target isLink
    cases isLink.symm.trans isNew
  · intro inner
    rw [Tree.node?_put, if_neg fun same => by simpa using congrArg List.length same]
    exact Tree.node?_of_not_directory notDirectory inner

/-- The directory itself need not be made. -/
theorem makeMissing_of_dot (walked : disk.tree.walk LINKS begin names = .ok place)
    (directory : disk.tree.Directory place) :
    makeMissing kernel begin (names ++ ["."]) disk = (.ok ⟨⟩, disk) := by
  have found : disk.tree.node? place = some .directory := directory
  have isParent : disk.tree.parent begin (names ++ ["."]) = .ok place := by
    rw [Tree.parent, List.dropLast_concat]
    simp only [walked, bind, Except.bind, found]
  have last : (names ++ ["."]).getLastD "" = "." := List.getLastD_concat
  have notPlain : ¬ Plain "." := by decide
  have exists_ : make kernel begin (names ++ ["."]) disk =
      (.error (.systemCallError "EEXIST"), disk) := by
    unfold make
    simp only [isParent, last, notPlain, not_false_eq_true, true_or, dif_pos]
  have walkedDot : disk.tree.walk LINKS begin (names ++ ["."]) = .ok place :=
    walk_push walked directory (by decide) directory
  have isDirectory : disk.tree.isDirectory begin (names ++ ["."]) = true := by
    rw [Tree.isDirectory, walkedDot]
    exact decide_eq_true directory
  unfold makeMissing Exec.rescue
  simp [exists_, RubyError.isSystemCallError, isDirectory]

/-- A chain of directories is made in one that is empty. -/
theorem makeEach_of_empty (rest : List String)
    (walked : disk.tree.walk LINKS begin names = .ok place) (directory : disk.tree.Directory place)
    (isEmpty : ∀ inner, disk.tree.node? (inner :: place) = none)
    (ordinary : ∀ other ∈ rest, other = "." ∨ Plain other)
    (makable : ∀ place, kernel.makeError place = none) :
    ∃ tree, makeEach kernel begin (rest.inits.tail.map (names ++ ·)) disk =
        (.ok ⟨⟩, { disk with tree := tree }) ∧
      tree.Directory (rest.foldl push place) ∧
      ∀ inner, tree.node? (inner :: rest.foldl push place) = none := by
  induction rest generalizing disk names place with
  | nil => exact ⟨disk.tree, rfl, directory, isEmpty⟩
  | cons next rest ih =>
      have paths : (next :: rest).inits.tail.map (names ++ ·) =
          (names ++ [next]) :: rest.inits.tail.map ((names ++ [next]) ++ ·) := by
        rw [List.inits_cons, List.tail_cons, List.map_map]
        cases rest <;> simp [Function.comp_def]
      have others := fun other member => ordinary other (List.mem_cons_of_mem _ member)
      rw [paths]
      rcases ordinary next (List.mem_cons_self ..) with rfl | plain
      · have made := @makeMissing_of_dot kernel disk begin place names walked directory
        have walkedDot : disk.tree.walk LINKS begin (names ++ ["."]) = .ok place :=
          walk_push walked directory (by decide) directory
        obtain ⟨last, madeAll, isLast, lastEmpty⟩ := ih walkedDot directory isEmpty others
        exact ⟨last, (Exec.bind_ok made _).trans madeAll, isLast, lastEmpty⟩
      · obtain ⟨tree, made, leads, isNew, newEmpty⟩ :=
          makeMissing_of_absent walked directory plain (isEmpty next) (makable _)
        obtain ⟨last, madeAll, isLast, lastEmpty⟩ := @ih { disk with tree := tree }
          (next :: place) (names ++ [next]) leads isNew newEmpty others
        rw [List.foldl_cons, push_of_plain plain]
        exact ⟨last, (Exec.bind_ok made _).trans madeAll, isLast, lastEmpty⟩

/-- Past a name that is missing there is no directory. -/
theorem not_isDirectory_of_absent {tree : Tree} (walked : tree.walk LINKS begin names = .ok place)
    (directory : tree.Directory place) (plain : Plain name)
    (nothing : tree.node? (name :: place) = none) (rest : List String) :
    tree.isDirectory begin (names ++ name :: rest) = false := by
  rw [Tree.isDirectory, Tree.walk_absent plain directory nothing walked, Tree.absent]
  split
  · rename_i reached isReached
    split at isReached
    · obtain rfl := Except.ok.inj isReached
      exact decide_eq_false fun isDirectory => by cases nothing.symm.trans isDirectory
    · cases isReached
  · rfl

/-- The directories that are missing on a path, from the first missing one on. -/
theorem missing_of_absent {tree : Tree} (walked : tree.walk LINKS begin names = .ok place)
    (directory : tree.Directory place) (plain : Plain name)
    (nothing : tree.node? (name :: place) = none) (rest : List String) :
    missing tree begin (names ++ name :: rest).reverse =
      rest.inits.map fun init => names ++ name :: init := by
  have notDirectory := not_isDirectory_of_absent walked directory plain nothing
  induction rest using List.reverseRecOn with
  | nil =>
      have stops : missing tree begin names.reverse = [] := by
        cases shape : names.reverse with
        | nil => rfl
        | cons last earlier =>
            have isDirectory : tree.isDirectory begin names = true := by
              rw [Tree.isDirectory, walked]
              exact decide_eq_true directory
            rw [missing, ← shape, List.reverse_reverse, if_pos isDirectory]
      have shape : (names ++ [name]).reverse = name :: names.reverse := by simp
      rw [shape, missing, ← shape, List.reverse_reverse,
        if_neg (by rw [notDirectory []]; exact Bool.false_ne_true), stops]
      rfl
  | append_singleton init last ih =>
      have shape : (names ++ name :: (init ++ [last])).reverse =
          last :: (names ++ name :: init).reverse := by simp
      rw [shape, missing, ← shape, List.reverse_reverse,
        if_neg (by rw [notDirectory]; exact Bool.false_ne_true), ih, List.inits_append]
      simp

/-- The empty path has no name that could be missing. -/
theorem LeavesOff.nonempty {tree : Tree} {outer : Place}
    (leaves : LeavesOff tree begin (segments path) outer) : path ≠ "" := by
  rintro rfl
  generalize shape : segments "" = names at leaves
  obtain @⟨earlier, rest, name, place, _, _, plain, _, _⟩ := leaves
  have single : earlier ++ name :: rest = [""] := shape.symm
  cases earlier with
  | nil => exact plain.1 (List.cons.inj single).1
  | cons first others => cases others <;> cases (List.cons.inj single).2

/-- A directory that is missing cannot be listed. -/
theorem entries_of_leavesOff {outer : Place} (noNull : null ∉ path.toList)
    (leaves : LeavesOff disk.tree (start kernel path) (segments path) outer) :
    entries kernel path disk = (.error (.systemCallError "ENOENT"), disk) := by
  have nonempty := leaves.nonempty
  simp only [entries, locate, if_neg noNull, if_neg nonempty]
  generalize segments path = names at leaves
  obtain @⟨earlier, rest, name, place, walked, directory, plain, nothing, _⟩ := leaves
  rw [Tree.walk_absent plain directory nothing walked, Tree.absent]
  by_cases last : rest = []
  · simp only [if_pos last, nothing]
  · simp only [if_neg last]

/-- `mkdir_p` makes the directory that is missing, and it is empty. -/
theorem mkdirP_of_leavesOff {outer : Place} (noNull : null ∉ path.toList)
    (leaves : LeavesOff disk.tree (start kernel path) (segments path) outer)
    (makable : ∀ place, kernel.makeError place = none) :
    ∃ tree, mkdirP kernel path disk = (.ok ⟨⟩, { disk with tree := tree }) ∧
      tree.Directory outer ∧ ∀ inner, tree.node? (inner :: outer) = none := by
  have nonempty := leaves.nonempty
  rw [mkdirP, if_neg noNull, if_neg nonempty]
  generalize segments path = names at leaves
  obtain @⟨earlier, rest, name, place, walked, directory, plain, nothing, noUp⟩ := leaves
  let kept := rest.filter (· ≠ "")
  have dropped : ∀ other : String, decide (other ≠ "") = false → other = "" ∨ other = "." :=
    fun other isEmpty => Or.inl (by simpa using isEmpty)
  have shape : (earlier ++ name :: rest).filter (· ≠ "") =
      earlier.filter (· ≠ "") ++ name :: kept := by
    rw [List.filter_append, List.filter_cons_of_pos (by simpa using plain.1)]
  have trimmed := Tree.walk_trims (Tree.trims_filter dropped earlier) walked directory
  have ordinary : ∀ other ∈ kept, other = "." ∨ Plain other := by
    intro other member
    obtain ⟨inRest, named⟩ := List.mem_filter.mp member
    by_cases dot : other = "."
    · exact Or.inl dot
    · exact Or.inr ⟨of_decide_eq_true named, dot, fun isUp => noUp (isUp ▸ inRest)⟩
  obtain ⟨tree, made, leads, isNew, isEmpty⟩ :=
    makeMissing_of_absent trimmed directory plain nothing (makable _)
  obtain ⟨last, madeAll, isLast, lastEmpty⟩ := @makeEach_of_empty kernel { disk with tree := tree }
    (start kernel path) (name :: place) (earlier.filter (· ≠ "") ++ [name]) kept leads isNew isEmpty
    ordinary makable
  have paths : kept.inits.map (fun init => earlier.filter (· ≠ "") ++ name :: init) =
      (earlier.filter (· ≠ "") ++ [name]) ::
        kept.inits.tail.map ((earlier.filter (· ≠ "") ++ [name]) ++ ·) := by
    cases kept <;> simp [Function.comp_def]
  rw [foldl_push_filter dropped] at isLast lastEmpty
  refine ⟨last, ?_, isLast, lastEmpty⟩
  change makeEach kernel _ (missing disk.tree _ (List.filter _ _).reverse) disk = _
  rw [shape, missing_of_absent trimmed directory plain nothing kept, paths]
  exact (Exec.bind_ok made _).trans madeAll

end

end

end MultipassWebui.Files
