import MultipassWebui.Files.Directories

/-!
# Directories that are made on the way

`mkdir_p` adds the directories of its own path and no others, and a path that
leaves off goes on leaving off as long as its directory is not made.
-/

namespace MultipassWebui.Files

open MultipassWebui.Effect

section

variable {kernel : Kernel} {disk : Disk} {begin place outer : Place} {name : String}
  {names : List String}

/-- Nothing is made, or a directory in the one that the path leads to. -/
theorem make_cases (kernel : Kernel) (begin : Place) (names : List String) (disk : Disk) :
    (∃ raised, make kernel begin names disk = (.error raised, disk)) ∨
      ∃ outer after, disk.tree.parent begin names = .ok outer ∧
        make kernel begin names disk = (.ok ⟨⟩, after) ∧
        ∀ other, other ≠ names.getLastD "" :: outer →
          after.tree.node? other = disk.tree.node? other := by
  unfold make
  cases isParent : disk.tree.parent begin names with
  | error raised => exact Or.inl ⟨raised, rfl⟩
  | ok outer =>
      dsimp only
      split_ifs with present
      · exact Or.inl ⟨_, rfl⟩
      · cases kernel.makeError (names.getLastD "" :: outer) with
        | some raised => exact Or.inl ⟨raised, rfl⟩
        | none =>
            refine Or.inr ⟨outer, _, rfl, rfl, ?_⟩
            intro other different
            rw [Tree.node?_put, if_neg different]

/-- What `makeMissing` changes is the last name of the path. -/
theorem node?_makeMissing (isParent : disk.tree.parent begin names = .ok outer)
    (different : place ≠ names.getLastD "" :: outer) :
    (makeMissing kernel begin names disk).2.tree.node? place = disk.tree.node? place := by
  rcases make_cases kernel begin names disk with
    ⟨raised, failed⟩ | ⟨found, after, isFound, made, others⟩
  · have state : (makeMissing kernel begin names disk).2 = disk := by
      rw [makeMissing, Exec.rescue_error failed]
      split_ifs
      · dsimp only
        split_ifs <;> rfl
      · rfl
    rw [state]
  · cases isParent.symm.trans isFound
    rw [makeMissing, Exec.rescue_ok made]
    exact others place different

theorem parent_concat (walked : disk.tree.walk LINKS begin names = .ok place)
    (directory : disk.tree.Directory place) :
    disk.tree.parent begin (names ++ [name]) = .ok place := by
  have found : disk.tree.node? place = some .directory := directory
  rw [Tree.parent, List.dropLast_concat]
  simp only [walked, bind, Except.bind, found]

/-- The way to a place goes on from where it begins. -/
theorem suffix_foldl_push {rest : List String} (noUp : ".." ∉ rest) (place : Place) :
    place <:+ rest.foldl push place := by
  induction rest generalizing place with
  | nil => exact List.suffix_refl place
  | cons next rest ih =>
      obtain ⟨notUp, others⟩ := List.ne_and_not_mem_of_not_mem_cons noUp
      have onward := ih others (push place next)
      rw [List.foldl_cons]
      by_cases trivial : next = "" ∨ next = "."
      · rwa [show push place next = place from if_pos trivial] at onward ⊢
      · obtain ⟨nonempty, notDot⟩ := not_or.mp trivial
        rw [push_of_plain ⟨nonempty, notDot, notUp.symm⟩] at onward ⊢
        exact (List.suffix_cons next place).trans onward

/-- A directory is made, and what the paths after it add is on the way. -/
theorem added_cons {paths : List (List String)} {rest : List String} {other : Place}
    (walked : disk.tree.walk LINKS begin names = .ok place) (directory : disk.tree.Directory place)
    (plain : Plain name) (nothing : disk.tree.node? (name :: place) = none)
    (makable : ∀ place, kernel.makeError place = none) (noUp : ".." ∉ rest)
    (onward : ∀ after : Disk, after.tree.walk LINKS begin (names ++ [name]) = .ok (name :: place) →
      after.tree.Directory (name :: place) →
      (∀ inner, after.tree.node? (inner :: name :: place) = none) →
      (makeEach kernel begin paths after).2.tree.node? other ≠ after.tree.node? other →
      other <:+ rest.foldl push (name :: place))
    (differs : (makeEach kernel begin ((names ++ [name]) :: paths) disk).2.tree.node? other ≠
      disk.tree.node? other) : other <:+ rest.foldl push (name :: place) := by
  obtain ⟨tree, made, leads, isNew, isEmpty⟩ :=
    makeMissing_of_absent walked directory plain nothing (makable _)
  rw [makeEach, Exec.bind_ok made] at differs
  by_cases first : other = name :: place
  · rw [first]
    exact suffix_foldl_push noUp _
  · have before := @node?_makeMissing kernel disk begin other place (names ++ [name])
      (parent_concat walked directory) (by rwa [List.getLastD_concat])
    rw [made] at before
    apply onward { disk with tree := tree } leads isNew isEmpty
    rw [before]
    exact differs

/-- A chain of directories is made on its own way. -/
theorem added_of_makeEach (rest : List String)
    (walked : disk.tree.walk LINKS begin names = .ok place) (directory : disk.tree.Directory place)
    (isEmpty : ∀ inner, disk.tree.node? (inner :: place) = none)
    (ordinary : ∀ other ∈ rest, other = "." ∨ Plain other)
    (makable : ∀ place, kernel.makeError place = none) {other : Place}
    (differs : (makeEach kernel begin (rest.inits.tail.map (names ++ ·)) disk).2.tree.node? other ≠
      disk.tree.node? other) : other <:+ rest.foldl push place := by
  induction rest generalizing disk names place with
  | nil => exact absurd rfl differs
  | cons next rest ih =>
      have paths : (next :: rest).inits.tail.map (names ++ ·) =
          (names ++ [next]) :: rest.inits.tail.map ((names ++ [next]) ++ ·) := by
        rw [List.inits_cons, List.tail_cons, List.map_map]
        cases rest <;> simp [Function.comp_def]
      have others := fun other member => ordinary other (List.mem_cons_of_mem _ member)
      have noUp : ".." ∉ rest := fun isUp => by
        rcases others ".." isUp with same | plain
        · exact absurd same (by decide)
        · exact plain.2.2 rfl
      rw [paths] at differs
      rw [List.foldl_cons]
      rcases ordinary next (List.mem_cons_self ..) with rfl | plain
      · have made := @makeMissing_of_dot kernel disk begin place names walked directory
        have walkedDot : disk.tree.walk LINKS begin (names ++ ["."]) = .ok place :=
          walk_push walked directory (by decide) directory
        rw [makeEach, Exec.bind_ok made] at differs
        exact ih walkedDot directory isEmpty others differs
      · rw [push_of_plain plain]
        apply added_cons walked directory plain (isEmpty next) makable noUp _ differs
        intro after leads isNew newEmpty
        exact ih leads isNew newEmpty others

/-- `mkdir_p` adds directories on the way to the one that is missing, and nothing else. -/
theorem added_of_mkdirP {path : String}
    (leaves : LeavesOff disk.tree (start kernel path) (segments path) outer)
    (makable : ∀ place, kernel.makeError place = none) {other : Place}
    (differs : (mkdirP kernel path disk).2.tree.node? other ≠ disk.tree.node? other) :
    other <:+ outer := by
  have nonempty := leaves.nonempty
  by_cases noNull : null ∈ path.toList
  · rw [mkdirP, if_pos noNull] at differs
    exact absurd rfl differs
  rw [mkdirP, if_neg noNull, if_neg nonempty] at differs
  generalize segments path = names at leaves differs
  obtain @⟨earlier, rest, name, place, walked, directory, plain, nothing, noUp⟩ := leaves
  let kept := rest.filter (· ≠ "")
  have dropped : ∀ other : String, decide (other ≠ "") = false → other = "" ∨ other = "." :=
    fun other isEmpty => Or.inl (by simpa using isEmpty)
  have shape : (earlier ++ name :: rest).filter (· ≠ "") =
      earlier.filter (· ≠ "") ++ name :: kept := by
    rw [List.filter_append, List.filter_cons_of_pos (by simpa using plain.1)]
  have trimmed := Tree.walk_trims (Tree.trims_filter dropped earlier) walked directory
  have ordinary : ∀ other ∈ kept, other = "." ∨ Plain other := by
    intro other member
    obtain ⟨inRest, named⟩ := List.mem_filter.mp member
    by_cases dot : other = "."
    · exact Or.inl dot
    · exact Or.inr ⟨of_decide_eq_true named, dot, fun isUp => noUp (isUp ▸ inRest)⟩
  have paths : kept.inits.map (fun init => earlier.filter (· ≠ "") ++ name :: init) =
      (earlier.filter (· ≠ "") ++ [name]) ::
        kept.inits.tail.map ((earlier.filter (· ≠ "") ++ [name]) ++ ·) := by
    cases kept <;> simp [Function.comp_def]
  change (makeEach kernel _ (missing disk.tree _ (List.filter _ _).reverse) disk).2.tree.node?
    other ≠ _ at differs
  rw [shape, missing_of_absent trimmed directory plain nothing kept, paths] at differs
  apply added_cons trimmed directory plain nothing makable noUp _ differs
  intro after leads isNew isEmpty later
  have added := added_of_makeEach kept leads isNew isEmpty ordinary makable later
  rwa [foldl_push_filter dropped] at added

/-! ## Paths that go on leaving off -/

/-- Below a place where there is nothing there is nothing. -/
theorem node?_of_suffix {tree : Tree} {inner : Place} (nothing : tree.node? place = none)
    (suffix : place <:+ inner) : tree.node? inner = none := by
  obtain ⟨names, rfl⟩ := suffix
  induction names with
  | nil => exact nothing
  | cons name rest ih =>
      apply Tree.node?_of_not_directory
      intro directory
      cases ih.symm.trans directory

variable {tree larger : Tree}

/-- A path through directories leaves off at the first one that is missing. -/
theorem leavesOff_of_directories {rest : List String}
    (walked : larger.walk LINKS begin names = .ok place) (directory : larger.Directory place)
    (below : ∀ inner node, place <:+ inner → inner <:+ rest.foldl push place →
      larger.node? inner = some node → node = .directory)
    (noUp : ".." ∉ rest) (absent : ¬ larger.Directory (rest.foldl push place)) :
    LeavesOff larger begin (names ++ rest) (rest.foldl push place) := by
  induction rest generalizing names place with
  | nil => exact absurd directory absent
  | cons next rest ih =>
      obtain ⟨notUp, others⟩ := List.ne_and_not_mem_of_not_mem_cons noUp
      rw [List.foldl_cons] at absent below ⊢
      by_cases trivial : next = "" ∨ next = "."
      · have pushed : push place next = place := if_pos trivial
        have onward := walk_push walked directory notUp.symm (pushed.symm ▸ directory)
        rw [pushed] at absent onward below ⊢
        rw [List.append_cons]
        exact ih onward directory below others absent
      · obtain ⟨nonempty, notDot⟩ := not_or.mp trivial
        have plain : Plain next := ⟨nonempty, notDot, notUp.symm⟩
        have pushed := push_of_plain plain place
        rw [pushed] at absent below ⊢
        cases found : larger.node? (next :: place) with
        | none => exact .mk walked directory plain found others
        | some node =>
            have isDirectory : larger.Directory (next :: place) := by
              rw [Tree.Directory, found, below _ node (List.suffix_cons next place)
                (suffix_foldl_push others _) found]
            have onward := walk_push walked directory notUp.symm (pushed.symm ▸ isDirectory)
            rw [pushed] at onward
            rw [List.append_cons]
            apply ih onward isDirectory _ others absent
            intro inner node suffix
            exact below inner node ((List.suffix_cons next place).trans suffix)

/-- Where nothing but directories is made on its way, and not all of them, the path still leaves
off. -/
theorem LeavesOff.of_made (leaves : LeavesOff tree begin names outer)
    (within : Tree.Within tree larger)
    (made : ∀ inner, inner <:+ outer → larger.node? inner = tree.node? inner ∨
      larger.Directory inner)
    (absent : ¬ larger.Directory outer) : LeavesOff larger begin names outer := by
  obtain @⟨earlier, rest, name, place, walked, directory, plain, nothing, noUp⟩ := leaves
  have walkedLarger := Tree.walk_within within walked directory
  have directoryLarger := within.directories place directory
  cases found : larger.node? (name :: place) with
  | none => exact .mk walkedLarger directoryLarger plain found noUp
  | some node =>
      have below : ∀ inner node, name :: place <:+ inner →
          inner <:+ rest.foldl push (name :: place) → larger.node? inner = some node →
            node = .directory := by
        intro inner node suffix onWay isNode
        rcases made inner onWay with same | isDirectory
        · rw [same, node?_of_suffix nothing suffix] at isNode
          cases isNode
        · exact Option.some.inj (isNode.symm.trans isDirectory)
      have isDirectory : larger.Directory (name :: place) := by
        rw [Tree.Directory, found,
          below _ node (List.suffix_refl _) (suffix_foldl_push noUp _) found]
      have pushed := push_of_plain plain place
      have onward := walk_push walkedLarger directoryLarger plain.2.2 (pushed.symm ▸ isDirectory)
      rw [pushed] at onward
      rw [List.append_cons]
      exact leavesOff_of_directories onward isDirectory below noUp absent

end

/-! ## What the calls on one directory change -/

/-- Directories may be made on the way to a directory, and what stands in it may change if it is
no directory and no link. -/
structure Changes (outer : Place) (before after : Tree) : Prop where
  within : Tree.Within before after
  made : ∀ place, place <:+ outer → after.node? place = before.node? place ∨ after.Directory place
  elsewhere : ∀ place, ¬ place <:+ outer → (∀ name, place ≠ name :: outer) →
    after.node? place = before.node? place

instance isPreorder_changes (outer : Place) : IsPreorder Tree (Changes outer) where
  refl _ := ⟨⟨fun _ same => same, fun _ _ same => same⟩, fun _ _ => Or.inl rfl, fun _ _ _ => rfl⟩
  trans _ _ _ early late := by
    constructor
    · exact ⟨fun place isDirectory => late.within.directories place
        (early.within.directories place isDirectory),
        fun place target isLink => late.within.links place target
          (early.within.links place target isLink)⟩
    · intro place onWay
      rcases late.made place onWay with same | isDirectory
      · rcases early.made place onWay with sameEarly | wasDirectory
        · exact Or.inl (same.trans sameEarly)
        · exact Or.inr (late.within.directories place wasDirectory)
      · exact Or.inr isDirectory
    · intro place notOnWay notChild
      exact (late.elsewhere place notOnWay notChild).trans
        (early.elsewhere place notOnWay notChild)

section

variable {kernel : Kernel} {disk : Disk} {path name : String} {outer : Place} {tree : Tree}

/-- What stands in the directory changes. -/
theorem changes_child (notDirectory : ¬ disk.tree.Directory (name :: outer))
    (notLink : ∀ target, disk.tree.node? (name :: outer) ≠ some (.link target))
    (others : ∀ other, other ≠ name :: outer → tree.node? other = disk.tree.node? other) :
    Changes outer disk.tree tree := by
  constructor
  · constructor
    · intro other isDirectory
      exact (others other fun same => notDirectory (same ▸ isDirectory)).trans isDirectory
    · intro other target isLink
      exact (others other fun same => notLink target (same ▸ isLink)).trans isLink
  · intro place onWay
    refine Or.inl (others place ?_)
    rintro rfl
    have shorter := onWay.length_le
    rw [List.length_cons] at shorter
    omega
  · intro place _ notChild
    exact others place (notChild name)

/-- `mkdir_p` makes directories on the way. -/
theorem changes_mkdirP
    (leaves : LeavesOff disk.tree (start kernel path) (segments path) outer)
    (makable : ∀ place, kernel.makeError place = none) :
    Changes outer disk.tree (mkdirP kernel path disk).2.tree := by
  have grows := (grows_mkdirP kernel path disk).tree
  constructor
  · exact grows.within
  · intro place onWay
    cases found : (mkdirP kernel path disk).2.tree.node? place with
    | none =>
        cases before : disk.tree.node? place with
        | none => exact Or.inl rfl
        | some node => cases found.symm.trans (grows.kept place node before)
    | some node =>
        rcases grows.added place node found with old | ⟨_, isDirectory⟩
        · exact Or.inl old.symm
        · exact Or.inr (found.trans (congrArg some isDirectory))
  · intro place notOnWay _
    by_contra differs
    exact notOnWay (added_of_mkdirP leaves makable differs)

end

end MultipassWebui.Files
