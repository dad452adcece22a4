import Mathlib.Data.List.Infix
import MultipassWebui.Effect.Frame
import MultipassWebui.Files.Tree

/-!
# The calls on a disk

The calls of `File`, `Dir` and `FileUtils` on a tree.  A call can fail for
reasons that the tree does not show.  The files whose content was read, written
or deleted are recorded for the statements.
-/

namespace MultipassWebui.Files

open MultipassWebui.Effect

inductive AccessKind where
  | read
  | write
  | delete
  deriving DecidableEq, Repr

/-- A file that was read, written or deleted. -/
structure Access where
  kind : AccessKind
  place : Place
  deriving DecidableEq, Repr

structure Disk where
  tree : Tree
  accesses : List Access

def Disk.record (disk : Disk) (kind : AccessKind) (place : Place) : Disk :=
  { disk with accesses := disk.accesses ++ [⟨kind, place⟩] }

/-- The process, and why calls fail that the tree would allow. -/
structure Kernel extends Surroundings where
  readError : Place → Option RubyError
  /-- The error of a write, and what it leaves in the file, if anything. -/
  writeError : Place → Option (RubyError × Option (List UInt8))
  deleteError : Place → Option RubyError
  makeError : Place → Option RubyError
  listError : Place → Option RubyError

/-- The number of links that are followed on a path. -/
def LINKS : Nat := 40

namespace Tree

/-- `File.directory?` -/
def isDirectory (tree : Tree) (start : Place) (names : List String) : Bool :=
  match tree.walk LINKS start names with
  | .ok place => tree.Directory place
  | .error _ => false

/-- The directory of the last name of a path. -/
def parent (tree : Tree) (start : Place) (names : List String) : Except RubyError Place := do
  let outer ← tree.walk LINKS start names.dropLast
  match tree.node? outer with
  | some .directory => .ok outer
  | some (.file _) => .error (.systemCallError "ENOTDIR")
  | _ => .error (.systemCallError "ENOENT")

/-- Write a file, unless a directory is in its place. -/
def store (tree : Tree) (content : List UInt8) : Place → Option Tree
  | [] => none
  | name :: outer =>
      if inside : tree.Directory outer then
        if free : ¬ tree.Directory (name :: outer) then
          some (tree.put name outer (.file content) inside free)
        else none
      else none

end Tree

section

variable (kernel : Kernel)

/-- Where a path begins. -/
def start (path : String) : Place := if isAbsolute path then [] else kernel.cwd

/-- What a path leads to. -/
def locate (tree : Tree) (path : String) : Except RubyError Place :=
  if null ∈ path.toList then .error (.argumentError "string contains null byte")
  else if path = "" then .error (.systemCallError "ENOENT")
  else tree.walk LINKS (start kernel path) (segments path)

/-- `File.directory?` -/
def isDirectoryAt (tree : Tree) (path : String) : Bool :=
  match locate kernel tree path with
  | .ok place => tree.Directory place
  | .error _ => false

/-- `File.read` -/
def read (path : String) : Exec Disk RubyError (List UInt8) := fun disk =>
  match locate kernel disk.tree path with
  | .error raised => (.error raised, disk)
  | .ok place =>
      match disk.tree.node? place, kernel.readError place with
      | some (.file content), none => (.ok content, disk.record .read place)
      | some (.file _), some raised => (.error raised, disk)
      | some .directory, _ => (.error (.systemCallError "EISDIR"), disk)
      | _, _ => (.error (.systemCallError "ENOENT"), disk)

/-- `File.write` -/
def write (path : String) (content : List UInt8) : Exec Disk RubyError Nat := fun disk =>
  match locate kernel disk.tree path with
  | .error raised => (.error raised, disk)
  | .ok place =>
      match kernel.writeError place with
      | some (raised, none) => (.error raised, disk)
      | some (raised, some written) =>
          match disk.tree.store written place with
          | some tree => (.error raised, { disk.record .write place with tree := tree })
          | none => (.error (.systemCallError "EISDIR"), disk)
      | none =>
          match disk.tree.store content place with
          | some tree => (.ok content.length, { disk.record .write place with tree := tree })
          | none => (.error (.systemCallError "EISDIR"), disk)

/-- `File.exist?` -/
def exist (path : String) : Exec Disk RubyError Bool := fun disk =>
  if null ∈ path.toList then (.error (.argumentError "string contains null byte"), disk)
  else
    match locate kernel disk.tree path with
    | .error _ => (.ok false, disk)
    | .ok place => (.ok (disk.tree.node? place).isSome, disk)

/-- `File.delete` -/
def delete (path : String) : Exec Disk RubyError Nat := fun disk =>
  if null ∈ path.toList then (.error (.argumentError "string contains null byte"), disk)
  else if path = "" then (.error (.systemCallError "ENOENT"), disk)
  else
    match disk.tree.parent (start kernel path) (segments path) with
    | .error raised => (.error raised, disk)
    | .ok outer =>
        let name := (segments path).getLastD ""
        if ¬ Plain name then (.error (.systemCallError "EISDIR"), disk)
        else if directory : disk.tree.Directory (name :: outer) then
          (.error (.systemCallError "EISDIR"), disk)
        else
          match disk.tree.node? (name :: outer), kernel.deleteError (name :: outer) with
          | none, _ => (.error (.systemCallError "ENOENT"), disk)
          | some _, some raised => (.error raised, disk)
          | some _, none =>
              (.ok 1, { disk.record .delete (name :: outer) with
                tree := disk.tree.remove name outer directory })

/-- `Dir.entries`, in the order of the directory. -/
def entries (path : String) : Exec Disk RubyError (List String) := fun disk =>
  match locate kernel disk.tree path with
  | .error raised => (.error raised, disk)
  | .ok place =>
      match disk.tree.node? place, kernel.listError place with
      | some .directory, none => (.ok ("." :: ".." :: disk.tree.entries place), disk)
      | some .directory, some raised => (.error raised, disk)
      | some (.file _), _ => (.error (.systemCallError "ENOTDIR"), disk)
      | _, _ => (.error (.systemCallError "ENOENT"), disk)

/-- `Dir.children` -/
def children (path : String) : Exec Disk RubyError (List String) := do
  let names ← entries kernel path
  return names.filter fun name => name ≠ "." && name ≠ ".."

/-- `Dir.exist?` -/
def dirExist (path : String) : Exec Disk RubyError Bool := fun disk =>
  if null ∈ path.toList then (.error (.argumentError "string contains null byte"), disk)
  else (.ok (isDirectoryAt kernel disk.tree path), disk)

/-! ## Making directories -/

/-- `mkdir` -/
def make (start : Place) (names : List String) : Exec Disk RubyError PUnit := fun disk =>
  match disk.tree.parent start names with
  | .error raised => (.error raised, disk)
  | .ok outer =>
      let name := names.getLastD ""
      if present : ¬ Plain name ∨ (disk.tree.node? (name :: outer)).isSome ∨
          ¬ disk.tree.Directory outer then
        (.error (.systemCallError "EEXIST"), disk)
      else
        match kernel.makeError (name :: outer) with
        | some raised => (.error raised, disk)
        | none =>
            (.ok ⟨⟩, { disk with
              tree := disk.tree.put name outer .directory
                (not_not.mp (not_or.mp (not_or.mp present).2).2)
                (fun directory => (not_or.mp (not_or.mp present).2).1
                  (Option.isSome_iff_exists.mpr ⟨_, directory⟩)) })

/-- The directories on a path that do not exist, the outermost one first.  The
names are given from the last one on. -/
def missing (tree : Tree) (start : Place) : List String → List (List String)
  | [] => []
  | name :: outer =>
      if tree.isDirectory start (name :: outer).reverse then []
      else missing tree start outer ++ [(name :: outer).reverse]

/-- Make one of the missing directories. -/
def makeMissing (start : Place) (names : List String) : Exec Disk RubyError PUnit :=
  Exec.rescue (make kernel start names) fun error =>
    if error.isSystemCallError then
      some fun disk =>
        if disk.tree.isDirectory start names then (.ok ⟨⟩, disk) else (.error error, disk)
    else none

def makeEach (start : Place) : List (List String) → Exec Disk RubyError PUnit
  | [] => pure ⟨⟩
  | names :: rest => do
      makeMissing kernel start names
      makeEach start rest

/-- `FileUtils.mkdir_p` -/
def mkdirP (path : String) : Exec Disk RubyError PUnit := fun disk =>
  if null ∈ path.toList then (.error (.argumentError "string contains null byte"), disk)
  else if path = "" then (.error (.systemCallError "ENOENT"), disk)
  else
    let names := (segments path).filter (· ≠ "")
    makeEach kernel (start kernel path)
      (missing disk.tree (start kernel path) names.reverse) disk

end

/-! ## What the calls do -/

/-- No file was touched, and the tree at most grew. -/
structure Grows (before after : Disk) : Prop where
  accesses : after.accesses = before.accesses
  tree : Tree.Grows before.tree after.tree

instance : IsPreorder Disk Grows where
  refl _ := ⟨rfl, Std.Refl.refl _⟩
  trans _ _ _ early late :=
    ⟨late.accesses.trans early.accesses, IsTrans.trans _ _ _ early.tree late.tree⟩

section

variable (kernel : Kernel)

theorem grows_make (start : Place) (names : List String) :
    Exec.Keeps Grows (make kernel start names) := by
  intro disk
  unfold make
  split
  · exact Std.Refl.refl disk
  · simp only
    split
    · exact Std.Refl.refl disk
    · rename_i absent
      split
      · exact Std.Refl.refl disk
      · have free : disk.tree.node? (names.getLastD "" :: _) = none :=
          Option.not_isSome_iff_eq_none.mp (not_or.mp (not_or.mp absent).2).1
        refine ⟨rfl, ?_, ?_⟩
        · intro place node found
          rw [Tree.node?_put, if_neg]
          · exact found
          · rintro rfl
            cases free.symm.trans found
        · intro place node found
          rw [Tree.node?_put] at found
          split at found
          · rename_i same
            rw [same]
            exact Or.inr ⟨free, (Option.some.inj found).symm⟩
          · exact Or.inl found

theorem grows_makeMissing (start : Place) (names : List String) :
    Exec.Keeps Grows (makeMissing kernel start names) := by
  apply Exec.keeps_rescue (grows_make kernel start names)
  intro error handled handles disk
  split at handles
  · obtain rfl := Option.some.inj handles
    simp only
    split <;> exact Std.Refl.refl disk
  · cases handles

theorem grows_makeEach (start : Place) (paths : List (List String)) :
    Exec.Keeps Grows (makeEach kernel start paths) := by
  induction paths with
  | nil => exact Exec.keeps_pure _
  | cons names rest ih =>
      exact Exec.keeps_bind (grows_makeMissing kernel start names) fun _ => ih

theorem grows_mkdirP (path : String) : Exec.Keeps Grows (mkdirP kernel path) := by
  intro disk
  unfold mkdirP
  split
  · exact Std.Refl.refl disk
  · split
    · exact Std.Refl.refl disk
    · exact grows_makeEach kernel _ _ disk

/-! ## The files that the calls touch -/

variable {kernel} {path : String} {disk : Disk}

/-- The path of a clean place leads where the kernel walks along its names. -/
theorem locate_text {tree : Tree} {place : Place} (clean : ∀ name ∈ place, Clean name)
    (given : place ≠ []) : locate kernel tree (text place) = tree.walk LINKS [] place.reverse := by
  have nonempty : text place ≠ "" := by
    intro empty
    have absolute := isAbsolute_text place
    rw [empty] at absolute
    cases absolute
  rw [locate, if_neg (null_not_mem_text clean), if_neg nonempty, start, isAbsolute_text, if_pos rfl,
    segments_text clean given]
  rfl

/-- The directory of the last name of a clean path. -/
theorem parent_text {tree : Tree} {name : String} {base outer : Place}
    (clean : ∀ other ∈ name :: base, Clean other)
    (isParent : tree.parent (start kernel (text (name :: base))) (segments (text (name :: base))) =
      .ok outer) :
    tree.walk LINKS [] base.reverse = .ok outer ∧ tree.Directory outer ∧
      (segments (text (name :: base))).getLastD "" = name := by
  have names : segments (text (name :: base)) = ("" :: base.reverse) ++ [name] := by
    rw [segments_text clean (List.cons_ne_nil name base), List.reverse_cons]
    rfl
  have last : (segments (text (name :: base))).getLastD "" = name := by
    rw [names]
    exact List.getLastD_concat
  rw [names, Tree.parent, List.dropLast_concat, start, isAbsolute_text, if_pos rfl] at isParent
  have walked : tree.walk LINKS [] ("" :: base.reverse) = tree.walk LINKS [] base.reverse := rfl
  rw [walked] at isParent
  rcases leads : tree.walk LINKS [] base.reverse with raised | reached
  · rw [leads] at isParent
    cases isParent
  · simp only [leads, bind, Except.bind] at isParent
    split at isParent
    · rename_i directory
      obtain rfl := Except.ok.inj isParent
      exact ⟨rfl, directory, last⟩
    · cases isParent
    · cases isParent

theorem read_cases :
    (∃ raised, read kernel path disk = (.error raised, disk)) ∨
      ∃ place content, locate kernel disk.tree path = .ok place ∧
        disk.tree.node? place = some (.file content) ∧ kernel.readError place = none ∧
        read kernel path disk = (.ok content, disk.record .read place) := by
  unfold read
  split
  · exact Or.inl ⟨_, rfl⟩
  · rename_i place located
    split
    · rename_i content isFile readable
      exact Or.inr ⟨place, content, located, isFile, readable, rfl⟩
    · exact Or.inl ⟨_, rfl⟩
    · exact Or.inl ⟨_, rfl⟩
    · exact Or.inl ⟨_, rfl⟩

theorem read_of_readable {place : Place} {content : List UInt8}
    (located : locate kernel disk.tree path = .ok place)
    (isFile : disk.tree.node? place = some (.file content))
    (readable : kernel.readError place = none) :
    read kernel path disk = (.ok content, disk.record .read place) := by
  simp only [read, located, isFile, readable]

theorem read_of_nothing {place : Place} (located : locate kernel disk.tree path = .ok place)
    (nothing : disk.tree.node? place = none) :
    read kernel path disk = (.error (.systemCallError "ENOENT"), disk) := by
  simp only [read, located, nothing]

theorem read_of_error {raised : RubyError}
    (failed : locate kernel disk.tree path = .error raised) :
    read kernel path disk = (.error raised, disk) := by
  simp only [read, failed]

/-- What is stored stands at its place, in a directory, and nothing else changes. -/
theorem store_eq_some {tree stored : Tree} {content : List UInt8} {place : Place}
    (isStored : tree.store content place = some stored) :
    (∃ name outer, place = name :: outer ∧ tree.Directory outer) ∧ ¬ tree.Directory place ∧
      stored.node? place = some (.file content) ∧
      ∀ other, other ≠ place → stored.node? other = tree.node? other := by
  cases place with
  | nil => cases isStored
  | cons name outer =>
      rw [Tree.store] at isStored
      split_ifs at isStored with inside free
      obtain rfl := Option.some.inj isStored
      refine ⟨⟨name, outer, rfl, inside⟩, free, ?_, ?_⟩
      · rw [Tree.node?_put, if_pos rfl]
      · intro other different
        rw [Tree.node?_put, if_neg different]

theorem write_cases {content : List UInt8} :
    (∃ raised, write kernel path content disk = (.error raised, disk)) ∨
      ∃ place written tree, locate kernel disk.tree path = .ok place ∧
        disk.tree.store written place = some tree ∧
        (write kernel path content disk).2 = { disk.record .write place with tree := tree } := by
  unfold write
  split
  · exact Or.inl ⟨_, rfl⟩
  · rename_i place located
    split
    · exact Or.inl ⟨_, rfl⟩
    · split
      · rename_i tree isStored
        exact Or.inr ⟨place, _, tree, located, isStored, rfl⟩
      · exact Or.inl ⟨_, rfl⟩
    · split
      · rename_i tree isStored
        exact Or.inr ⟨place, _, tree, located, isStored, rfl⟩
      · exact Or.inl ⟨_, rfl⟩

theorem exist_of_located {place : Place} (located : locate kernel disk.tree path = .ok place) :
    exist kernel path disk = (.ok (disk.tree.node? place).isSome, disk) := by
  have noNull : null ∉ path.toList := fun isIn => by
    rw [locate, if_pos isIn] at located
    cases located
  rw [exist, if_neg noNull]
  simp only [located]

theorem exist_of_error {raised : RubyError} (noNull : null ∉ path.toList)
    (failed : locate kernel disk.tree path = .error raised) :
    exist kernel path disk = (.ok false, disk) := by
  rw [exist, if_neg noNull]
  simp only [failed]

theorem exist_state : (exist kernel path disk).2 = disk := by
  unfold exist
  split
  · rfl
  · split <;> rfl

theorem delete_cases :
    (∃ raised, delete kernel path disk = (.error raised, disk)) ∨
      ∃ (outer : Place) (name : String) (free : ¬ disk.tree.Directory (name :: outer)),
        disk.tree.parent (start kernel path) (segments path) = .ok outer ∧
        name = (segments path).getLastD "" ∧ Plain name ∧
        (disk.tree.node? (name :: outer)).isSome ∧
        delete kernel path disk = (.ok 1, { disk.record .delete (name :: outer) with
          tree := disk.tree.remove name outer free }) := by
  unfold delete
  split
  · exact Or.inl ⟨_, rfl⟩
  · split
    · exact Or.inl ⟨_, rfl⟩
    · split
      · exact Or.inl ⟨_, rfl⟩
      · rename_i outer isParent
        simp only
        split
        · exact Or.inl ⟨_, rfl⟩
        · rename_i plain
          split
          · exact Or.inl ⟨_, rfl⟩
          · rename_i free
            split
            · exact Or.inl ⟨_, rfl⟩
            · exact Or.inl ⟨_, rfl⟩
            · rename_i found _
              exact Or.inr ⟨outer, _, free, isParent, rfl, not_not.mp plain,
                Option.isSome_iff_exists.mpr ⟨_, found⟩, rfl⟩

end

end MultipassWebui.Files
