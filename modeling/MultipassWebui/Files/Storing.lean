import MultipassWebui.Files.Disk

/-!
# Files that were written

A file is found again where it was written: the path leads to it on the tree
that has it as it did before.
-/

namespace MultipassWebui.Files

open MultipassWebui.Effect

namespace Tree

section

variable {tree stored : Tree} {place : Place}
  {jump jumpStored : Place → List String → Except RubyError Place}

def NotLink (tree : Tree) (place : Place) : Prop :=
  ∀ target, tree.node? place ≠ some (.link target)

theorem notLink_of_directory (directory : tree.Directory place) : NotLink tree place := by
  intro target isLink
  cases isLink.symm.trans directory

/-- A directory above a directory. -/
theorem directory_tail (directory : tree.Directory place) : tree.Directory place.tail := by
  cases place with
  | nil => exact directory
  | cons name outer => exact directory_outer directory

/-- A walk that does not begin at a link does not end at one. -/
theorem notLink_of_walkFrom
    (jumps : ∀ here names last, tree.Directory here → jump here names = .ok last →
        NotLink tree last)
    {here : Place} {names : List String} (begins : NotLink tree here)
    (walked : walkFrom tree jump here names = .ok place) : NotLink tree place := by
  induction names generalizing here with
  | nil =>
      obtain rfl := Except.ok.inj walked
      exact begins
  | cons first rest ih =>
      have directory := directory_of_walkFrom_cons walked
      rw [walkFrom, show tree.node? here = some .directory from directory] at walked
      dsimp only at walked
      split at walked
      · exact ih begins walked
      · split at walked
        · exact ih (notLink_of_directory (directory_tail directory)) walked
        · split at walked
          · rename_i target isLink
            refine jumps _ _ _ ?_ walked
            split
            · exact tree.directory_root
            · exact directory
          · rename_i node notLink found
            refine ih (fun target isLink => ?_) walked
            exact notLink target (Option.some.inj (found.symm.trans isLink))
          · rename_i missing
            split at walked
            · obtain rfl := Except.ok.inj walked
              intro target isLink
              cases missing.symm.trans isLink
            · cases walked

theorem notLink_of_walk {links : ℕ} {here : Place} {names : List String}
    (begins : NotLink tree here) (walked : tree.walk links here names = .ok place) :
    NotLink tree place := by
  induction links generalizing here names place with
  | zero => exact notLink_of_walkFrom (fun _ _ _ _ jumped => by cases jumped) begins walked
  | succ links ih =>
      refine notLink_of_walkFrom (fun here names last directory jumped => ?_) begins walked
      exact ih (notLink_of_directory directory) jumped

/-- The walk to a file is the same after the file was stored. -/
theorem walkFrom_stored (others : ∀ other, other ≠ place → stored.node? other = tree.node? other)
    {content : List UInt8} (isFile : stored.node? place = some (.file content))
    (notDirectory : ¬ tree.Directory place) (notLink : NotLink tree place)
    (jumps : ∀ here names, jump here names = .ok place → jumpStored here names = .ok place)
    {here : Place} {names : List String} (walked : walkFrom tree jump here names = .ok place) :
    walkFrom stored jumpStored here names = .ok place := by
  induction names generalizing here with
  | nil => exact walked
  | cons first rest ih =>
      have directory := directory_of_walkFrom_cons walked
      have elsewhere : here ≠ place := fun same => notDirectory (same ▸ directory)
      rw [walkFrom, show tree.node? here = some .directory from directory] at walked
      rw [walkFrom, others here elsewhere, show tree.node? here = some .directory from directory]
      dsimp only at walked ⊢
      split at walked
      · rw [if_pos ‹_›]
        exact ih walked
      · rw [if_neg ‹_›]
        split at walked
        · rw [if_pos ‹_›]
          exact ih walked
        · rw [if_neg ‹_›]
          by_cases isPlace : first :: here = place
          · -- a walk that comes to a file ends there
            have ends : rest = [] := by
              cases rest with
              | nil => rfl
              | cons second later =>
                  split at walked
                  · rename_i target isLink
                    exact absurd (isPlace ▸ isLink) (notLink target)
                  · exact absurd (isPlace ▸ directory_of_walkFrom_cons walked) notDirectory
                  · cases walked
            rw [ends, isPlace, isFile]
            rfl
          · rw [others _ isPlace]
            split at walked
            · exact jumps _ _ walked
            · exact ih walked
            · exact walked

theorem walk_stored (others : ∀ other, other ≠ place → stored.node? other = tree.node? other)
    {content : List UInt8} (isFile : stored.node? place = some (.file content))
    (notDirectory : ¬ tree.Directory place) (notLink : NotLink tree place) {links : ℕ}
    {here : Place} {names : List String} (walked : tree.walk links here names = .ok place) :
    stored.walk links here names = .ok place := by
  induction links generalizing here names with
  | zero =>
      exact walkFrom_stored others isFile notDirectory notLink (fun _ _ jumped => by cases jumped)
        walked
  | succ links ih =>
      exact walkFrom_stored others isFile notDirectory notLink (fun _ _ jumped => ih jumped) walked

end

end Tree

section

variable {kernel : Kernel} {path : String} {disk : Disk}

/-- What a successful write leaves: the file where the path leads, and nothing else. -/
structure Wrote (kernel : Kernel) (path : String) (content : List UInt8) (before after : Disk)
    (place : Place) : Prop where
  located : locate kernel before.tree path = .ok place
  notDirectory : ¬ before.tree.Directory place
  isFile : after.tree.node? place = some (.file content)
  others : ∀ other, other ≠ place → after.tree.node? other = before.tree.node? other
  accesses : after.accesses = before.accesses ++ [⟨.write, place⟩]

theorem wrote_of_write {content : List UInt8} {count : ℕ} {after : Disk}
    (wrote : write kernel path content disk = (.ok count, after)) :
    ∃ place, Wrote kernel path content disk after place := by
  unfold write at wrote
  split at wrote
  · cases wrote
  · rename_i place located
    split at wrote
    · cases wrote
    · split at wrote <;> cases wrote
    · split at wrote
      · rename_i tree isStored
        cases wrote
        obtain ⟨_, notDirectory, isFile, others⟩ := store_eq_some isStored
        exact ⟨place, located, notDirectory, isFile, others, rfl⟩
      · cases wrote

/-- After the write the path leads to the file. -/
theorem Wrote.located_after {content : List UInt8} {after : Disk} {place : Place}
    (wrote : Wrote kernel path content disk after place)
    (begins : disk.tree.Directory (start kernel path)) :
    locate kernel after.tree path = .ok place := by
  have located := wrote.located
  unfold locate at located ⊢
  split_ifs at located ⊢
  have notLink := Tree.notLink_of_walk (Tree.notLink_of_directory begins) located
  exact Tree.walk_stored wrote.others wrote.isFile wrote.notDirectory notLink located

end

end MultipassWebui.Files
