import Mathlib.Order.Defs.Unbundled
import MultipassWebui.Collections.OrderedHash
import MultipassWebui.Files.Paths

/-!
# A tree of files

Files, directories and symbolic links, by their places.  Walking a path follows
the links it meets, and the special names mean what they mean in the directory
that was reached.  The last name of a path may be missing, so that it can be
made.
-/

namespace MultipassWebui.Files

open MultipassWebui.Collections
open MultipassWebui.Effect

inductive Node where
  | file (content : List UInt8)
  | directory
  | link (target : String)
  deriving DecidableEq, Repr

/-- What stands at a place; the root is a directory. -/
def nodeAt (nodes : OrderedHash Place Node) : Place → Option Node
  | [] => some .directory
  | name :: outer => nodes.get? (name :: outer)

/-- What is in the tree is in a directory. -/
structure Tree where
  nodes : OrderedHash Place Node
  closed : ∀ name outer, (nodes.get? (name :: outer)).isSome → nodeAt nodes outer = some .directory

namespace Tree

def node? (tree : Tree) (place : Place) : Option Node := nodeAt tree.nodes place

/-- `File.directory?` of a place -/
def Directory (tree : Tree) (place : Place) : Prop := tree.node? place = some .directory

instance (tree : Tree) (place : Place) : Decidable (tree.Directory place) :=
  inferInstanceAs (Decidable (_ = _))

theorem directory_root (tree : Tree) : tree.Directory [] := rfl

theorem directory_outer {tree : Tree} {name : String} {outer : Place} {node : Node}
    (found : tree.node? (name :: outer) = some node) : tree.Directory outer :=
  tree.closed name outer (Option.isSome_iff_exists.mpr ⟨node, found⟩)

/-- Nothing is in what is not a directory. -/
theorem node?_of_not_directory {tree : Tree} {outer : Place} (notDirectory : ¬ tree.Directory outer)
    (name : String) : tree.node? (name :: outer) = none := by
  cases found : tree.node? (name :: outer) with
  | none => rfl
  | some node => exact absurd (directory_outer found) notDirectory

/-! ## Changing a tree -/

def empty : Tree := ⟨OrderedHash.empty, fun _ _ found => by cases found⟩

theorem nodeAt_insert {nodes : OrderedHash Place Node} {name : String} {outer place : Place}
    (node : Node) :
    nodeAt (nodes.insert (name :: outer) node) place =
      if place = name :: outer then some node else nodeAt nodes place := by
  cases place with
  | nil => rfl
  | cons other rest =>
      split
      · rename_i same
        rw [same]
        exact OrderedHash.get?_insert_self ..
      · rename_i different
        exact OrderedHash.get?_insert_of_ne _ different _

theorem nodeAt_delete {nodes : OrderedHash Place Node} {name : String} {outer place : Place} :
    nodeAt (nodes.delete (name :: outer)) place =
      if place = name :: outer then none else nodeAt nodes place := by
  cases place with
  | nil => rfl
  | cons other rest =>
      split
      · rename_i same
        rw [same]
        exact OrderedHash.get?_delete_self ..
      · rename_i different
        exact OrderedHash.get?_delete_of_ne _ different

/-- Put something into a directory, in the place of what is not a directory. -/
def put (tree : Tree) (name : String) (outer : Place) (node : Node) (inside : tree.Directory outer)
    (free : ¬ tree.Directory (name :: outer)) : Tree where
  nodes := tree.nodes.insert (name :: outer) node
  closed := by
    intro other place found
    have present := Option.isSome_iff_exists.mp found
    obtain ⟨node', isNode⟩ := present
    change nodeAt (tree.nodes.insert (name :: outer) node) (other :: place) = _ at isNode
    have directory : tree.Directory place := by
      rw [nodeAt_insert] at isNode
      split at isNode
      · rename_i same
        obtain ⟨_, rfl⟩ := List.cons.inj same
        exact inside
      · exact directory_outer isNode
    rw [nodeAt_insert, if_neg]
    · exact directory
    · rintro rfl
      exact free directory

/-- Take away what is not a directory. -/
def remove (tree : Tree) (name : String) (outer : Place) (free : ¬ tree.Directory (name :: outer)) :
    Tree where
  nodes := tree.nodes.delete (name :: outer)
  closed := by
    intro other place found
    obtain ⟨node, isNode⟩ := Option.isSome_iff_exists.mp found
    change nodeAt (tree.nodes.delete (name :: outer)) (other :: place) = _ at isNode
    rw [nodeAt_delete] at isNode
    split at isNode
    · cases isNode
    · have directory : tree.Directory place := directory_outer isNode
      rw [nodeAt_delete, if_neg]
      · exact directory
      · rintro rfl
        exact free directory

theorem node?_put {tree : Tree} {name : String} {outer : Place} {node : Node}
    {inside : tree.Directory outer} {free : ¬ tree.Directory (name :: outer)} (place : Place) :
    (tree.put name outer node inside free).node? place =
      if place = name :: outer then some node else tree.node? place :=
  nodeAt_insert node

theorem node?_remove {tree : Tree} {name : String} {outer : Place}
    {free : ¬ tree.Directory (name :: outer)} (place : Place) :
    (tree.remove name outer free).node? place =
      if place = name :: outer then none else tree.node? place :=
  nodeAt_delete

/-- Add something to a tree, if its directory is there. -/
def add (tree : Tree) (entry : Place × Node) : Tree :=
  match entry.1 with
  | [] => tree
  | name :: outer =>
      if free : tree.Directory outer ∧ ¬ tree.Directory (name :: outer) then
        tree.put name outer entry.2 free.1 free.2
      else tree

/-- A tree, given from the outermost directories on. -/
def ofList (entries : List (Place × Node)) : Tree := entries.foldl add empty

/-- The tree holds no link. -/
def hasNoLink (tree : Tree) : Bool :=
  tree.nodes.entries.all fun entry =>
    match entry.2 with
    | .link _ => false
    | _ => true

theorem node?_ne_link {tree : Tree} (noLink : tree.hasNoLink = true) (place : Place)
    (target : String) : tree.node? place ≠ some (.link target) := by
  cases place with
  | nil => exact nofun
  | cons name outer =>
      intro isLink
      have member := OrderedHash.get?_eq_some_iff.mp isLink
      cases List.all_eq_true.mp noLink _ member

/-- The name of a place that is in a directory. -/
def nameIn (directory : Place) : Place → Option String
  | name :: outer => if outer = directory then some name else none
  | [] => none

theorem nameIn_eq_some_iff {directory place : Place} {name : String} :
    nameIn directory place = some name ↔ place = name :: directory := by
  cases place with
  | nil => simp [nameIn]
  | cons other outer =>
      simp only [nameIn, List.cons.injEq]
      split
      · rename_i same
        simp [same]
      · rename_i different
        simp [different]

/-- The names in a directory. -/
def entries (tree : Tree) (directory : Place) : List String :=
  (tree.nodes.entries.map Prod.fst).filterMap (nameIn directory)

theorem mem_entries {tree : Tree} {directory : Place} {name : String} :
    name ∈ tree.entries directory ↔ ∃ node, tree.node? (name :: directory) = some node := by
  simp only [entries, List.mem_filterMap, nameIn_eq_some_iff, exists_eq_right, List.mem_map, node?,
    nodeAt, OrderedHash.get?_eq_some_iff]
  constructor
  · rintro ⟨⟨key, node⟩, member, rfl⟩
    exact ⟨node, member⟩
  · rintro ⟨node, member⟩
    exact ⟨_, member, rfl⟩

theorem nodup_entries (tree : Tree) (directory : Place) : (tree.entries directory).Nodup := by
  apply tree.nodes.nodup.filterMap
  intro place other name isName isOther
  rw [nameIn_eq_some_iff.mp isName, nameIn_eq_some_iff.mp isOther]

/-! ## Walking -/

/-- Walk a path from a place on; `jump` goes on at the target of a link. -/
def walkFrom (tree : Tree) (jump : Place → List String → Except RubyError Place) :
    Place → List String → Except RubyError Place
  | here, [] => .ok here
  | here, name :: rest =>
      match tree.node? here with
      | some .directory =>
          if name = "" ∨ name = "." then walkFrom tree jump here rest
          else if name = ".." then walkFrom tree jump here.tail rest
          else
            match tree.node? (name :: here) with
            | some (.link target) =>
                jump (if isAbsolute target then [] else here) (segments target ++ rest)
            | some _ => walkFrom tree jump (name :: here) rest
            | none =>
                if rest = [] then .ok (name :: here) else .error (.systemCallError "ENOENT")
      | some (.file _) => .error (.systemCallError "ENOTDIR")
      | _ => .error (.systemCallError "ENOENT")

/-- Walk a path, with a bound on the links that are followed. -/
def walk (tree : Tree) : Nat → Place → List String → Except RubyError Place
  | 0 => walkFrom tree fun _ _ => .error (.systemCallError "ELOOP")
  | links + 1 => walkFrom tree (walk tree links)

section Walk

variable {tree : Tree} {name : String} {jump : Place → List String → Except RubyError Place}

/-- The step of a walk into what stands under a plain name. -/
theorem walkFrom_plain (plain : Plain name) {here : Place} (directory : tree.Directory here)
    (rest : List String) :
    walkFrom tree jump here (name :: rest) =
      match tree.node? (name :: here) with
      | some (.link target) => jump (if isAbsolute target then [] else here)
          (segments target ++ rest)
      | some _ => walkFrom tree jump (name :: here) rest
      | none => if rest = [] then .ok (name :: here) else .error (.systemCallError "ENOENT") := by
  obtain ⟨nonempty, notDot, notUp⟩ := plain
  rw [walkFrom, show tree.node? here = some .directory from directory]
  simp only [nonempty, notDot, notUp, or_self, if_false]

/-- A walk goes on only from a directory. -/
theorem directory_of_walkFrom_cons {here place : Place} {rest : List String}
    (walked : walkFrom tree jump here (name :: rest) = .ok place) : tree.Directory here := by
  unfold walkFrom at walked
  split at walked
  · rename_i directory
    exact directory
  · cases walked
  · cases walked

/-- What a walk that ends in a directory says of a path with one more name, and
the other way round. -/
structure Continues (tree : Tree) (name : String) (part whole : Except RubyError Place) : Prop where
  forward : ∀ place, part = .ok place → tree.Directory place →
    (∀ target, tree.node? (name :: place) ≠ some (.link target)) → whole = .ok (name :: place)
  backward : ∀ last, whole = .ok last → ∃ place, part = .ok place ∧ tree.Directory place ∧
    ((∀ target, tree.node? (name :: place) ≠ some (.link target)) → last = name :: place)

theorem continues_error (name : String) (first second : RubyError) :
    Continues tree name (.error first) (.error second) :=
  ⟨nofun, nofun⟩

theorem continues_walkFrom (plain : Plain name)
    (jumps : ∀ here names, Continues tree name (jump here names) (jump here (names ++ [name])))
    (here : Place) (names : List String) :
    Continues tree name (walkFrom tree jump here names)
        (walkFrom tree jump here (names ++ [name])) := by
  induction names generalizing here with
  | nil =>
      constructor
      · intro place walked directory noLink
        obtain rfl := Except.ok.inj walked
        rw [List.nil_append, walkFrom_plain plain directory]
        split
        · rename_i target isLink
          exact absurd isLink (noLink target)
        · rfl
        · rfl
      · intro last walked
        have directory := directory_of_walkFrom_cons walked
        refine ⟨here, rfl, directory, fun noLink => ?_⟩
        rw [List.nil_append, walkFrom_plain plain directory] at walked
        split at walked
        · rename_i target isLink
          exact absurd isLink (noLink target)
        · exact (Except.ok.inj walked).symm
        · exact (Except.ok.inj walked).symm
  | cons first rest ih =>
      rw [List.cons_append, walkFrom, walkFrom]
      split
      · split
        · exact ih here
        · split
          · exact ih here.tail
          · split
            · rw [← List.append_assoc]
              exact jumps _ _
            · exact ih _
            · rename_i missing
              rw [if_neg (List.append_ne_nil_of_right_ne_nil rest (List.cons_ne_nil name []))]
              split
              · refine ⟨fun place walked directory => ?_, nofun⟩
                obtain rfl := Except.ok.inj walked
                cases missing.symm.trans directory
              · exact continues_error ..
      · exact continues_error ..
      · exact continues_error ..

/-- One more name on a path, with the same bound on links. -/
theorem continues_walk (plain : Plain name) (links : Nat) (here : Place) (names : List String) :
    Continues tree name (tree.walk links here names) (tree.walk links here (names ++ [name])) := by
  induction links generalizing here names with
  | zero => exact continues_walkFrom plain (fun _ _ => continues_error ..) here names
  | succ links ih => exact continues_walkFrom plain ih here names

/-- What a walk says that meets a name that is not there. -/
def absent (place : Place) (rest : List String) : Except RubyError Place :=
  if rest = [] then .ok place else .error (.systemCallError "ENOENT")

theorem walkFrom_absent (plain : Plain name) {place : Place} {rest : List String}
    (directory : tree.Directory place) (nothing : tree.node? (name :: place) = none)
    (jumps : ∀ here names, jump here names = .ok place →
      jump here (names ++ name :: rest) = absent (name :: place) rest)
    {here : Place} {names : List String} (walked : walkFrom tree jump here names = .ok place) :
    walkFrom tree jump here (names ++ name :: rest) = absent (name :: place) rest := by
  induction names generalizing here with
  | nil =>
      obtain rfl := Except.ok.inj walked
      rw [List.nil_append, walkFrom_plain plain directory, nothing]
      rfl
  | cons first others ih =>
      have above := directory_of_walkFrom_cons walked
      rw [walkFrom, show tree.node? here = some .directory from above] at walked
      rw [List.cons_append, walkFrom, show tree.node? here = some .directory from above]
      simp only at walked ⊢
      split at walked
      · rw [if_pos ‹_›]
        exact ih walked
      · rw [if_neg ‹_›]
        split at walked
        · rw [if_pos ‹_›]
          exact ih walked
        · rw [if_neg ‹_›]
          split at walked
          · rw [← List.append_assoc]
            exact jumps _ _ walked
          · exact ih walked
          · rename_i missing
            split at walked
            · obtain rfl := Except.ok.inj walked
              cases missing.symm.trans directory
            · cases walked

theorem walk_absent (plain : Plain name) {place : Place} {rest : List String}
    (directory : tree.Directory place) (nothing : tree.node? (name :: place) = none) {links : Nat}
    {here : Place} {names : List String} (walked : tree.walk links here names = .ok place) :
    tree.walk links here (names ++ name :: rest) = absent (name :: place) rest := by
  induction links generalizing here names with
  | zero => exact walkFrom_absent plain directory nothing (fun _ _ jumped => by cases jumped) walked
  | succ links ih =>
      exact walkFrom_absent plain directory nothing (fun _ _ jumped => ih jumped) walked

/-- A walk over directories takes the names as they are. -/
theorem walkFrom_directories {place : Place} (directory : tree.Directory place)
    (plain : ∀ outer ∈ place, Plain outer) (rest : List String) :
    walkFrom tree jump [] (place.reverse ++ rest) = walkFrom tree jump place rest := by
  induction place generalizing rest with
  | nil => rfl
  | cons inner outer ih =>
      have above := directory_outer directory
      rw [List.reverse_cons, List.append_assoc,
        ih above (fun other member => plain other (List.mem_cons_of_mem _ member)),
        List.singleton_append, walkFrom_plain (plain inner (List.mem_cons_self ..)) above,
        show tree.node? (inner :: outer) = some .directory from directory]

theorem walk_directories {place : Place} (directory : tree.Directory place)
    (plain : ∀ outer ∈ place, Plain outer) (links : Nat) (rest : List String) :
    tree.walk links [] (place.reverse ++ rest) = tree.walk links place rest := by
  cases links with
  | zero => exact walkFrom_directories directory plain rest
  | succ links => exact walkFrom_directories directory plain rest

/-- Nothing was taken away, and only directories were added. -/
structure Grows (tree larger : Tree) : Prop where
  kept : ∀ place node, tree.node? place = some node → larger.node? place = some node
  added : ∀ place node, larger.node? place = some node →
    tree.node? place = some node ∨ tree.node? place = none ∧ node = .directory

instance : IsPreorder Tree Grows where
  refl _ := ⟨fun _ _ found => found, fun _ _ found => Or.inl found⟩
  trans := by
    intro first second third early late
    refine ⟨fun place node found => late.kept place node (early.kept place node found), ?_⟩
    intro place node found
    rcases late.added place node found with old | ⟨absent, isNew⟩
    · exact early.added place node old
    · refine Or.inr ⟨?_, isNew⟩
      cases before : first.node? place with
      | none => rfl
      | some other => cases absent.symm.trans (early.kept place other before)

/-- The content of a file. -/
def file? (tree : Tree) (place : Place) : Option (List UInt8) :=
  match tree.node? place with
  | some (.file content) => some content
  | _ => none

theorem file?_congr {larger : Tree} {place : Place} (same : larger.node? place = tree.node? place) :
    larger.file? place = tree.file? place := by
  rw [file?, file?, same]

/-- A tree that grows has the same files. -/
theorem Grows.file? {larger : Tree} (grows : Grows tree larger) (place : Place) :
    larger.file? place = tree.file? place := by
  cases found : larger.node? place with
  | none =>
      refine file?_congr ?_
      cases before : tree.node? place with
      | none => exact found
      | some node => cases found.symm.trans (grows.kept place node before)
  | some node =>
      rcases grows.added place node found with old | ⟨absent, isNew⟩
      · exact file?_congr (found.trans old.symm)
      · simp only [Tree.file?, found, absent, isNew]

/-- The directories and the links of a tree are in another one. -/
structure Within (tree larger : Tree) : Prop where
  directories : ∀ place, tree.Directory place → larger.Directory place
  links : ∀ place target, tree.node? place = some (.link target) →
    larger.node? place = some (.link target)

theorem Grows.within {larger : Tree} (grows : Grows tree larger) : Within tree larger :=
  ⟨fun place => grows.kept place .directory, fun place target => grows.kept place (.link target)⟩

theorem walkFrom_within {larger : Tree} (within : Within tree larger)
    {jumpLarger : Place → List String → Except RubyError Place}
    (jumps : ∀ here names place, jump here names = .ok place → tree.Directory place →
      jumpLarger here names = .ok place)
    {here place : Place} {names : List String} (walked : walkFrom tree jump here names = .ok place)
    (directory : tree.Directory place) : walkFrom larger jumpLarger here names = .ok place := by
  induction names generalizing here with
  | nil => exact walked
  | cons first rest ih =>
      have above := directory_of_walkFrom_cons walked
      have aboveLarger := within.directories here above
      rw [walkFrom, show tree.node? here = some .directory from above] at walked
      rw [walkFrom, show larger.node? here = some .directory from aboveLarger]
      simp only at walked ⊢
      split at walked
      · rw [if_pos ‹_›]
        exact ih walked
      · rw [if_neg ‹_›]
        split at walked
        · rw [if_pos ‹_›]
          exact ih walked
        · rw [if_neg ‹_›]
          split at walked
          · rename_i target isLink
            rw [within.links _ _ isLink]
            exact jumps _ _ _ walked directory
          · rename_i node found notLink
            have isDirectory : tree.Directory (first :: here) := by
              cases rest with
              | nil =>
                  obtain rfl := Except.ok.inj walked
                  exact directory
              | cons second others => exact directory_of_walkFrom_cons walked
            rw [show larger.node? (first :: here) = some .directory from
              within.directories _ isDirectory]
            exact ih walked
          · rename_i missing
            split at walked
            · obtain rfl := Except.ok.inj walked
              cases missing.symm.trans directory
            · cases walked

/-- A walk to a directory goes the same way in a larger tree. -/
theorem walk_within {larger : Tree} (within : Within tree larger) {links : Nat} {here place : Place}
    {names : List String} (walked : tree.walk links here names = .ok place)
    (directory : tree.Directory place) : larger.walk links here names = .ok place := by
  induction links generalizing here place names with
  | zero => exact walkFrom_within within (fun _ _ _ jumped => by cases jumped) walked directory
  | succ links ih =>
      exact walkFrom_within within (fun _ _ _ jumped isDirectory => ih jumped isDirectory) walked
        directory

/-- Names that were left out, or stand for the directory itself, are dropped. -/
inductive Trims : List String → List String → Prop where
  | nil : Trims [] []
  | keep (name : String) {names trimmed : List String} :
      Trims names trimmed → Trims (name :: names) (name :: trimmed)
  | drop {name : String} {names trimmed : List String} :
      name = "" ∨ name = "." → Trims names trimmed → Trims (name :: names) trimmed

theorem Trims.refl : ∀ names, Trims names names
  | [] => .nil
  | name :: rest => .keep name (Trims.refl rest)

theorem Trims.append {names trimmed others otherTrimmed : List String} (first : Trims names trimmed)
    (second : Trims others otherTrimmed) : Trims (names ++ others) (trimmed ++ otherTrimmed) := by
  induction first with
  | nil => exact second
  | keep name _ ih => exact .keep name ih
  | drop trivial _ ih => exact .drop trivial ih

theorem trims_filter {keep : String → Bool}
    (trivial : ∀ name, keep name = false → name = "" ∨ name = ".") (names : List String) :
    Trims names (names.filter keep) := by
  induction names with
  | nil => exact .nil
  | cons name rest ih =>
      rw [List.filter_cons]
      split
      · exact .keep name ih
      · rename_i dropped
        exact .drop (trivial name (Bool.not_eq_true _ ▸ dropped)) ih

theorem walkFrom_trims
    (jumps : ∀ here names trimmed place, Trims names trimmed → jump here names = .ok place →
      tree.Directory place → jump here trimmed = .ok place)
    {here place : Place} {names trimmed : List String} (trims : Trims names trimmed)
    (walked : walkFrom tree jump here names = .ok place) (directory : tree.Directory place) :
    walkFrom tree jump here trimmed = .ok place := by
  induction trims generalizing here with
  | nil => exact walked
  | drop trivial _ ih =>
      have above := directory_of_walkFrom_cons walked
      rw [walkFrom, show tree.node? here = some .directory from above] at walked
      simp only [if_pos trivial] at walked
      exact ih walked
  | @keep name names trimmed rest ih =>
      have above := directory_of_walkFrom_cons walked
      rw [walkFrom, show tree.node? here = some .directory from above] at walked
      rw [walkFrom, show tree.node? here = some .directory from above]
      simp only at walked ⊢
      split at walked
      · rw [if_pos ‹_›]
        exact ih walked
      · rw [if_neg ‹_›]
        split at walked
        · rw [if_pos ‹_›]
          exact ih walked
        · rw [if_neg ‹_›]
          split at walked
          · exact jumps _ _ _ _ ((Trims.refl _).append rest) walked directory
          · exact ih walked
          · rename_i missing
            split at walked
            · obtain rfl := Except.ok.inj walked
              cases missing.symm.trans directory
            · cases walked

/-- A walk to a directory goes the same way without the names that are dropped. -/
theorem walk_trims {links : Nat} {here place : Place} {names trimmed : List String}
    (trims : Trims names trimmed) (walked : tree.walk links here names = .ok place)
    (directory : tree.Directory place) : tree.walk links here trimmed = .ok place := by
  induction links generalizing here place names trimmed with
  | zero => exact walkFrom_trims (fun _ _ _ _ _ jumped => by cases jumped) trims walked directory
  | succ links ih =>
      refine walkFrom_trims ?_ trims walked directory
      intro next earlier later reached shorter jumped isDirectory
      exact ih shorter jumped isDirectory

theorem walkFrom_untrim
    (jumps : ∀ here names trimmed place, Trims names trimmed → jump here trimmed = .ok place →
      tree.Directory place → jump here names = .ok place)
    {here place : Place} {names trimmed : List String} (trims : Trims names trimmed)
    (walked : walkFrom tree jump here trimmed = .ok place) (directory : tree.Directory place) :
    walkFrom tree jump here names = .ok place := by
  induction trims generalizing here with
  | nil => exact walked
  | @drop name names trimmed trivial _ ih =>
      have above : tree.Directory here := by
        cases trimmed with
        | nil =>
            obtain rfl := Except.ok.inj walked
            exact directory
        | cons next others => exact directory_of_walkFrom_cons walked
      rw [walkFrom, show tree.node? here = some .directory from above]
      simp only [if_pos trivial]
      exact ih walked
  | @keep name names trimmed rest ih =>
      have above := directory_of_walkFrom_cons walked
      rw [walkFrom, show tree.node? here = some .directory from above] at walked
      rw [walkFrom, show tree.node? here = some .directory from above]
      simp only at walked ⊢
      split at walked
      · rw [if_pos ‹_›]
        exact ih walked
      · rw [if_neg ‹_›]
        split at walked
        · rw [if_pos ‹_›]
          exact ih walked
        · rw [if_neg ‹_›]
          split at walked
          · exact jumps _ _ _ _ ((Trims.refl _).append rest) walked directory
          · exact ih walked
          · rename_i missing
            split at walked
            · obtain rfl := Except.ok.inj walked
              cases missing.symm.trans directory
            · cases walked

/-- The names that are dropped can be put back. -/
theorem walk_untrim {links : Nat} {here place : Place} {names trimmed : List String}
    (trims : Trims names trimmed) (walked : tree.walk links here trimmed = .ok place)
    (directory : tree.Directory place) : tree.walk links here names = .ok place := by
  induction links generalizing here place names trimmed with
  | zero => exact walkFrom_untrim (fun _ _ _ _ _ jumped => by cases jumped) trims walked directory
  | succ links ih =>
      refine walkFrom_untrim ?_ trims walked directory
      intro next longer shorter reached drops jumped isDirectory
      exact ih drops jumped isDirectory

end Walk

end Tree

end MultipassWebui.Files
