import MultipassWebui.Effect.Values
import MultipassWebui.Files.Disk

/-!
# Files under names that users give

What the stores of templates and of playbooks have in common: a name is checked
by its characters and by the place it expands to, and the file is read, written
or deleted there.
-/

namespace MultipassWebui.Multipass

open MultipassWebui.Effect
open MultipassWebui.Encoding
open MultipassWebui.Files
open MultipassWebui.Text

/-- The two characters that are no ASCII letters and equal one without regard to
case: the long s and the Kelvin sign. -/
def foldsToLetter (char : Char) : Bool := char.toNat = 0x17F || char.toNat = 0x212A

/-- `[a-zA-Z0-9]`, without regard to case. -/
def leadingChar (char : Char) : Bool := isAlnum char || foldsToLetter char

/-- `[a-zA-Z0-9_.-]`, without regard to case. -/
def nameChar (char : Char) : Bool := leadingChar char || char = '_' || char = '.' || char = '-'

/-- The characters end in `.yml` or `.yaml`, without regard to case. -/
def endsInYaml (chars : List Char) : Bool :=
  ".yml".toList.isSuffixOf (chars.map Char.toLower) ||
    ".yaml".toList.isSuffixOf (chars.map Char.toLower)

/-- `/\A[a-zA-Z0-9][a-zA-Z0-9_.-]*\.(ya?ml)\z/i` -/
def matchesFileName (name : String) : Bool :=
  match name.toList with
  | [] => false
  | first :: rest => leadingChar first && rest.all nameChar && endsInYaml rest

/-- `include?("/") || include?("\\") || include?("..")` -/
def LeavesDirectory (name : String) : Prop :=
  '/' ∈ name.toList ∨ '\\' ∈ name.toList ∨ ['.', '.'] <:+: name.toList

instance (name : String) : Decidable (LeavesDirectory name) := inferInstanceAs (Decidable (_ ∨ _))

/-- The checks that `sanitize_template_name!` and `sanitize_playbook_name!` make,
with the path of the file. -/
def sanitizeName (kind : String) (around : Surroundings) (baseDir name : String) :
    Except RubyError String :=
  if name = "" then .error (.argumentError (kind ++ " name is required"))
  else if LeavesDirectory name then .error (.argumentError ("invalid " ++ kind ++ " name"))
  else if matchesFileName name then do
    let absBase ← expandPath around baseDir
    let absPath ← expandPath around (join (text absBase) name)
    if ['.', '.'] <+: (relativePathFrom absPath absBase).toList then
      .error (.argumentError ("invalid " ++ kind ++ " name"))
    else return text absPath
  else
    .error (.argumentError
      (kind ++ " name must end in .yml or .yaml and use only safe characters"))

/-- What the checks make of a name that is not a text. -/
def nameText (kind : String) (name : Json) : Except RubyError String :=
  match name with
  | .string name => .ok name
  | value => do
      let unsafeNames := ["/", "\\", ".."]
      if ← Value.nilOrEmpty value then .error (.argumentError (kind ++ " name is required"))
      else
        match value with
        | .array items =>
            if items.any fun item => item.text?.any unsafeNames.contains then
              .error (.argumentError ("invalid " ++ kind ++ " name"))
            else .error (.noMethodError "match?")
        | .object fields =>
            if fields.any fun field => unsafeNames.contains field.1 then
              .error (.argumentError ("invalid " ++ kind ++ " name"))
            else .error (.noMethodError "match?")
        | _ => .error (.noMethodError "match?")

section

variable (kind : String) (kernel : Kernel) (baseDir name : String)

/-- `read_cloud_init_template` and `read_playbook` -/
def readNamed : Exec Disk RubyError (List UInt8) :=
  Exec.rescue
    (do
      let path ← Exec.ofExcept (sanitizeName kind kernel.toSurroundings baseDir name)
      read kernel path)
    fun error =>
      if error = .systemCallError "ENOENT" then
        some (Exec.raise (.argumentError (kind ++ " not found")))
      else none

/-- `write_cloud_init_template` and `write_playbook` -/
def writeNamed (content : List UInt8) : Exec Disk RubyError Nat := do
  let path ← Exec.ofExcept (sanitizeName kind kernel.toSurroundings baseDir name)
  mkdirP kernel baseDir
  write kernel path content

/-- `delete_cloud_init_template` and `delete_playbook` -/
def deleteNamed : Exec Disk RubyError Nat := do
  let path ← Exec.ofExcept (sanitizeName kind kernel.toSurroundings baseDir name)
  if ← exist kernel path then delete kernel path
  else Exec.raise (.argumentError (kind ++ " not found"))

end

/-! ## The names that are accepted -/

/-- A name that passes the checks. -/
def Accepted (name : String) : Prop := ¬ LeavesDirectory name ∧ matchesFileName name = true

instance (name : String) : Decidable (Accepted name) := inferInstanceAs (Decidable (_ ∧ _))

theorem leadingChar_ne {char other : Char} (leading : leadingChar char = true)
    (outside : leadingChar other = false) : char ≠ other := by
  rintro rfl
  rw [leading] at outside
  cases outside

/-- The first character of an accepted name is a letter or a digit. -/
theorem Accepted.leading {name : String} (accepted : Accepted name) :
    ∃ first rest, name.toList = first :: rest ∧ leadingChar first = true ∧
      rest.all nameChar = true := by
  have matched := accepted.2
  unfold matchesFileName at matched
  split at matched
  · cases matched
  · rename_i first rest shape
    simp only [Bool.and_eq_true] at matched
    exact ⟨first, rest, shape, matched.1.1, matched.1.2⟩

theorem endsInYaml_cons {chars : List Char} (ending : endsInYaml chars = true) (first : Char) :
    endsInYaml (first :: chars) = true := by
  have longer : ∀ suffix : List Char, suffix.isSuffixOf (chars.map Char.toLower) = true →
      suffix.isSuffixOf ((first :: chars).map Char.toLower) = true := by
    intro suffix isSuffix
    rw [List.isSuffixOf_iff_suffix] at isSuffix ⊢
    exact isSuffix.trans (List.suffix_cons _ _)
  rw [endsInYaml, Bool.or_eq_true] at ending ⊢
  exact ending.imp (longer _) (longer _)

theorem Accepted.endsInYaml {name : String} (accepted : Accepted name) :
    endsInYaml name.toList = true := by
  have matched := accepted.2
  unfold matchesFileName at matched
  split at matched
  · cases matched
  · rename_i first rest shape
    rw [shape]
    exact endsInYaml_cons (Bool.and_eq_true _ _ ▸ matched).2 first

theorem Accepted.nameChars {name : String} (accepted : Accepted name) :
    ∀ char ∈ name.toList, nameChar char = true := by
  obtain ⟨first, rest, shape, leading, others⟩ := accepted.leading
  rw [shape]
  intro char member
  rcases List.mem_cons.mp member with rfl | later
  · simp [nameChar, leading]
  · exact List.all_eq_true.mp others char later

/-- An accepted name does not begin with a dot. -/
theorem Accepted.head_ne_dot {name : String} (accepted : Accepted name) {rest : List Char} :
    name.toList ≠ '.' :: rest := by
  obtain ⟨first, others, shape, leading, _⟩ := accepted.leading
  rw [shape]
  intro same
  exact leadingChar_ne leading (by decide) (List.cons.inj same).1

theorem Accepted.clean {name : String} (accepted : Accepted name) : Clean name := by
  refine ⟨⟨?_, ?_, ?_⟩, fun slash => accepted.1 (Or.inl slash), ?_⟩
  · rintro rfl
    obtain ⟨first, rest, shape, _⟩ := accepted.leading
    cases shape
  · rintro rfl
    exact @Accepted.head_ne_dot _ accepted [] rfl
  · rintro rfl
    exact @Accepted.head_ne_dot _ accepted ['.'] rfl
  · intro isNull
    exact absurd (accepted.nameChars _ isNull) (by decide)

section

variable {kind : String} {around : Surroundings} {baseDir name : String} {base : Place}

/-- An accepted name is that of a file right below the expanded directory. -/
theorem sanitizeName_of_accepted (accepted : Accepted name)
    (expanded : expandPath around baseDir = .ok base) :
    sanitizeName kind around baseDir name = .ok (text (name :: base)) := by
  have clean := expandPath_clean expanded
  have joined : expandPath around (join (text base) name) = .ok (name :: base) := by
    rw [join_text clean]
    refine expandPath_text around fun other member => ?_
    rcases List.mem_cons.mp member with rfl | inBase
    · exact accepted.clean
    · exact clean other inBase
  have inside : ¬ ['.', '.'] <+: (relativePathFrom (name :: base) base).toList := by
    rw [relativePathFrom_child]
    rintro ⟨rest, dots⟩
    exact accepted.head_ne_dot dots.symm
  unfold sanitizeName
  rw [if_neg accepted.clean.1.1, if_neg accepted.1, if_pos accepted.2]
  simp only [expanded, joined, bind, Except.bind, if_neg inside, pure, Except.pure]

theorem sanitizeName_of_not_accepted (notAccepted : ¬ Accepted name) :
    ∃ message, sanitizeName kind around baseDir name = .error (.argumentError message) := by
  unfold sanitizeName
  split
  · exact ⟨_, rfl⟩
  · split
    · exact ⟨_, rfl⟩
    · rename_i stays
      rw [if_neg fun matched => notAccepted ⟨stays, matched⟩]
      exact ⟨_, rfl⟩

/-- The name is not accepted, the directory cannot be expanded, or the path is
that of a file right below it. -/
theorem sanitizeName_cases :
    (∃ raised, sanitizeName kind around baseDir name = .error raised) ∨
      ∃ base, Accepted name ∧ expandPath around baseDir = .ok base ∧
        sanitizeName kind around baseDir name = .ok (text (name :: base)) := by
  by_cases accepted : Accepted name
  · cases expanded : expandPath around baseDir with
    | ok base => exact Or.inr ⟨base, accepted, rfl, sanitizeName_of_accepted accepted expanded⟩
    | error raised =>
        refine Or.inl ⟨raised, ?_⟩
        unfold sanitizeName
        rw [if_neg accepted.clean.1.1, if_neg accepted.1, if_pos accepted.2, expanded]
        rfl
  · obtain ⟨message, rejected⟩ := @sanitizeName_of_not_accepted kind around baseDir name accepted
    exact Or.inl ⟨_, rejected⟩

end

/-! ## The files that are touched -/

/-- No symbolic link is in the directory that a place leads to, also once missing
directories on the way have been made. -/
def LinkFree (tree : Tree) (base : Place) : Prop :=
  ∀ larger outer, Tree.Grows tree larger → larger.walk LINKS [] base.reverse = .ok outer →
    ∀ name target, larger.node? (name :: outer) ≠ some (.link target)

/-- A file right below the directory that a path expands to. -/
def DirectChild (around : Surroundings) (baseDir : String) (tree : Tree) (place : Place) : Prop :=
  ∃ base name outer, expandPath around baseDir = .ok base ∧
    tree.walk LINKS [] base.reverse = .ok outer ∧ place = name :: outer

/-- Only allowed files are read, written or deleted, and the others stay as they
are. -/
structure TouchesOnly (allowed : Place → Prop) (before after : Disk) : Prop where
  accesses : ∃ added, after.accesses = before.accesses ++ added ∧
    ∀ access ∈ added, allowed access.place
  files : ∀ place, after.tree.file? place ≠ before.tree.file? place → allowed place

theorem touchesOnly_of_grows {before after : Disk} (grows : Grows before after)
    (allowed : Place → Prop) : TouchesOnly allowed before after :=
  ⟨⟨[], by rw [grows.accesses, List.append_nil], nofun⟩,
    fun place changed => absurd (grows.tree.file? place) changed⟩

theorem touchesOnly_self (disk : Disk) (allowed : Place → Prop) : TouchesOnly allowed disk disk :=
  touchesOnly_of_grows (Std.Refl.refl disk) allowed

theorem TouchesOnly.trans {allowed : Place → Prop} {first second third : Disk}
    (early : TouchesOnly allowed first second) (late : TouchesOnly allowed second third) :
    TouchesOnly allowed first third := by
  constructor
  · obtain ⟨added, grown, allowedAdded⟩ := early.accesses
    obtain ⟨more, grownMore, allowedMore⟩ := late.accesses
    refine ⟨added ++ more, by rw [grownMore, grown, List.append_assoc], ?_⟩
    intro access member
    exact (List.mem_append.mp member).elim (allowedAdded access) (allowedMore access)
  · intro place changed
    by_cases same : second.tree.file? place = first.tree.file? place
    · exact late.files place fun stays => changed (stays.trans same)
    · exact early.files place same

/-- One file is touched, after the tree has grown. -/
theorem touchesOnly_one {allowed : Place → Prop} {before middle after : Disk} {kind : AccessKind}
    {place : Place} (grows : Grows before middle)
    (accesses : after.accesses = middle.accesses ++ [⟨kind, place⟩])
    (others : ∀ other, other ≠ place → after.tree.node? other = middle.tree.node? other)
    (isAllowed : allowed place) : TouchesOnly allowed before after := by
  refine ⟨⟨[⟨kind, place⟩], by rw [accesses, grows.accesses], ?_⟩, ?_⟩
  · intro access member
    rw [List.mem_singleton.mp member]
    exact isAllowed
  · intro other changed
    by_cases same : other = place
    · rw [same]
      exact isAllowed
    · exact absurd ((Tree.file?_congr (others other same)).trans (grows.tree.file? other)) changed

section

variable {kind : String} {kernel : Kernel} {baseDir name : String} {base : Place} {disk : Disk}

theorem clean_child (accepted : Accepted name)
    (expanded : expandPath kernel.toSurroundings baseDir = .ok base) :
    ∀ other ∈ name :: base, Clean other := by
  intro other member
  rcases List.mem_cons.mp member with rfl | inBase
  · exact accepted.clean
  · exact expandPath_clean expanded other inBase

/-- A path that is accepted leads to a file right below the directory. -/
theorem locate_accepted (accepted : Accepted name)
    (expanded : expandPath kernel.toSurroundings baseDir = .ok base) {tree : Tree}
    (noLinks : ∀ outer, tree.walk LINKS [] base.reverse = .ok outer →
      ∀ name target, tree.node? (name :: outer) ≠ some (.link target))
    {place : Place} (located : locate kernel tree (text (name :: base)) = .ok place) :
    ∃ outer, tree.walk LINKS [] base.reverse = .ok outer ∧ tree.Directory outer ∧
      place = name :: outer := by
  rw [locate_text (clean_child accepted expanded) (List.cons_ne_nil name base),
    List.reverse_cons] at located
  have continues := @Tree.continues_walk tree name accepted.clean.1 LINKS [] base.reverse
  obtain ⟨outer, leads, directory, last⟩ := continues.backward place located
  exact ⟨outer, leads, directory, last fun target => noLinks outer leads name target⟩

/-- Reading touches the file whose content it returns, or nothing. -/
theorem readNamed_touches
    (linkFree : ∀ base, expandPath kernel.toSurroundings baseDir = .ok base →
      LinkFree disk.tree base) :
    (∃ raised, readNamed kind kernel baseDir name disk = (.error raised, disk)) ∨
      ∃ place content, DirectChild kernel.toSurroundings baseDir disk.tree place ∧
        disk.tree.node? place = some (.file content) ∧
        readNamed kind kernel baseDir name disk = (.ok content, disk.record .read place) := by
  have handled : ∀ raised (program : Exec Disk RubyError (List UInt8)),
      program disk = (.error raised, disk) → ∃ other,
        Exec.rescue program (fun error =>
          if error = .systemCallError "ENOENT" then
            some (Exec.raise (.argumentError (kind ++ " not found")))
          else none) disk = (.error other, disk) := by
    intro raised program failed
    rw [Exec.rescue_error failed]
    split
    · rename_i handled isHandled
      split at isHandled
      · obtain rfl := Option.some.inj isHandled
        exact ⟨_, rfl⟩
      · cases isHandled
    · exact ⟨_, rfl⟩
  rcases @sanitizeName_cases kind kernel.toSurroundings baseDir name with
    ⟨raised, rejected⟩ | ⟨base, accepted, expanded, sanitized⟩
  · exact Or.inl (handled raised _ (Exec.bind_error (by rw [Exec.ofExcept_apply, rejected]) _))
  · have program : (Exec.ofExcept (sanitizeName kind kernel.toSurroundings baseDir name) >>=
        read kernel) disk = read kernel (text (name :: base)) disk :=
      Exec.bind_ok (by rw [Exec.ofExcept_apply, sanitized]) _
    rcases @read_cases kernel (text (name :: base)) disk with
      ⟨raised, failed⟩ | ⟨place, content, located, isFile, _, returned⟩
    · exact Or.inl (handled raised _ (program.trans failed))
    · have noLinks := linkFree base expanded disk.tree
      obtain ⟨outer, leads, _, isChild⟩ := locate_accepted accepted expanded
        (fun outer leads => noLinks outer (Std.Refl.refl _) leads) located
      refine Or.inr ⟨place, content, ⟨base, name, outer, expanded, leads, isChild⟩, isFile, ?_⟩
      exact Exec.rescue_ok (program.trans returned) _

/-- Writing touches a file right below the directory, or nothing. -/
theorem writeNamed_touches {content : List UInt8}
    (linkFree : ∀ base, expandPath kernel.toSurroundings baseDir = .ok base →
      LinkFree disk.tree base) :
    let after := (writeNamed kind kernel baseDir name content disk).2
    TouchesOnly (DirectChild kernel.toSurroundings baseDir after.tree) disk after := by
  intro after
  rcases @sanitizeName_cases kind kernel.toSurroundings baseDir name with
    ⟨raised, rejected⟩ | ⟨base, accepted, expanded, sanitized⟩
  · have same : after = disk := congrArg Prod.snd
      (Exec.bind_error (by rw [Exec.ofExcept_apply, rejected]) _)
    rw [same]
    exact touchesOnly_self disk _
  · have program : after = ((mkdirP kernel baseDir >>= fun _ =>
        write kernel (text (name :: base)) content) disk).2 :=
      congrArg Prod.snd (Exec.bind_ok (by rw [Exec.ofExcept_apply, sanitized]) _)
    have grows := grows_mkdirP kernel baseDir disk
    rcases made : mkdirP kernel baseDir disk with ⟨raised | ⟨⟩, middle⟩
    · rw [made] at grows
      rw [Exec.bind_error made] at program
      rw [program]
      exact touchesOnly_of_grows grows _
    · rw [made] at grows
      rw [Exec.bind_ok made] at program
      rcases @write_cases kernel (text (name :: base)) middle content with
        ⟨raised, failed⟩ | ⟨place, written, tree, located, isStored, wrote⟩
      · rw [failed] at program
        rw [program]
        exact touchesOnly_of_grows grows _
      · rw [wrote] at program
        obtain ⟨outer, leads, directory, isChild⟩ := locate_accepted accepted expanded
          (fun outer leads => linkFree base expanded middle.tree outer grows.tree leads) located
        obtain ⟨_, notDirectory, isFile, others⟩ := store_eq_some isStored
        have notLink : ∀ target, middle.tree.node? place ≠ some (.link target) := by
          rw [isChild]
          exact linkFree base expanded middle.tree outer grows.tree leads name
        have leadsAfter : tree.walk LINKS [] base.reverse = .ok outer := by
          refine Tree.walk_within ⟨?_, ?_⟩ leads directory
          · intro other isDirectory
            exact (others other fun same => notDirectory (same ▸ isDirectory)).trans isDirectory
          · intro other target isLink
            exact (others other fun same => notLink target (same ▸ isLink)).trans isLink
        rw [program]
        refine touchesOnly_one grows rfl others ?_
        exact ⟨base, name, outer, expanded, leadsAfter, isChild⟩

/-- Deleting touches a file right below the directory, or nothing. -/
theorem deleteNamed_touches
    (linkFree : ∀ base, expandPath kernel.toSurroundings baseDir = .ok base →
      LinkFree disk.tree base) :
    let after := (deleteNamed kind kernel baseDir name disk).2
    TouchesOnly (DirectChild kernel.toSurroundings baseDir after.tree) disk after := by
  intro after
  rcases @sanitizeName_cases kind kernel.toSurroundings baseDir name with
    ⟨raised, rejected⟩ | ⟨base, accepted, expanded, sanitized⟩
  · have same : after = disk := congrArg Prod.snd
      (Exec.bind_error (by rw [Exec.ofExcept_apply, rejected]) _)
    rw [same]
    exact touchesOnly_self disk _
  · let path := text (name :: base)
    have program : after = ((exist kernel path >>= fun found =>
        if found then delete kernel path
        else Exec.raise (.argumentError (kind ++ " not found"))) disk).2 :=
      congrArg Prod.snd (Exec.bind_ok (by rw [Exec.ofExcept_apply, sanitized]) _)
    have looked := @exist_state kernel path disk
    rcases found : exist kernel path disk with ⟨raised | _ | _, middle⟩
    · rw [found] at looked
      rw [Exec.bind_error found, show middle = disk from looked] at program
      rw [program]
      exact touchesOnly_self disk _
    · rw [found] at looked
      rw [Exec.bind_ok found, show middle = disk from looked] at program
      rw [program]
      exact touchesOnly_self disk _
    · rw [found] at looked
      rw [Exec.bind_ok found, show middle = disk from looked, if_pos rfl] at program
      rcases @delete_cases kernel path disk with
        ⟨raised, failed⟩ | ⟨outer, last, free, isParent, isLast, plain, present, deleted⟩
      · rw [failed] at program
        rw [program]
        exact touchesOnly_self disk _
      · rw [deleted] at program
        obtain ⟨leads, directory, _⟩ := parent_text (clean_child accepted expanded) isParent
        have others : ∀ other, other ≠ last :: outer →
            (disk.tree.remove last outer free).node? other = disk.tree.node? other :=
          fun other different => by rw [Tree.node?_remove, if_neg different]
        have notLink : ∀ target, disk.tree.node? (last :: outer) ≠ some (.link target) :=
          linkFree base expanded disk.tree outer (Std.Refl.refl _) leads last
        have leadsAfter : (disk.tree.remove last outer free).walk LINKS [] base.reverse =
            .ok outer := by
          refine Tree.walk_within ⟨?_, ?_⟩ leads directory
          · intro other isDirectory
            exact (others other fun same => free (same ▸ isDirectory)).trans isDirectory
          · intro other target isLink
            exact (others other fun same => notLink target (same ▸ isLink)).trans isLink
        rw [program]
        refine touchesOnly_one (Std.Refl.refl disk) rfl others ?_
        exact ⟨base, last, outer, expanded, leadsAfter, rfl⟩

end

end MultipassWebui.Multipass
