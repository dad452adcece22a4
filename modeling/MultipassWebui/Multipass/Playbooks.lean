import Mathlib.Data.Finmap
import Mathlib.Data.Finset.Sort
import Mathlib.Data.String.Basic
import MultipassWebui.Multipass.NamedFiles

/-!
# Playbooks

`Multipass::Playbooks`, and what the store is for: a map from names to contents.
-/

namespace MultipassWebui.Multipass.Playbooks

open MultipassWebui.Effect
open MultipassWebui.Files
open MultipassWebui.Text

/-- `sanitize_playbook_name!` -/
def sanitizePlaybookName (around : Surroundings) (baseDir name : String) :
    Except RubyError String :=
  sanitizeName "playbook" around baseDir name

section

variable (kernel : Kernel) (baseDir : String)

/-- `list_playbooks` -/
def listPlaybooks : Exec Disk RubyError (List String) := do
  let found ← Exec.rescue
    (do return some (← entries kernel baseDir))
    fun error => if error = .systemCallError "ENOENT" then some (pure none) else none
  match found with
  | none => return []
  | some entries => do
      let tree ← Exec.gets Disk.tree
      let names := entries.filter fun entry => entry ≠ "." && entry ≠ ".." &&
        !isDirectoryAt kernel tree (join baseDir entry) && endsInYaml entry.toList
      return names.mergeSort fun first second => first ≤ second

variable (name : String)

/-- `read_playbook` -/
def readPlaybook : Exec Disk RubyError (List UInt8) := readNamed "playbook" kernel baseDir name

/-- `write_playbook` -/
def writePlaybook (content : List UInt8) : Exec Disk RubyError Nat :=
  writeNamed "playbook" kernel baseDir name content

/-- `delete_playbook` -/
def deletePlaybook : Exec Disk RubyError Nat := deleteNamed "playbook" kernel baseDir name

end

/-- A call of the store. -/
inductive Call where
  | write (name : String) (content : List UInt8)
  | read (name : String)
  | delete (name : String)
  | list
  deriving DecidableEq, Repr

/-- What a call returns: the length that was written, a content, the number of
files that were deleted, or the names. -/
inductive Answer where
  | count (count : Nat)
  | content (content : List UInt8)
  | names (names : List String)
  deriving DecidableEq, Repr

/-- Carry out a call. -/
def perform (kernel : Kernel) (baseDir : String) : Call → Exec Disk RubyError Answer
  | .write name content => do return .count (← writePlaybook kernel baseDir name content)
  | .read name => do return .content (← readPlaybook kernel baseDir name)
  | .delete name => do return .count (← deletePlaybook kernel baseDir name)
  | .list => do return .names (← listPlaybooks kernel baseDir)

/-- Carry out calls, whether they return or raise. -/
def performAll (kernel : Kernel) (baseDir : String) :
    List Call → Disk → List (Except RubyError Answer) × Disk
  | [], disk => ([], disk)
  | call :: rest, disk =>
      let (answer, middle) := perform kernel baseDir call disk
      let (answers, last) := performAll kernel baseDir rest middle
      (answer :: answers, last)

/-! ## The map that the store is -/

/-- Contents by name. -/
abbrev Library := Finmap fun _ : String => List UInt8

/-- `[A-Za-z0-9][A-Za-z0-9_.-]*.(yml|yaml)`, the ending without regard to case,
and no two dots in a row. -/
def InGrammar (name : String) : Prop :=
  (∃ first rest, name.toList = first :: rest ∧ isAlnum first = true ∧
    (rest.all fun char => isAlnum char || char = '_' || char = '.' || char = '-') = true ∧
    endsInYaml rest = true) ∧ ¬ ['.', '.'] <:+: name.toList

instance (name : String) : Decidable (InGrammar name) :=
  match shape : name.toList with
  | [] => isFalse fun inGrammar => by
      obtain ⟨first, rest, same, _⟩ := inGrammar.1
      rw [shape] at same
      cases same
  | head :: tail =>
      decidable_of_iff (isAlnum head = true ∧
        (tail.all fun char => isAlnum char || char = '_' || char = '.' || char = '-') = true ∧
        endsInYaml tail = true ∧ ¬ ['.', '.'] <:+: name.toList) (by
          constructor
          · rintro ⟨leading, others, ending, noDots⟩
            exact ⟨⟨head, tail, shape, leading, others, ending⟩, noDots⟩
          · rintro ⟨⟨first, rest, same, leading, others, ending⟩, noDots⟩
            rw [shape] at same
            obtain ⟨rfl, rfl⟩ := List.cons.inj same
            exact ⟨leading, others, ending, noDots⟩)

/-- What a call answers, if anything, and the map after it; without an answer it
raises an `ArgumentError`. -/
def specify (library : Library) : Call → Option Answer × Library
  | .write name content =>
      if InGrammar name then (some (.count content.length), library.insert name content)
      else (none, library)
  | .read name =>
      if InGrammar name then ((library.lookup name).map Answer.content, library)
      else (none, library)
  | .delete name =>
      if InGrammar name ∧ name ∈ library then (some (.count 1), library.erase name)
      else (none, library)
  | .list => (some (.names library.keys.sort), library)

def specifyAll : Library → List Call → List (Option Answer) × Library
  | library, [] => ([], library)
  | library, call :: rest =>
      let (answer, middle) := specify library call
      let (answers, last) := specifyAll middle rest
      (answer :: answers, last)

end MultipassWebui.Multipass.Playbooks
