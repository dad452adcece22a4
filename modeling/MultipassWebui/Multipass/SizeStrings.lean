import MultipassWebui.Multipass.Names

/-!
# Sizes that are written and read

The two parsers against the bytes that a size stands for, and the sizes that
`set_vm_memory` and `set_vm_disk` write.
-/

namespace MultipassWebui.Multipass

open MultipassWebui.Effect
open MultipassWebui.Encoding
open MultipassWebui.Numbers
open MultipassWebui.Text

theorem not_isStripped_of_suffix {unit : SizeUnit} {suffix : String}
    (isSuffix : suffix ∈ unit.suffixes) {char : Char} (member : char ∈ suffix.toList) :
    isStripped char = false := by
  have letters : unit.suffixes.all (fun suffix =>
      suffix.toList.all fun char => !isStripped char) = true := by
    cases unit <;> decide
  have letter := List.all_eq_true.mp (List.all_eq_true.mp letters suffix isSuffix) char member
  exact Bool.not_eq_true' _ ▸ letter

/-- A number and a suffix between blanks spell a size. -/
theorem spells_of_blanks (value : ℕ) {unit : SizeUnit} {suffix : String}
    {before after : List Char} (isSuffix : suffix ∈ unit.suffixes)
    (blankBefore : ∀ char ∈ before, isStripped char = true)
    (blankAfter : ∀ char ∈ after, isStripped char = true) :
    Spells (String.ofList before ++ toString value ++ suffix ++ String.ofList after) value
      unit := by
  have written : String.ofList before ++ toString value ++ suffix ++ String.ofList after =
      String.ofList (before ++ (Nat.toDigits 10 value ++ suffix.toList) ++ after) := by
    rw [← String.toList_inj]
    simp [Nat.toList_repr]
  have plain : ∀ char ∈ Nat.toDigits 10 value ++ suffix.toList, isStripped char = false := by
    intro char member
    rcases List.mem_append.mp member with digit | letter
    · exact not_isStripped_of_isDigit (toDigits_isDigit digit)
    · exact not_isStripped_of_suffix isSuffix letter
  refine ⟨suffix, isSuffix, ?_⟩
  rw [written]
  apply toList_strip_of_blanks blankBefore blankAfter
  · intro char first
    exact plain char (List.mem_of_mem_head? first)
  · intro char last
    exact plain char (List.mem_of_mem_getLast? last)
  · simp [Nat.toDigits_ne_nil]

/-- A size without blanks. -/
theorem spells_plain (value : ℕ) {unit : SizeUnit} {suffix : String}
    (isSuffix : suffix ∈ unit.suffixes) : Spells (toString value ++ suffix) value unit := by
  have spells := spells_of_blanks value isSuffix (List.forall_mem_nil _) (List.forall_mem_nil _)
  simpa using spells

/-! ## Against the bytes -/

/-- Both parsers give the size that the text stands for, rounded down. -/
structure SizesConsistent (value : ℕ) (unit : SizeUnit) (s : String) : Prop where
  memory : parseMemoryToMb s = .ok (value * unit.bytes / 2 ^ 20 : ℕ)
  disk : parseDiskToGb s = .ok (value * unit.bytes / 2 ^ 30 : ℕ)
  agree : parseDiskToGb s = (parseMemoryToMb s).map (· / 1024)

theorem sizesConsistent_iff {value : ℕ} {unit : SizeUnit} {s : String}
    (spells : Spells s value unit) (small : value < 2 ^ 53) :
    SizesConsistent value unit s ↔ (unit = .kibi → value < 2 ^ 20) := by
  have memory := parseMemoryToMb_of_spells spells small
  have disk := parseDiskToGb_of_spells spells small
  constructor
  · intro consistent kibi
    have same := disk.symm.trans consistent.disk
    rw [if_pos kibi, kibi] at same
    have equal := Int.natCast_inj.mp (Except.ok.inj same)
    simp only [SizeUnit.bytes] at equal
    omega
  · intro condition
    have amount : value * (if unit = .kibi then 1 else unit.bytes) / 2 ^ 30 =
        value * unit.bytes / 2 ^ 30 := by
      by_cases kibi : unit = .kibi
      · have bound := condition kibi
        rw [if_pos kibi, kibi]
        simp only [SizeUnit.bytes]
        omega
      · rw [if_neg kibi]
    rw [amount] at disk
    refine ⟨memory, disk, ?_⟩
    rw [disk, memory]
    refine congrArg Except.ok ?_
    have nested : value * unit.bytes / 2 ^ 20 / 1024 = value * unit.bytes / 2 ^ 30 := by
      rw [Nat.div_div_eq_div_mul, show 2 ^ 20 * 1024 = 2 ^ 30 from rfl]
    rw [← nested]
    rfl

/-! ## Sizes that are set -/

/-- A command that asks for a value prints it. -/
def Prints (env : Environment) (position : ℕ) (key text : String) : Prop :=
  ∃ stderr exitstatus, env.runner position ["get", key] = .ok ⟨text, stderr, true, exitstatus⟩

theorem run_of_prints {env : Environment} {host : Host} {key text : String}
    (prints : Prints env host.commands.length key text) :
    run env [.literal "get", .given key] host =
      (.ok (strip text), host.issue [.literal "get", .given key] true) := by
  rcases prints with ⟨stderr, exitstatus, answer⟩
  have captured : capture env [.literal "get", .given key] host =
      (.ok text, host.issue [.literal "get", .given key] true) := by
    simp only [capture, List.map_cons, List.map_nil, Word.text, answer]
  rw [run, Exec.bind_ok captured]
  rfl

/-- What is set is `nM` and `nG`, and it is read back from there as `n`. -/
structure ReadBack (memoryMb diskGb : ℕ) : Prop where
  setMemory : ∀ (env : Environment) (name : String) (host : Host), IsVmName name →
    ((setVmMemory env (.string name) memoryMb host).2.commands.map Command.argv) =
      host.commands.map Command.argv ++ [[.literal "set",
        .given ("local." ++ name ++ ".memory=" ++ (toString memoryMb ++ "M"))]]
  setDisk : ∀ (env : Environment) (name : String) (host : Host), IsVmName name →
    ((setVmDisk env (.string name) diskGb host).2.commands.map Command.argv) =
      host.commands.map Command.argv ++ [[.literal "set",
        .given ("local." ++ name ++ ".disk=" ++ (toString diskGb ++ "G"))]]
  read : ∀ (env : Environment) (name : String) (host : Host) (cpus : String), IsVmName name →
    Prints env host.commands.length ("local." ++ name ++ ".cpus") cpus →
    Prints env (host.commands.length + 1) ("local." ++ name ++ ".memory")
      (toString memoryMb ++ "M") →
    Prints env (host.commands.length + 2) ("local." ++ name ++ ".disk")
      (toString diskGb ++ "G") →
    (getVmConfig env (.string name) host).1 =
      .ok ⟨toI (strip (strip cpus)).toList, memoryMb, diskGb⟩

theorem setVm_commands (env : Environment) {name : String} (host : Host) (valid : IsVmName name)
    (key unit : String) (value : ℕ) :
    (setVm env key unit (.string name) value host).2.commands.map Command.argv =
      host.commands.map Command.argv ++ [[.literal "set",
        .given ("local." ++ name ++ ("." ++ key ++ "=") ++ (toString value ++ unit))]] := by
  rw [setVm, validateVmName_of_valid valid, Exec.pure_bind, run_state]
  simp [Host.issue, String.append_assoc]
  rfl

/-- What `run` prints of a size is the size. -/
theorem spells_strip {value : ℕ} {unit : SizeUnit} {s : String} (spells : Spells s value unit) :
    Spells (strip s) value unit := by
  rcases spells.stripped with ⟨suffix, isSuffix, text⟩
  have plain : strip s = toString value ++ suffix := by
    rw [← String.toList_inj, text, String.toList_append, Nat.toString_eq_repr, Nat.toList_repr]
  rw [plain]
  exact spells_plain value isSuffix

theorem readBack {memoryMb diskGb : ℕ} (memorySmall : memoryMb < 2 ^ 53)
    (diskSmall : diskGb < 2 ^ 53) : ReadBack memoryMb diskGb := by
  constructor
  · intro env name host valid
    exact setVm_commands env host valid "memory" "M" memoryMb
  · intro env name host valid
    exact setVm_commands env host valid "disk" "G" diskGb
  · intro env name host cpus valid printsCpus printsMemory printsDisk
    let first := host.issue [.literal "get", .given ("local." ++ name ++ ".cpus")] true
    let second := first.issue [.literal "get", .given ("local." ++ name ++ ".memory")] true
    have firstLength : first.commands.length = host.commands.length + 1 := by
      simp [first, Host.issue]
    have secondLength : second.commands.length = host.commands.length + 2 := by
      simp [second, first, Host.issue]
    have memory : parseMemoryToMb (strip (toString memoryMb ++ "M")) = .ok memoryMb := by
      have spells : Spells (strip (toString memoryMb ++ "M")) memoryMb .mebi :=
        spells_strip (spells_plain memoryMb (by decide))
      rw [parseMemoryToMb_of_spells spells memorySmall, SizeUnit.bytes,
        Nat.mul_div_cancel _ (by decide)]
    have disk : parseDiskToGb (strip (toString diskGb ++ "G")) = .ok diskGb := by
      have spells : Spells (strip (toString diskGb ++ "G")) diskGb .gibi :=
        spells_strip (spells_plain diskGb (by decide))
      rw [parseDiskToGb_of_spells spells diskSmall, if_neg (by decide), SizeUnit.bytes,
        Nat.mul_div_cancel _ (by decide)]
    rw [← firstLength] at printsMemory
    rw [← secondLength] at printsDisk
    rw [getVmConfig, validateVmName_of_valid valid, Exec.pure_bind,
      Exec.bind_ok (run_of_prints printsCpus), Exec.bind_ok (run_of_prints printsMemory),
      Exec.bind_ok (run_of_prints printsDisk), memory, disk]
    rfl

/-- Every size is read consistently but for kibibytes from a gibibyte on, and what
is set is read back. -/
theorem sizes_iff {value diskGb : ℕ} (small : value < 2 ^ 53) (diskSmall : diskGb < 2 ^ 53)
    {unit : SizeUnit} {suffix : String} (isSuffix : suffix ∈ unit.suffixes)
    {before after : List Char} (blankBefore : ∀ char ∈ before, isStripped char = true)
    (blankAfter : ∀ char ∈ after, isStripped char = true) :
    (SizesConsistent value unit
        (String.ofList before ++ toString value ++ suffix ++ String.ofList after) ↔
      (unit = .kibi → value < 2 ^ 20)) ∧ ReadBack value diskGb :=
  ⟨sizesConsistent_iff (spells_of_blanks value isSuffix blankBefore blankAfter) small,
    readBack small diskSmall⟩

theorem sizes_iff_mebibytes :
    (SizesConsistent 512 .mebi
        (String.ofList [' '] ++ toString 512 ++ "MiB" ++ String.ofList ['\n']) ↔
      (SizeUnit.mebi = .kibi → 512 < 2 ^ 20)) ∧ ReadBack 512 8 :=
  sizes_iff (by decide) (by decide) (by decide) (by simp [isStripped, isWhite])
    (by simp [isStripped, isWhite])

/-- A gibibyte of kibibytes is read as no gigabyte. -/
theorem kibibytes_lost :
    parseDiskToGb "1048576K" = .ok 0 ∧ parseMemoryToMb "1048576K" = .ok 1024 ∧
      ¬ SizesConsistent 1048576 .kibi "1048576K" := by
  have spells : Spells "1048576K" 1048576 .kibi :=
    @spells_plain 1048576 .kibi "K" (by decide)
  have disk := parseDiskToGb_of_spells spells (by decide)
  have memory := parseMemoryToMb_of_spells spells (by decide)
  refine ⟨disk, memory, fun consistent => ?_⟩
  exact absurd ((sizesConsistent_iff spells (by decide)).mp consistent rfl) (by decide)

end MultipassWebui.Multipass
