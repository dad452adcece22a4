import MultipassWebui.Multipass.HostReadings
import MultipassWebui.Multipass.SizeStrings

/-!
# What the dashboard shows of a Mac

The same for the sources of the other system: `sysctl`, `vm_stat` and `df`.
Pages count as 4096 bytes each, and the total memory is missing without a
complaint where `sysctl` cannot tell it.
-/

namespace MultipassWebui.Multipass.HostResources

open MultipassWebui.Effect
open MultipassWebui.Numbers
open MultipassWebui.Text

/-! ## Loads and bytes -/

/-- The loads in braces. -/
def TellsBracedLoads (text : List Char) (loads : Option Loads) : Prop :=
  ∃ inner blanks, text = '{' :: inner ++ '}' :: blanks ∧
    (∀ char ∈ inner, char ≠ '{' ∧ char ≠ '}') ∧ (∀ char ∈ blanks, isStripped char = true) ∧
    TellsLoads inner loads

theorem firstThree_of_braced {text : String} {loads : Option Loads}
    (tells : TellsBracedLoads text.toList loads) :
    firstThree (words ((strip text).toList.filter fun char => char ≠ '{' && char ≠ '}')) =
      loads.map Loads.shown := by
  rcases tells with ⟨inner, blanks, shape, noBrace, areBlank, told⟩
  have whole : text = String.ofList ([] ++ ('{' :: inner ++ ['}']) ++ blanks) := by
    rw [← String.toList_inj, String.toList_ofList, shape]
    simp
  have stripped : (strip text).toList = '{' :: inner ++ ['}'] := by
    rw [whole]
    apply toList_strip_of_blanks (List.forall_mem_nil _) areBlank
    · intro char isHead
      cases isHead
      decide
    · intro char isLast
      rw [List.getLast?_append_of_ne_nil _ (List.cons_ne_nil _ _)] at isLast
      cases isLast
      decide
    · simp
  have kept : inner.filter (fun char => char ≠ '{' && char ≠ '}') = inner := by
    rw [List.filter_eq_self]
    intro char member
    simpa using noBrace char member
  have braceless : ('{' :: inner ++ ['}']).filter (fun char => char ≠ '{' && char ≠ '}') =
      inner := by
    rw [List.filter_append, List.filter_cons_of_neg (by decide), kept]
    simp
  rw [stripped, braceless]
  exact firstThree_of_tells told

/-- A number and blanks; every text is read as a number. -/
def TellsBytes (text : List Char) : Option ℕ → Prop
  | some bytes => ∃ blanks, text = Nat.toDigits 10 bytes ++ blanks ∧
      ∀ char ∈ blanks, isStripped char = true
  | none => False

theorem toI_of_tellsBytes {text : String} {bytes : Option ℕ}
    (tells : TellsBytes text.toList bytes) :
    some (toI (strip text).toList) = bytes.map Nat.cast := by
  cases bytes with
  | none => exact tells.elim
  | some bytes =>
      rcases tells with ⟨blanks, shape, areBlank⟩
      have whole : text = String.ofList ([] ++ Nat.toDigits 10 bytes ++ blanks) := by
        rw [← String.toList_inj, String.toList_ofList, shape]
        rfl
      have stripped : (strip text).toList = Nat.toDigits 10 bytes := by
        rw [whole]
        apply toList_strip_of_blanks (List.forall_mem_nil _) areBlank
        · intro char isHead
          exact not_isStripped_of_isDigit (toDigits_isDigit (List.mem_of_mem_head? isHead))
        · intro char isLast
          exact not_isStripped_of_isDigit (toDigits_isDigit (List.mem_of_mem_getLast? isLast))
        · exact Nat.toDigits_ne_nil
      rw [stripped, toI_toDigits]
      rfl

/-! ## Pages -/

/-- A number behind blanks, with a dot behind it. -/
def CountsPages (text : List Char) (count : ℕ) : Prop :=
  ∃ gap, (∀ char ∈ gap, isStripped char = true) ∧ text = gap ++ Nat.toDigits 10 count ++ ['.']

/-- What is stripped of a line that does not begin with a blank is at its end. -/
theorem strip_entryLine {entry : List Char × List Char}
    (first : ∀ char ∈ entry.1.head?, isStripped char = false) :
    (strip (String.ofList (entryLine entry))).toList =
      entryLine (entry.1, entry.2.rdropWhile isStripped) := by
  rcases entry with ⟨own, given⟩
  have begins : (own ++ ':' :: given).dropWhile isStripped = own ++ ':' :: given := by
    cases own with
    | nil => exact List.dropWhile_cons_of_neg (by decide)
    | cons head rest =>
        apply List.dropWhile_cons_of_neg
        rw [first head rfl]
        exact Bool.false_ne_true
  rw [toList_strip, String.toList_ofList, entryLine, begins,
    rdropWhile_append_cons (by decide) own given]
  rfl

/-- The value of a line of `vm_stat`. -/
def pageValue (label given : List Char) : ℤ :=
  DarwinCollector.parseVmStatValue (strip (String.ofList (entryLine (label, given)))).toList

theorem pageValue_of_counts {label given : List Char} {count : ℕ}
    (first : ∀ char ∈ label.head?, isStripped char = false) (plain : ':' ∉ label)
    (counts : CountsPages given count) : pageValue label given = count := by
  rcases counts with ⟨gap, areBlank, rfl⟩
  have kept : (gap ++ Nat.toDigits 10 count ++ ['.']).rdropWhile isStripped =
      gap ++ Nat.toDigits 10 count ++ ['.'] :=
    rdropWhile_append_cons (by decide) _ []
  have upTo : (label ++ ':' :: (gap ++ Nat.toDigits 10 count ++ ['.'])).dropWhile
      (fun char => char ≠ ':') = ':' :: (gap ++ Nat.toDigits 10 count ++ ['.']) := by
    rw [List.dropWhile_append_of_pos]
    · exact List.dropWhile_cons_of_neg (by decide)
    · intro char member
      exact decide_eq_true fun same => plain (same ▸ member)
  have stripped : (strip (String.ofList (gap ++ Nat.toDigits 10 count ++ ['.']))).toList =
      Nat.toDigits 10 count ++ ['.'] := by
    have whole := @toList_strip_of_blanks gap (Nat.toDigits 10 count ++ ['.']) [] areBlank
      (List.forall_mem_nil _)
    rw [List.append_nil, ← List.append_assoc] at whole
    apply whole
    · intro char isHead
      rw [List.head?_append_of_ne_nil _ Nat.toDigits_ne_nil] at isHead
      exact not_isStripped_of_isDigit (toDigits_isDigit (List.mem_of_mem_head? isHead))
    · intro char isLast
      rw [List.getLast?_append_of_ne_nil _ (List.cons_ne_nil _ _)] at isLast
      cases isLast
      decide
    · simp
  have noDot : '.' ∉ Nat.toDigits 10 count := by
    intro member
    exact absurd (toDigits_isDigit member) (by decide)
  have erased : (Nat.toDigits 10 count ++ ['.']).erase '.' = Nat.toDigits 10 count := by
    rw [List.erase_append_right _ noDot]
    simp
  rw [pageValue, strip_entryLine first, kept, DarwinCollector.parseVmStatValue, entryLine, upTo]
  simp only [stripped, erased, toI_toDigits]

/-- The lines of `vm_stat`: none begins with a blank, and three of them count pages. -/
structure TellsVmStat (text : List Char) (active wired compressed : ℕ) : Prop where
  told : ∃ entries, text = entriesText entries ∧ AreEntries entries ∧
    (∀ entry ∈ entries, ∀ char ∈ entry.1.head?, isStripped char = false) ∧
    Labels CountsPages entries "Pages active".toList active ∧
    Labels CountsPages entries "Pages wired down".toList wired ∧
    Labels CountsPages entries "Pages occupied by compressor".toList compressed

open DarwinCollector (VmStat)

/-- What a line makes of the registers, by its label. -/
theorem read_entryLine {entry : List Char × List Char} {active wired compressed : List Char}
    (pages : VmStat) {rest : List Char}
    (stripped : (strip (String.ofList (entryLine entry))).toList = entryLine (entry.1, rest))
    (isActive : "Pages active:".toList.isPrefixOf (entryLine (entry.1, rest)) = true ↔
      entry.1 = active)
    (isWired : "Pages wired down:".toList.isPrefixOf (entryLine (entry.1, rest)) = true ↔
      entry.1 = wired)
    (isCompressed : "Pages occupied by compressor:".toList.isPrefixOf
      (entryLine (entry.1, rest)) = true ↔ entry.1 = compressed) :
    VmStat.read pages (entryLine entry) =
      if entry.1 = active then { pages with active := pageValue active entry.2 }
      else if entry.1 = wired then { pages with wired := pageValue wired entry.2 }
      else if entry.1 = compressed then { pages with compressed := pageValue compressed entry.2 }
      else pages := by
  have value : DarwinCollector.parseVmStatValue (entryLine (entry.1, rest)) =
      pageValue entry.1 entry.2 := by rw [pageValue, stripped]
  unfold VmStat.read
  simp only [stripped, value]
  by_cases activeLine : entry.1 = active
  · rw [if_pos (isActive.mpr activeLine), if_pos activeLine, activeLine]
  · rw [if_neg (mt isActive.mp activeLine), if_neg activeLine]
    by_cases wiredLine : entry.1 = wired
    · rw [if_pos (isWired.mpr wiredLine), if_pos wiredLine, wiredLine]
    · rw [if_neg (mt isWired.mp wiredLine), if_neg wiredLine]
      by_cases compressedLine : entry.1 = compressed
      · rw [if_pos (isCompressed.mpr compressedLine), if_pos compressedLine, compressedLine]
      · rw [if_neg (mt isCompressed.mp compressedLine), if_neg compressedLine]

theorem foldl_read {text : List Char} {active wired compressed : ℕ}
    (tells : TellsVmStat text active wired compressed) :
    (text.splitOn '\n').foldl VmStat.read {} =
      ⟨(active : ℤ), (wired : ℤ), (compressed : ℤ)⟩ := by
  rcases tells.told with ⟨entries, rfl, areEntries, heads, isActive, isWired, isCompressed⟩
  have reads := fun pages (entry : List Char × List Char) member =>
    have own := areEntries.label entry member
    read_entryLine pages (strip_entryLine (heads entry member))
      (isPrefixOf_label "Pages active" (by decide) own (by decide))
      (isPrefixOf_label "Pages wired down" (by decide) own (by decide))
      (isPrefixOf_label "Pages occupied by compressor" (by decide) own (by decide))
  have notWired : "Pages active".toList ≠ "Pages wired down".toList := by decide
  have notActive : "Pages active".toList ≠ "Pages occupied by compressor".toList := by decide
  have different : "Pages wired down".toList ≠ "Pages occupied by compressor".toList := by decide
  have activeValue := fun given count => @pageValue_of_counts "Pages active".toList given count
    (by simp [isStripped, isWhite]) (by decide)
  have wiredValue := fun given count => @pageValue_of_counts "Pages wired down".toList given count
    (by simp [isStripped, isWhite]) (by decide)
  have compressedValue := fun given count =>
    @pageValue_of_counts "Pages occupied by compressor".toList given count
      (by simp [isStripped, isWhite]) (by decide)
  generalize "Pages active".toList = activeLabel at *
  generalize "Pages wired down".toList = wiredLabel at *
  generalize "Pages occupied by compressor".toList = compressedLabel at *
  have ignores : ∀ pages, VmStat.read pages [] = pages := fun _ => rfl
  have activeRead :
      (((entriesText entries).splitOn '\n').foldl VmStat.read {}).active = active := by
    apply foldl_of_labels (pageValue activeLabel) areEntries isActive _ ignores activeValue rfl
    intro pages entry member
    rw [reads pages entry member]
    simp only [apply_ite VmStat.active, ite_self]
  have wiredRead : (((entriesText entries).splitOn '\n').foldl VmStat.read {}).wired = wired := by
    apply foldl_of_labels (pageValue wiredLabel) areEntries isWired _ ignores wiredValue rfl
    intro pages entry member
    rw [reads pages entry member]
    by_cases wiredLine : entry.1 = wiredLabel
    · have other : entry.1 ≠ activeLabel := fun same => notWired (same.symm.trans wiredLine)
      rw [if_neg other, if_pos wiredLine, if_pos wiredLine]
    · simp only [if_neg wiredLine, apply_ite VmStat.wired, ite_self]
  have compressedRead :
      (((entriesText entries).splitOn '\n').foldl VmStat.read {}).compressed = compressed := by
    apply foldl_of_labels (pageValue compressedLabel) areEntries isCompressed _ ignores
      compressedValue rfl
    intro pages entry member
    rw [reads pages entry member]
    by_cases compressedLine : entry.1 = compressedLabel
    · have first : entry.1 ≠ activeLabel := fun same => notActive (same.symm.trans compressedLine)
      have second : entry.1 ≠ wiredLabel := fun same => different (same.symm.trans compressedLine)
      rw [if_neg first, if_neg second, if_pos compressedLine, if_pos compressedLine]
    · simp only [if_neg compressedLine, apply_ite VmStat.compressed, ite_self]
  rw [← activeRead, ← wiredRead, ← compressedRead]

/-- The pages of `vm_stat`; every text is read as some. -/
def TellsPages (text : List Char) : Option (ℕ × ℕ × ℕ) → Prop
  | some pages => TellsVmStat text pages.1 pages.2.1 pages.2.2
  | none => False

/-- The megabytes of pages of four kilobytes. -/
def shownPages (pages : ℕ × ℕ × ℕ) : ℤ :=
  ((pages.1 : ℤ) + pages.2.1 + pages.2.2) * 4096 / (1024 * 1024)

/-! ## The host -/

/-- What a Mac tells of itself, where its sources are of use. -/
structure DarwinHost where
  /-- The bytes of the memory. -/
  memory : Option ℕ
  loads : Option Loads
  /-- The active, the wired and the compressed pages. -/
  pages : Option (ℕ × ℕ × ℕ)
  /-- The total and the used kilobytes. -/
  disk : Option (ℕ × ℕ)

namespace DarwinHost

/-- The volume of the data tells of the disk; where there is none, the root does. -/
def TellsVolume (machine : Machine) (disk : Option (ℕ × ℕ)) : Prop :=
  match machine.capture3 ["df", "-k", "/System/Volumes/Data"] with
  | .error _ => disk = none
  | .ok result =>
      if result.success then TellsDisk result.stdout.toList disk
      else Source (machine.stdout ["df", "-k", "/"]) TellsDisk disk

/-- The sources of a machine tell of a host. -/
structure Told (host : DarwinHost) (machine : Machine) : Prop where
  memory : Source (machine.stdout ["sysctl", "-n", "hw.memsize"]) TellsBytes host.memory
  loads : Source (machine.stdout ["sysctl", "-n", "vm.loadavg"]) TellsBracedLoads host.loads
  pages : Source (machine.stdout ["vm_stat"]) TellsPages host.pages
  disk : TellsVolume machine host.disk

/-- What the dashboard shows of it; a page has four kilobytes. -/
def resources (host : DarwinHost) (totalCpus : ℕ) : HostResources where
  totalCpus
  loadAvg1 := host.loads.map fun loads => Double.ofRat loads.one.value
  loadAvg5 := host.loads.map fun loads => Double.ofRat loads.five.value
  loadAvg15 := host.loads.map fun loads => Double.ofRat loads.fifteen.value
  totalMemoryMb := host.memory.map fun bytes => (bytes : ℤ) / (1024 * 1024)
  usedMemoryMb := host.pages.map fun pages =>
    ((pages.1 : ℤ) + pages.2.1 + pages.2.2) * 4096 / (1024 * 1024)
  totalDiskMb := host.disk.map fun disk => (disk.1 : ℤ) / 1024
  usedDiskMb := host.disk.map fun disk => (disk.2 : ℤ) / 1024

/-- What it complains of, which is not the total memory. -/
def complaints (host : DarwinHost) : List String :=
  (match host.loads with
    | some _ => []
    | none => ["loadavg: parse failed"]) ++
  (match host.pages with
    | some _ => []
    | none => ["vm_stat: parse failed"]) ++
  (match host.disk with
    | some _ => []
    | none => ["disk: parse failed"])

end DarwinHost

theorem parseDiskUsageDarwin_of_tells {machine : Machine} {disk : Option (ℕ × ℕ)}
    (tells : DarwinHost.TellsVolume machine disk) :
    DarwinCollector.parseDiskUsageDarwin machine = disk.map shownDisk := by
  unfold DarwinHost.TellsVolume at tells
  unfold DarwinCollector.parseDiskUsageDarwin
  cases answer : machine.capture3 ["df", "-k", "/System/Volumes/Data"] with
  | error raised =>
      rw [answer] at tells
      have missing : disk = none := tells
      rw [missing]
      rfl
  | ok result =>
      rw [answer] at tells
      dsimp only at tells ⊢
      split_ifs at tells ⊢ with succeeded
      · exact parseDisk_of_tells tells
      · exact bind_of_source tells fun _ _ => parseDisk_of_tells

/-- On a Mac the dashboard shows what the sources tell, and each that is of no use but the one of
the total memory is reported and costs no other its fields. -/
theorem get_darwin {machine : Machine} {host : DarwinHost} (darwin : machine.runs "darwin")
    (told : host.Told machine) :
    get machine = (host.resources machine.nprocessors, host.complaints) := by
  have loads : DarwinCollector.parseLoadavgDarwin machine = host.loads.map Loads.shown :=
    bind_of_source told.loads fun _ _ => firstThree_of_braced
  have pages : DarwinCollector.parseMemUsageDarwin machine = host.pages.map shownPages := by
    unfold DarwinCollector.parseMemUsageDarwin
    rw [Option.map_eq_bind]
    apply bind_of_source told.pages
    intro given reading tells
    cases reading with
    | none => exact tells.elim
    | some pages =>
        have read := foldl_read tells
        simp only [Function.comp, read]
        rfl
  have memory : DarwinCollector.parseIntFromCmd machine ["sysctl", "-n", "hw.memsize"] =
      host.memory.map Nat.cast := by
    unfold DarwinCollector.parseIntFromCmd
    rw [Option.map_eq_bind]
    exact bind_of_source told.memory fun _ _ => toI_of_tellsBytes
  rw [get, if_pos darwin, DarwinCollector.get, loads, pages, memory,
    parseDiskUsageDarwin_of_tells told.disk]
  rcases host with ⟨hostMemory, hostLoads, hostPages, hostDisk⟩
  cases hostMemory <;> cases hostLoads <;> cases hostPages <;> cases hostDisk <;> rfl

def samplePages : List (List Char × List Char) :=
  [("Mach Virtual Memory Statistics".toList, " (page size of 4096 bytes)".toList),
    ("Pages active".toList, "  256.".toList), ("Pages wired down".toList, " 512.".toList),
    ("Pages occupied by compressor".toList, " 256.".toList)]

def sampleRow : List (List Char × List Char) :=
  [([], ['d', 'f']), ([' '], Nat.toDigits 10 4096), ([' '], Nat.toDigits 10 2048),
    ([' '], ['5', '0', '%']), ([' '], ['/'])]

/-- A Mac whose memory is not told, and whose data has no volume of its own. -/
def sampleMac : Machine where
  hostOs := "darwin23"
  nprocessors := 8
  readFile _ := .error (.systemCallError "ENOENT")
  capture3 command :=
    match command with
    | ["vm_stat"] => .ok ⟨String.ofList (entriesText samplePages), "", true, 0⟩
    | ["sysctl", "-n", "vm.loadavg"] =>
        .ok ⟨String.ofList ('{' :: (spaced sampleCells ++ [' ']) ++ ['}', '\n']), "", true, 0⟩
    | ["df", "-k", "/"] =>
        .ok ⟨String.ofList ("Filesystem\n".toList ++ spaced sampleRow ++ ['\n']), "", true, 0⟩
    | _ => .ok ⟨"", "", false, 1⟩

theorem get_darwin_withoutMemory :
    get sampleMac =
      ({ totalCpus := 8
         loadAvg1 := some (Double.ofRat sampleLoads.one.value)
         loadAvg5 := some (Double.ofRat sampleLoads.five.value)
         loadAvg15 := some (Double.ofRat sampleLoads.fifteen.value)
         usedMemoryMb := some 4
         totalDiskMb := some 4
         usedDiskMb := some 2 },
        []) := by
  apply @get_darwin sampleMac ⟨none, some sampleLoads, some (256, 512, 256), some (4096, 2048)⟩
  · decide
  · constructor
    · intro given isGiven
      cases isGiven
    · have noBrace : (spaced sampleCells ++ [' ']).all
          (fun char => char ≠ '{' && char ≠ '}') = true := by decide
      refine ⟨_, rfl, _, ['\n'], String.toList_ofList, ?_, by simp [isStripped, isWhite], [], ?_⟩
      · intro char member
        have plain := List.all_eq_true.mp noBrace char member
        simpa using plain
      exact ⟨sampleCells, [' '], by decide, by simp [isWhite], rfl, rfl⟩
    · refine ⟨_, rfl, ⟨samplePages, String.toList_ofList, by decide, ?_, ?_, ?_, ?_⟩⟩
      · simp [samplePages, isStripped, isWhite]
      · exact Or.inr ⟨_, rfl, [' ', ' '], by simp [isStripped, isWhite], by decide⟩
      · exact Or.inr ⟨_, rfl, [' '], by simp [isStripped, isWhite], by decide⟩
      · exact Or.inr ⟨_, rfl, [' '], by simp [isStripped, isWhite], by decide⟩
    · refine ⟨_, rfl, spaced sampleRow, ['d', 'f'], ['5', '0', '%'], [['/']], ?_, ?_⟩
      · refine ⟨⟨_, ['\n'], String.toList_ofList, Or.inr (by decide),
            by simp [isStripped, isWhite]⟩,
          by decide, by decide, by simp [sampleRow, spaced, isStripped, isWhite], ?_⟩
        intro char isLast
        rw [← Option.some.inj isLast]
        decide
      · exact ⟨sampleRow, [], by decide, List.forall_mem_nil _, (List.append_nil _).symm, rfl⟩

end MultipassWebui.Multipass.HostResources
