import MultipassWebui.Multipass.HostResources
import MultipassWebui.Text.Entries
import MultipassWebui.Text.Integers

/-!
# What the dashboard shows of the host

The collectors against a host that is known: what each source tells of it, or
that the source is of no use.  The dashboard shows what the sources tell, and a
source that is of no use costs its own fields and nothing else.
-/

namespace MultipassWebui.Multipass.HostResources

open MultipassWebui.Effect
open MultipassWebui.Numbers
open MultipassWebui.Text

/-! ## Loads -/

structure Loads where
  one : Decimal
  five : Decimal
  fifteen : Decimal

/-- The words of the loads. -/
def Loads.words (loads : Loads) : List (List Char) :=
  [loads.one.text, loads.five.text, loads.fifteen.text]

def Loads.shown (loads : Loads) : Double × Double × Double :=
  (Double.ofRat loads.one.value, Double.ofRat loads.five.value, Double.ofRat loads.fifteen.value)

/-- A line begins with the loads, or has too few words for them. -/
def TellsLoads (line : List Char) : Option Loads → Prop
  | some loads => ∃ more, HasWords line (loads.words ++ more)
  | none => ∃ given, HasWords line given ∧ given.length < 3

theorem firstThree_of_tells {line : List Char} {loads : Option Loads}
    (tells : TellsLoads line loads) : firstThree (words line) = loads.map Loads.shown := by
  cases loads with
  | some loads =>
      rcases tells with ⟨more, hasWords⟩
      rw [hasWords.words]
      simp only [Loads.words, List.cons_append, List.nil_append, firstThree, Decimal.toF_text]
      rfl
  | none =>
      rcases tells with ⟨given, hasWords, few⟩
      rw [hasWords.words]
      rcases given with _ | ⟨one, _ | ⟨two, _ | ⟨three, more⟩⟩⟩
      · rfl
      · rfl
      · rfl
      · simp only [List.length_cons] at few
        omega

/-! ## Disks -/

/-- A text and its last line, which neither begins nor ends with what is stripped. -/
structure EndsIn (text row : List Char) : Prop where
  shape : ∃ header blanks, text = header ++ row ++ blanks ∧
    (header = [] ∨ header.getLast? = some '\n') ∧ ∀ char ∈ blanks, isStripped char = true
  line : '\n' ∉ row
  nonempty : row ≠ []
  first : ∀ char ∈ row.head?, isStripped char = false
  last : ∀ char ∈ row.getLast?, isStripped char = false

/-- The last line is the last one of the stripped text. -/
theorem EndsIn.getLast?_split {text : String} {row : List Char} (endsIn : EndsIn text.toList row) :
    (split '\n' (strip text).toList).getLast? = some row := by
  rcases endsIn.shape with ⟨header, blanks, shape, ends, areBlank⟩
  have parts : header.takeWhile isStripped ++ header.dropWhile isStripped = header :=
    List.takeWhile_append_dropWhile
  let kept := header.dropWhile isStripped
  have whole : text = String.ofList (header.takeWhile isStripped ++ (kept ++ row) ++ blanks) := by
    rw [← String.toList_inj, String.toList_ofList, shape, ← List.append_assoc, parts]
  have first : ∀ char ∈ (kept ++ row).head?, isStripped char = false := by
    intro char isHead
    cases shapeKept : kept with
    | nil =>
        rw [shapeKept, List.nil_append] at isHead
        exact endsIn.first char isHead
    | cons head rest =>
        have notStripped := List.head?_dropWhile_not isStripped header
        rw [show header.dropWhile isStripped = kept from rfl, shapeKept] at notStripped
        rw [shapeKept] at isHead
        cases isHead
        exact notStripped
  have last : ∀ char ∈ (kept ++ row).getLast?, isStripped char = false := by
    rw [List.getLast?_append_of_ne_nil _ endsIn.nonempty]
    exact endsIn.last
  have given : kept ++ row ≠ [] := List.append_ne_nil_of_right_ne_nil _ endsIn.nonempty
  have stripped : (strip text).toList = kept ++ row := by
    rw [whole]
    exact toList_strip_of_blanks (fun char => List.mem_takeWhile_imp) areBlank first last given
  have single : row.splitOn '\n' = [row] := List.splitOn_eq_singleton endsIn.line
  have pieces : ∃ front, (kept ++ row).splitOn '\n' = front ++ [row] := by
    rcases List.eq_nil_or_concat kept with nil | ⟨front, char, concat⟩
    · rw [nil]
      exact ⟨[], single⟩
    · have isEnd : char = '\n' := by
        have nonempty : kept ≠ [] := by simp [concat]
        have same : header.getLast? = kept.getLast? := by
          conv_lhs => rw [← parts]
          exact List.getLast?_append_of_ne_nil _ nonempty
        rcases ends with nil | ends
        · exact absurd (by simp [kept, nil]) nonempty
        · rw [same, concat] at ends
          simpa using ends
      rw [concat, isEnd]
      refine ⟨front.splitOn '\n', ?_⟩
      rw [List.concat_eq_append, List.append_assoc, List.singleton_append,
        List.splitOn_append_cons_self, single]
  rcases pieces with ⟨front, pieces⟩
  rw [stripped, split, pieces, List.rdropWhile_concat_neg]
  · simp
  · simpa using endsIn.nonempty

/-- The last line is that of a file system, or has too few words for one; or there is no line. -/
def TellsDisk (text : List Char) : Option (ℕ × ℕ) → Prop
  | some disk => ∃ row device available more, EndsIn text row ∧ HasWords row
      (device :: Nat.toDigits 10 disk.1 :: Nat.toDigits 10 disk.2 :: available :: more)
  | none => (∀ char ∈ text, isStripped char = true) ∨
      ∃ row given, EndsIn text row ∧ HasWords row given ∧ given.length < 4

def shownDisk (disk : ℕ × ℕ) : ℤ × ℤ := ((disk.1 : ℤ) / 1024, (disk.2 : ℤ) / 1024)

theorem parseDisk_of_tells {text : String} {disk : Option (ℕ × ℕ)}
    (tells : TellsDisk text.toList disk) : parseDisk text = disk.map shownDisk := by
  cases disk with
  | some disk =>
      rcases tells with ⟨row, device, available, more, endsIn, hasWords⟩
      rw [parseDisk, endsIn.getLast?_split, Option.map_some, hasWords.words]
      simp only [toI_toDigits]
      rfl
  | none =>
      rcases tells with blank | ⟨row, given, endsIn, hasWords, few⟩
      · have empty : (strip text).toList = [] := by
          rw [toList_strip, List.dropWhile_eq_nil_iff.mpr blank]
          rfl
        rw [parseDisk, empty]
        rfl
      · rw [parseDisk, endsIn.getLast?_split, Option.map_some, hasWords.words]
        rcases given with _ | ⟨one, _ | ⟨two, _ | ⟨three, _ | ⟨four, more⟩⟩⟩⟩
        · rfl
        · rfl
        · rfl
        · rfl
        · simp only [List.length_cons] at few
          omega

/-! ## Memory on Linux -/

/-- A number behind blanks, and its unit. -/
def Counts (text : List Char) (count : ℕ) : Prop :=
  ∃ gap units, gap ≠ [] ∧ (∀ char ∈ gap, isWhite char = true) ∧
    text = gap ++ Nat.toDigits 10 count ++ units ∧ ∀ char ∈ units.head?, isWhite char = true

theorem isWord_toDigits (count : ℕ) : IsWord (Nat.toDigits 10 count) where
  nonempty := Nat.toDigits_ne_nil
  solid _ member := isWhite_of_isDigit (toDigits_isDigit member)

theorem secondField_of_counts {label text : List Char} {count : ℕ}
    (isWord : IsWord (label ++ [':'])) (counts : Counts text count) :
    LinuxCollector.secondField (entryLine (label, text)) = count := by
  rcases counts with ⟨gap, units, given, areBlank, rfl, ends⟩
  have line : entryLine (label, gap ++ Nat.toDigits 10 count ++ units) =
      label ++ [':'] ++ (gap ++ (Nat.toDigits 10 count ++ units)) := by simp [entryLine]
  have follows : ∀ char ∈ (gap ++ (Nat.toDigits 10 count ++ units)).head?,
      isWhite char = true := by
    rcases List.exists_cons_of_ne_nil given with ⟨blank, blanks, rfl⟩
    intro char isHead
    cases isHead
    exact areBlank blank List.mem_cons_self
  rw [LinuxCollector.secondField, line, isWord.words_append follows,
    words_blanks_append _ areBlank, (isWord_toDigits count).words_append ends]
  exact toI_toDigits count

/-- What a label counts, which is nothing where the label is missing. -/
def Labels (counts : List Char → ℕ → Prop) (entries : List (List Char × List Char))
    (label : List Char) (count : ℕ) : Prop :=
  (entries.lookup label = none ∧ count = 0) ∨
    ∃ given, entries.lookup label = some given ∧ counts given count

/-- A register that keeps the value of a label ends up with what the label counts. -/
theorem foldl_of_labels {σ : Type} {step : σ → List Char → σ} {register : σ → ℤ}
    {counts : List Char → ℕ → Prop} {entries : List (List Char × List Char)}
    {label : List Char} {count : ℕ} {state : σ} (value : List Char → ℤ)
    (areEntries : AreEntries entries) (labels : Labels counts entries label count)
    (reads : ∀ state, ∀ entry ∈ entries, register (step state (entryLine entry)) =
      if entry.1 = label then value entry.2 else register state)
    (ignores : ∀ state, step state [] = state)
    (valued : ∀ text count, counts text count → value text = count)
    (start : register state = 0) :
    register (((entriesText entries).splitOn '\n').foldl step state) = count := by
  rw [splitOn_entriesText areEntries.line, List.foldl_append, List.foldl_cons, List.foldl_nil,
    ignores, foldl_register reads areEntries.distinct]
  rcases labels with ⟨absent, rfl⟩ | ⟨given, found, isCount⟩
  · rw [absent, Option.map_none, Option.getD_none, start]
    rfl
  · rw [found, Option.map_some, Option.getD_some, valued given count isCount]

/-- The lines of `/proc/meminfo`. -/
structure TellsMeminfo (text : List Char) (total available : ℕ) : Prop where
  told : ∃ entries, text = entriesText entries ∧ AreEntries entries ∧
    Labels Counts entries "MemTotal".toList total ∧
      Labels Counts entries "MemAvailable".toList available

/-- The total is missing or zero where the file is of no use. -/
def TellsMemory (text : List Char) : Option (ℕ × ℕ) → Prop
  | some memory => memory.1 ≠ 0 ∧ TellsMeminfo text memory.1 memory.2
  | none => ∃ available, TellsMeminfo text 0 available

def shownMemory (memory : ℕ × ℕ) : ℤ × ℤ :=
  ((memory.1 : ℤ) / 1024, ((memory.1 : ℤ) - memory.2) / 1024)

theorem isPrefixOf_label {entry : List Char × List Char} (label : String) {whole : String}
    (plain : ':' ∉ label.toList) (own : ':' ∉ entry.1) (same : label ++ ":" = whole) :
    whole.toList.isPrefixOf (entryLine entry) = true ↔ entry.1 = label.toList := by
  rw [← same, String.toList_append]
  exact isPrefixOf_entryLine plain own

theorem isWord_label {label : List Char} (solid : label.all (fun char => !isWhite char) = true) :
    IsWord (label ++ [':']) where
  nonempty := by simp
  solid char member := by
    rcases List.mem_append.mp member with early | last
    · have plain := List.all_eq_true.mp solid char early
      simpa using plain
    · rw [List.mem_singleton.mp last]
      decide

/-- What a line makes of the registers, by its label. -/
theorem readMeminfo_entryLine {entry : List Char × List Char} {total available : List Char}
    (state : ℤ × ℤ)
    (isTotal : "MemTotal:".toList.isPrefixOf (entryLine entry) = true ↔ entry.1 = total)
    (isAvailable : "MemAvailable:".toList.isPrefixOf (entryLine entry) = true ↔
      entry.1 = available) :
    LinuxCollector.readMeminfo state (entryLine entry) =
      if entry.1 = total then (LinuxCollector.secondField (entryLine (total, entry.2)), state.2)
      else if entry.1 = available then
        (state.1, LinuxCollector.secondField (entryLine (available, entry.2)))
      else state := by
  rcases entry with ⟨own, given⟩
  unfold LinuxCollector.readMeminfo
  by_cases totalLine : own = total
  · rw [if_pos (isTotal.mpr totalLine), if_pos totalLine, totalLine]
  · rw [if_neg (mt isTotal.mp totalLine), if_neg totalLine]
    by_cases availableLine : own = available
    · rw [if_pos (isAvailable.mpr availableLine), if_pos availableLine, availableLine]
    · rw [if_neg (mt isAvailable.mp availableLine), if_neg availableLine]

theorem foldl_readMeminfo {text : List Char} {total available : ℕ}
    (tells : TellsMeminfo text total available) :
    (text.splitOn '\n').foldl LinuxCollector.readMeminfo (0, 0) =
      ((total : ℤ), (available : ℤ)) := by
  rcases tells.told with ⟨entries, rfl, areEntries, isTotal, isAvailable⟩
  have reads := fun state (entry : List Char × List Char) member => readMeminfo_entryLine state
    (isPrefixOf_label "MemTotal" (by decide) (areEntries.label entry member) (by decide))
    (isPrefixOf_label "MemAvailable" (by decide) (areEntries.label entry member) (by decide))
  have different : "MemTotal".toList ≠ "MemAvailable".toList := by decide
  have totalWord : IsWord ("MemTotal".toList ++ [':']) := isWord_label (by decide)
  have availableWord : IsWord ("MemAvailable".toList ++ [':']) := isWord_label (by decide)
  generalize "MemTotal".toList = totalLabel at *
  generalize "MemAvailable".toList = availableLabel at *
  apply Prod.ext
  · apply foldl_of_labels
      (fun given => LinuxCollector.secondField (entryLine (totalLabel, given)))
      areEntries isTotal
    · intro state entry member
      rw [reads state entry member]
      split_ifs
      · rfl
      · rfl
      · rfl
    · intro state
      rfl
    · intro given count counts
      exact secondField_of_counts totalWord counts
    · rfl
  · apply foldl_of_labels
      (fun given => LinuxCollector.secondField (entryLine (availableLabel, given)))
      areEntries isAvailable
    · intro state entry member
      rw [reads state entry member]
      split_ifs with totalLine availableLine availableLine
      · exact absurd (totalLine.symm.trans availableLine) different
      · rfl
      · rfl
      · rfl
    · intro state
      rfl
    · intro given count counts
      exact secondField_of_counts availableWord counts
    · rfl

/-! ## Linux -/

/-- What a host tells of itself, where its sources are of use. -/
structure LinuxHost where
  loads : Option Loads
  /-- The total and the available kilobytes. -/
  memory : Option (ℕ × ℕ)
  /-- The total and the used kilobytes. -/
  disk : Option (ℕ × ℕ)

/-- A source cannot be read, or tells of a part of the host. -/
def Source {α : Type} (text : Option String) (tells : List Char → Option α → Prop) :
    Option α → Prop
  | some reading => ∃ given, text = some given ∧ tells given.toList (some reading)
  | none => ∀ given ∈ text, tells given.toList none

/-- What is made of a source is what it tells. -/
theorem bind_of_source {α β : Type} {text : Option String}
    {tells : List Char → Option α → Prop} {reading : Option α} {parse : String → Option β}
    {shown : α → β} (source : Source text tells reading)
    (reads : ∀ given reading, tells given.toList reading → parse given = reading.map shown) :
    text.bind parse = reading.map shown := by
  cases reading with
  | some reading =>
      rcases source with ⟨given, rfl, isTold⟩
      exact reads given _ isTold
  | none =>
      cases text with
      | none => rfl
      | some given => exact reads given none (source given rfl)

namespace LinuxHost

/-- The sources of a machine tell of a host. -/
structure Told (host : LinuxHost) (machine : Machine) : Prop where
  loads : Source (machine.contents "/proc/loadavg") TellsLoads host.loads
  memory : Source (machine.contents "/proc/meminfo") TellsMemory host.memory
  disk : Source (machine.stdout ["df", "-k", "/"]) TellsDisk host.disk

/-- What the dashboard shows of it. -/
def resources (host : LinuxHost) (totalCpus : ℕ) : HostResources where
  totalCpus
  loadAvg1 := host.loads.map fun loads => Double.ofRat loads.one.value
  loadAvg5 := host.loads.map fun loads => Double.ofRat loads.five.value
  loadAvg15 := host.loads.map fun loads => Double.ofRat loads.fifteen.value
  totalMemoryMb := host.memory.map fun memory => (memory.1 : ℤ) / 1024
  usedMemoryMb := host.memory.map fun memory => ((memory.1 : ℤ) - memory.2) / 1024
  totalDiskMb := host.disk.map fun disk => (disk.1 : ℤ) / 1024
  usedDiskMb := host.disk.map fun disk => (disk.2 : ℤ) / 1024

/-- What it complains of. -/
def complaints (host : LinuxHost) : List String :=
  (match host.loads with
    | some _ => []
    | none => ["loadavg: parse failed"]) ++
  (match host.memory with
    | some _ => []
    | none => ["meminfo: parse failed"]) ++
  (match host.disk with
    | some _ => []
    | none => ["disk: parse failed"])

end LinuxHost

theorem parseMeminfo_of_tells {text : String} {memory : Option (ℕ × ℕ)}
    (tells : TellsMemory text.toList memory) :
    (let read := (text.toList.splitOn '\n').foldl LinuxCollector.readMeminfo (0, 0)
     if read.1 = 0 then none else some (read.1 / 1024, (read.1 - read.2) / 1024)) =
      memory.map shownMemory := by
  cases memory with
  | some memory =>
      rcases tells with ⟨nonzero, tells⟩
      rw [foldl_readMeminfo tells]
      simp only [Nat.cast_eq_zero, if_neg nonzero]
      rfl
  | none =>
      rcases tells with ⟨available, tells⟩
      rw [foldl_readMeminfo tells]
      rfl

/-- On Linux the dashboard shows what the sources tell, and each that is of no use is reported
and costs no other its fields. -/
theorem get_linux {machine : Machine} {host : LinuxHost} (linux : machine.runs "linux")
    (notDarwin : ¬ machine.runs "darwin") (told : host.Told machine) :
    get machine = (host.resources machine.nprocessors, host.complaints) := by
  have loads : LinuxCollector.parseLoadavgLinux machine = host.loads.map Loads.shown :=
    bind_of_source told.loads fun _ _ => firstThree_of_tells
  have memory : LinuxCollector.parseMeminfoLinux machine = host.memory.map shownMemory :=
    bind_of_source told.memory fun _ _ => parseMeminfo_of_tells
  have disk : LinuxCollector.parseDiskUsageLinux machine = host.disk.map shownDisk :=
    bind_of_source told.disk fun _ _ => parseDisk_of_tells
  rw [get, if_neg notDarwin, if_pos linux, LinuxCollector.get, loads, memory, disk]
  rcases host with ⟨hostLoads, hostMemory, hostDisk⟩
  cases hostLoads <;> cases hostMemory <;> cases hostDisk <;> rfl

def sampleLoads : Loads where
  one := ⟨['0'], ['4', '5'], by simp [isDigit], by simp [isDigit], by decide⟩
  five := ⟨['0'], ['5'], by simp [isDigit], by simp [isDigit], by decide⟩
  fifteen := ⟨['1'], ['0'], by simp [isDigit], by simp [isDigit], by decide⟩

def sampleCells : List (List Char × List Char) :=
  [([], sampleLoads.one.text), ([' '], sampleLoads.five.text), ([' '], sampleLoads.fifteen.text)]

def sampleEntries : List (List Char × List Char) :=
  [("MemTotal".toList, "  2048 kB".toList), ("MemAvailable".toList, " 512 kB".toList)]

/-- A host on which `df` cannot be run. -/
def sampleMachine : Machine where
  hostOs := "linux-gnu"
  nprocessors := 4
  readFile path :=
    if path = "/proc/loadavg" then .ok (String.ofList (spaced sampleCells ++ ['\n']))
    else .ok (String.ofList (entriesText sampleEntries))
  capture3 _ := .error (.systemCallError "ENOENT")

theorem get_linux_withoutDisk :
    get sampleMachine =
      ({ totalCpus := 4
         loadAvg1 := some (Double.ofRat sampleLoads.one.value)
         loadAvg5 := some (Double.ofRat sampleLoads.five.value)
         loadAvg15 := some (Double.ofRat sampleLoads.fifteen.value)
         totalMemoryMb := some 2
         usedMemoryMb := some 1 },
        ["disk: parse failed"]) := by
  apply @get_linux sampleMachine ⟨some sampleLoads, some (2048, 512), none⟩
  · decide
  · intro isDarwin
    have within : 'd' ∈ "linux-gnu".toList := isDarwin.subset (by decide : 'd' ∈ "darwin".toList)
    exact absurd within (by decide)
  · constructor
    · exact ⟨_, rfl, [], sampleCells, ['\n'], by decide, by simp [isWhite], String.toList_ofList,
        rfl⟩
    · refine ⟨_, rfl, by decide, ⟨sampleEntries, String.toList_ofList, by decide, ?_, ?_⟩⟩
      · exact Or.inr ⟨_, rfl, [' ', ' '], " kB".toList, by decide,
          by simp [isWhite], by decide, by simp [isWhite]⟩
      · exact Or.inr ⟨_, rfl, [' '], " kB".toList, by decide,
          by simp [isWhite], by decide, by simp [isWhite]⟩
    · intro given isGiven
      cases isGiven

end MultipassWebui.Multipass.HostResources
