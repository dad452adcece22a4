import MultipassWebui.Multipass.Client
import MultipassWebui.Numbers.Decimal
import MultipassWebui.Text.Words

/-!
# Resources of the host

The collectors of the dashboard, one for each operating system.  Each of them
asks several sources; a source that fails or that cannot be read leaves its
fields empty, and most of them are reported.
-/

namespace MultipassWebui.Multipass

open MultipassWebui.Effect
open MultipassWebui.Numbers
open MultipassWebui.Text

/-- `Types::HostResources` -/
structure HostResources where
  totalCpus : ℕ
  loadAvg1 : Option Double := none
  loadAvg5 : Option Double := none
  loadAvg15 : Option Double := none
  totalMemoryMb : Option ℤ := none
  usedMemoryMb : Option ℤ := none
  totalDiskMb : Option ℤ := none
  usedDiskMb : Option ℤ := none

namespace HostResources

/-- What the collectors see of the machine they run on. -/
structure Machine where
  /-- `RbConfig::CONFIG["host_os"]` -/
  hostOs : String
  /-- `Etc.nprocessors` -/
  nprocessors : ℕ
  /-- `File.read` and `File.foreach` -/
  readFile : String → Except RubyError String
  /-- `Open3.capture3` -/
  capture3 : List String → Except RubyError RunResult

/-- What a command prints, if it can be run and succeeds. -/
def Machine.stdout (machine : Machine) (command : List String) : Option String :=
  match machine.capture3 command with
  | .ok result => if result.success then some result.stdout else none
  | .error _ => none

/-- What a file holds, if it can be read. -/
def Machine.contents (machine : Machine) (path : String) : Option String :=
  match machine.readFile path with
  | .ok data => some data
  | .error _ => none

/-- `parts.first(3).map(&:to_f)` -/
def firstThree : List (List Char) → Option (Double × Double × Double)
  | one :: five :: fifteen :: _ => some (toF one, toF five, toF fifteen)
  | _ => none

/-- The second and the third field of the last line that `df` prints. -/
def parseDisk (out : String) : Option (ℤ × ℤ) :=
  match (split '\n' (strip out).toList).getLast?.map words with
  | some (_ :: total :: used :: _ :: _) => some (toI total / 1024, toI used / 1024)
  | _ => none

/-- The message of a source that could not be read. -/
def failure {α : Type} (reading : Option α) (message : String) : List String :=
  if reading.isNone then [message] else []

/-- The fields that the sources fill. -/
def collected (totalCpus : ℕ) (load : Option (Double × Double × Double))
    (totalMemory usedMemory : Option ℤ) (disk : Option (ℤ × ℤ)) : HostResources where
  totalCpus
  loadAvg1 := load.map fun load => load.1
  loadAvg5 := load.map fun load => load.2.1
  loadAvg15 := load.map fun load => load.2.2
  totalMemoryMb := totalMemory
  usedMemoryMb := usedMemory
  totalDiskMb := disk.map Prod.fst
  usedDiskMb := disk.map Prod.snd

/-! ## Linux -/

namespace LinuxCollector

variable (machine : Machine)

def parseLoadavgLinux : Option (Double × Double × Double) :=
  (machine.contents "/proc/loadavg").bind fun data => firstThree (words data.toList)

/-- `line.split[1].to_i`, which is zero without a second word. -/
def secondField (line : List Char) : ℤ := toI ((words line).getD 1 [])

/-- What a line makes of the total and the available kilobytes. -/
def readMeminfo (read : ℤ × ℤ) (line : List Char) : ℤ × ℤ :=
  if "MemTotal:".toList.isPrefixOf line then (secondField line, read.2)
  else if "MemAvailable:".toList.isPrefixOf line then (read.1, secondField line)
  else read

def parseMeminfoLinux : Option (ℤ × ℤ) :=
  (machine.contents "/proc/meminfo").bind fun data =>
    let (totalKb, availableKb) := (data.toList.splitOn '\n').foldl readMeminfo (0, 0)
    if totalKb = 0 then none else some (totalKb / 1024, (totalKb - availableKb) / 1024)

def parseDiskUsageLinux : Option (ℤ × ℤ) :=
  (machine.stdout ["df", "-k", "/"]).bind parseDisk

def get : HostResources × List String :=
  let load := parseLoadavgLinux machine
  let memory := parseMeminfoLinux machine
  let disk := parseDiskUsageLinux machine
  (collected machine.nprocessors load (memory.map Prod.fst) (memory.map Prod.snd) disk,
    failure load "loadavg: parse failed" ++ failure memory "meminfo: parse failed" ++
      failure disk "disk: parse failed")

end LinuxCollector

/-! ## Darwin -/

namespace DarwinCollector

variable (machine : Machine)

def parseLoadavgDarwin : Option (Double × Double × Double) :=
  (machine.stdout ["sysctl", "-n", "vm.loadavg"]).bind fun out =>
    firstThree (words ((strip out).toList.filter fun char => char ≠ '{' && char ≠ '}'))

/-- `line.split(":", 2)`, and `to_i` of the second part without its first dot. -/
def parseVmStatValue (line : List Char) : ℤ :=
  match line.dropWhile fun char => char ≠ ':' with
  | [] => 0
  | _ :: value => toI ((strip (String.ofList value)).toList.erase '.')

structure VmStat where
  active : ℤ := 0
  wired : ℤ := 0
  compressed : ℤ := 0

/-- What a line makes of the pages. -/
def VmStat.read (pages : VmStat) (line : List Char) : VmStat :=
  let line := (strip (String.ofList line)).toList
  if "Pages active:".toList.isPrefixOf line then { pages with active := parseVmStatValue line }
  else if "Pages wired down:".toList.isPrefixOf line then
    { pages with wired := parseVmStatValue line }
  else if "Pages occupied by compressor:".toList.isPrefixOf line then
    { pages with compressed := parseVmStatValue line }
  else pages

/-- `page_size` -/
def PAGE_SIZE : ℤ := 4096

def parseMemUsageDarwin : Option ℤ :=
  (machine.stdout ["vm_stat"]).map fun out =>
    let pages := (out.toList.splitOn '\n').foldl VmStat.read {}
    (pages.active + pages.wired + pages.compressed) * PAGE_SIZE / (1024 * 1024)

/-- A `df` that cannot be run at all is not run again. -/
def parseDiskUsageDarwin : Option (ℤ × ℤ) :=
  match machine.capture3 ["df", "-k", "/System/Volumes/Data"] with
  | .error _ => none
  | .ok result =>
      if result.success then parseDisk result.stdout
      else (machine.stdout ["df", "-k", "/"]).bind parseDisk

def parseIntFromCmd (command : List String) : Option ℤ :=
  (machine.stdout command).map fun out => toI (strip out).toList

/-- The total memory is the one source whose failure is not reported. -/
def get : HostResources × List String :=
  let memBytes := parseIntFromCmd machine ["sysctl", "-n", "hw.memsize"]
  let load := parseLoadavgDarwin machine
  let used := parseMemUsageDarwin machine
  let disk := parseDiskUsageDarwin machine
  (collected machine.nprocessors load (memBytes.map fun bytes => bytes / (1024 * 1024)) used disk,
    failure load "loadavg: parse failed" ++ failure used "vm_stat: parse failed" ++
      failure disk "disk: parse failed")

end DarwinCollector

/-! ## Dispatch -/

def WindowsCollector.get (machine : Machine) : HostResources × List String :=
  (⟨machine.nprocessors, none, none, none, none, none, none, none⟩,
    ["windows", "host-resources", "not", "implemented"])

def NullCollector.get (machine : Machine) : HostResources × List String :=
  (⟨machine.nprocessors, none, none, none, none, none, none, none⟩,
    ["unsupported host OS: " ++ machine.hostOs])

/-- The name of the system contains a part. -/
def Machine.runs (machine : Machine) (part : String) : Prop :=
  part.toList <:+: machine.hostOs.toList

instance decidableRuns (machine : Machine) (part : String) : Decidable (machine.runs part) :=
  inferInstanceAs (Decidable (part.toList <:+: machine.hostOs.toList))

def get (machine : Machine) : HostResources × List String :=
  if machine.runs "darwin" then DarwinCollector.get machine
  else if machine.runs "linux" then LinuxCollector.get machine
  else if machine.runs "mswin" ∨ machine.runs "mingw" ∨ machine.runs "windows" then
    WindowsCollector.get machine
  else NullCollector.get machine

end HostResources

end MultipassWebui.Multipass
