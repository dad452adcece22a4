import Mathlib.Data.String.Basic
import MultipassWebui.Collections.Sorting
import MultipassWebui.Effect.Fallible
import MultipassWebui.Multipass.Names

/-!
# Documents of `info`

Which documents `parse_info_json` reads, and what it makes of them: an entry
for every machine, ordered by name, that depends on nothing but the detail of
that machine.
-/

namespace MultipassWebui.Multipass

open MultipassWebui.Collections
open MultipassWebui.Effect
open MultipassWebui.Encoding
open MultipassWebui.Text

/-! ## Sorting by a text -/

/-- The text that a row is sorted by. -/
def label {α : Type} (key : α → Json) (row : α) : String := (key row).text?.getD ""

/-- Rows with different texts are put in the order of these. -/
theorem sortByText_of_distinct {α : Type} {key : α → Json} {rows : List α} {labels : List String}
    (texts : rows.map key = labels.map Json.string) (distinct : labels.Nodup) :
    ∃ (sorted : List α) (ascending : List String), sortByText key rows = .ok sorted ∧
      sorted.Perm rows ∧ sorted.map key = ascending.map Json.string ∧ ascending.Perm labels ∧
      ascending.Pairwise (· < ·) := by
  have isText : ∀ row ∈ rows, key row = .string (label key row) ∧ label key row ∈ labels := by
    intro row member
    have mapped : key row ∈ labels.map Json.string := texts ▸ List.mem_map_of_mem member
    rcases List.mem_map.mp mapped with ⟨text, among, same⟩
    have found : label key row = text := by rw [label, ← same]; rfl
    exact ⟨by rw [found, same], found ▸ among⟩
  have labelled : rows.map (label key) = labels := by
    have both : (rows.map key).map (fun value => value.text?.getD "") =
        (labels.map Json.string).map (fun value => value.text?.getD "") := by rw [texts]
    rw [List.map_map, List.map_map] at both
    exact both.trans (List.map_id labels)
  have all : (rows.all fun row => (key row).text?.isSome) = true := by
    rw [List.all_eq_true]
    intro row member
    rw [(isText row member).1]
    rfl
  let sorted := rows.mergeSort fun first second => label key first ≤ label key second
  have same : sorted.Perm rows := List.mergeSort_perm _ _
  have sameLabels : (sorted.map (label key)).Perm labels := labelled ▸ same.map (label key)
  refine ⟨sorted, sorted.map (label key), if_pos all, same, ?_, sameLabels, ?_⟩
  · rw [List.map_map]
    refine List.map_congr_left fun row member => ?_
    exact (isText row (same.mem_iff.mp member)).1
  · exact pairwise_mergeSort_of_nodup (fun first second => decide_eq_true_iff)
      (labelled ▸ distinct)

/-! ## Documented details -/

/-- A field that is absent, null or of its documented type. -/
def Optionally (documented : Json → Prop) (key : String) (fields : List (String × Json)) : Prop :=
  get key fields = .null ∨ documented (get key fields)

def IsObject : Json → Prop
  | .object _ => True
  | _ => False

/-- A whole number, or the text of one. -/
def IsCount : Json → Prop
  | .number value => value.den = 1
  | .string _ => True
  | _ => False

def IsLoad : Json → Prop
  | .array items => ∀ item ∈ items, ∃ value, item = .number value
  | _ => False

def IsMemory : Json → Prop
  | .object fields => Optionally IsCount "used" fields ∧ Optionally IsCount "total" fields
  | _ => False

def IsDisks : Json → Prop
  | .object disks => ∀ disk ∈ disks, IsObject disk.2
  | _ => False

def IsMounts : Json → Prop
  | .object mounts => (mounts.map Prod.fst).Nodup ∧ ∀ mount ∈ mounts, IsObject mount.2
  | _ => False

/-- The detail of a machine.  Nothing is asked of the fields that are not named,
since they are kept as they are or turned into a text. -/
structure Documented (fields : List (String × Json)) : Prop where
  load : Optionally IsLoad "load" fields
  disks : Optionally IsDisks "disks" fields
  memory : Optionally IsMemory "memory" fields
  mounts : Optionally IsMounts "mounts" fields

/-! ## The fields that can fail -/

theorem exists_parseLoad (env : Environment) {value : Json}
    (documented : value = .null ∨ IsLoad value) : ∃ load, parseLoad env value = .ok load := by
  rcases documented with rfl | isLoad
  · exact ⟨none, rfl⟩
  cases value with
  | array items =>
      match items, isLoad with
      | [one, five, fifteen], numbers =>
          rcases numbers one (by simp) with ⟨first, rfl⟩
          rcases numbers five (by simp) with ⟨second, rfl⟩
          rcases numbers fifteen (by simp) with ⟨third, rfl⟩
          exact ⟨_, rfl⟩
      | [], _ | [_], _ | [_, _], _ | _ :: _ :: _ :: _ :: _, _ => exact ⟨none, rfl⟩
  | _ => cases isLoad

theorem exists_parseDisks (env : Environment) {value : Json}
    (documented : value = .null ∨ IsDisks value) : ∃ disk, parseDisks env value = .ok disk := by
  rcases documented with rfl | isDisks
  · exact ⟨_, rfl⟩
  cases value with
  | object disks =>
      cases disks with
      | nil => exact ⟨_, rfl⟩
      | cons first rest =>
          rcases first with ⟨name, disk⟩
          have isObject : IsObject disk := isDisks _ List.mem_cons_self
          cases disk with
          | object fields => exact ⟨_, rfl⟩
          | _ => cases isObject
  | _ => cases isDisks

theorem exists_memoryBytes {value : Json} (isMemory : IsMemory value) {key : String}
    (known : key = "used" ∨ key = "total") : ∃ bytes, memoryBytes key value = .ok bytes := by
  cases value with
  | object fields =>
      have documented : Optionally IsCount key fields := by
        rcases known with rfl | rfl
        · exact isMemory.1
        · exact isMemory.2
      cases found : (Json.object fields).field? key with
      | none => exact ⟨0, by simp [memoryBytes, found, Value.toI]⟩
      | some count =>
          have same : get key fields = count := by rw [get, found]; rfl
          rw [Optionally, same] at documented
          cases count with
          | null => exact ⟨0, by simp [memoryBytes, found, Value.toI]⟩
          | number value =>
              exact ⟨value.num.tdiv value.den, by simp [memoryBytes, found, Value.toI]⟩
          | string text => exact ⟨toI text.toList, by simp [memoryBytes, found, Value.toI]⟩
          | _ => rcases documented with isNull | isCount <;> contradiction
  | _ => cases isMemory

/-- The memory can be read unless it is null, which `fetch` does not replace. -/
theorem exists_memory_iff {fields : List (String × Json)}
    (documented : Optionally IsMemory "memory" fields) :
    (∃ used total, memoryBytes "used" (memoryOf fields) = .ok used ∧
      memoryBytes "total" (memoryOf fields) = .ok total) ↔
      (Json.object fields).field? "memory" ≠ some .null := by
  constructor
  · rintro ⟨used, total, read, _⟩ isNull
    rw [memoryOf, isNull] at read
    cases read
  · intro given
    have isMemory : IsMemory (memoryOf fields) := by
      cases found : (Json.object fields).field? "memory" with
      | none =>
          rw [memoryOf, found]
          exact ⟨.inl rfl, .inl rfl⟩
      | some value =>
          have same : get "memory" fields = value := by rw [get, found]; rfl
          rw [Optionally, same] at documented
          rw [memoryOf, found]
          rcases documented with rfl | isMemory
          · exact absurd found given
          · exact isMemory
    rcases exists_memoryBytes isMemory (.inl rfl) with ⟨used, isUsed⟩
    rcases exists_memoryBytes isMemory (.inr rfl) with ⟨total, isTotal⟩
    exact ⟨used, total, isUsed, isTotal⟩

/-! ## Mounts -/

/-- What is kept of a mount. -/
def mountInfo (mount : String × Json) : MountInfo where
  sourcePath := (mount.2.field? "source_path").getD .null
  targetPath := .string mount.1
  uidMaps := Value.orDefault ((mount.2.field? "uid_mappings").getD .null) (.array [])
  gidMaps := Value.orDefault ((mount.2.field? "gid_mappings").getD .null) (.array [])

/-- The entries of a mounts object. -/
def mountEntries : Json → List (String × Json)
  | .object mounts => mounts
  | _ => []

/-- The mounts are the entries of the object, each once, in ascending order. -/
structure MountsOf (value : Json) (mounts : List MountInfo) : Prop where
  entries : mounts.Perm ((mountEntries value).map mountInfo)
  ascending : ∃ targets : List String,
    mounts.map MountInfo.targetPath = targets.map Json.string ∧ targets.Pairwise (· < ·)

theorem parseMount_of_object {target : String} {mount : Json} (isObject : IsObject mount) :
    parseMount (.string target) mount = .ok (mountInfo (target, mount)) := by
  cases mount with
  | object fields => rfl
  | _ => cases isObject

theorem exists_parseMounts {value : Json} (documented : value = .null ∨ IsMounts value) :
    ∃ mounts, parseMounts value = .ok mounts ∧ MountsOf value mounts := by
  rcases documented with rfl | isMounts
  · exact ⟨[], parseMounts_null, .nil, [], rfl, .nil⟩
  cases value with
  | object entries =>
      have parsed : (entries.map fun entry => Json.array [.string entry.1, entry.2]).mapM
          (fun entry => parseMount (Value.pair entry).1 (Value.pair entry).2) =
          .ok (entries.map mountInfo) := by
        rw [mapM_eq_ok_iff, List.forall₂_map_left_iff, List.forall₂_map_right_iff,
          List.forall₂_same]
        intro entry member
        exact parseMount_of_object (isMounts.2 entry member)
      have texts : (entries.map mountInfo).map MountInfo.targetPath =
          (entries.map Prod.fst).map Json.string := by
        simp [Function.comp_def, mountInfo]
      rcases sortByText_of_distinct texts isMounts.1 with
        ⟨sorted, ascending, isSorted, same, targets, _, ordered⟩
      refine ⟨sorted, ?_, same, ascending, targets, ordered⟩
      simp only [parseMounts, Value.elements]
      change ((entries.map fun entry => Json.array [.string entry.1, entry.2]).mapM
        (fun entry => parseMount (Value.pair entry).1 (Value.pair entry).2) >>=
          sortByText MountInfo.targetPath) = _
      rw [parsed]
      exact isSorted
  | _ => cases isMounts

/-! ## One machine -/

/-- Everything that can fail has been read. -/
theorem parseDetail_eq_ok_iff {env : Environment} {name : String} {fields : List (String × Json)}
    {vm : VmInfo} :
    parseDetail env name (.object fields) = .ok vm ↔
      ∃ load disk used total mounts, parseLoad env (get "load" fields) = .ok load ∧
        parseDisks env (get "disks" fields) = .ok disk ∧
        memoryBytes "used" (memoryOf fields) = .ok used ∧
        memoryBytes "total" (memoryOf fields) = .ok total ∧
        parseMounts (get "mounts" fields) = .ok mounts ∧
        vm = assemble env name fields load disk used total mounts := by
  simp only [parseDetail, bind_eq_ok_iff]
  constructor
  · rintro ⟨load, isLoad, disk, isDisk, used, isUsed, total, isTotal, mounts, isMounts, isVm⟩
    cases isVm
    exact ⟨load, disk, used, total, mounts, isLoad, isDisk, isUsed, isTotal, isMounts, rfl⟩
  · rintro ⟨load, disk, used, total, mounts, isLoad, isDisk, isUsed, isTotal, isMounts, rfl⟩
    exact ⟨load, isLoad, disk, isDisk, used, isUsed, total, isTotal, mounts, isMounts, rfl⟩

/-- A documented detail is read unless its memory is null. -/
theorem exists_parseDetail_iff (env : Environment) (name : String)
    {fields : List (String × Json)} (documented : Documented fields) :
    (∃ vm, parseDetail env name (.object fields) = .ok vm) ↔
      (Json.object fields).field? "memory" ≠ some .null := by
  rw [← exists_memory_iff documented.memory]
  constructor
  · rintro ⟨vm, parsed⟩
    rcases parseDetail_eq_ok_iff.mp parsed with
      ⟨_, _, used, total, _, _, _, isUsed, isTotal, _, _⟩
    exact ⟨used, total, isUsed, isTotal⟩
  · rintro ⟨used, total, isUsed, isTotal⟩
    rcases exists_parseLoad env documented.load with ⟨load, isLoad⟩
    rcases exists_parseDisks env documented.disks with ⟨disk, isDisk⟩
    rcases exists_parseMounts documented.mounts with ⟨mounts, isMounts, _⟩
    exact ⟨_, parseDetail_of_parts name isLoad isDisk isUsed isTotal isMounts⟩

theorem name_of_parseDetail {env : Environment} {name : String} {detail : Json} {vm : VmInfo}
    (parsed : parseDetail env name detail = .ok vm) : vm.name = .string name := by
  cases detail with
  | object fields =>
      rcases parseDetail_eq_ok_iff.mp parsed with ⟨_, _, _, _, _, _, _, _, _, _, rfl⟩
      rfl
  | _ => cases parsed

theorem mountsOf_of_parseDetail {env : Environment} {name : String}
    {fields : List (String × Json)} {vm : VmInfo} (documented : Optionally IsMounts "mounts" fields)
    (parsed : parseDetail env name (.object fields) = .ok vm) :
    MountsOf (get "mounts" fields) vm.mounts := by
  rcases parseDetail_eq_ok_iff.mp parsed with ⟨_, _, _, _, mounts, _, _, _, _, isMounts, rfl⟩
  rcases exists_parseMounts documented with ⟨found, isFound, mountsOf⟩
  rw [isFound] at isMounts
  cases isMounts
  exact mountsOf

/-! ## Whole documents -/

/-- A document with an object of details under `info`. -/
structure InfoDocument (resp : Json) (details : List (String × Json)) : Prop where
  info : resp.field? "info" = some (.object details)
  distinct : (details.map Prod.fst).Nodup

def IsDetail : Json → Prop
  | .object fields => Documented fields
  | _ => False

/-- One entry for each name, in ascending order; an entry depends on nothing but
the detail of its name, and has the mounts of it. -/
structure Lossless (env : Environment) (details : List (String × Json)) (vms : List VmInfo) :
    Prop where
  names : ∃ names : List String, vms.map VmInfo.name = names.map Json.string ∧
    names.Perm (details.map Prod.fst) ∧ names.Pairwise (· < ·)
  own : ∀ vm ∈ vms, ∀ detail ∈ details, vm.name = .string detail.1 →
    ∀ other otherDetails others, InfoDocument other otherDetails → detail ∈ otherDetails →
      parseInfoJson env other = .ok others → vm ∈ others
  mounts : ∀ vm ∈ vms, ∀ name fields, (name, Json.object fields) ∈ details →
    vm.name = .string name → MountsOf (get "mounts" fields) vm.mounts

/-- The details are read one by one, and ordered by their names. -/
theorem parseInfoJson_of_parsed {env : Environment} {resp : Json}
    {details : List (String × Json)} (document : InfoDocument resp details)
    {parsed : List VmInfo}
    (isParsed : details.mapM (fun detail => parseDetail env detail.1 detail.2) = .ok parsed) :
    ∃ (vms : List VmInfo) (names : List String), parseInfoJson env resp = .ok vms ∧
      vms.Perm parsed ∧ vms.map VmInfo.name = names.map Json.string ∧
      names.Perm (details.map Prod.fst) ∧ names.Pairwise (· < ·) := by
  have texts : parsed.map VmInfo.name = (details.map Prod.fst).map Json.string := by
    rw [List.map_map]
    exact map_eq_map_of_mapM isParsed fun detail vm read => name_of_parseDetail read
  rcases sortByText_of_distinct texts document.distinct with
    ⟨vms, names, isSorted, same, labels, all, ascending⟩
  refine ⟨vms, names, ?_, same, labels, all, ascending⟩
  rw [parseInfoJson_of_object document.info, isParsed]
  exact isSorted

theorem exists_parsed {env : Environment} {resp : Json} {details : List (String × Json)}
    (document : InfoDocument resp details) {vms : List VmInfo}
    (read : parseInfoJson env resp = .ok vms) :
    ∃ parsed, details.mapM (fun detail => parseDetail env detail.1 detail.2) = .ok parsed := by
  rw [parseInfoJson_of_object document.info, bind_eq_ok_iff] at read
  rcases read with ⟨parsed, isParsed, _⟩
  exact ⟨parsed, isParsed⟩

/-- What the parser gives is what the details give. -/
theorem mem_parseInfoJson_iff {env : Environment} {resp : Json} {details : List (String × Json)}
    (document : InfoDocument resp details) {vms : List VmInfo}
    (read : parseInfoJson env resp = .ok vms) {vm : VmInfo} :
    vm ∈ vms ↔ ∃ detail ∈ details, parseDetail env detail.1 detail.2 = .ok vm := by
  rcases exists_parsed document read with ⟨parsed, isParsed⟩
  rcases parseInfoJson_of_parsed document isParsed with ⟨_, _, sorted, same, _⟩
  rw [read] at sorted
  cases sorted
  rw [same.mem_iff]
  constructor
  · exact mem_of_mapM_right isParsed
  · rintro ⟨detail, member, isVm⟩
    rcases mem_of_mapM_left isParsed member with ⟨found, among, isFound⟩
    rw [isVm] at isFound
    cases isFound
    exact among

/-- Two entries with one key are one entry. -/
theorem eq_of_key_eq {details : List (String × Json)} (distinct : (details.map Prod.fst).Nodup)
    {first second : String × Json} (firstMember : first ∈ details)
    (secondMember : second ∈ details) (same : first.1 = second.1) : first = second :=
  List.inj_on_of_nodup_map distinct firstMember secondMember same

/-- The entry of a name is read from its detail. -/
theorem parseDetail_of_mem {env : Environment} {resp : Json} {details : List (String × Json)}
    (document : InfoDocument resp details) {vms : List VmInfo}
    (read : parseInfoJson env resp = .ok vms) {vm : VmInfo} (member : vm ∈ vms)
    {detail : String × Json} (among : detail ∈ details) (named : vm.name = .string detail.1) :
    parseDetail env detail.1 detail.2 = .ok vm := by
  rcases (mem_parseInfoJson_iff document read).mp member with ⟨source, known, isVm⟩
  have sameName : source.1 = detail.1 :=
    Json.string.inj ((name_of_parseDetail isVm).symm.trans named)
  rw [← eq_of_key_eq document.distinct known among sameName]
  exact isVm

theorem lossless_of_read {env : Environment} {resp : Json} {details : List (String × Json)}
    (document : InfoDocument resp details) (documented : ∀ detail ∈ details, IsDetail detail.2)
    {vms : List VmInfo} (read : parseInfoJson env resp = .ok vms) :
    Lossless env details vms := by
  constructor
  · rcases exists_parsed document read with ⟨parsed, isParsed⟩
    rcases parseInfoJson_of_parsed document isParsed with
      ⟨_, names, sorted, _, labels, all, ascending⟩
    rw [read] at sorted
    cases sorted
    exact ⟨names, labels, all, ascending⟩
  · intro vm member detail among named other otherDetails others otherDocument shared otherRead
    have isVm := parseDetail_of_mem document read member among named
    exact (mem_parseInfoJson_iff otherDocument otherRead).mpr ⟨detail, shared, isVm⟩
  · intro vm member name fields among named
    have isVm := parseDetail_of_mem document read member among named
    have isDetail : Documented fields := documented _ among
    exact mountsOf_of_parseDetail isDetail.mounts isVm

/-- The document is read without loss if and only if no machine has a null memory. -/
theorem parseInfoJson_lossless_iff (env : Environment) {resp : Json}
    {details : List (String × Json)} (document : InfoDocument resp details)
    (documented : ∀ detail ∈ details, IsDetail detail.2) :
    (∃ vms, parseInfoJson env resp = .ok vms ∧ Lossless env details vms) ↔
      ∀ detail ∈ details, detail.2.field? "memory" ≠ some .null := by
  have read_iff : ∀ detail ∈ details, (∃ vm, parseDetail env detail.1 detail.2 = .ok vm) ↔
      detail.2.field? "memory" ≠ some .null := by
    rintro ⟨name, value⟩ member
    have isDetail := documented _ member
    cases value with
    | object fields => exact exists_parseDetail_iff env name isDetail
    | _ => cases isDetail
  constructor
  · rintro ⟨vms, read, _⟩ detail member
    rcases exists_parsed document read with ⟨parsed, isParsed⟩
    rcases mem_of_mapM_left isParsed member with ⟨vm, _, isVm⟩
    exact (read_iff detail member).mp ⟨vm, isVm⟩
  · intro given
    rcases exists_mapM fun detail member => (read_iff detail member).mpr (given detail member) with
      ⟨parsed, isParsed⟩
    rcases parseInfoJson_of_parsed document isParsed with ⟨vms, _, read, _⟩
    exact ⟨vms, read, lossless_of_read document documented read⟩

theorem parseInfoJson_lossless_iff_twoMachines :
    (∃ vms, parseInfoJson quietEnvironment (.object [("info", .object [
          ("web", .object [("memory", .object [("used", .number 1)])]), ("db", .object [])])]) =
        .ok vms ∧
      Lossless quietEnvironment [("web", .object [("memory", .object [("used", .number 1)])]),
        ("db", .object [])] vms) ↔
      ∀ detail ∈ [("web", Json.object [("memory", .object [("used", .number 1)])]),
        ("db", .object [])], detail.2.field? "memory" ≠ some .null := by
  refine parseInfoJson_lossless_iff quietEnvironment ⟨rfl, by decide⟩ ?_
  refine List.forall_mem_cons.mpr ⟨?_, List.forall_mem_cons.mpr ⟨?_, List.forall_mem_nil _⟩⟩
  · exact ⟨.inl rfl, .inl rfl, .inr ⟨.inr rfl, .inl rfl⟩, .inl rfl⟩
  · exact ⟨.inl rfl, .inl rfl, .inl rfl, .inl rfl⟩

/-- One machine with a null memory takes the whole listing away. -/
theorem nullMemory_raises :
    parseInfoJson quietEnvironment (.object [("info", .object [
        ("web", .object []), ("db", .object [("memory", .null)])])]) =
      .error (.noMethodError "fetch") ∧
    (∀ detail ∈ [("web", Json.object []), ("db", .object [("memory", .null)])],
      IsDetail detail.2) ∧
    ¬ ∃ vms, parseInfoJson quietEnvironment (.object [("info", .object [
        ("web", .object []), ("db", .object [("memory", .null)])])]) = .ok vms ∧
      Lossless quietEnvironment [("web", .object []), ("db", .object [("memory", .null)])] vms := by
  have raises : parseInfoJson quietEnvironment (.object [("info", .object [
      ("web", .object []), ("db", .object [("memory", .null)])])]) =
        .error (.noMethodError "fetch") := by
    have web : parseDetail quietEnvironment "web" (.object []) =
        .ok (assemble quietEnvironment "web" [] none (none, none) 0 0 []) :=
      parseDetail_of_parts "web" rfl rfl rfl rfl parseMounts_null
    rw [parseInfoJson_of_object rfl, List.mapM_cons, web]
    rfl
  refine ⟨raises, ?_, ?_⟩
  · refine List.forall_mem_cons.mpr ⟨?_, List.forall_mem_cons.mpr ⟨?_, List.forall_mem_nil _⟩⟩
    · exact ⟨.inl rfl, .inl rfl, .inl rfl, .inl rfl⟩
    · exact ⟨.inl rfl, .inl rfl, .inl rfl, .inl rfl⟩
  · rintro ⟨vms, read, _⟩
    rw [raises] at read
    cases read

end MultipassWebui.Multipass
