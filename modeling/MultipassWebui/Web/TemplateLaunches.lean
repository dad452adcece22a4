import MultipassWebui.Multipass.Launches
import MultipassWebui.Multipass.SavedTemplates
import MultipassWebui.Web.LaunchRequests
import MultipassWebui.Web.TemplateAccess

/-!
# Launches with a listed template

The list of templates, the action that shows one and the launch read the same
path each in its own way: the list makes it, the action goes by the label, and
the launch opens the path as it is.
-/

namespace MultipassWebui.Web.CloudInitTemplatesController

open MultipassWebui.Effect
open MultipassWebui.Encoding
open MultipassWebui.Files
open MultipassWebui.Multipass
open MultipassWebui.Multipass.Cloudinit
open MultipassWebui.Records
open MultipassWebui.Text
open MultipassWebui.Web.VmsController (launchArguments create_state launchArguments_fields)

/-- The action `show` returns this content for a name. -/
def Shown (site : Site) (disk : Disk) (name : String) (content : List UInt8) : Prop :=
  («show» site (showRequest name) ⟨disk, []⟩).1 = .ok (.content content)

/-- The request issues one command, a launch with the path of a staged copy, and the
command finds this content there. -/
def LaunchesWith (env : Environment) (stamp : EventStamp) (request : Request) (app : App Host)
    (path : String) (content : List UInt8) : Prop :=
  ∃ arguments name release succeeded found, launchArguments request = .ok arguments ∧
    (VmsController.create env stamp request app).2.state.commands = app.state.commands ++
      [⟨launchArgv env arguments name
        [.literal "--cloud-init", .given (stagedPath env path)] release, succeeded⟩] ∧
    (VmsController.create env stamp request app).2.state.filesFound =
      app.state.filesFound ++ [found] ∧
    found.get? (stagedPath env path) = some content

/-- The request launches with the content that is shown for the template. -/
def Usable (site : Site) (disk : Disk) (env : Environment) (stamp : EventStamp)
    (request : Request) (app : App Host) (option : TemplateOption) : Prop :=
  ∃ content, Shown site disk option.label content ∧
    LaunchesWith env stamp request app option.path content

/-- All of the request but the template is in order. -/
structure InOrder (env : Environment) (request : Request) (path : String) : Prop where
  file : param request "cloud_init_file" = .string path
  arguments : ∃ arguments name release, launchArguments request = .ok arguments ∧
    LaunchesAs env arguments.name name ∧ ReleasesAs arguments.release release
  writable : env.writeError (stagedPath env path) = none

/-- The launch finds at the path what `File.read` finds there. -/
def Mirrors (kernel : Kernel) (tree : Tree) (env : Environment) (host : Host) (path : String) :
    Prop :=
  ∀ content, readAt kernel tree path = .ok content ↔
    host.files.get? path = some content ∧ env.readError path = none

/-- A template of a user needs a name that is accepted; one of the built-in ones
needs a file under its path that has its content. -/
def UsableWhen (site : Site) (tree : Tree) (option : TemplateOption) : Prop :=
  match builtinName option.label with
  | some actual => ∃ content,
      readAt site.kernel tree (builtinDir site ++ "/" ++ actual) = .ok content ∧
        readAt site.kernel tree option.path = .ok content
  | none => Accepted option.label

/-! ## The three readers -/

section

variable {site : Site} {disk : Disk} {name : String}

theorem shown_iff (content : List UInt8) :
    Shown site disk name content ↔
      (readTemplateContent site (.string name) disk).1 = .ok content := by
  have shows : («show» site (showRequest name) ⟨disk, []⟩).1 =
      (readTemplateContent site (.string name) disk).1.map Reply.content := by
    have returned := Exec.bind_pure_apply (onState (readTemplateContent site (.string name)))
      Reply.content ⟨disk, []⟩
    exact congrArg Prod.fst returned
  rw [Shown, shows]
  cases (readTemplateContent site (.string name) disk).1 with
  | error raised => exact iff_of_false nofun nofun
  | ok other =>
      constructor
      · intro same
        cases same
        rfl
      · intro same
        cases same
        rfl

theorem read_fst (kernel : Kernel) (path : String) (disk : Disk) :
    (Files.read kernel path disk).1 = readAt kernel disk.tree path :=
  (looks_read path disk rfl).1

/-- Under a name with the prefix a file of the built-in directory is shown. -/
theorem shown_builtin_iff {actual : String} (builtin : builtinName name = some actual)
    (content : List UInt8) :
    Shown site disk name content ↔
      readAt site.kernel disk.tree (builtinDir site ++ "/" ++ actual) = .ok content := by
  rw [shown_iff]
  by_cases hasNull : null ∈ actual.toList
  · rw [readTemplateContent_null builtin hasNull]
    refine iff_of_false nofun fun isRead => ?_
    rcases readAt_eq_ok_iff.mp isRead with ⟨place, located, _⟩
    exact absurd located (not_located_builtin hasNull disk.tree place)
  · rw [readTemplateContent_builtin builtin hasNull, read_fst]

/-- A template is read from the file that its name is accepted for. -/
theorem readCloudInitTemplate_eq_ok_iff {dir : String} (content : List UInt8) :
    (readCloudInitTemplate site.kernel dir name disk).1 = .ok content ↔
      ∃ path, sanitizeTemplateName site.kernel.toSurroundings dir name = .ok path ∧
        readAt site.kernel disk.tree path = .ok content := by
  rw [readCloudInitTemplate, readNamed, sanitizeTemplateName]
  cases sanitized : sanitizeName "template" site.kernel.toSurroundings dir name with
  | error raised =>
      have failed : (Exec.ofExcept (.error raised) >>= fun path =>
          Files.read site.kernel path) disk = (.error raised, disk) := rfl
      rw [Exec.rescue_error failed]
      refine iff_of_false ?_ ?_
      · split_ifs <;> nofun
      · rintro ⟨path, isPath, _⟩
        cases isPath
  | ok path =>
      have only : (∃ other, (.ok path : Except RubyError String) = .ok other ∧
          readAt site.kernel disk.tree other = .ok content) ↔
            readAt site.kernel disk.tree path = .ok content := by
        simp
      rw [only, ← read_fst]
      have program : (Exec.ofExcept (.ok path) >>= fun path =>
          Files.read site.kernel path) disk = Files.read site.kernel path disk := rfl
      rcases ran : Files.read site.kernel path disk with ⟨raised | value, after⟩
      · rw [Exec.rescue_error (program.trans ran)]
        refine iff_of_false ?_ nofun
        split_ifs <;> nofun
      · rw [Exec.rescue_ok (program.trans ran)]

/-- Under any other name the file that the name is accepted for is shown. -/
theorem shown_user_iff (notBuiltin : builtinName name = none) (content : List UInt8) :
    Shown site disk name content ↔ ∃ dir path, cloudInitDir site = .ok dir ∧
      sanitizeTemplateName site.kernel.toSurroundings dir name = .ok path ∧
      readAt site.kernel disk.tree path = .ok content := by
  rw [shown_iff, readTemplateContent_user notBuiltin]
  cases configured : cloudInitDir site with
  | error raised =>
      refine iff_of_false nofun ?_
      rintro ⟨dir, path, isDir, _⟩
      cases isDir
  | ok dir =>
      have reads := @readCloudInitTemplate_eq_ok_iff site disk name dir content
      constructor
      · intro isRead
        rcases reads.mp isRead with ⟨path, sanitized, read⟩
        exact ⟨dir, path, rfl, sanitized, read⟩
      · rintro ⟨other, path, isDir, sanitized, read⟩
        cases isDir
        exact reads.mpr ⟨path, sanitized, read⟩

/-- A launch has the content of the file that it finds at the path. -/
theorem launchesWith_iff {env : Environment} {stamp : EventStamp} {request : Request}
    {app : App Host} {path : String} (inOrder : InOrder env request path)
    (shownPath : blank path = false) (content : List UInt8) :
    LaunchesWith env stamp request app path content ↔
      app.state.files.get? path = some content ∧ env.readError path = none := by
  rcases inOrder.arguments with ⟨arguments, name, release, given, named, released⟩
  have file : arguments.cloudInitFile = .string path := by
    rw [(launchArguments_fields given).2.2.2, inOrder.file, Value.presence, Value.present,
      shownPath]
    rfl
  have nonempty : path ≠ "" := by
    rintro rfl
    cases shownPath
  have state : (VmsController.create env stamp request app).2.state =
      (launchVm env arguments app.state).2 := by
    rw [create_state, given]
  rcases copyForSnap_cases env app.state inOrder.writable with
    ⟨data, stands, readable, copied⟩ | ⟨unread, raised, copied⟩
  · obtain ⟨succeeded, commands, found⟩ :=
      launchVm_of_staged env app.state file nonempty named released copied
    have staged := Collections.OrderedHash.get?_insert_self app.state.files
      (stagedPath env path) data
    rw [← state] at commands found
    constructor
    · rintro ⟨_, _, _, _, files, _, _, isFound, hasContent⟩
      have same := List.append_cancel_left (found.symm.trans isFound)
      rw [← List.singleton_inj.mp same, staged] at hasContent
      exact ⟨stands.trans hasContent, readable⟩
    · rintro ⟨isContent, _⟩
      rw [stands] at isContent
      exact ⟨arguments, name, release, succeeded, _, given, commands, found,
        staged.trans isContent⟩
  · have unchanged := launchVm_state env app.state file nonempty named released
    rw [copied, ← state] at unchanged
    refine iff_of_false ?_ fun isRead => unread ⟨content, isRead⟩
    rintro ⟨_, _, _, _, found, _, _, isFound, _⟩
    rw [unchanged] at isFound
    simp at isFound

/-! ## The list -/

theorem dirExist_state (kernel : Kernel) (path : String) :
    (dirExist kernel path disk).2 = disk := by
  unfold dirExist
  split <;> rfl

theorem entries_state (kernel : Kernel) (path : String) : (entries kernel path disk).2 = disk := by
  unfold entries
  split
  · rfl
  · split <;> rfl

/-- The built-in templates are listed under the prefix, and the disk is left alone. -/
theorem builtinTemplates_apply (site : Site) (disk : Disk) :
    (builtinTemplates site disk).2 = disk ∧
      ∀ options, (builtinTemplates site disk).1 = .ok options →
        ∀ option ∈ options, ∃ file, option = ⟨builtinPath file, builtinPath file, true⟩ := by
  have looked := @dirExist_state disk site.kernel (builtinDir site)
  unfold builtinTemplates
  rcases tested : dirExist site.kernel (builtinDir site) disk with ⟨raised | found, middle⟩
  · rw [tested] at looked
    rw [Exec.bind_error tested]
    exact ⟨looked, nofun⟩
  · rw [tested] at looked
    obtain rfl : disk = middle := looked.symm
    rw [Exec.bind_ok tested]
    cases found with
    | false =>
        refine ⟨rfl, ?_⟩
        rintro options ⟨⟩ option member
        cases member
    | true =>
        have listed := @entries_state disk site.kernel (builtinDir site)
        rcases ran : entries site.kernel (builtinDir site) disk with ⟨raised | names, after⟩
        · rw [ran] at listed
          have failed : children site.kernel (builtinDir site) disk = (.error raised, after) := by
            rw [children, Exec.bind_error ran]
          rw [if_pos rfl, Exec.bind_error failed]
          exact ⟨listed, nofun⟩
        · rw [ran] at listed
          have returned : children site.kernel (builtinDir site) disk =
              (.ok (names.filter fun name => name ≠ "." && name ≠ ".."), after) := by
            rw [children, Exec.bind_ok ran]
            rfl
          rw [if_pos rfl, Exec.bind_ok returned]
          refine ⟨listed, ?_⟩
          rintro options ⟨⟩ option member
          rcases List.mem_map.mp member with ⟨file, _, rfl⟩
          exact ⟨file, rfl⟩

/-- The templates of users are those of a scan of their directory. -/
theorem userTemplates_listed {options : List TemplateOption}
    (listed : (userTemplates site disk).1 = .ok options) :
    ∀ option ∈ options, ∃ dir, cloudInitDir site = .ok dir ∧
      ListedIn site.kernel disk.tree dir option := by
  unfold userTemplates at listed
  cases configured : cloudInitDir site with
  | error raised =>
      rw [configured] at listed
      cases listed
  | ok dir =>
      rw [configured, Exec.bind_ok (Exec.ofExcept_apply _ _)] at listed
      have looked := @dirExist_state disk site.kernel dir
      rcases tested : dirExist site.kernel dir disk with ⟨raised | found, middle⟩
      · rw [Exec.bind_error tested] at listed
        cases listed
      · rw [tested] at looked
        obtain rfl : disk = middle := looked.symm
        rw [Exec.bind_ok tested] at listed
        cases found with
        | false =>
            cases listed
            intro option member
            cases member
        | true =>
            rw [if_pos rfl, (looks_scanCloudInitTemplates [dir] disk rfl).1] at listed
            cases searched : searchAll site.kernel disk.tree [dir] .none with
            | error raised =>
                rw [searched] at listed
                cases listed
            | ok found =>
                rw [searched] at listed
                cases listed
                intro option member
                exact ⟨dir, rfl, listedIn_of_searchAll searched option member⟩

/-- What is listed is a built-in template, or found by a scan. -/
theorem index_listed {options : List TemplateOption} (listed : (index site disk).1 = .ok options)
    {option : TemplateOption} (member : option ∈ options) :
    (∃ file, option = ⟨builtinPath file, builtinPath file, true⟩) ∨
      ∃ dir, cloudInitDir site = .ok dir ∧ ListedIn site.kernel disk.tree dir option := by
  have builtins := builtinTemplates_apply site disk
  unfold index at listed
  rcases first : builtinTemplates site disk with ⟨raised | builtin, middle⟩
  · rw [Exec.bind_error first] at listed
    cases listed
  · rw [first] at builtins
    rcases builtins with ⟨rfl, builtins⟩
    rw [Exec.bind_ok first] at listed
    rcases second : userTemplates site middle with ⟨raised | user, after⟩
    · rw [Exec.bind_error second] at listed
      cases listed
    · rw [Exec.bind_ok second] at listed
      cases listed
      rcases List.mem_append.mp (List.mem_mergeSort.mp member) with isBuiltin | isUser
      · exact Or.inl (builtins builtin rfl option isBuiltin)
      · exact Or.inr (userTemplates_listed (congrArg Prod.fst second) option isUser)

/-- A listed path is not blank. -/
theorem not_blank_of_listed {option : TemplateOption}
    (listed : (∃ file, option = ⟨builtinPath file, builtinPath file, true⟩) ∨
      ∃ dir, cloudInitDir site = .ok dir ∧ ListedIn site.kernel disk.tree dir option) :
    blank option.path = false := by
  rcases listed with ⟨file, rfl⟩ | ⟨dir, _, isListed⟩
  · have chars : (builtinPath file).toList = 'b' :: ("uiltin:".toList ++ file.toList) := by
      rw [builtinPath, String.toList_append]
      rfl
    simp only [blank, chars, List.all_cons]
    rfl
  · have expanded := isListed.headed.1.expanded
    cases place : expandPath site.kernel.toSurroundings (join dir option.label) with
    | error raised =>
        rw [place] at expanded
        cases expanded
    | ok place' =>
        rw [place] at expanded
        have chars : option.path.toList = '/' :: ("/".intercalate place'.reverse).toList := by
          rw [← Except.ok.inj expanded, text, String.toList_append]
          rfl
        simp only [blank, chars, List.all_cons]
        rfl

theorem builtinName_builtinPath (file : String) : builtinName (builtinPath file) = some file := by
  have chars : (builtinPath file).toList = BUILTIN.toList ++ file.toList :=
    String.toList_append ..
  rw [builtinName, chars, if_pos (List.prefix_append _ _)]
  refine congrArg some ?_
  rw [show BUILTIN.length = BUILTIN.toList.length from rfl, List.drop_left, String.ofList_toList]

/-- Of a listed template of a user, what is shown under an accepted label is what
stands at the path. -/
theorem shown_listed_iff {dir : String} {option : TemplateOption}
    (configured : cloudInitDir site = .ok dir)
    (listed : ListedIn site.kernel disk.tree dir option)
    (notBuiltin : builtinName option.label = none) (accepted : Accepted option.label)
    (content : List UInt8) :
    Shown site disk option.label content ↔
      readAt site.kernel disk.tree option.path = .ok content := by
  rcases listed.entry with ⟨names, listing, _⟩
  have dirFacts : null ∉ dir.toList ∧ dir ≠ "" := by
    unfold listingOf entries at listing
    dsimp only at listing
    unfold locate at listing
    split_ifs at listing with hasNull empty
    exact ⟨hasNull, empty⟩
  have candidate := listed.headed.1.expanded
  cases joined : expandPath site.kernel.toSurroundings (join dir option.label) with
  | error raised =>
      rw [joined] at candidate
      cases candidate
  | ok inner =>
      rw [joined] at candidate
      rcases expandPath_of_join dirFacts.1 joined with ⟨base, expanded⟩
      cases joined.symm.trans (expandPath_join accepted.clean dirFacts.2 expanded)
      have path : text (option.label :: base) = option.path := Except.ok.inj candidate
      have sanitized : sanitizeTemplateName site.kernel.toSurroundings dir option.label =
          .ok option.path := by
        rw [← path]
        exact sanitizeName_of_accepted accepted expanded
      rw [shown_user_iff notBuiltin]
      constructor
      · rintro ⟨other, third, isDir, isPath, isRead⟩
        cases configured.symm.trans isDir
        cases sanitized.symm.trans isPath
        exact isRead
      · exact fun isRead => ⟨dir, option.path, configured, sanitized, isRead⟩

end

/-- A listed template is usable for a launch if and only if it is one of a user
with an accepted name, or the working directory has a file under the name of the
built-in one, with its content. -/
theorem usable_iff (site : Site) (disk : Disk) (options : List TemplateOption)
    (option : TemplateOption) (env : Environment) (stamp : EventStamp) (request : Request)
    (app : App Host) (listed : (index site disk).1 = .ok options) (member : option ∈ options)
    (inOrder : InOrder env request option.path)
    (mirrors : Mirrors site.kernel disk.tree env app.state option.path) :
    Usable site disk env stamp request app option ↔ UsableWhen site disk.tree option := by
  have origin := index_listed listed member
  have launches : ∀ content, LaunchesWith env stamp request app option.path content ↔
      readAt site.kernel disk.tree option.path = .ok content :=
    fun content => (launchesWith_iff inOrder (not_blank_of_listed origin) content).trans
      (mirrors content).symm
  have reads : Usable site disk env stamp request app option ↔ ∃ content,
      Shown site disk option.label content ∧
        readAt site.kernel disk.tree option.path = .ok content :=
    exists_congr fun content => and_congr_right fun _ => launches content
  rw [reads, UsableWhen]
  cases builtin : builtinName option.label with
  | some actual => exact exists_congr fun content => and_congr_left fun _ =>
      shown_builtin_iff builtin content
  | none =>
      rcases origin with ⟨file, rfl⟩ | ⟨dir, configured, isListed⟩
      · cases builtin.symm.trans (builtinName_builtinPath file)
      · constructor
        · rintro ⟨content, shown, _⟩
          rcases (shown_user_iff builtin content).mp shown with ⟨other, path, _, isPath, _⟩
          rcases @sanitizeName_cases "template" site.kernel.toSurroundings other option.label with
            ⟨raised, rejected⟩ | ⟨base, accepted, _⟩
          · cases rejected.symm.trans isPath
          · exact accepted
        · intro accepted
          rcases headerAt_eq_true_iff.mp isListed.headed.2 with ⟨content, isRead, _⟩
          exact ⟨content,
            (shown_listed_iff configured isListed builtin accepted content).mpr isRead,
            isRead⟩

/-- A disk with a template of a user and a built-in one. -/
def stocked : Disk where
  tree := Tree.ofList [
    (["data"], .directory),
    (["web.yml", "data"], .file (utf8Bytes "#cloud-config\n")),
    (["srv"], .directory),
    (["app", "srv"], .directory),
    (["views", "app", "srv"], .directory),
    (["cloud_init_templates", "views", "app", "srv"], .directory),
    (["builtin", "cloud_init_templates", "views", "app", "srv"], .directory),
    (["agent-ready.yml", "builtin", "cloud_init_templates", "views", "app", "srv"],
      .file (utf8Bytes "#cloud-config\n"))]
  accesses := []

/-- What is listed there. -/
def stockedOptions : List TemplateOption :=
  [⟨"builtin:agent-ready.yml", "builtin:agent-ready.yml", true⟩,
      ⟨"web.yml", "/data/web.yml", false⟩]

/-- The machine with that disk. -/
def stockedHost : Host :=
  ⟨[], Collections.OrderedHash.empty.insert "/data/web.yml" (utf8Bytes "#cloud-config\n"), none,
    []⟩

def templateLaunch (path : String) : Request :=
  ⟨"POST", "/vms", .object [("name", .string "web"), ("cloud_init_file", .string path)]⟩

theorem inOrder_templateLaunch (path : String) (shown : blank path = false) :
    InOrder quietEnvironment (templateLaunch path) path where
  file := rfl
  arguments := by
    refine ⟨⟨.string "web", .null, none, none, none, .string path, .null⟩, "web",
      .literal DEFAULT_UBUNTU_RELEASE, ?_, Or.inr ⟨rfl, (vmNamePattern_iff _).mp (by decide)⟩,
      Or.inl ⟨rfl, rfl⟩⟩
    have file : Value.presence (.string path) = .string path := by
      rw [Value.presence, Value.present, shown]
      rfl
    change Except.ok _ = _
    rw [show param (templateLaunch path) "cloud_init_file" = .string path from rfl, file]
    rfl
  writable := rfl

theorem index_stocked : (index installation stocked).1 = .ok stockedOptions := by
  have builtin : builtinTemplates installation stocked =
      (.ok [⟨"builtin:agent-ready.yml", "builtin:agent-ready.yml", true⟩], stocked) := by
    have present : dirExist installation.kernel (builtinDir installation) stocked =
        (.ok true, stocked) := by rfl
    have listed : children installation.kernel (builtinDir installation) stocked =
        (.ok ["agent-ready.yml"], stocked) := by rfl
    rw [builtinTemplates, Exec.bind_ok present, if_pos rfl, Exec.bind_ok listed,
      List.mergeSort_singleton]
    rfl
  have user : (userTemplates installation stocked).1 =
      .ok [⟨"web.yml", "/data/web.yml", false⟩] := by decide +kernel
  rcases ran : userTemplates installation stocked with ⟨outcome, after⟩
  rw [ran] at user
  obtain rfl : outcome = .ok [⟨"web.yml", "/data/web.yml", false⟩] := user
  rw [index, Exec.bind_ok builtin, Exec.bind_ok ran]
  refine congrArg Except.ok (List.mergeSort_of_pairwise ?_)
  simp only [List.cons_append, List.nil_append, List.pairwise_cons, List.mem_singleton,
    forall_eq, List.Pairwise.nil, List.not_mem_nil, IsEmpty.forall_iff, implies_true, and_true]
  decide

theorem usable_iff_web :
    Usable installation stocked quietEnvironment ⟨0, "00"⟩ (templateLaunch "/data/web.yml")
        ⟨stockedHost, []⟩ ⟨"web.yml", "/data/web.yml", false⟩ ↔
      UsableWhen installation stocked.tree ⟨"web.yml", "/data/web.yml", false⟩ := by
  have mirrors : Mirrors installation.kernel stocked.tree quietEnvironment stockedHost
      "/data/web.yml" := by
    intro content
    have isRead : readAt installation.kernel stocked.tree "/data/web.yml" =
        .ok (utf8Bytes "#cloud-config\n") := by decide +kernel
    have found : stockedHost.files.get? "/data/web.yml" =
        some (utf8Bytes "#cloud-config\n") := by decide +kernel
    rw [isRead, found]
    simp [quietEnvironment]
  exact usable_iff installation stocked stockedOptions ⟨"web.yml", "/data/web.yml", false⟩
    quietEnvironment ⟨0, "00"⟩ (templateLaunch "/data/web.yml") ⟨stockedHost, []⟩ index_stocked
    (by decide) (inOrder_templateLaunch "/data/web.yml" (by decide)) mirrors

/-- The listed path of the built-in template makes the launch fail before it runs
multipass. -/
theorem builtin_not_usable :
    (index installation stocked).1 = .ok stockedOptions ∧
    (VmsController.create quietEnvironment ⟨0, "00"⟩ (templateLaunch "builtin:agent-ready.yml")
      ⟨stockedHost, []⟩).1 = .error (.systemCallError "ENOENT") ∧
    (VmsController.create quietEnvironment ⟨0, "00"⟩ (templateLaunch "builtin:agent-ready.yml")
      ⟨stockedHost, []⟩).2.state.commands = [] ∧
    ¬ Usable installation stocked quietEnvironment ⟨0, "00"⟩
      (templateLaunch "builtin:agent-ready.yml") ⟨stockedHost, []⟩
      ⟨"builtin:agent-ready.yml", "builtin:agent-ready.yml", true⟩ := by
  refine ⟨index_stocked, by decide +kernel, by decide +kernel, ?_⟩
  rintro ⟨content, _, launches⟩
  have inOrder := inOrder_templateLaunch "builtin:agent-ready.yml" (by decide)
  have found := ((launchesWith_iff inOrder (by decide) content).mp launches).1
  have missing : stockedHost.files.get? "builtin:agent-ready.yml" = none := by decide +kernel
  cases missing.symm.trans found

end MultipassWebui.Web.CloudInitTemplatesController
