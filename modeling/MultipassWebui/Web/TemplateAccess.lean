import MultipassWebui.Web.CloudInitTemplates

/-!
# The files that the template actions touch

The names that users give are kept in their directory by the checks.  Those of
built-in templates are not checked, so what is read there is right where the
name leads to a file that may be read anyway.
-/

namespace MultipassWebui.Web.CloudInitTemplatesController

open MultipassWebui.Effect
open MultipassWebui.Encoding
open MultipassWebui.Files
open MultipassWebui.Multipass
open MultipassWebui.Multipass.Cloudinit
open MultipassWebui.Records
open MultipassWebui.Text

/-- The request raises or reports an error. -/
def Failed : Except RubyError Reply → Prop
  | .error _ => True
  | .ok (.alert _) => True
  | .ok _ => False

section

variable (site : Site)

/-- A file right below `cloud_init_dir`. -/
def KeptChild (tree : Tree) (place : Place) : Prop :=
  ∃ dir, cloudInitDir site = .ok dir ∧ DirectChild site.kernel.toSurroundings dir tree place

/-- A file right below the directory of the built-in templates. -/
def BuiltinChild (tree : Tree) (place : Place) : Prop :=
  ∃ name outer, locate site.kernel tree (builtinDir site) = .ok outer ∧ place = name :: outer

/-- What a request with a name may do to a file. -/
def Allowed (name : String) (tree : Tree) (access : Access) : Prop :=
  KeptChild site tree access.place ∨
    access.kind = .read ∧ (builtinName name).isSome ∧ BuiltinChild site tree access.place

/-- The request fails or touches files in the template directories only; no
content of another file is returned, and no other file changes. -/
structure Contained (name : String) (before after : Disk) (reply : Except RubyError Reply) :
    Prop where
  accesses : Failed reply ∨ ∃ added, after.accesses = before.accesses ++ added ∧
    ∀ access ∈ added, Allowed site name after.tree access
  returned : ∀ content, reply = .ok (.content content) → ∃ place,
    before.tree.node? place = some (.file content) ∧ Allowed site name after.tree ⟨.read, place⟩
  files : ∀ place, after.tree.file? place ≠ before.tree.file? place →
      KeptChild site after.tree place

/-- No symbolic link is in `cloud_init_dir`. -/
def NoLinks (tree : Tree) : Prop :=
  ∀ dir base, cloudInitDir site = .ok dir → expandPath site.kernel.toSurroundings dir = .ok base →
    LinkFree tree base

/-- The rest of a name with the prefix leads, from the directory of the built-in
templates, to a file that the request may read, or to none that can be read. -/
def StaysInside (name : String) (tree : Tree) : Prop :=
  ∀ actual place content, builtinName name = some actual →
    locate site.kernel tree (builtinDir site ++ "/" ++ actual) = .ok place →
    tree.node? place = some (.file content) → site.kernel.readError place = none →
    Allowed site name tree ⟨.read, place⟩

end

section

variable {site : Site} {name : String} {disk : Disk}

theorem contained_failed {after : Disk} {reply : Except RubyError Reply} (failed : Failed reply)
    (touches : TouchesOnly (KeptChild site after.tree) disk after) :
    Contained site name disk after reply where
  accesses := Or.inl failed
  returned := by
    rintro content rfl
    exact failed.elim
  files := touches.files

theorem contained_quiet {after : Disk} {reply : Except RubyError Reply}
    (silent : ∀ content, reply ≠ .ok (.content content))
    (touches : TouchesOnly (KeptChild site after.tree) disk after) :
    Contained site name disk after reply where
  accesses := by
    obtain ⟨added, grown, kept⟩ := touches.accesses
    exact Or.inr ⟨added, grown, fun access member => Or.inl (kept access member)⟩
  returned := fun content same => absurd same (silent content)
  files := touches.files

/-- Reading one file is contained precisely if it may be read. -/
theorem contained_read_iff {place : Place} {content : List UInt8}
    (isFile : disk.tree.node? place = some (.file content)) :
    Contained site name disk (disk.record .read place) (.ok (.content content)) ↔
      Allowed site name disk.tree ⟨.read, place⟩ := by
  constructor
  · intro contained
    rcases contained.accesses with failed | ⟨added, grown, allowed⟩
    · exact failed.elim
    · obtain rfl := List.append_cancel_left grown
      exact allowed _ (List.mem_singleton.mpr rfl)
  · intro allowed
    refine ⟨Or.inr ⟨[⟨.read, place⟩], rfl, ?_⟩, ?_, fun other changed => absurd rfl changed⟩
    · intro access member
      rw [List.mem_singleton.mp member]
      exact allowed
    · intro other same
      obtain rfl : content = other := by
        injection same with same
        injection same
      exact ⟨place, isFile, allowed⟩

/-- Reading a template is contained precisely if a name with the prefix stays
inside. -/
theorem contained_readTemplateContent_iff (noLinks : NoLinks site disk.tree) :
    Contained site name disk (readTemplateContent site (.string name) disk).2
        ((readTemplateContent site (.string name) disk).1.map Reply.content) ↔
      StaysInside site name disk.tree := by
  have raises : ∀ raised, readTemplateContent site (.string name) disk = (.error raised, disk) →
      Contained site name disk (readTemplateContent site (.string name) disk).2
        ((readTemplateContent site (.string name) disk).1.map Reply.content) := by
    intro raised failed
    rw [failed]
    exact contained_failed trivial (touchesOnly_self disk _)
  cases builtin : builtinName name with
  | none =>
      refine iff_of_true ?_ ?_
      · have program := congrFun (@readTemplateContent_user site name builtin) disk
        rcases configured : cloudInitDir site with raised | dir
        · refine raises raised (program.trans ?_)
          exact Exec.bind_error (by rw [Exec.ofExcept_apply, configured]) _
        · rw [Exec.bind_ok (by rw [Exec.ofExcept_apply, configured])] at program
          rcases @readNamed_touches "template" site.kernel dir name disk
            (fun base => noLinks dir base configured) with
            ⟨raised, failed⟩ | ⟨place, content, child, isFile, returned⟩
          · exact raises raised (program.trans failed)
          · rw [program, show readCloudInitTemplate site.kernel dir name disk = _ from returned]
            exact (contained_read_iff isFile).mpr (Or.inl ⟨dir, configured, child⟩)
      · intro actual place content isBuiltin
        rw [builtin] at isBuiltin
        cases isBuiltin
  | some actual =>
      by_cases hasNull : null ∈ actual.toList
      · refine iff_of_true (raises (.argumentError "pathname contains null byte") ?_) ?_
        · rw [readTemplateContent_null builtin hasNull]
          rfl
        · intro other place content isBuiltin located
          rw [builtin] at isBuiltin
          obtain rfl := Option.some.inj isBuiltin
          exact absurd located (not_located_builtin hasNull disk.tree place)
      · have program := congrFun
          (@readTemplateContent_builtin site name actual builtin hasNull) disk
        rcases @read_cases site.kernel (builtinDir site ++ "/" ++ actual) disk with
          ⟨raised, failed⟩ | ⟨place, content, located, isFile, readable, returned⟩
        · apply iff_of_true (raises raised (program.trans failed))
          intro other place content isBuiltin located isFile readable
          rw [builtin] at isBuiltin
          obtain rfl := Option.some.inj isBuiltin
          cases failed.symm.trans (read_of_readable located isFile readable)
        · rw [program, returned]
          refine (contained_read_iff isFile).trans ⟨fun allowed => ?_, fun stays => ?_⟩
          · intro other otherPlace otherContent isBuiltin otherLocated _ _
            rw [builtin] at isBuiltin
            obtain rfl := Option.some.inj isBuiltin
            rw [located] at otherLocated
            obtain rfl := Except.ok.inj otherLocated
            exact allowed
          · exact stays actual place content builtin located isFile readable

/-- What follows a pure computation touches allowed files only. -/
theorem touches_ofExcept_bind {α β : Type} (allowed : Tree → Place → Prop)
    {outcome : Except RubyError α} {next : α → Exec Disk RubyError β}
    (touches : ∀ value, outcome = .ok value →
      TouchesOnly (allowed (next value disk).2.tree) disk (next value disk).2) :
    TouchesOnly (allowed ((Exec.ofExcept outcome >>= next) disk).2.tree) disk
      ((Exec.ofExcept outcome >>= next) disk).2 := by
  cases outcome with
  | error raised =>
      rw [Exec.bind_error (Exec.ofExcept_apply _ _)]
      exact touchesOnly_self disk _
  | ok value =>
      rw [Exec.bind_ok (Exec.ofExcept_apply _ _)]
      exact touches value rfl

theorem saveTemplate_touches {request : Request} (noLinks : NoLinks site disk.tree) :
    TouchesOnly (KeptChild site (saveTemplate site request disk).2.tree) disk
      (saveTemplate site request disk).2 := by
  unfold saveTemplate
  refine touches_ofExcept_bind (KeptChild site) fun _ _ => ?_
  refine touches_ofExcept_bind (KeptChild site) fun dir configured => ?_
  refine touches_ofExcept_bind (KeptChild site) fun given _ => ?_
  rw [Exec.bind_state fun _ _ => rfl]
  have touches := @writeNamed_touches "template" site.kernel dir given disk
    (utf8Bytes (toS site.toText (param request "content")))
    (fun base => noLinks dir base configured)
  refine ⟨?_, fun place changed => ⟨dir, configured, touches.files place changed⟩⟩
  obtain ⟨added, grown, kept⟩ := touches.accesses
  exact ⟨added, grown, fun access member => ⟨dir, configured, kept access member⟩⟩

theorem deleteTemplate_touches {request : Request} (noLinks : NoLinks site disk.tree) :
    TouchesOnly (KeptChild site (deleteTemplate site request disk).2.tree) disk
      (deleteTemplate site request disk).2 := by
  unfold deleteTemplate
  refine touches_ofExcept_bind (KeptChild site) fun dir configured => ?_
  refine touches_ofExcept_bind (KeptChild site) fun given _ => ?_
  rw [Exec.bind_state fun _ _ => rfl]
  have touches := @deleteNamed_touches "template" site.kernel dir given disk
    (fun base => noLinks dir base configured)
  refine ⟨?_, fun place changed => ⟨dir, configured, touches.files place changed⟩⟩
  obtain ⟨added, grown, kept⟩ := touches.accesses
  exact ⟨added, grown, fun access member => ⟨dir, configured, kept access member⟩⟩

/-- What is recorded was done to the disk, and the reply is no content. -/
theorem recorded_apply {stamp : EventStamp} {request : Request} {verb : String} {app : App Disk}
    (body : Exec Disk RubyError String) (notice : String → String) :
    (recorded stamp request verb body notice app).2.state = (body app.state).2 ∧
      ∀ content, (recorded stamp request verb body notice app).1 ≠ .ok (.content content) := by
  unfold recorded
  rcases ran : body app.state with ⟨raised | given, after⟩
  · have failed : onState body app = (.error raised, { app with state := after }) := by
      rw [onState_apply, ran]
    rw [Exec.bind_error failed]
    exact ⟨rfl, nofun⟩
  · have returned : onState body app = (.ok given, { app with state := after }) := by
      rw [onState_apply, ran]
    rw [Exec.bind_ok returned]
    have kept := @emitHttp_state Disk stamp request "config" verb (some given) (some "success") none
      { app with state := after }
    rcases emitted : emitHttp stamp request "config" verb (some given) (some "success") none
      { app with state := after } with ⟨raised | ⟨⟩, last⟩
    · rw [emitted] at kept
      rw [Exec.bind_error emitted]
      exact ⟨kept, nofun⟩
    · rw [emitted] at kept
      rw [Exec.bind_ok emitted]
      exact ⟨kept, nofun⟩

/-- An action that records what it did on the disk is contained if that is. -/
theorem contained_recorded {stamp : EventStamp} {request : Request} {verb : String}
    {app : App Disk} (body : Exec Disk RubyError String) (notice : String → String)
    (handler : String → Exec (App Disk) RubyError Reply)
    (touches : TouchesOnly (KeptChild site (body app.state).2.tree) app.state (body app.state).2)
    (handles : ∀ message app, (handler message app).2 = app ∧ Failed (handler message app).1) :
    Contained site name app.state
      (rescueArgument (recorded stamp request verb body notice) handler app).2.state
      (rescueArgument (recorded stamp request verb body notice) handler app).1 := by
  obtain ⟨reached, silent⟩ := @recorded_apply stamp request verb app body notice
  rw [← reached] at touches
  rcases rescueArgument_cases (recorded stamp request verb body notice) handler app with
    stands | ⟨message, middle, failed, handled⟩
  · rw [stands]
    exact contained_quiet silent touches
  · obtain ⟨same, fails⟩ := handles message middle
    rw [failed] at touches
    rw [handled, same]
    exact contained_failed fails touches

end

/-- An action touches files in the template directories only, precisely if a name
with the prefix that is to be read stays inside. -/
theorem contained_iff (site : Site) (stamp : EventStamp) (request : Request) (action : Action)
    (name : String) (app : App Disk) (named : param request "name" = .string name)
    (noLinks : NoLinks site app.state.tree) :
    Contained site name app.state (perform site stamp request action app).2.state
        (perform site stamp request action app).1 ↔
      (action = .show ∨ action = .edit → StaysInside site name app.state.tree) := by
  have reads : Contained site name app.state («show» site request app).2.state
      («show» site request app).1 ↔ StaysInside site name app.state.tree := by
    rw [← contained_readTemplateContent_iff noLinks]
    have returned := Exec.bind_pure_apply (onState (readTemplateContent site (.string name)))
      Reply.content app
    rw [«show», named, show _ = _ from returned, onState_apply]
  cases action with
  | «show» => exact reads.trans ⟨fun stays _ => stays, fun stays => stays (Or.inl rfl)⟩
  | edit => exact reads.trans ⟨fun stays _ => stays, fun stays => stays (Or.inr rfl)⟩
  | create =>
      rw [perform, create]
      refine iff_of_true (contained_recorded (saveTemplate site request) _ _
        (saveTemplate_touches noLinks) ?_) (by simp)
      exact fun message app => ⟨rfl, trivial⟩
  | update =>
      rw [perform, update]
      refine iff_of_true (contained_recorded (saveTemplate site request) _ _
        (saveTemplate_touches noLinks) ?_) (by simp)
      intro message app
      split <;> exact ⟨rfl, trivial⟩
  | destroy =>
      rw [perform, destroy]
      refine iff_of_true (contained_recorded (deleteTemplate site request) _ _
        (deleteTemplate_touches noLinks) ?_) (by simp)
      exact fun message app => ⟨rfl, trivial⟩

/-- An installation whose calls do not fail. -/
def installation : Site where
  kernel :=
    { cwd := []
      cwd_clean := clean_root
      home := fun _ => .ok "/root"
      readError := fun _ => none
      writeError := fun _ => none
      deleteError := fun _ => none
      makeError := fun _ => none
      listError := fun _ => none }
  root := "/srv"
  cloudInitDir := some "/data"
  toText := fun _ => ""
  yamlError := fun _ => none

/-- Its disk: a kept template, the directory of the built-in ones, and a key. -/
def installed : Disk where
  tree := Tree.ofList [
    (["data"], .directory),
    (["web.yml", "data"], .file [1]),
    (["srv"], .directory),
    (["config", "srv"], .directory),
    (["master.key", "config", "srv"], .file [2]),
    (["app", "srv"], .directory),
    (["views", "app", "srv"], .directory),
    (["cloud_init_templates", "views", "app", "srv"], .directory),
    (["builtin", "cloud_init_templates", "views", "app", "srv"], .directory)]
  accesses := []

/-- A request for a template. -/
def showRequest (name : String) : Request :=
  ⟨"GET", "/cloud_init_templates", .object [("name", .string name)]⟩

theorem contained_iff_web :
    NoLinks installation installed.tree ∧
      (Contained installation "web.yml" installed
          (perform installation ⟨0, "00"⟩ (showRequest "web.yml") .show ⟨installed, []⟩).2.state
          (perform installation ⟨0, "00"⟩ (showRequest "web.yml") .show ⟨installed, []⟩).1 ↔
        (Action.show = .show ∨ Action.show = .edit →
          StaysInside installation "web.yml" installed.tree)) := by
  have noLinks : NoLinks installation installed.tree := by
    intro dir base configured expanded larger outer grows leads name target isLink
    rcases grows.added _ _ isLink with old | ⟨_, isDirectory⟩
    · exact Tree.node?_ne_link (by decide +kernel) _ _ old
    · cases isDirectory
  exact ⟨noLinks, contained_iff installation ⟨0, "00"⟩ (showRequest "web.yml") .show "web.yml"
    ⟨installed, []⟩ rfl noLinks⟩

/-- With two steps up too many, a name with the prefix reads the key. -/
theorem show_master_key :
    (perform installation ⟨0, "00"⟩ (showRequest "builtin:../../../../config/master.key") .show
      ⟨installed, []⟩).1 = .ok (.content [2]) ∧
    ¬ Contained installation "builtin:../../../../config/master.key" installed
      (perform installation ⟨0, "00"⟩ (showRequest "builtin:../../../../config/master.key") .show
        ⟨installed, []⟩).2.state
      (perform installation ⟨0, "00"⟩ (showRequest "builtin:../../../../config/master.key") .show
        ⟨installed, []⟩).1 := by
  let name := "builtin:../../../../config/master.key"
  have builtin : builtinName name = some "../../../../config/master.key" := by decide +kernel
  have located : locate installation.kernel installed.tree
      (builtinDir installation ++ "/" ++ "../../../../config/master.key") =
      .ok ["master.key", "config", "srv"] := by rfl
  have isFile : installed.tree.node? ["master.key", "config", "srv"] = some (.file [2]) := by
    decide +kernel
  have content : readTemplateContent installation (.string name) installed =
      (.ok [2], installed.record .read ["master.key", "config", "srv"]) := by
    simp only [readTemplateContent, builtin]
    rw [if_neg (by decide +kernel)]
    exact read_of_readable located isFile rfl
  have replied : perform installation ⟨0, "00"⟩ (showRequest name) .show ⟨installed, []⟩ =
      (.ok (.content [2]), ⟨installed.record .read ["master.key", "config", "srv"], []⟩) := by
    have returned := Exec.bind_pure_apply (onState
        (readTemplateContent installation (.string name)))
      Reply.content ⟨installed, []⟩
    rw [onState_apply, content] at returned
    exact returned
  rw [show perform installation ⟨0, "00"⟩ (showRequest name) .show ⟨installed, []⟩ = _ from replied]
  refine ⟨rfl, fun contained => ?_⟩
  rcases (contained_read_iff isFile).mp contained with
    ⟨dir, configured, base, child, outer, expanded, leads, same⟩ | ⟨_, _, child, outer, leads, same⟩
  · obtain rfl := Except.ok.inj configured
    obtain rfl := Except.ok.inj ((show expandPath installation.kernel.toSurroundings "/data" =
      .ok ["data"] by rfl).symm.trans expanded)
    obtain rfl := Except.ok.inj ((show installed.tree.walk LINKS [] ["data"] = .ok ["data"] by
      rfl).symm.trans leads)
    exact absurd (List.cons.inj same).2 (by decide)
  · obtain rfl := Except.ok.inj ((show locate installation.kernel installed.tree
      (builtinDir installation) = .ok ["builtin", "cloud_init_templates", "views", "app", "srv"] by
      rfl).symm.trans leads)
    exact absurd (List.cons.inj same).2 (by decide)

end MultipassWebui.Web.CloudInitTemplatesController
