import MultipassWebui.Multipass.InfoDocuments

/-!
# Two ways to list the machines

`list_vms` reads the answer of `info`, and where that fails the answer of
`list`.  Both name the machines in the same order, with the same states and
addresses.
-/

namespace MultipassWebui.Multipass

open MultipassWebui.Collections
open MultipassWebui.Effect
open MultipassWebui.Encoding
open MultipassWebui.Text

/-! ## The exceptions of the parsers -/

/-- An exception other than `CommandError`. -/
def NotCommand (raised : RubyError) : Prop := raised.isCommandError = false

theorem raises_index (key : String) (value : Json) : Raises NotCommand (Value.index key value) := by
  cases value with
  | object _ | string _ => exact raises_ok _
  | _ => exact raises_error rfl

theorem raises_toI (value : Json) : Raises NotCommand (Value.toI value) := by
  cases value with
  | null | string _ | number _ => exact raises_ok _
  | _ => exact raises_error rfl

theorem raises_elements (value : Json) : Raises NotCommand (Value.elements value) := by
  cases value with
  | null | array _ | object _ => exact raises_ok _
  | _ => exact raises_error rfl

theorem raises_sortByText {α : Type} (key : α → Json) (rows : List α) :
    Raises NotCommand (sortByText key rows) := by
  unfold sortByText
  split_ifs
  · exact raises_ok _
  · exact raises_ok _
  · exact raises_error rfl

theorem raises_fetch (key : String) (empty value : Json) :
    Raises NotCommand (fetch key empty value) := by
  cases value with
  | object _ => exact raises_ok _
  | _ => exact raises_error rfl

section

variable (env : Environment)

theorem raises_formatLoad (value : Json) : Raises NotCommand (formatLoad env value) := by
  cases value with
  | number _ => exact raises_ok _
  | string text =>
      simp only [formatLoad]
      split
      · exact raises_ok _
      · exact raises_error rfl
  | _ => exact raises_error rfl

theorem raises_parseLoad (value : Json) : Raises NotCommand (parseLoad env value) := by
  unfold parseLoad
  split
  · refine raises_bind (raises_formatLoad env _) fun one => ?_
    refine raises_bind (raises_formatLoad env _) fun five => ?_
    exact raises_bind (raises_formatLoad env _) fun fifteen => raises_ok _
  · exact raises_ok _

theorem raises_diskBytes (key : String) (disk : Json) :
    Raises NotCommand (diskBytes env key disk) :=
  raises_bind (raises_index key disk) fun _ => raises_ok _

theorem raises_parseDisks (value : Json) : Raises NotCommand (parseDisks env value) := by
  unfold parseDisks
  split
  · exact raises_ok _
  · exact raises_ok _
  · refine raises_bind (raises_diskBytes env _ _) fun used => ?_
    exact raises_bind (raises_diskBytes env _ _) fun total => raises_ok _
  · exact raises_error rfl

theorem raises_memoryBytes (key : String) (value : Json) :
    Raises NotCommand (memoryBytes key value) := by
  cases value with
  | object fields => exact raises_toI _
  | _ => exact raises_error rfl

theorem raises_parseMounts (value : Json) : Raises NotCommand (parseMounts value) := by
  refine raises_bind (raises_elements value) fun entries => ?_
  refine raises_bind (raises_mapM (fun entry => ?_) entries) fun parsed => raises_sortByText _ _
  refine raises_bind (raises_index _ _) fun sourcePath => ?_
  refine raises_bind (raises_index _ _) fun uidMaps => ?_
  exact raises_bind (raises_index _ _) fun gidMaps => raises_ok _

theorem raises_parseDetail (name : String) (detail : Json) :
    Raises NotCommand (parseDetail env name detail) := by
  cases detail with
  | object fields =>
      refine raises_bind (raises_parseLoad env _) fun load => ?_
      refine raises_bind (raises_parseDisks env _) fun disk => ?_
      refine raises_bind (raises_memoryBytes _ _) fun used => ?_
      refine raises_bind (raises_memoryBytes _ _) fun total => ?_
      exact raises_bind (raises_parseMounts _) fun mounts => raises_ok _
  | _ => exact raises_error rfl

theorem raises_parseInfoJson (resp : Json) : Raises NotCommand (parseInfoJson env resp) := by
  refine raises_bind (raises_fetch _ _ _) fun info => ?_
  cases info with
  | object fields =>
      refine raises_bind (raises_mapM (fun field => ?_) fields) fun vms => raises_sortByText _ _
      exact raises_parseDetail env _ _
  | array items =>
      cases items with
      | nil => exact raises_ok _
      | cons _ _ => exact raises_error rfl
  | _ => exact raises_error rfl

end

theorem raises_parseListJsonBasic (resp : Json) :
    Raises NotCommand (parseListJsonBasic resp) := by
  refine raises_bind (raises_fetch _ _ _) fun list => ?_
  cases list with
  | array items =>
      refine raises_mapM (fun item => ?_) items
      cases item with
      | object _ => exact raises_ok _
      | _ => exact raises_error rfl
  | object fields =>
      cases fields with
      | nil => exact raises_ok _
      | cons _ _ => exact raises_error rfl
  | _ => exact raises_error rfl

/-! ## The machines of the two documents -/

/-- What both documents tell of a machine. -/
structure Machine where
  name : String
  state : Json
  ipv4 : Json

/-- The fields of an entry have the state and the addresses of the machine. -/
def Machine.Tells (machine : Machine) (fields : List (String × Json)) : Prop :=
  get "state" fields = machine.state ∧ get "ipv4" fields = machine.ipv4

/-- An object keyed by name.  The details are documented, and have a memory that
is an object if they have one. -/
def RendersInfo (machines : List Machine) (resp : Json) : Prop :=
  ∃ details, resp.field? "info" = some (.object details) ∧
    List.Forall₂ (fun machine detail => ∃ fields, detail = (machine.name, Json.object fields) ∧
      Documented fields ∧ (Json.object fields).field? "memory" ≠ some .null ∧
      machine.Tells fields) machines details

/-- An array in any order. -/
def RendersList (machines : List Machine) (resp : Json) : Prop :=
  ∃ items order, resp.field? "list" = some (.array items) ∧ order.Perm machines ∧
    List.Forall₂ (fun machine item => ∃ fields, item = Json.object fields ∧
      get "name" fields = .string machine.name ∧ machine.Tells fields) order items

/-- What is shown of an entry. -/
def shown (vm : VmInfo) : Json × Json × Json := (vm.name, vm.state.getD .null, vm.ipv4)

/-- What is shown of a machine. -/
def Machine.shown (machine : Machine) : Json × Json × Json :=
  (.string machine.name, machine.state, Value.orDefault machine.ipv4 (.array []))

/-- The machines by name. -/
def listing (machines : List Machine) : List (Json × Json × Json) :=
  (machines.mergeSort fun first second => first.name ≤ second.name).map Machine.shown

/-- The rows of the machines in ascending order are the listing. -/
theorem eq_listing {machines : List Machine} (distinct : (machines.map Machine.name).Nodup)
    {rows : List VmInfo} {names : List String}
    (labels : rows.map VmInfo.name = names.map Json.string) (ascending : names.Pairwise (· < ·))
    (same : (rows.map shown).Perm (machines.map Machine.shown)) :
    rows.map shown = listing machines := by
  have rowsAscend : ((rows.map shown).map (label Prod.fst)).Pairwise (· < ·) := by
    have both : (rows.map VmInfo.name).map (fun value => value.text?.getD "") =
        (names.map Json.string).map (fun value => value.text?.getD "") := by rw [labels]
    rw [List.map_map, List.map_map] at both
    rw [List.map_map]
    exact (both.trans (List.map_id names)).symm ▸ ascending
  have listingAscends : ((listing machines).map (label Prod.fst)).Pairwise (· < ·) := by
    rw [listing, List.map_map]
    exact pairwise_mergeSort_of_nodup (fun first second => decide_eq_true_iff) distinct
  have listed : (listing machines).Perm (machines.map Machine.shown) :=
    (List.mergeSort_perm _ _).map _
  exact eq_of_perm_of_ascending rowsAscend listingAscends (same.trans listed.symm)

/-- The info document is read as the listing of the machines. -/
theorem parseInfoJson_listing (env : Environment) {machines : List Machine} {resp : Json}
    (distinct : (machines.map Machine.name).Nodup) (renders : RendersInfo machines resp) :
    ∃ vms, parseInfoJson env resp = .ok vms ∧ vms.map shown = listing machines := by
  rcases renders with ⟨details, isInfo, told⟩
  have names : details.map Prod.fst = machines.map Machine.name := by
    clear isInfo distinct
    induction told with
    | nil => rfl
    | cons tells _ ih =>
        rcases tells with ⟨fields, rfl, _⟩
        rw [List.map_cons, List.map_cons, ih]
  have document : InfoDocument resp details := ⟨isInfo, names ▸ distinct⟩
  have isParsed : ∃ parsed, details.mapM (fun detail => parseDetail env detail.1 detail.2) =
      .ok parsed ∧ parsed.map shown = machines.map Machine.shown := by
    clear names document isInfo distinct
    induction told with
    | nil => exact ⟨[], rfl, rfl⟩
    | cons tells _ ih =>
        rcases tells with ⟨fields, rfl, documented, given, state, ipv4⟩
        rcases ih with ⟨parsed, others, follow⟩
        rcases (exists_parseDetail_iff env _ documented).mpr given with ⟨vm, first⟩
        refine ⟨vm :: parsed, mapM_eq_ok_iff.mpr (.cons first (mapM_eq_ok_iff.mp others)), ?_⟩
        rcases parseDetail_eq_ok_iff.mp first with ⟨_, _, _, _, _, _, _, _, _, _, rfl⟩
        rw [List.map_cons, List.map_cons, follow, Machine.shown, ← state, ← ipv4]
        rfl
  rcases isParsed with ⟨parsed, isParsed, told⟩
  rcases parseInfoJson_of_parsed document isParsed with ⟨vms, sorted, read, same, labels, _, ascend⟩
  exact ⟨vms, read, eq_listing distinct labels ascend (told ▸ same.map shown)⟩

/-- The list document is read and sorted as the listing of the machines. -/
theorem parseListJsonBasic_listing {machines : List Machine} {resp : Json}
    (distinct : (machines.map Machine.name).Nodup) (renders : RendersList machines resp) :
    ∃ vms sorted, parseListJsonBasic resp = .ok vms ∧ sortByName vms = .ok sorted ∧
      sorted.map shown = listing machines := by
  rcases renders with ⟨items, order, isList, rearranged, told⟩
  have isParsed : ∃ parsed, items.mapM parseListed = .ok parsed ∧
      parsed.map shown = order.map Machine.shown ∧
      parsed.map VmInfo.name = (order.map Machine.name).map Json.string := by
    clear isList rearranged
    induction told with
    | nil => exact ⟨[], rfl, rfl, rfl⟩
    | cons tells _ ih =>
        rcases tells with ⟨fields, rfl, name, state, ipv4⟩
        rcases ih with ⟨parsed, others, follow, labels⟩
        refine ⟨_ :: parsed, mapM_eq_ok_iff.mpr (.cons rfl (mapM_eq_ok_iff.mp others)), ?_, ?_⟩
        · rw [List.map_cons, List.map_cons, follow, Machine.shown, ← state, ← ipv4, ← name]
          rfl
        · rw [List.map_cons, List.map_cons, List.map_cons, labels, ← name]
  rcases isParsed with ⟨parsed, isParsed, told, labels⟩
  have distinctOrder : (order.map Machine.name).Nodup :=
    (rearranged.map Machine.name).nodup_iff.mpr distinct
  rcases sortByText_of_distinct labels distinctOrder with
    ⟨sorted, names, isSorted, same, sortedLabels, _, ascending⟩
  refine ⟨parsed, sorted, ?_, isSorted, ?_⟩
  · cases resp with
    | object entries =>
        simp only [parseListJsonBasic, fetch, isList]
        exact isParsed
    | _ => cases isList
  · refine eq_listing distinct sortedLabels ascending ?_
    exact (same.map shown).trans (told ▸ rearranged.map Machine.shown)

/-! ## The two commands -/

/-- `info --all --format json` -/
def infoArgv : List Word :=
  [.literal "info", .literal "--all", .literal "--format", .literal "json"]

/-- `list --format json` -/
def listArgv : List Word := [.literal "list", .literal "--format", .literal "json"]

/-- The command at a position prints a document. -/
def PrintsDocument (env : Environment) (position : ℕ) (argv : List Word) (resp : Json) : Prop :=
  ∃ stdout stderr exitstatus,
    env.runner position (argv.map Word.text) = .ok ⟨stdout, stderr, true, exitstatus⟩ ∧
    env.parseJson (strip stdout) = .ok resp

/-- The command at a position does not end with success. -/
def ExitsWithFailure (env : Environment) (position : ℕ) (argv : List Word) : Prop :=
  ∃ stdout stderr exitstatus,
    env.runner position (argv.map Word.text) = .ok ⟨stdout, stderr, false, exitstatus⟩

theorem run_of_document {env : Environment} {host : Host} {argv : List Word} {resp : Json}
    (prints : PrintsDocument env host.commands.length argv resp) :
    ∃ output, run env argv host = (.ok output, host.issue argv true) ∧
      env.parseJson output = .ok resp := by
  rcases prints with ⟨stdout, stderr, exitstatus, answer, parsed⟩
  have captured : capture env argv host = (.ok stdout, host.issue argv true) := by
    simp only [capture, answer]
  exact ⟨strip stdout, Exec.bind_ok captured _, parsed⟩

theorem run_of_failing {env : Environment} {host : Host} {argv : List Word}
    (fails : ExitsWithFailure env host.commands.length argv) :
    ∃ message, run env argv host = (.error (.commandError message), host.issue argv false) := by
  rcases fails with ⟨stdout, stderr, exitstatus, answer⟩
  have captured : capture env argv host =
      (.error (.commandError (commandMessage (argv.map Word.text) exitstatus stderr)),
        host.issue argv false) := by
    simp only [capture, answer]
  exact ⟨_, Exec.bind_error captured _⟩

/-- What follows the answer of `info`. -/
def readInfo (env : Environment) (output : String) : Except RubyError (List VmInfo) := do
  let resp ← env.parseJson output
  parseInfoJson env resp

/-- What follows the answer of `list`. -/
def readList (env : Environment) (output : String) : Except RubyError (List VmInfo) := do
  let resp ← env.parseJson output
  let vms ← parseListJsonBasic resp
  sortByName vms

/-- `list_vms`, with everything after an answer as one pure step. -/
theorem listVms_eq (env : Environment) :
    listVms env = Exec.rescue
      (run env infoArgv >>= fun output => Exec.ofExcept (readInfo env output))
      fun error =>
        if error.isCommandError then
          some (Exec.rescue (run env listArgv)
              (fun second => if second.isCommandError then some (Exec.raise error) else none) >>=
            fun output => Exec.ofExcept (readList env output))
        else none := by
  have info : ∀ output, (parse env output >>= fun resp => Exec.ofExcept (parseInfoJson env resp) :
      Exec Host RubyError (List VmInfo)) = Exec.ofExcept (readInfo env output) := fun output =>
    Exec.ofExcept_bind (env.parseJson output) (parseInfoJson env)
  have list : ∀ output, (parse env output >>= fun resp =>
      Exec.ofExcept (parseListJsonBasic resp) >>= fun vms => Exec.ofExcept (sortByName vms) :
      Exec Host RubyError (List VmInfo)) = Exec.ofExcept (readList env output) := by
    intro output
    simp only [Exec.ofExcept_bind]
    exact Exec.ofExcept_bind (env.parseJson output) fun resp =>
      parseListJsonBasic resp >>= sortByName
  simp only [← info, ← list]
  rfl

section

variable {env : Environment} {host middle last : Host}

/-- Once `info` has answered, `list_vms` reads the answer or fails on it. -/
theorem listVms_of_info (parses : ∀ text, Raises NotCommand (env.parseJson text))
    {output : String} (ran : run env infoArgv host = (.ok output, middle)) :
    (listVms env host).1 = readInfo env output := by
  have notCommand : Raises NotCommand (readInfo env output) :=
    raises_bind (parses output) fun resp => raises_parseInfoJson env resp
  have body : (run env infoArgv >>= fun output => Exec.ofExcept (readInfo env output)) host =
      (readInfo env output, middle) := by
    rw [Exec.bind_ok ran, Exec.ofExcept_apply]
  rw [listVms_eq]
  cases read : readInfo env output with
  | ok vms =>
      rw [read] at body
      rw [Exec.rescue_ok body]
  | error raised =>
      rw [read] at body
      have isNot : raised.isCommandError = false := notCommand raised read
      rw [Exec.rescue_error body, isNot]
      rfl

/-- An exception of `info` that is no `CommandError` is not rescued. -/
theorem listVms_of_otherError {raised : RubyError}
    (ran : run env infoArgv host = (.error raised, middle))
    (other : raised.isCommandError = false) : (listVms env host).1 = .error raised := by
  rw [listVms_eq, Exec.rescue_error (Exec.bind_error ran _), other]
  rfl

/-- Once `info` has failed, `list` is asked. -/
theorem listVms_of_list {raised : RubyError}
    (ran : run env infoArgv host = (.error raised, middle))
    (isCommand : raised.isCommandError = true) {output : String}
    (ranList : run env listArgv middle = (.ok output, last)) :
    (listVms env host).1 = readList env output := by
  rw [listVms_eq, Exec.rescue_error (Exec.bind_error ran _), isCommand]
  simp only [if_true]
  rw [Exec.bind_ok (Exec.rescue_ok ranList _), Exec.ofExcept_apply]

/-- If `list` fails too, the first exception is raised again. -/
theorem listVms_of_bothFailed {raised second : RubyError}
    (ran : run env infoArgv host = (.error raised, middle))
    (isCommand : raised.isCommandError = true)
    (ranList : run env listArgv middle = (.error second, last)) :
    (listVms env host).1 =
      .error (if second.isCommandError then raised else second) := by
  rw [listVms_eq, Exec.rescue_error (Exec.bind_error ran _), isCommand]
  simp only [if_true]
  cases secondIs : second.isCommandError with
  | true =>
      have again : Exec.rescue (run env listArgv)
          (fun second => if second.isCommandError then some (Exec.raise raised) else none) middle =
            (.error raised, last) := by
        rw [Exec.rescue_error ranList, secondIs]
        rfl
      rw [Exec.bind_error again]
      rfl
  | false =>
      have passed : Exec.rescue (run env listArgv)
          (fun second => if second.isCommandError then some (Exec.raise raised) else none) middle =
            (.error second, last) := by
        rw [Exec.rescue_error ranList, secondIs]
        rfl
      rw [Exec.bind_error passed]
      rfl

/-- A `CommandError` of `list_vms` is the one of `info`, after both have failed. -/
theorem bothFailed_of_commandError (parses : ∀ text, Raises NotCommand (env.parseJson text))
    {raised : RubyError} (ends : (listVms env host).1 = .error raised)
    (isCommand : raised.isCommandError = true) :
    (run env infoArgv host).1 = .error raised ∧
      ∃ second, (run env listArgv (run env infoArgv host).2).1 = .error second ∧
        second.isCommandError = true := by
  have notBoth : ¬ NotCommand raised := fun isNot => by
    rw [NotCommand, isCommand] at isNot
    cases isNot
  rcases ran : run env infoArgv host with ⟨first | output, middle⟩
  · cases firstIs : first.isCommandError with
    | false =>
        rw [listVms_of_otherError ran firstIs] at ends
        cases ends
        exact absurd firstIs notBoth
    | true =>
        rcases ranList : run env listArgv middle with ⟨second | output, last⟩
        · rw [listVms_of_bothFailed ran firstIs ranList] at ends
          cases secondIs : second.isCommandError with
          | true =>
              simp only [secondIs, if_true] at ends
              exact ⟨congrArg Except.error (Except.error.inj ends), second, rfl, secondIs⟩
          | false =>
              simp only [secondIs, Bool.false_eq_true, if_false] at ends
              cases ends
              exact absurd secondIs notBoth
        · rw [listVms_of_list ran firstIs ranList] at ends
          refine absurd (raises_bind (parses output) (fun resp => ?_) raised ends) notBoth
          exact raises_bind (raises_parseListJsonBasic resp) fun vms => raises_sortByText _ vms
  · rw [listVms_of_info parses ran] at ends
    refine absurd (raises_bind (parses output) (fun resp => ?_) raised ends) notBoth
    exact raises_parseInfoJson env resp

end

/-- Whichever command answers, the machines are listed in the same way, and a
`CommandError` is the one of `info` after both have failed. -/
structure ListsMachines (env : Environment) (host : Host) (machines : List Machine)
    (infoDocument listDocument : Json) : Prop where
  full : PrintsDocument env host.commands.length infoArgv infoDocument →
    (listVms env host).1.map (List.map shown) = .ok (listing machines)
  fallback : ExitsWithFailure env host.commands.length infoArgv →
    PrintsDocument env (host.commands.length + 1) listArgv listDocument →
    (listVms env host).1.map (List.map shown) = .ok (listing machines)
  raises : ∀ raised, (listVms env host).1 = .error raised → raised.isCommandError = true →
    (run env infoArgv host).1 = .error raised ∧
      ∃ second, (run env listArgv (run env infoArgv host).2).1 = .error second ∧
        second.isCommandError = true

/-- A running machine and a stopped one. -/
def webAndDb : List Machine :=
  [⟨"web", .string "Running", .array [.string "10.0.0.2"]⟩, ⟨"db", .string "Stopped", .null⟩]

def infoOfTwo : Json :=
  .object [("info", .object [
    ("web", .object [("state", .string "Running"), ("ipv4", .array [.string "10.0.0.2"])]),
    ("db", .object [("state", .string "Stopped")])])]

def listOfTwo : Json :=
  .object [("list", .array [
    .object [("name", .string "db"), ("state", .string "Stopped")],
    .object [("name", .string "web"), ("state", .string "Running"),
      ("ipv4", .array [.string "10.0.0.2"])]])]

/-- The text of the first document. -/
def infoText : String :=
  "\x7b\"info\":\x7b\"web\":\x7b\"state\":\"Running\",\"ipv4\":[\"10.0.0.2\"]\x7d," ++
    "\"db\":\x7b\"state\":\"Stopped\"\x7d\x7d\x7d"

/-- The text of the second document. -/
def listText : String :=
  "\x7b\"list\":[\x7b\"name\":\"db\",\"state\":\"Stopped\"\x7d," ++
    "\x7b\"name\":\"web\",\"state\":\"Running\",\"ipv4\":[\"10.0.0.2\"]\x7d]\x7d"

/-- Two commands that print the documents or fail. -/
def documentEnvironment (infoWorks listWorks : Bool) : Environment :=
  { quietEnvironment with
    runner := fun _ argv =>
      if argv = infoArgv.map Word.text then
        .ok ⟨infoText ++ "\n", "", infoWorks, if infoWorks then 0 else 2⟩
      else .ok ⟨listText ++ "\n", "", listWorks, if listWorks then 0 else 2⟩
    parseJson := fun text =>
      if text = infoText then .ok infoOfTwo
      else if text = listText then .ok listOfTwo
      else .error (.standardError "JSON::ParserError") }

end MultipassWebui.Multipass
