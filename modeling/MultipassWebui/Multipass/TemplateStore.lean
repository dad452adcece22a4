import MultipassWebui.Multipass.SavedTemplates

/-!
# The template store is a map

The calls that name a template answer as those that name a playbook do, and a
scan of the directory lists the names whose contents begin with the header.
-/

namespace MultipassWebui.Multipass.Cloudinit

open MultipassWebui.Effect
open MultipassWebui.Encoding
open MultipassWebui.Files
open MultipassWebui.Text
open MultipassWebui.Multipass.Playbooks (Fits Holds InGrammar Leads Library Represents Succeeds
  Unfolded located_child)

/-- A call of the store. -/
inductive Call where
  | write (name : String) (content : List UInt8)
  | read (name : String)
  | delete (name : String)
  | scan
  deriving DecidableEq, Repr

/-- What a call returns. -/
inductive Answer where
  | count (count : Nat)
  | content (content : List UInt8)
  | options (options : List TemplateOption)
  deriving DecidableEq, Repr

/-- Carry out a call. -/
def perform (kernel : Kernel) (baseDir : String) : Call → Exec Disk RubyError Answer
  | .write name content => do return .count (← writeCloudInitTemplate kernel baseDir name content)
  | .read name => do return .content (← readCloudInitTemplate kernel baseDir name)
  | .delete name => do return .count (← deleteCloudInitTemplate kernel baseDir name)
  | .scan => do return .options (← scanCloudInitTemplates kernel [baseDir])

/-! ## The map that the store is -/

/-- The first line is well encoded, as far as there is one. -/
def readable (content : List UInt8) : Bool :=
  match headerOf content with
  | .ok _ => true
  | .error _ => false

/-- The first line is the header. -/
def headed (content : List UInt8) : Bool :=
  match headerOf content with
  | .ok header => header
  | .error _ => false

/-- What the map answers: a scan gives the names whose contents begin with the header. -/
inductive Expected where
  | count (count : Nat)
  | content (content : List UInt8)
  | labels (labels : Finset String)

/-- The first line of what the map holds under a name is the header. -/
def headedIn (library : Library) (name : String) : Bool := (library.lookup name).any headed

/-- What a call answers, if anything, and the map after it; without an answer it
raises an `ArgumentError`.  A scan is of no use where some first line cannot be read. -/
def specify (library : Library) : Call → Option Expected × Library
  | .write name content =>
      if InGrammar name then (some (.count content.length), library.insert name content)
      else (none, library)
  | .read name =>
      if InGrammar name then ((library.lookup name).map Expected.content, library)
      else (none, library)
  | .delete name =>
      if InGrammar name ∧ name ∈ library then (some (.count 1), library.erase name)
      else (none, library)
  | .scan =>
      if ∀ name ∈ library.keys, (library.lookup name).all readable = true then
        (some (.labels (library.keys.filter fun name => headedIn library name = true)), library)
      else (none, library)

/-- The option for a name in a directory. -/
def optionOf (base : Place) (name : String) : TemplateOption :=
  { label := name, path := text (name :: base) }

/-- Answers as the map answers; each name has one option, in the order of the directory. -/
inductive Matches (base : Place) : Except RubyError Answer → Option Expected → Prop where
  | count (count : Nat) : Matches base (.ok (.count count)) (some (.count count))
  | content (content : List UInt8) : Matches base (.ok (.content content)) (some (.content content))
  | options {names : List String} {labels : Finset String} (distinct : names.Nodup)
      (same : ∀ name, name ∈ names ↔ name ∈ labels) :
      Matches base (.ok (.options (names.map (optionOf base)))) (some (.labels labels))
  | raised {raised : RubyError} (isArgument : raised.isArgumentError = true) :
      Matches base (.error raised) none

/-! ## Calls with a name -/

/-- Two answers are the same, or both calls were rejected with some message. -/
inductive Alike {α : Type} : Except RubyError α → Except RubyError α → Prop where
  | same (answer : Except RubyError α) : Alike answer answer
  | rejected (message other : String) :
      Alike (.error (.argumentError message)) (.error (.argumentError other))

section

variable {kernel : Kernel} {baseDir name : String} {disk : Disk}

theorem alike_sanitizeName (kind other : String) (around : Surroundings) (baseDir name : String) :
    Alike (sanitizeName kind around baseDir name) (sanitizeName other around baseDir name) := by
  by_cases accepted : Accepted name
  · cases expanded : expandPath around baseDir with
    | ok base =>
        rw [sanitizeName_of_accepted accepted expanded, sanitizeName_of_accepted accepted expanded]
        exact .same _
    | error raised =>
        have failed : ∀ kind, sanitizeName kind around baseDir name = .error raised := by
          intro kind
          unfold sanitizeName
          rw [if_neg accepted.clean.1.1, if_neg accepted.1, if_pos accepted.2, expanded]
          rfl
        rw [failed, failed]
        exact .same _
  · obtain ⟨message, rejected⟩ := @sanitizeName_of_not_accepted kind around baseDir name accepted
    obtain ⟨another, refused⟩ := @sanitizeName_of_not_accepted other around baseDir name accepted
    rw [rejected, refused]
    exact .rejected _ _

/-- What the kind of the file is called matters to the messages only. -/
theorem alike_readNamed (kind other : String) :
    (readNamed kind kernel baseDir name disk).2 = (readNamed other kernel baseDir name disk).2 ∧
      Alike (readNamed kind kernel baseDir name disk).1
        (readNamed other kernel baseDir name disk).1 := by
  have sanitized := alike_sanitizeName kind other kernel.toSurroundings baseDir name
  unfold readNamed
  generalize sanitizeName kind kernel.toSurroundings baseDir name = given at sanitized ⊢
  generalize sanitizeName other kernel.toSurroundings baseDir name = found at sanitized ⊢
  cases sanitized with
  | rejected message another => exact ⟨rfl, .rejected _ _⟩
  | same =>
      rcases ran : (Exec.ofExcept given >>= read kernel) disk with ⟨raised | content, middle⟩
      · rw [Exec.rescue_error ran, Exec.rescue_error ran]
        by_cases missing : raised = .systemCallError "ENOENT"
        · rw [if_pos missing, if_pos missing]
          exact ⟨rfl, .rejected _ _⟩
        · rw [if_neg missing, if_neg missing]
          exact ⟨rfl, .same _⟩
      · rw [Exec.rescue_ok ran, Exec.rescue_ok ran]
        exact ⟨rfl, .same _⟩

theorem alike_writeNamed (kind other : String) (content : List UInt8) :
    (writeNamed kind kernel baseDir name content disk).2 =
        (writeNamed other kernel baseDir name content disk).2 ∧
      Alike (writeNamed kind kernel baseDir name content disk).1
        (writeNamed other kernel baseDir name content disk).1 := by
  have sanitized := alike_sanitizeName kind other kernel.toSurroundings baseDir name
  unfold writeNamed
  generalize sanitizeName kind kernel.toSurroundings baseDir name = given at sanitized ⊢
  generalize sanitizeName other kernel.toSurroundings baseDir name = found at sanitized ⊢
  cases sanitized with
  | rejected message another => exact ⟨rfl, .rejected _ _⟩
  | same => exact ⟨rfl, .same _⟩

theorem alike_deleteNamed (kind other : String) :
    (deleteNamed kind kernel baseDir name disk).2 =
        (deleteNamed other kernel baseDir name disk).2 ∧
      Alike (deleteNamed kind kernel baseDir name disk).1
        (deleteNamed other kernel baseDir name disk).1 := by
  have sanitized := alike_sanitizeName kind other kernel.toSurroundings baseDir name
  unfold deleteNamed
  generalize sanitizeName kind kernel.toSurroundings baseDir name = given at sanitized ⊢
  generalize sanitizeName other kernel.toSurroundings baseDir name = found at sanitized ⊢
  cases sanitized with
  | rejected message another => exact ⟨rfl, .rejected _ _⟩
  | same =>
      cases given with
      | error raised => exact ⟨rfl, .same _⟩
      | ok path =>
          simp only [Exec.bind_ok (Exec.ofExcept_apply (.ok path) disk)]
          rcases ran : exist kernel path disk with ⟨raised | there, middle⟩
          · rw [Exec.bind_error ran, Exec.bind_error ran]
            exact ⟨rfl, .same _⟩
          · rw [Exec.bind_ok ran, Exec.bind_ok ran]
            cases there with
            | true => exact ⟨rfl, .same _⟩
            | false => exact ⟨rfl, .rejected _ _⟩

end

/-- An answer about a file as an answer of this store. -/
def Answer.ofPlaybooks : Playbooks.Answer → Answer
  | .count number => .count number
  | .content bytes => .content bytes
  | .names _ => .options []

def Expected.ofPlaybooks : Playbooks.Answer → Expected
  | .count number => .count number
  | .content bytes => .content bytes
  | .names _ => .labels ∅

section

variable {kernel : Kernel} {baseDir name : String} {outer base : Place} {disk : Disk}
  {library : Library}

/-- The answer is that of the map, and the disk represents the map afterwards. -/
structure Agrees (kernel : Kernel) (baseDir : String) (outer base : Place)
    (answer : Except RubyError Answer) (after : Disk) (expected : Option Expected × Library) :
    Prop where
  answer : Matches base answer expected.1
  represents : Represents kernel baseDir outer after expected.2

theorem matches_ofPlaybooks (base : Place) (answer : Playbooks.Answer) :
    Matches base (.ok (.ofPlaybooks answer)) (some (.ofPlaybooks answer)) := by
  cases answer with
  | count count => exact .count count
  | content content => exact .content content
  | names names => exact @Matches.options base [] ∅ List.nodup_nil fun name => by simp

theorem matches_of_alike {α : Type} {answer other : Except RubyError α}
    {wrap : α → Playbooks.Answer} {expected : Option Playbooks.Answer} (alike : Alike answer other)
    (matched : Playbooks.Matches (other.map wrap) expected) :
    Matches base (answer.map fun value => .ofPlaybooks (wrap value))
      (expected.map Expected.ofPlaybooks) := by
  cases alike with
  | same =>
      rcases answer with raised | value
      · cases expected with
        | none => exact .raised matched
        | some wanted => exact matched.elim
      · cases expected with
        | none => exact matched.elim
        | some wanted =>
            obtain rfl : wrap value = wanted := matched
            exact matches_ofPlaybooks base (wrap value)
  | rejected message another =>
      cases expected with
      | none => exact .raised rfl
      | some wanted => exact matched.elim

/-- Where the playbooks would answer as the map, the templates do. -/
theorem agrees_of_alike {α : Type} (base : Place) {body other : Exec Disk RubyError α}
    {wrap : α → Playbooks.Answer} {expected : Option Playbooks.Answer × Library}
    (alike : (body disk).2 = (other disk).2 ∧ Alike (body disk).1 (other disk).1)
    (agrees : Playbooks.Agrees kernel baseDir outer disk ((other disk).1.map wrap) (other disk).2
      expected) :
    Agrees kernel baseDir outer base ((body disk).1.map fun value => .ofPlaybooks (wrap value))
      (body disk).2 (expected.1.map Expected.ofPlaybooks, expected.2) :=
  ⟨matches_of_alike alike.2 agrees.answer, alike.1 ▸ agrees.represents⟩

theorem agrees_write (succeeds : Succeeds kernel) (fits : Fits name) (unfolded : Unfolded name)
    (represents : Represents kernel baseDir outer disk library) (content : List UInt8) :
    Agrees kernel baseDir outer base (perform kernel baseDir (.write name content) disk).1
      (perform kernel baseDir (.write name content) disk).2
      (specify library (.write name content)) := by
  have agrees := Playbooks.agrees_write succeeds fits unfolded represents content
  rw [Playbooks.perform, Exec.bind_pure_apply] at agrees
  have answered := agrees_of_alike base (alike_writeNamed "template" "playbook" content) agrees
  rw [perform, Exec.bind_pure_apply, specify]
  rw [Playbooks.specify] at answered
  split_ifs at answered ⊢ with inGrammar
  · exact answered
  · exact answered

theorem agrees_read (succeeds : Succeeds kernel) (fits : Fits name) (unfolded : Unfolded name)
    (represents : Represents kernel baseDir outer disk library) :
    Agrees kernel baseDir outer base (perform kernel baseDir (.read name) disk).1
      (perform kernel baseDir (.read name) disk).2 (specify library (.read name)) := by
  have agrees := Playbooks.agrees_read succeeds fits unfolded represents
  rw [Playbooks.perform, Exec.bind_pure_apply] at agrees
  have answered := agrees_of_alike base (alike_readNamed "template" "playbook") agrees
  rw [perform, Exec.bind_pure_apply, specify]
  rw [Playbooks.specify] at answered
  split_ifs at answered ⊢ with inGrammar
  · rw [Option.map_map] at answered
    exact answered
  · exact answered

theorem agrees_delete (succeeds : Succeeds kernel) (fits : Fits name) (unfolded : Unfolded name)
    (represents : Represents kernel baseDir outer disk library) :
    Agrees kernel baseDir outer base (perform kernel baseDir (.delete name) disk).1
      (perform kernel baseDir (.delete name) disk).2 (specify library (.delete name)) := by
  have agrees := Playbooks.agrees_delete succeeds fits unfolded represents
  rw [Playbooks.perform, Exec.bind_pure_apply] at agrees
  have answered := agrees_of_alike base (alike_deleteNamed "template" "playbook") agrees
  rw [perform, Exec.bind_pure_apply, specify]
  rw [Playbooks.specify] at answered
  split_ifs at answered ⊢ with present
  · exact answered
  · exact answered

end

/-! ## Scanning -/

section

variable {kernel : Kernel} {baseDir name : String} {outer base : Place} {tree : Tree}
  {library : Library} {content : List UInt8}

/-- The names in a directory have different paths. -/
theorem text_child_injective {other : String} (clean : ∀ part ∈ name :: base, Clean part)
    (cleanOther : ∀ part ∈ other :: base, Clean part)
    (same : text (name :: base) = text (other :: base)) : name = other := by
  have segmented := congrArg segments same
  rw [segments_text clean (List.cons_ne_nil name base),
    segments_text cleanOther (List.cons_ne_nil other base), List.reverse_cons, List.reverse_cons,
    List.cons.injEq] at segmented
  exact (List.cons.inj (List.append_cancel_left segmented.2)).1

/-- What the map holds under a name is looked into, under the path of the name. -/
theorem candidate_of_holds (leads : Leads kernel baseDir tree outer)
    (holds : Holds tree outer library)
    (expanded : expandPath kernel.toSurroundings baseDir = .ok base)
    (member : name ∈ library) : Candidate kernel tree baseDir name (text (name :: base)) := by
  have inGrammar := holds.named name member
  have clean := inGrammar.accepted.clean
  have located := locate_join leads.literal clean (holds.not_link name)
  refine ⟨⟨⟨clean.1.2.1, clean.1.2.2⟩, ?_, inGrammar.endsInYaml⟩, ?_⟩
  · rw [isDirectoryAt, located]
    exact decide_eq_false (holds.not_directory name)
  · rw [expandPath_join clean leads.literal.walked.2.1 expanded]
    rfl

/-- The check for the header looks at the content that the map holds. -/
theorem headerAt_of_holds (succeeds : Succeeds kernel) (leads : Leads kernel baseDir tree outer)
    (holds : Holds tree outer library)
    (expanded : expandPath kernel.toSurroundings baseDir = .ok base)
    (fits : Fits name) (lookup : library.lookup name = some content) :
    headerAt kernel tree (text (name :: base)) = headerOf content := by
  have accepted := (holds.named name (Finmap.mem_of_lookup_eq_some lookup)).accepted
  obtain ⟨found, isBase, _, located⟩ := @located_child kernel baseDir name outer ⟨tree, []⟩ library
    leads holds accepted
  obtain rfl := Except.ok.inj (expanded.symm.trans isBase)
  have stands : tree.node? (name :: outer) = some (.file content) := by
    rw [holds.files name, lookup]
    rfl
  have isRead : readAt kernel tree (text (name :: base)) = .ok content := by
    rw [readAt_eq_ok_iff]
    exact ⟨name :: outer, located, stands, succeeds.read name outer fits⟩
  rw [headerAt, isRead]
  change unlessSystemCall false (headerOf content) = headerOf content
  exact unlessSystemCall_headerOf content

theorem visit_of_holds (leads : Leads kernel baseDir tree outer) (holds : Holds tree outer library)
    (expanded : expandPath kernel.toSurroundings baseDir = .ok base) (member : name ∈ library)
    {found : Found} (fresh : text (name :: base) ∉ found.seen) :
    visit kernel tree baseDir name found =
      headerAt kernel tree (text (name :: base)) >>= fun header =>
        if header then .ok (found.add name (text (name :: base)) fresh) else .ok found := by
  have candidate := candidate_of_holds leads holds expanded member
  rw [visit_of_considered candidate.toConsidered, candidate.expanded]
  exact dif_neg fresh

theorem isArgumentError_of_headerOf {raised : RubyError}
    (unreadable : headerOf content = .error raised) : raised.isArgumentError = true := by
  unfold headerOf at unreadable
  cases line : gets content with
  | none =>
      rw [line] at unreadable
      cases unreadable
  | some line' =>
      rw [line] at unreadable
      dsimp only [isHeaderLine] at unreadable
      cases decoded : decodeUtf8 line' with
      | none =>
          rw [decoded] at unreadable
          cases unreadable
          rfl
      | some read =>
          rw [decoded] at unreadable
          cases unreadable

/-- Every first line of the contents under these names can be read. -/
def AllReadable (library : Library) (names : List String) : Prop :=
  (names.all fun name => (library.lookup name).all readable) = true

/-- A scan through names of the map adds those with the header in their order; it stops with an
`ArgumentError` at a first line that cannot be read. -/
inductive Scanned (library : Library) (base : Place) (names : List String) (found : Found) :
    Except RubyError Found → Prop where
  | through {after : Found} (allReadable : AllReadable library names)
      (options : after.options =
        found.options ++ (names.filter (headedIn library)).map (optionOf base)) :
      Scanned library base names found (.ok after)
  | stopped {raised : RubyError} (notReadable : ¬ AllReadable library names)
      (isArgument : raised.isArgumentError = true) :
      Scanned library base names found (.error raised)

theorem allReadable_cons (lookup : library.lookup name = some content) (rest : List String) :
    AllReadable library (name :: rest) ↔ readable content = true ∧ AllReadable library rest := by
  rw [AllReadable, List.all_cons, lookup, Bool.and_eq_true]
  rfl

theorem headedIn_eq (lookup : library.lookup name = some content) :
    headedIn library name = headed content := by
  rw [headedIn, lookup]
  rfl

/-- After a first line that can be read the scan goes on. -/
theorem Scanned.cons {rest : List String} {found middle : Found} {outcome : Except RubyError Found}
    (lookup : library.lookup name = some content) (isReadable : readable content = true)
    (sameOptions : middle.options ++ (rest.filter (headedIn library)).map (optionOf base) =
      found.options ++ ((name :: rest).filter (headedIn library)).map (optionOf base))
    (scanned : Scanned library base rest middle outcome) :
    Scanned library base (name :: rest) found outcome := by
  cases scanned with
  | through allReadable options =>
      exact .through ((allReadable_cons lookup rest).mpr ⟨isReadable, allReadable⟩)
        (options.trans sameOptions)
  | stopped notReadable isArgument =>
      exact .stopped (fun all => notReadable ((allReadable_cons lookup rest).mp all).2) isArgument

theorem scanned_visitAll (succeeds : Succeeds kernel) (leads : Leads kernel baseDir tree outer)
    (holds : Holds tree outer library)
    (expanded : expandPath kernel.toSurroundings baseDir = .ok base)
    (fits : ∀ name ∈ library, Fits name) {names : List String} (distinct : names.Nodup)
    (held : ∀ name ∈ names, name ∈ library) {found : Found}
    (fresh : ∀ name ∈ names, text (name :: base) ∉ found.seen) :
    Scanned library base names found (visitAll kernel tree baseDir names found) := by
  induction names generalizing found with
  | nil => exact .through rfl (List.append_nil _).symm
  | cons name rest ih =>
      obtain ⟨notIn, distinctRest⟩ := List.nodup_cons.mp distinct
      have heldRest := fun other member => held other (List.mem_cons_of_mem _ member)
      have member := held name (List.mem_cons_self ..)
      obtain ⟨content, lookup⟩ := Finmap.mem_iff.mp member
      have isFresh := fresh name (List.mem_cons_self ..)
      have header := headerAt_of_holds succeeds leads holds expanded (fits name member) lookup
      have visited := visit_of_holds leads holds expanded member isFresh
      rw [header] at visited
      rw [visitAll, visited]
      rcases first : headerOf content with raised | isHeader
      · refine .stopped (fun all => ?_) (isArgumentError_of_headerOf first)
        have isReadable := ((allReadable_cons lookup rest).mp all).1
        rw [readable, first] at isReadable
        cases isReadable
      · have isReadable : readable content = true := by
          rw [readable, first]
        have sameHeader : headedIn library name = isHeader := by
          rw [headedIn_eq lookup, headed, first]
        cases isHeader with
        | false =>
            have notHeaded : ¬ headedIn library name = true := by
              rw [sameHeader]
              exact Bool.false_ne_true
            have freshRest : ∀ other ∈ rest, text (other :: base) ∉ found.seen :=
              fun other isOther => fresh other (List.mem_cons_of_mem _ isOther)
            apply Scanned.cons lookup isReadable _ (ih distinctRest heldRest freshRest)
            rw [List.filter_cons_of_neg notHeaded]
        | true =>
            have freshRest : ∀ other ∈ rest, text (other :: base) ∉
                (found.add name (text (name :: base)) isFresh).seen := by
              intro other isOther
              rw [mem_seen_add isFresh, not_or]
              refine ⟨fresh other (List.mem_cons_of_mem _ isOther), fun same => notIn ?_⟩
              have otherName := holds.named other (heldRest other isOther)
              have ownName := holds.named name member
              rw [← text_child_injective (clean_child otherName.accepted expanded)
                (clean_child ownName.accepted expanded) same]
              exact isOther
            apply Scanned.cons lookup isReadable _ (ih distinctRest heldRest freshRest)
            rw [List.filter_cons_of_pos sameHeader]
            simp [Found.add, optionOf]

end

section

variable {kernel : Kernel} {baseDir : String} {outer base : Place} {disk : Disk}
  {library : Library}

theorem mem_entries_of_holds {tree : Tree} (holds : Holds tree outer library) (name : String) :
    name ∈ tree.entries outer ↔ name ∈ library.keys := by
  rw [Tree.mem_entries, holds.files name, Finmap.mem_keys, Finmap.mem_iff]
  constructor
  · rintro ⟨node, isNode⟩
    obtain ⟨content, lookup, _⟩ := Option.map_eq_some_iff.mp isNode
    exact ⟨content, lookup⟩
  · rintro ⟨content, lookup⟩
    exact ⟨.file content, by rw [lookup]; rfl⟩

/-- The contents that the map holds are those under the names in the directory. -/
theorem allReadable_iff {tree : Tree} (holds : Holds tree outer library) :
    (∀ name ∈ library.keys, (library.lookup name).all readable = true) ↔
      AllReadable library (tree.entries outer) := by
  rw [AllReadable, List.all_eq_true]
  exact forall_congr' fun name => imp_congr_left (mem_entries_of_holds holds name).symm

theorem search_of_listing {tree : Tree} {names : List String}
    (listing : listingOf kernel tree baseDir = .ok names) (found : Found) :
    search kernel tree baseDir found = visitAll kernel tree baseDir names found := by
  rw [search, listing]
  rfl

theorem visitAll_of_passed {tree : Tree} {entry : String}
    (passed : ¬ Considered kernel tree baseDir entry) (rest : List String) (found : Found) :
    visitAll kernel tree baseDir (entry :: rest) found =
      visitAll kernel tree baseDir rest found := by
  rw [visitAll, visit_of_not_considered passed]
  rfl

/-- The directory itself and the one above it are passed over. -/
theorem search_of_leads {tree : Tree} (succeeds : Succeeds kernel)
    (leads : Leads kernel baseDir tree outer) (found : Found) :
    search kernel tree baseDir found = visitAll kernel tree baseDir (tree.entries outer) found := by
  have isDirectory : tree.node? outer = some .directory := leads.literal.directory
  have listing : listingOf kernel tree baseDir = .ok ("." :: ".." :: tree.entries outer) := by
    rw [listingOf, entries]
    simp only [leads.literal.located, isDirectory, succeeds.list outer]
  rw [search_of_listing listing, visitAll_of_passed fun considered => considered.named.1 rfl,
    visitAll_of_passed fun considered => considered.named.2 rfl]

/-- Where there is no directory nothing is found. -/
theorem search_of_missing {tree : Tree} (missing : Playbooks.Missing kernel baseDir tree outer)
    (found : Found) : search kernel tree baseDir found = .ok found := by
  have listing : listingOf kernel tree baseDir = .error (.systemCallError "ENOENT") := by
    have notThere := @entries_of_leavesOff kernel baseDir ⟨tree, []⟩ outer missing.noNull
      missing.literal
    rw [listingOf, notThere]
  rw [search, listing]
  rfl

theorem agrees_scan (succeeds : Succeeds kernel) (fits : ∀ name ∈ library, Fits name)
    (expanded : expandPath kernel.toSurroundings baseDir = .ok base)
    (represents : Represents kernel baseDir outer disk library) :
    Agrees kernel baseDir outer base (perform kernel baseDir .scan disk).1
      (perform kernel baseDir .scan disk).2 (specify library .scan) := by
  obtain ⟨outcome, sameTree⟩ :=
    @looks_scanCloudInitTemplates kernel disk.tree [baseDir] disk rfl
  have after : ∀ given, Represents kernel baseDir outer disk given → Represents kernel baseDir outer
      (scanCloudInitTemplates kernel [baseDir] disk).2 given := by
    intro given
    unfold Represents
    rw [sameTree]
    exact id
  rw [perform, Exec.bind_pure_apply, specify, outcome, searchAll]
  rcases represents with ⟨leads, holds⟩ | ⟨missing, rfl⟩
  · have scanned := @scanned_visitAll kernel baseDir outer base disk.tree library succeeds leads
      holds expanded fits (disk.tree.entries outer) (Tree.nodup_entries disk.tree outer)
      (fun name member => Finmap.mem_keys.mp ((mem_entries_of_holds holds name).mp member)) .none
      fun name _ => List.not_mem_nil
    have allReadable := allReadable_iff holds
    rw [search_of_leads succeeds leads]
    generalize visitAll kernel disk.tree baseDir (disk.tree.entries outer) .none = visited
      at scanned ⊢
    cases scanned with
    | stopped notReadable isArgument =>
        rw [if_neg fun all => notReadable (allReadable.mp all)]
        exact ⟨.raised isArgument, after _ (Or.inl ⟨leads, holds⟩)⟩
    | through isReadable options =>
        rw [if_pos (allReadable.mpr isReadable)]
        refine ⟨?_, after _ (Or.inl ⟨leads, holds⟩)⟩
        change Matches base (.ok (.options _)) _
        rw [options]
        apply Matches.options ((Tree.nodup_entries disk.tree outer).filter _)
        intro name
        rw [List.mem_filter, Finset.mem_filter, mem_entries_of_holds holds]
  · have none : ∀ name ∈ (∅ : Library).keys, ((∅ : Library).lookup name).all readable = true := by
      intro name member
      rw [Finmap.lookup_empty]
      rfl
    rw [search_of_missing missing, if_pos none]
    refine ⟨?_, after _ (Or.inr ⟨missing, rfl⟩)⟩
    exact @Matches.options base [] _ List.nodup_nil fun name => by simp

end

end MultipassWebui.Multipass.Cloudinit
