import MultipassWebui.Multipass.Cloudinit
import MultipassWebui.Multipass.PlaybookStore
import MultipassWebui.Web.Routes

/-!
# Links to templates and playbooks

A link to a member is the path of a helper, and it leads back if the router finds
the action under that path, with the name that was linked.  A segment of a route
ends at a dot, and the name of a template or of a playbook has one.
-/

namespace MultipassWebui.Web

open MultipassWebui.Effect
open MultipassWebui.Encoding
open MultipassWebui.Files
open MultipassWebui.Multipass
open MultipassWebui.Text

/-- What is kept in files under names that users give. -/
inductive Kept where
  | cloudInitTemplates
  | playbooks
  deriving DecidableEq, Repr

def Kept.controller : Kept → String
  | .cloudInitTemplates => "cloud_init_templates"
  | .playbooks => "playbooks"

/-- The checks that the name of a file passes. -/
def Kept.sanitize (around : Surroundings) (baseDir name : String) :
    Kept → Except RubyError String
  | .cloudInitTemplates => Cloudinit.sanitizeTemplateName around baseDir name
  | .playbooks => Playbooks.sanitizePlaybookName around baseDir name

/-- The actions on one file. -/
inductive MemberAction where
  | «show»
  | edit
  | update
  | destroy
  deriving DecidableEq, Repr

def MemberAction.text : MemberAction → String
  | .show => "show"
  | .edit => "edit"
  | .update => "update"
  | .destroy => "destroy"

def MemberAction.verb : MemberAction → Verb
  | .show | .edit => .get
  | .update => .patch
  | .destroy => .delete

/-- The path of the link or the form for an action. -/
def MemberAction.path (kept : Kept) (name : String) : MemberAction → List Char
  | .edit => editMemberPath kept.controller name
  | .show | .update | .destroy => memberPath kept.controller name

/-- The link for an action is routed to that action, with the name. -/
def LeadsBack (kept : Kept) (action : MemberAction) (name : String) : Prop :=
  ∃ params, recognize ROUTES action.verb (action.path kept name) =
    some (⟨kept.controller, action.text⟩, params) ∧ params.value "name" = some name

/-! ## What the router finds -/

section

variable {kept : Kept} {name : String}

/-- The routes whose paths begin with the collection. -/
def Kept.routes (kept : Kept) : List Route := resources [] kept.controller "name" ALL_ACTIONS

theorem filter_routes (kept : Kept) :
    ROUTES.filter (·.leadsWith kept.controller) = kept.routes := by
  cases kept <;> decide +kernel

/-- A piece of a pattern that stands for itself. -/
def Segment.isLiteral : Segment → Bool
  | .literal _ => true
  | .dynamic _ => false

theorem literal_of_mem_routes : ∀ route ∈ ROUTES,
    ∃ text, route.segments.head? = some (.literal text) := by
  have table : (ROUTES.all fun route => route.segments.head?.any Segment.isLiteral) = true := by
    decide +kernel
  intro route member
  have leads := List.all_eq_true.mp table route member
  cases first : route.segments.head? with
  | none =>
      rw [first] at leads
      cases leads
  | some segment =>
      cases segment with
      | literal text => exact ⟨text, rfl⟩
      | dynamic key =>
          rw [first] at leads
          cases leads

theorem cleanPiece_controller (kept : Kept) : CleanPiece kept.controller.toList := by
  cases kept
  · exact ⟨by decide, by decide, upcasedPiece_of_no_percent (by decide)⟩
  · exact ⟨by decide, by decide, upcasedPiece_of_no_percent (by decide)⟩

/-- Only the routes of the collection can match a path below it. -/
theorem recognize_below (given : name ≠ "") (verb : Verb) {rest : List (List Char)}
    (clean : ∀ piece ∈ rest, CleanPiece piece) :
    recognize ROUTES verb (pathOf (kept.controller.toList :: escapeSegment name :: rest)) =
      kept.routes.findSome? fun route =>
        route.matches verb (kept.controller.toList :: escapeSegment name :: rest) := by
  have pieces : piecesOf (normalizePath
      (pathOf (kept.controller.toList :: escapeSegment name :: rest))) =
      kept.controller.toList :: escapeSegment name :: rest := by
    refine piecesOf_normalizePath (List.cons_ne_nil _ _) fun piece member => ?_
    rcases List.mem_cons.mp member with rfl | member
    · exact cleanPiece_controller kept
    rcases List.mem_cons.mp member with rfl | member
    · exact cleanPiece_escapeSegment given
    · exact clean piece member
  rw [recognize, pieces, ← filter_routes]
  exact findSome?_filter_of_none fun route member matched =>
    leadsWith_of_matches (literal_of_mem_routes route member) matched

theorem routes_eq (kept : Kept) :
    let collection := Segment.literal kept.controller
    let member := Segment.dynamic "name"
    let endpoint := Endpoint.mk kept.controller
    kept.routes =
      [⟨.get, [collection], endpoint "index", true⟩, ⟨.post, [collection], endpoint "create", true⟩,
        ⟨.get, [collection, .literal "new"], endpoint "new", true⟩,
        ⟨.get, [collection, member, .literal "edit"], endpoint "edit", true⟩,
        ⟨.get, [collection, member], endpoint "show", true⟩,
        ⟨.patch, [collection, member], endpoint "update", true⟩,
        ⟨.put, [collection, member], endpoint "update", true⟩,
        ⟨.delete, [collection, member], endpoint "destroy", true⟩] :=
  rfl

/-- Below the collection stands the path of a form, or of a member. -/
theorem recognize_memberPath (given : name ≠ "") :
    recognize ROUTES .patch (memberPath kept.controller name) =
        (matchLast true (.dynamic "name") (escapeSegment name)).map
          (fun params => (⟨kept.controller, "update"⟩, params)) ∧
    recognize ROUTES .delete (memberPath kept.controller name) =
        (matchLast true (.dynamic "name") (escapeSegment name)).map
          (fun params => (⟨kept.controller, "destroy"⟩, params)) ∧
    recognize ROUTES .get (memberPath kept.controller name) =
        ((matchLast true (.literal "new") (escapeSegment name)).map
          (fun params => (⟨kept.controller, "new"⟩, params))).or
        ((matchLast true (.dynamic "name") (escapeSegment name)).map
          (fun params => (⟨kept.controller, "show"⟩, params))) ∧
    recognize ROUTES .get (editMemberPath kept.controller name) =
        (matchPiece (.dynamic "name") (escapeSegment name)).map
          (fun params => (⟨kept.controller, "edit"⟩, params)) := by
  have edit : CleanPiece "edit".toList :=
    ⟨by decide, by decide, upcasedPiece_of_no_percent (by decide)⟩
  have below := List.forall_mem_nil CleanPiece
  refine ⟨?_, ?_, ?_, ?_⟩
  · rw [memberPath, recognize_below given _ below, routes_eq]
    simp only [List.findSome?, Route.matches, matchPieces, matchPiece]
    cases matchLast true (.dynamic "name") (escapeSegment name) <;> simp
  · rw [memberPath, recognize_below given _ below, routes_eq]
    simp only [List.findSome?, Route.matches, matchPieces, matchPiece]
    cases matchLast true (.dynamic "name") (escapeSegment name) <;> simp
  · rw [memberPath, recognize_below given _ below, routes_eq]
    simp only [List.findSome?, Route.matches, matchPieces, matchPiece]
    cases matchLast true (.literal "new") (escapeSegment name) <;>
      cases matchLast true (.dynamic "name") (escapeSegment name) <;> simp
  · rw [editMemberPath, recognize_below given _ fun piece member => by
      rw [List.mem_singleton.mp member]
      exact edit, routes_eq]
    simp only [List.findSome?, Route.matches, matchPieces, matchPiece, matchLast]
    cases isWord (escapeSegment name) <;> simp

/-! ## Names with and without a dot -/

theorem dot_special : '.' ≠ '%' ∧ ∀ value < 16, '.' ≠ Uri.hexDigit value := by decide

/-- Without a dot the name is one piece, and no format is read. -/
theorem word_of_dotless (given : name ≠ "") (dotless : '.' ∉ name.toList) :
    isWord (escapeSegment name) = true ∧
      ∀ segment, matchLast true segment (escapeSegment name) =
        matchPiece segment (escapeSegment name) := by
  have noDot : '.' ∉ escapeSegment name := by
    rw [escapeSegment, Uri.mem_escape_iff dot_special]
    exact fun both => dotless both.1
  have noQuestion : '?' ∉ escapeSegment name := by
    rw [escapeSegment, Uri.mem_escape_iff (by decide)]
    exact fun both => absurd both.2 (by decide)
  have clean := cleanPiece_escapeSegment given
  constructor
  · rw [isWord, Bool.and_eq_true, List.all_eq_true]
    refine ⟨by simpa using clean.nonempty, fun char member => ?_⟩
    have others : char ≠ '.' ∧ char ≠ '/' ∧ char ≠ '?' :=
      ⟨fun same => noDot (same ▸ member), fun same => clean.noSlash (same ▸ member),
        fun same => noQuestion (same ▸ member)⟩
    simp [isSegmentChar, others]
  · intro segment
    have nothing : (escapeSegment name).dropWhile (· ≠ '.') = [] := by
      rw [List.dropWhile_eq_nil_iff]
      intro char member
      exact decide_eq_true fun same => noDot (same ▸ member)
    unfold matchLast
    rw [nothing]

/-- Of a name with a dot the router sees what stands before the first one. -/
theorem stem_of_dotted (dotted : '.' ∈ name.toList) :
    isWord (escapeSegment name) = false ∧
      ∀ params, matchLast true (.dynamic "name") (escapeSegment name) = some params →
        params.value "name" = some (String.ofList (name.toList.takeWhile (· ≠ '.'))) := by
  have hasDot : '.' ∈ escapeSegment name :=
    (Uri.mem_escape_iff dot_special).mpr ⟨dotted, by decide⟩
  constructor
  · rw [isWord, Bool.and_eq_false_iff]
    right
    rw [List.all_eq_false]
    exact ⟨'.', hasDot, by decide⟩
  · intro params matched
    rcases shape : (escapeSegment name).dropWhile (· ≠ '.') with _ | ⟨dot, extension⟩
    · rw [List.dropWhile_eq_nil_iff] at shape
      exact absurd (shape '.' hasDot) (by decide)
    · unfold matchLast at matched
      rw [shape] at matched
      dsimp only at matched
      split at matched
      · rw [escapeSegment, Uri.takeWhile_escape dot_special (by decide), matchPiece] at matched
        split at matched
        · cases matched
          exact Uri.decode_unescape_escape isPathChar_percent _
        · cases matched
      · cases matched

theorem stem_ne (dotted : '.' ∈ name.toList) :
    String.ofList (name.toList.takeWhile (· ≠ '.')) ≠ name := by
  intro same
  have chars : name.toList.takeWhile (· ≠ '.') = name.toList := by
    rw [← String.toList_inj, String.toList_ofList] at same
    exact same
  rw [← chars] at dotted
  exact absurd (List.mem_takeWhile_imp dotted) (by decide)

/-- The form for a new member is at the path that a member named "new" would have. -/
theorem escapeSegment_eq_new_iff : escapeSegment name = "new".toList ↔ name = "new" := by
  have new : escapeSegment "new" = "new".toList := by decide +kernel
  constructor
  · intro same
    rw [← new] at same
    exact String.toList_inj.mp (Uri.escape_injective isPathChar_percent same)
  · rintro rfl
    exact new

theorem map_endpoint_eq_some {endpoint other : Endpoint} {matched : Option PathParameters}
    {params : PathParameters}
    (found : matched.map (fun params => (endpoint, params)) = some (other, params)) :
    endpoint = other ∧ matched = some params := by
  cases matched with
  | none => cases found
  | some own =>
      cases found
      exact ⟨rfl, rfl⟩

/-- No link of a name with a dot leads back to it. -/
theorem not_leadsBack_of_dotted (given : name ≠ "") (dotted : '.' ∈ name.toList)
    (action : MemberAction) : ¬ LeadsBack kept action name := by
  rcases @recognize_memberPath kept name given with ⟨updates, destroys, shows, edits⟩
  rcases stem_of_dotted dotted with ⟨notWord, stem⟩
  rintro ⟨params, found, value⟩
  have other : ∀ endpoint : Endpoint,
      ((matchLast true (.dynamic "name") (escapeSegment name)).map
        fun params => (endpoint, params)) =
          some ((⟨kept.controller, action.text⟩ : Endpoint), params) → False := by
    intro endpoint same
    have stemmed := stem params (map_endpoint_eq_some same).2
    rw [value] at stemmed
    exact stem_ne dotted (Option.some.inj stemmed).symm
  cases action with
  | «show» =>
      have isShow := shows.symm.trans found
      cases isNew : matchLast true (.literal "new") (escapeSegment name) with
      | some own =>
          rw [isNew] at isShow
          have action : some "new" = some "show" :=
            congrArg (Option.map fun entry : Endpoint × PathParameters => entry.1.action) isShow
          exact absurd action (by decide)
      | none =>
          rw [isNew] at isShow
          exact other _ isShow
  | edit =>
      have isEdit := edits.symm.trans found
      rw [matchPiece, notWord] at isEdit
      cases isEdit
  | update => exact other _ (updates.symm.trans found)
  | destroy => exact other _ (destroys.symm.trans found)

/-- The links of a name without a dot lead back, but for one name. -/
theorem leadsBack_of_dotless (given : name ≠ "") (dotless : '.' ∉ name.toList)
    (action : MemberAction) :
    LeadsBack kept action name ↔ ¬ (action = .show ∧ name = "new") := by
  rcases @recognize_memberPath kept name given with ⟨updates, destroys, shows, edits⟩
  rcases word_of_dotless given dotless with ⟨word, noFormat⟩
  have own : matchPiece (.dynamic "name") (escapeSegment name) =
      some [("name", escapeSegment name)] := if_pos word
  have value : PathParameters.value [("name", escapeSegment name)] "name" = some name := by
    have decoded := Uri.decode_unescape_escape isPathChar_percent name.toList
    rw [String.ofList_toList] at decoded
    exact decoded
  rw [noFormat, own] at updates destroys
  rw [own] at edits
  rw [noFormat, noFormat, own] at shows
  cases action with
  | «show» =>
      by_cases isNew : name = "new"
      · refine iff_of_false ?_ fun different => different ⟨rfl, isNew⟩
        rintro ⟨params, found, _⟩
        rw [matchPiece, if_pos (escapeSegment_eq_new_iff.mpr isNew)] at shows
        have action : some "new" = some "show" :=
          congrArg (Option.map fun entry : Endpoint × PathParameters => entry.1.action)
              (shows.symm.trans found)
        exact absurd action (by decide)
      · refine iff_of_true ⟨_, ?_, value⟩ fun both => isNew both.2
        rw [matchPiece, if_neg fun same => isNew (escapeSegment_eq_new_iff.mp same)] at shows
        exact shows
  | edit => exact iff_of_true ⟨_, edits, value⟩ fun both => absurd both.1 (by decide)
  | update => exact iff_of_true ⟨_, updates, value⟩ fun both => absurd both.1 (by decide)
  | destroy => exact iff_of_true ⟨_, destroys, value⟩ fun both => absurd both.1 (by decide)

/-- The link of a name leads back to it if and only if the name has no dot, and is
not taken for that of the form for a new member. -/
theorem leadsBack_iff (given : name ≠ "") (action : MemberAction) :
    LeadsBack kept action name ↔
      '.' ∉ name.toList ∧ ¬ (action = .show ∧ name = "new") := by
  by_cases dotted : '.' ∈ name.toList
  · exact iff_of_false (not_leadsBack_of_dotted given dotted action) fun both => both.1 dotted
  · rw [leadsBack_of_dotless given dotted]
    exact (and_iff_right dotted).symm

/-! ## Accepted names -/

theorem accepted_of_sanitize {around : Surroundings} {baseDir path : String}
    (sanitized : kept.sanitize around baseDir name = .ok path) : Accepted name := by
  have some : ∀ kind, sanitizeName kind around baseDir name = .ok path → Accepted name := by
    intro kind sanitized
    rcases @sanitizeName_cases kind around baseDir name with
      ⟨raised, rejected⟩ | ⟨base, accepted, _⟩
    · cases rejected.symm.trans sanitized
    · exact accepted
  cases kept with
  | cloudInitTemplates => exact some "template" sanitized
  | playbooks => exact some "playbook" sanitized

theorem toLower_eq_dot {char : Char} (isDot : char.toLower = '.') : char = '.' := by
  unfold Char.toLower at isDot
  split at isDot
  · rename_i upper
    have value : (char.val + 32).toNat = 46 := congrArg Char.toNat isDot
    have low : 65 ≤ char.val.toNat := upper.1
    have high : char.val.toNat ≤ 90 := upper.2
    rw [UInt32.toNat_add] at value
    change (char.val.toNat + 32) % 2 ^ 32 = 46 at value
    omega
  · exact isDot

/-- The ending of an accepted name has a dot. -/
theorem dot_mem_of_endsInYaml {chars : List Char} (ending : endsInYaml chars = true) :
    '.' ∈ chars := by
  have inSuffix : ∀ suffix : List Char, '.' ∈ suffix →
      suffix.isSuffixOf (chars.map Char.toLower) = true → '.' ∈ chars := by
    intro suffix member isSuffix
    have lowered := (List.isSuffixOf_iff_suffix.mp isSuffix).subset member
    rcases List.mem_map.mp lowered with ⟨char, inChars, isDot⟩
    rw [toLower_eq_dot isDot] at inChars
    exact inChars
  rw [endsInYaml, Bool.or_eq_true] at ending
  rcases ending with short | long
  · exact inSuffix ".yml".toList (by decide) short
  · exact inSuffix ".yaml".toList (by decide) long

end

/-- No link of an accepted name leads back to it. -/
theorem accepted_not_leadsBack (kept : Kept) (around : Surroundings) (baseDir name path : String)
    (sanitized : kept.sanitize around baseDir name = .ok path) (action : MemberAction) :
    ¬ LeadsBack kept action name := by
  have accepted := accepted_of_sanitize sanitized
  exact not_leadsBack_of_dotted accepted.clean.1.1
    (dot_mem_of_endsInYaml accepted.endsInYaml) action

theorem accepted_not_leadsBack_web :
    ¬ LeadsBack .cloudInitTemplates .edit "web.yml" :=
  accepted_not_leadsBack .cloudInitTemplates Playbooks.process.toSurroundings "/data" "web.yml"
    "/data/web.yml" (by decide +kernel) .edit

/-- The link that deletes a template deletes none, since it names "web"; and the
link to its form is not routed. -/
theorem web_not_linked :
    Kept.sanitize Playbooks.process.toSurroundings "/data" "web.yml" .cloudInitTemplates =
      .ok "/data/web.yml" ∧
    recognize ROUTES .delete (memberPath "cloud_init_templates" "web.yml") =
      some (⟨"cloud_init_templates", "destroy"⟩,
        [("name", "web".toList), ("format", "yml".toList)]) ∧
    recognize ROUTES .get (editMemberPath "cloud_init_templates" "web.yml") = none ∧
    ¬ LeadsBack .cloudInitTemplates .destroy "web.yml" := by
  have found : recognize ROUTES .delete (memberPath "cloud_init_templates" "web.yml") =
      some (⟨"cloud_init_templates", "destroy"⟩,
        [("name", "web".toList), ("format", "yml".toList)]) := by decide +kernel
  refine ⟨by decide +kernel, found, by decide +kernel, ?_⟩
  rintro ⟨params, other, value⟩
  have same := found.symm.trans other
  cases same
  exact absurd value (by decide +kernel)

end MultipassWebui.Web
