import MultipassWebui.Encoding.Uri
import MultipassWebui.Web.RequestPath

/-!
# Routes

A path is cut into pieces at its slashes, and the first route whose verb and
segments match the pieces is taken.  A dynamic segment stops at a dot, since the
last segment of a route may be followed by a format.
-/

namespace MultipassWebui.Web

open MultipassWebui.Encoding
open MultipassWebui.Text

inductive Verb where
  | get
  | post
  | patch
  | put
  | delete
  deriving DecidableEq, Repr

/-- A segment of a route, as it is or under a key. -/
inductive Segment where
  | literal (text : String)
  | dynamic (key : String)
  deriving DecidableEq, Repr

structure Endpoint where
  controller : String
  action : String
  deriving DecidableEq, Repr

structure Route where
  verb : Verb
  segments : List Segment
  endpoint : Endpoint
  /-- The route ends in `(.:format)`. -/
  format : Bool := true
  deriving DecidableEq, Repr

/-- The pieces that follow the slashes of a path. -/
def piecesOf (path : List Char) : List (List Char) := (path.splitOn '/').drop 1

/-- The path with these pieces. -/
def pathOf (pieces : List (List Char)) : List Char := pieces.flatMap fun piece => '/' :: piece

/-- What a dynamic segment matches, `[^.\/?]+`. -/
def isWord (piece : List Char) : Bool := !piece.isEmpty && piece.all isSegmentChar

/-- The escaped values under the keys of a route. -/
abbrev PathParameters := List (String × List Char)

def matchPiece : Segment → List Char → Option PathParameters
  | .literal text, piece => if piece = text.toList then some [] else none
  | .dynamic key, piece => if isWord piece then some [(key, piece)] else none

/-- A match of the last piece, which may have a format. -/
def matchLast (format : Bool) (segment : Segment) (piece : List Char) : Option PathParameters :=
  match format, piece.dropWhile (· ≠ '.') with
  | true, _ :: extension =>
      if isWord extension then
        (matchPiece segment (piece.takeWhile (· ≠ '.'))).map (· ++ [("format", extension)])
      else none
  | _, _ => matchPiece segment piece

def matchPieces (format : Bool) : List Segment → List (List Char) → Option PathParameters
  | [segment], [piece] => matchLast format segment piece
  | segment :: segments, piece :: pieces => do
      let own ← matchPiece segment piece
      let others ← matchPieces format segments pieces
      return own ++ others
  | _, _ => none

/-- A match of a route. -/
def Route.matches (route : Route) (verb : Verb) (pieces : List (List Char)) :
    Option (Endpoint × PathParameters) :=
  if route.verb = verb then
    (matchPieces route.format route.segments pieces).map fun params => (route.endpoint, params)
  else none

/-- The endpoint of a request: that of the first route that matches. -/
def recognize (routes : List Route) (verb : Verb) (path : List Char) :
    Option (Endpoint × PathParameters) :=
  routes.findSome? fun route => route.matches verb (piecesOf (normalizePath path))

/-- The value under a key. -/
def PathParameters.value (params : PathParameters) (key : String) : Option String :=
  (params.lookup key).bind fun escaped => decodeUtf8 (Uri.unescape escaped)

/-! ## The routes of the application -/

/-- The actions that `resources` knows. -/
inductive ResourceAction where
  | index
  | create
  | new
  | edit
  | «show»
  | update
  | destroy
  deriving DecidableEq, Repr

def ResourceAction.text : ResourceAction → String
  | .index => "index"
  | .create => "create"
  | .new => "new"
  | .edit => "edit"
  | .show => "show"
  | .update => "update"
  | .destroy => "destroy"

def ALL_ACTIONS : List ResourceAction := [.index, .create, .new, .edit, .show, .update, .destroy]

/-- A route of `resources`, if its action is drawn. -/
def drawAction (name : String) (only : List ResourceAction) (verb : Verb)
    (segments : List Segment) (action : ResourceAction) : List Route :=
  if action ∈ only then [{ verb, segments, endpoint := ⟨name, action.text⟩ }] else []

/-- `resources name, only:, param:` below other segments. -/
def resources (outer : List Segment) (name key : String) (only : List ResourceAction) :
    List Route :=
  let collection := outer ++ [.literal name]
  let member := collection ++ [.dynamic key]
  let draw := drawAction name only
  draw .get collection .index ++ draw .post collection .create ++
    draw .get (collection ++ [.literal "new"]) .new ++
    draw .get (member ++ [.literal "edit"]) .edit ++ draw .get member .show ++
    draw .patch member .update ++ draw .put member .update ++ draw .delete member .destroy

/-- `resource name, only: %i[show update]` -/
def settingsRoutes : List Route :=
  let segments := [Segment.literal "settings"]
  let only := [ResourceAction.show, .update]
  drawAction "settings" only .get segments .show ++
    drawAction "settings" only .patch segments .update ++
    drawAction "settings" only .put segments .update

/-- A route for one action of a member of the machines. -/
def vmRoute (verb : Verb) (segment action : String) : Route :=
  { verb, segments := [.literal "vms", .dynamic "name", .literal segment],
    endpoint := ⟨"vms", action⟩ }

/-- `resources :vms`, with what its block draws first. -/
def vmRoutes : List Route :=
  [vmRoute .post "start" "start", vmRoute .post "stop" "stop", vmRoute .post "suspend" "suspend",
    vmRoute .post "recover" "recover", vmRoute .post "clone" "clone",
    vmRoute .get "resource_config" "resource_config",
    vmRoute .patch "resource_config" "update_resource_config"] ++
  resources [.literal "vms", .dynamic "name"] "shell_sessions" "id" [.index, .create, .destroy] ++
  [vmRoute .get "console" "console", vmRoute .get "vnc" "vnc"] ++
  ["start_all", "stop_all", "purge"].map (fun action =>
    { verb := .post, segments := [.literal "vms", .literal action]
      endpoint := ⟨"vms", action⟩ }) ++
  resources [] "vms" "name" [.index, .show, .create, .destroy]

/-- `Rails.application.routes`, apart from the mounted server of the cable. -/
def ROUTES : List Route :=
  [{ verb := .get, segments := [.literal "login"], endpoint := ⟨"sessions", "new"⟩ },
    { verb := .post, segments := [.literal "login"], endpoint := ⟨"sessions", "create"⟩ },
    { verb := .delete, segments := [.literal "login"], endpoint := ⟨"sessions", "destroy"⟩ },
    { verb := .get, segments := [.literal ""], endpoint := ⟨"hosts", "show"⟩, format := false },
    { verb := .get, segments := [.literal "tree"], endpoint := ⟨"hosts", "tree"⟩ }] ++
  vmRoutes ++
  resources [] "cloud_init_templates" "name" ALL_ACTIONS ++
  resources [] "playbooks" "name" ALL_ACTIONS ++
  resources [] "profiles" "id" ALL_ACTIONS ++
  resources [] "schedules" "id" ALL_ACTIONS ++
  resources [] "api_tokens" "id" ALL_ACTIONS ++
  [{ verb := .post, segments := [.literal "webhooks", .dynamic "id", .literal "test"],
      endpoint := ⟨"webhooks", "test"⟩ }] ++
  resources [] "webhooks" "id" ALL_ACTIONS ++
  resources [] "events" "id" [.index] ++
  settingsRoutes ++
  [{ verb := .get, segments := [.literal "up"], endpoint := ⟨"rails/health", "show"⟩ }]

/-! ## Path helpers -/

/-- A character that a path helper does not escape in a segment. -/
def isPathChar (char : Char) : Bool := isAlnum char || "-._~!$&'()*+,;=:@".toList.contains char

theorem isPathChar_percent : isPathChar '%' = false := by decide

/-- A value in a path. -/
def escapeSegment (text : String) : List Char := Uri.escape isPathChar text.toList

/-- The path of a member, such as `playbook_path(name)`. -/
def memberPath (collection name : String) : List Char :=
  pathOf [collection.toList, escapeSegment name]

/-- The path of its form, such as `edit_playbook_path(name)`. -/
def editMemberPath (collection name : String) : List Char :=
  pathOf [collection.toList, escapeSegment name, "edit".toList]

/-! ## Paths and their pieces -/

theorem piecesOf_pathOf {pieces : List (List Char)} (given : pieces ≠ [])
    (noSlash : ∀ piece ∈ pieces, '/' ∉ piece) : piecesOf (pathOf pieces) = pieces := by
  have cut : ∀ (rest : List (List Char)) (piece : List Char),
      (∀ other ∈ piece :: rest, '/' ∉ other) →
      (piece ++ pathOf rest).splitOn '/' = piece :: rest := by
    intro rest
    induction rest with
    | nil =>
        intro piece free
        rw [pathOf, List.flatMap_nil, List.append_nil]
        exact List.splitOn_eq_singleton (free piece List.mem_cons_self)
    | cons second others ih =>
        intro piece free
        have later := ih second fun other member => free other (List.mem_cons_of_mem _ member)
        change (piece ++ '/' :: (second ++ pathOf others)).splitOn '/' = _
        rw [List.splitOn_append_cons_self, later,
          List.splitOn_eq_singleton (free piece List.mem_cons_self), List.singleton_append]
  cases pieces with
  | nil => exact absurd rfl given
  | cons piece rest =>
      change ((([] : List Char) ++ '/' :: (piece ++ pathOf rest)).splitOn '/').drop 1 = _
      rw [List.splitOn_append_cons_self, cut rest piece noSlash]
      rfl

/-- Upcasing escapes leaves the text alone, whatever follows it. -/
def UpcasedPiece (piece : List Char) : Prop :=
  ∀ rest, upcaseEscapes (piece ++ rest) = piece ++ upcaseEscapes rest

theorem upcasedPiece_of_no_percent {piece : List Char} (noPercent : '%' ∉ piece) :
    UpcasedPiece piece := by
  intro rest
  induction piece with
  | nil => rfl
  | cons char others ih =>
      rw [List.mem_cons, not_or] at noPercent
      rw [List.cons_append, upcaseEscapes_of_ne fun same => noPercent.1 same.symm, ih noPercent.2,
        List.cons_append]

theorem UpcasedPiece.append {first second : List Char} (early : UpcasedPiece first)
    (late : UpcasedPiece second) : UpcasedPiece (first ++ second) := by
  intro rest
  rw [List.append_assoc, early, late, List.append_assoc]

theorem upcasedPiece_flatMap {α : Type} {items : List α} {write : α → List Char}
    (upcased : ∀ item ∈ items, UpcasedPiece (write item)) : UpcasedPiece (items.flatMap write) := by
  induction items with
  | nil => exact fun rest => rfl
  | cons item others ih =>
      rw [List.flatMap_cons]
      exact (upcased item List.mem_cons_self).append
        (ih fun other member => upcased other (List.mem_cons_of_mem _ member))

/-- Escapes are written in upper case. -/
theorem upcasedPiece_escapeByte (byte : UInt8) : UpcasedPiece (Uri.escapeByte byte) := by
  have table : ∀ value : Fin 16, Uri.hexDigit value ≠ '%' ∧
      (isLowerHex (Uri.hexDigit value) = true →
        (Uri.hexDigit value).toUpper = Uri.hexDigit value) := by decide
  have bound := byte.toNat_lt
  have high := table ⟨byte.toNat / 16, by omega⟩
  have low := table ⟨byte.toNat % 16, by omega⟩
  intro rest
  simp only [Uri.escapeByte, List.cons_append, List.nil_append]
  rw [upcaseEscapes.eq_1]
  split
  · rename_i hex
    rw [Bool.and_eq_true] at hex
    rw [high.2 hex.1, low.2 hex.2]
  · rw [upcaseEscapes_of_ne high.1, upcaseEscapes_of_ne low.1]

theorem upcasedPiece_escapeSegment (text : String) : UpcasedPiece (escapeSegment text) := by
  refine upcasedPiece_flatMap fun char _ => ?_
  unfold Uri.escapeChar
  split
  · rename_i isPlain
    refine upcasedPiece_of_no_percent fun isPercent => ?_
    rw [← List.mem_singleton.mp isPercent, isPathChar_percent] at isPlain
    cases isPlain
  · exact upcasedPiece_flatMap fun byte _ => upcasedPiece_escapeByte byte

/-- A piece of a path that the normalisation leaves alone. -/
structure CleanPiece (piece : List Char) : Prop where
  nonempty : piece ≠ []
  noSlash : '/' ∉ piece
  upcased : UpcasedPiece piece

theorem squeezed_append {piece rest : List Char} (noSlash : '/' ∉ piece)
    (squeezed : Squeezed rest) : Squeezed (piece ++ rest) := by
  induction piece with
  | nil => exact squeezed
  | cons char others ih =>
      rw [List.mem_cons, not_or] at noSlash
      refine List.IsChain.cons (ih noSlash.2) ?_
      rintro second _ ⟨isSlash, _⟩
      exact noSlash.1 isSlash.symm

theorem squeezed_pathOf {pieces : List (List Char)}
    (clean : ∀ piece ∈ pieces, CleanPiece piece) : Squeezed (pathOf pieces) := by
  induction pieces with
  | nil => exact List.IsChain.nil
  | cons piece rest ih =>
      have own := clean piece List.mem_cons_self
      have later := squeezed_append own.noSlash
        (ih fun other member => clean other (List.mem_cons_of_mem _ member))
      refine List.IsChain.cons later ?_
      rintro second isHead ⟨_, rfl⟩
      cases piece with
      | nil => exact own.nonempty rfl
      | cons char others =>
          refine own.noSlash ?_
          rw [show '/' = char from (Option.some.inj isHead).symm]
          exact List.mem_cons_self

theorem getLast?_pathOf {pieces : List (List Char)}
    (clean : ∀ piece ∈ pieces, CleanPiece piece) : (pathOf pieces).getLast? ≠ some '/' := by
  induction pieces with
  | nil => nofun
  | cons piece rest ih =>
      have own := clean piece List.mem_cons_self
      have later := ih fun other member => clean other (List.mem_cons_of_mem _ member)
      change ('/' :: (piece ++ pathOf rest)).getLast? ≠ some '/'
      cases rest with
      | nil =>
          rw [pathOf, List.flatMap_nil, List.append_nil, List.getLast?_cons_of_ne_nil own.nonempty]
          intro isLast
          exact own.noSlash (List.mem_of_getLast? isLast)
      | cons second others =>
          have nonempty : pathOf (second :: others) ≠ [] := nofun
          rw [List.getLast?_cons_of_ne_nil (List.append_ne_nil_of_right_ne_nil _ nonempty),
            List.getLast?_append_of_ne_nil _ nonempty]
          exact later

/-- A path of clean pieces is in normal form. -/
theorem normalized_pathOf {pieces : List (List Char)} (given : pieces ≠ [])
    (clean : ∀ piece ∈ pieces, CleanPiece piece) : Normalized (pathOf pieces) where
  leads := by
    cases pieces with
    | nil => exact absurd rfl given
    | cons piece rest => rfl
  squeezed := squeezed_pathOf clean
  ends := getLast?_pathOf clean
  upcased := by
    have whole : UpcasedPiece (pathOf pieces) := upcasedPiece_flatMap fun piece member =>
      (@upcasedPiece_of_no_percent ['/'] (by decide)).append (clean piece member).upcased
    simpa [upcaseEscapes] using whole []

/-- The router sees the pieces that a path helper has put together. -/
theorem piecesOf_normalizePath {pieces : List (List Char)} (given : pieces ≠ [])
    (clean : ∀ piece ∈ pieces, CleanPiece piece) :
    piecesOf (normalizePath (pathOf pieces)) = pieces := by
  rw [(normalized_pathOf given clean).normalizePath]
  exact piecesOf_pathOf given fun piece member => (clean piece member).noSlash

theorem cleanPiece_escapeSegment {text : String} (given : text ≠ "") :
    CleanPiece (escapeSegment text) where
  nonempty := Uri.escape_ne_nil fun empty => given (String.toList_eq_nil_iff.mp empty)
  noSlash := by
    rw [escapeSegment, Uri.mem_escape_iff (by decide)]
    rintro ⟨_, isPlain⟩
    exact absurd isPlain (by decide)
  upcased := upcasedPiece_escapeSegment text

/-! ## The routes of one collection -/

/-- The route begins with this segment. -/
def Route.leadsWith (name : String) (route : Route) : Bool :=
  route.segments.head? = some (.literal name)

/-- Of two pieces or more the first has to be the first segment of a route. -/
theorem leadsWith_of_matches {route : Route} {verb : Verb} {name : String} {second : List Char}
    {rest : List (List Char)} (literal : ∃ text, route.segments.head? = some (.literal text))
    (matched : route.matches verb (name.toList :: second :: rest) ≠ none) :
    route.leadsWith name = true := by
  rcases literal with ⟨text, leads⟩
  rcases shape : route.segments with _ | ⟨first, others⟩
  · rw [shape] at leads
    cases leads
  · rw [shape] at leads
    cases leads
    unfold Route.matches at matched
    rw [shape, matchPieces] at matched
    · by_cases same : name = text
      · rw [Route.leadsWith, shape, same]
        exact decide_eq_true rfl
      · have different : name.toList ≠ text.toList := fun equal => same (String.toList_inj.mp equal)
        simp [matchPiece, different] at matched
    · nofun

theorem findSome?_filter_of_none {α β : Type} {select : α → Bool} {find : α → Option β}
    {items : List α} (selected : ∀ item ∈ items, find item ≠ none → select item = true) :
    items.findSome? find = (items.filter select).findSome? find := by
  induction items with
  | nil => rfl
  | cons item rest ih =>
      have later := ih fun other member => selected other (List.mem_cons_of_mem _ member)
      cases found : find item with
      | none =>
          rw [List.findSome?_cons_of_isNone (by rw [found]; rfl), later, List.filter_cons]
          split
          · rw [List.findSome?_cons_of_isNone (by rw [found]; rfl)]
          · rfl
      | some value =>
          have isSelected := selected item List.mem_cons_self (by rw [found]; nofun)
          rw [List.filter_cons_of_pos isSelected, List.findSome?_cons, List.findSome?_cons, found]

end MultipassWebui.Web
