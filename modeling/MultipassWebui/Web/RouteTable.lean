import MultipassWebui.Web.ResourceLinks

/-!
# The table of routes

The path that a helper makes for a route leads back to it, with the values that
were put into it, if and only if none of them has a dot and no form for a new
member stands at that path.
-/

namespace MultipassWebui.Web

open MultipassWebui.Encoding

/-! ## Paths of routes -/

/-- What a helper puts into a path for a segment. -/
def Segment.piece (values : String → String) : Segment → List Char
  | .literal text => text.toList
  | .dynamic key => escapeSegment (values key)

def Segment.keys : Segment → List String
  | .literal _ => []
  | .dynamic key => [key]

namespace Route

/-- The keys of the dynamic segments. -/
def keys (route : Route) : List String := route.segments.flatMap Segment.keys

def pieces (route : Route) (values : String → String) : List (List Char) :=
  route.segments.map (Segment.piece values)

/-- The path that the helper of a route makes. -/
def path (route : Route) (values : String → String) : List Char := pathOf (route.pieces values)

/-- The router finds the endpoint of the route under its path, with the values. -/
def Leads (route : Route) (values : String → String) : Prop :=
  ∃ params, recognize ROUTES route.verb (route.path values) = some (route.endpoint, params) ∧
    ∀ key ∈ route.keys, params.value key = some (values key)

/-- The form for a new member of a collection, and the route of a member. -/
def isFormOf (form member : Route) : Bool :=
  form.verb = .get && member.verb = .get &&
    match form.segments, member.segments with
    | [.literal collection, .literal word], [.literal other, .dynamic _] =>
        collection = other && word = "new"
    | _, _ => false

/-- A member named "new" of a collection that has a form. -/
def Shadowed (route : Route) (values : String → String) : Prop :=
  ∃ form ∈ ROUTES, form.isFormOf route = true ∧ ∀ key ∈ route.keys, values key = "new"

end Route

/-! ## The table -/

/-- Some text matches both segments. -/
def Segment.meets : Segment → Segment → Bool
  | .literal text, .literal other => text = other
  | _, _ => true

/-- Some request matches both routes. -/
def Route.meets (route other : Route) : Bool :=
  route.verb = other.verb && route.segments.length = other.segments.length &&
    (route.segments.zip other.segments).all fun pair => pair.1.meets pair.2

def Segment.isPlain : Segment → Bool
  | .literal text => !text.isEmpty && text.toList.all fun char => isSegmentChar char && char ≠ '%'
  | .dynamic _ => true

/-- What the links need of a table of routes: the one overlap is that of a form with a member,
where the form comes first, and nothing is there twice. -/
structure Orderly (routes : List Route) : Prop where
  overlaps : routes.Pairwise fun earlier later =>
    (earlier.meets later = true → earlier.isFormOf later = true) ∧ later.isFormOf earlier = false
  endpoints : (routes.map fun route => (route.verb, route.endpoint)).Nodup
  keys : ∀ route ∈ routes, route.keys.Nodup
  plain : ∀ route ∈ routes,
    route.segments = [.literal ""] ∨ route.segments ≠ [] ∧ route.segments.all Segment.isPlain

instance decidableOrderly (routes : List Route) : Decidable (Orderly routes) :=
  decidable_of_iff
    ((routes.Pairwise fun earlier later => (earlier.meets later = true →
        earlier.isFormOf later = true) ∧ later.isFormOf earlier = false) ∧
      (routes.map fun route => (route.verb, route.endpoint)).Nodup ∧
      (∀ route ∈ routes, route.keys.Nodup) ∧
      ∀ route ∈ routes, route.segments = [.literal ""] ∨
        route.segments ≠ [] ∧ route.segments.all Segment.isPlain)
    ⟨fun ⟨overlaps, endpoints, keys, plain⟩ => ⟨overlaps, endpoints, keys, plain⟩,
      fun orderly => ⟨orderly.overlaps, orderly.endpoints, orderly.keys, orderly.plain⟩⟩

theorem orderly_routes : Orderly ROUTES := by
  decide +kernel

/-! ## Pieces -/

section

variable {values : String → String} {route : Route}

theorem mem_keys_iff {key : String} : key ∈ route.keys ↔ Segment.dynamic key ∈ route.segments := by
  rw [Route.keys, List.mem_flatMap]
  constructor
  · rintro ⟨segment, among, member⟩
    cases segment with
    | literal text => exact absurd member List.not_mem_nil
    | dynamic other =>
        rw [List.mem_singleton.mp member]
        exact among
  · intro among
    exact ⟨_, among, List.mem_singleton_self key⟩

theorem cleanPiece_piece {segment : Segment} (plain : segment.isPlain = true)
    (given : ∀ key, segment = .dynamic key → values key ≠ "") :
    CleanPiece (segment.piece values) := by
  cases segment with
  | dynamic key => exact cleanPiece_escapeSegment (given key rfl)
  | literal text =>
      simp only [Segment.isPlain, Bool.and_eq_true, Bool.not_eq_true', List.all_eq_true,
        decide_eq_true_eq] at plain
      rcases plain with ⟨nonempty, chars⟩
      refine ⟨?_, ?_, upcasedPiece_of_no_percent ?_⟩
      · intro empty
        have same : text = "" := String.toList_eq_nil_iff.mp empty
        rw [same] at nonempty
        cases nonempty
      · intro slash
        exact absurd (chars '/' slash).1 (by decide)
      · intro percent
        exact (chars '%' percent).2 rfl

/-- The router sees the pieces that the helper put together. -/
theorem piecesOf_path (member : route ∈ ROUTES) (given : ∀ key ∈ route.keys, values key ≠ "") :
    piecesOf (normalizePath (route.path values)) = route.pieces values := by
  rcases orderly_routes.plain route member with root | ⟨nonempty, plain⟩
  · rw [Route.path, Route.pieces, root]
    rfl
  · apply piecesOf_normalizePath
    · rw [Route.pieces, Ne, List.map_eq_nil_iff]
      exact nonempty
    · intro piece among
      rcases List.mem_map.mp among with ⟨segment, isSegment, rfl⟩
      apply cleanPiece_piece (List.all_eq_true.mp plain segment isSegment)
      rintro key rfl
      exact given key (mem_keys_iff.mpr isSegment)

/-- A piece has a dot only if the value in it has one. -/
theorem dotless_pieces (member : route ∈ ROUTES)
    (dotless : ∀ key ∈ route.keys, '.' ∉ (values key).toList) :
    ∀ piece ∈ route.pieces values, '.' ∉ piece := by
  rcases orderly_routes.plain route member with root | ⟨nonempty, plain⟩
  · rw [Route.pieces, root]
    intro piece among
    rw [List.map_singleton, List.mem_singleton] at among
    rw [among]
    exact List.not_mem_nil
  · intro piece among
    rcases List.mem_map.mp among with ⟨segment, isSegment, rfl⟩
    have isPlain := List.all_eq_true.mp plain segment isSegment
    cases segment with
    | literal text =>
        simp only [Segment.isPlain, Bool.and_eq_true, List.all_eq_true] at isPlain
        intro dot
        exact absurd (isPlain.2 '.' dot).1 (by decide)
    | dynamic key =>
        rw [Segment.piece, escapeSegment, Uri.mem_escape_iff dot_special]
        exact fun both => dotless key (mem_keys_iff.mpr isSegment) both.1

end

/-! ## Matching -/

section

variable {format : Bool} {segments : List Segment} {pieces : List (List Char)}

theorem matchLast_of_dotless {segment : Segment} {piece : List Char} (dotless : '.' ∉ piece) :
    matchLast format segment piece = matchPiece segment piece := by
  have nothing : piece.dropWhile (· ≠ '.') = [] := by
    rw [List.dropWhile_eq_nil_iff]
    intro char member
    exact decide_eq_true fun same => dotless (same ▸ member)
  unfold matchLast
  rw [nothing]
  cases format with
  | false => rfl
  | true => rfl

/-- Without dots the segments match the pieces one by one. -/
theorem forall₂_of_matchPieces (dotless : ∀ piece ∈ pieces, '.' ∉ piece)
    (matched : matchPieces format segments pieces ≠ none) :
    List.Forall₂ (fun segment piece => matchPiece segment piece ≠ none) segments pieces := by
  fun_induction matchPieces format segments pieces with
  | case1 segment piece =>
      rw [matchLast_of_dotless (dotless piece List.mem_cons_self)] at matched
      exact List.Forall₂.cons matched List.Forall₂.nil
  | case2 segment segments piece pieces _ ih =>
      rw [List.forall_mem_cons] at dotless
      cases own : matchPiece segment piece with
      | none => simp [own] at matched
      | some params =>
          apply List.Forall₂.cons
          · rw [own]
            exact Option.some_ne_none params
          · apply ih dotless.2
            intro others
            simp [own, others] at matched
  | case3 => exact absurd rfl matched

/-! ### A route and its own path -/

variable {values : String → String}

/-- What a match reads under the key of a segment. -/
def Segment.parameters (values : String → String) : Segment → PathParameters
  | .literal _ => []
  | .dynamic key => [(key, escapeSegment (values key))]

theorem matchPiece_self {segment : Segment} (given : ∀ key ∈ segment.keys, values key ≠ "")
    (dotless : ∀ key ∈ segment.keys, '.' ∉ (values key).toList) :
    matchPiece segment (segment.piece values) = some (segment.parameters values) := by
  cases segment with
  | literal text => exact if_pos rfl
  | dynamic key =>
      have member : key ∈ (Segment.dynamic key).keys := List.mem_singleton_self key
      exact if_pos (word_of_dotless (given key member) (dotless key member)).1

theorem matchPieces_self (nonempty : segments ≠ [])
    (given : ∀ key ∈ segments.flatMap Segment.keys, values key ≠ "")
    (dotless : ∀ key ∈ segments.flatMap Segment.keys, '.' ∉ (values key).toList)
    (dotlessPieces : ∀ piece ∈ segments.map (Segment.piece values), '.' ∉ piece) :
    matchPieces format segments (segments.map (Segment.piece values)) =
      some (segments.flatMap (Segment.parameters values)) := by
  induction segments with
  | nil => exact absurd rfl nonempty
  | cons segment rest ih =>
      rw [List.flatMap_cons] at given dotless
      rw [List.map_cons, List.forall_mem_cons] at dotlessPieces
      have own : matchPiece segment (segment.piece values) = some (segment.parameters values) :=
        matchPiece_self (fun key member => given key (List.mem_append_left _ member))
          fun key member => dotless key (List.mem_append_left _ member)
      cases rest with
      | nil =>
          rw [List.map_singleton, matchPieces, matchLast_of_dotless dotlessPieces.1, own,
            List.flatMap_cons, List.flatMap_nil, List.append_nil]
      | cons second others =>
          have later := ih (List.cons_ne_nil _ _)
            (fun key member => given key (List.mem_append_right _ member))
            (fun key member => dotless key (List.mem_append_right _ member)) dotlessPieces.2
          rw [List.map_cons] at later
          rw [List.map_cons, List.map_cons, matchPieces, own, later]
          · rfl
          · simp

/-- Under a key stands its value, whichever segment it was read from. -/
theorem lookup_parameters {key : String} (member : key ∈ segments.flatMap Segment.keys) :
    (segments.flatMap (Segment.parameters values)).lookup key =
      some (escapeSegment (values key)) := by
  induction segments with
  | nil => exact absurd member List.not_mem_nil
  | cons segment rest ih =>
      rw [List.flatMap_cons, List.mem_append] at member
      rw [List.flatMap_cons]
      cases segment with
      | literal text => exact ih (member.resolve_left List.not_mem_nil)
      | dynamic other =>
          by_cases same : key = other
          · rw [same, Segment.parameters, List.singleton_append, List.lookup_cons_self]
          · have later := member.resolve_left fun here => same (List.mem_singleton.mp here)
            rw [Segment.parameters, List.singleton_append, List.lookup_cons,
              beq_eq_false_iff_ne.mpr same]
            exact ih later

theorem value_escapeSegment {params : PathParameters} {key text : String}
    (found : params.lookup key = some (escapeSegment text)) : params.value key = some text := by
  have decoded := Uri.decode_unescape_escape isPathChar_percent text.toList
  rw [String.ofList_toList] at decoded
  rw [PathParameters.value, found]
  exact decoded

/-! ### Values with a dot -/

/-- Of a last value with a dot a match reads what stands before the first dot. -/
theorem lookup_matchLast_dotted {key text : String} {params : PathParameters}
    (dotted : '.' ∈ text.toList)
    (matched : matchLast format (.dynamic key) (escapeSegment text) = some params) :
    params.lookup key =
      some (escapeSegment (String.ofList (text.toList.takeWhile (· ≠ '.')))) := by
  have notWord := (stem_of_dotted dotted).1
  unfold matchLast at matched
  split at matched
  · split_ifs at matched
    rw [escapeSegment, Uri.takeWhile_escape dot_special (by decide), matchPiece] at matched
    split at matched
    · cases matched
      rw [escapeSegment, String.toList_ofList]
      exact List.lookup_cons_self
    · cases matched
  · rw [matchPiece, notWord] at matched
    cases matched

/-- If the values are read as they were put in, then none has a dot. -/
theorem dotless_of_matchPieces {params : PathParameters}
    (distinct : (segments.flatMap Segment.keys).Nodup)
    (matched : matchPieces format segments (segments.map (Segment.piece values)) = some params)
    (reads : ∀ key ∈ segments.flatMap Segment.keys, params.value key = some (values key)) :
    ∀ key ∈ segments.flatMap Segment.keys, '.' ∉ (values key).toList := by
  induction segments generalizing params with
  | nil =>
      intro key member
      exact absurd member List.not_mem_nil
  | cons segment rest ih =>
      intro key member dotted
      cases rest with
      | nil =>
          rw [List.flatMap_cons, List.flatMap_nil, List.append_nil] at member
          cases segment with
          | literal text => exact absurd member List.not_mem_nil
          | dynamic other =>
              cases List.mem_singleton.mp member
              rw [List.map_singleton, matchPieces] at matched
              have stem := value_escapeSegment (lookup_matchLast_dotted dotted matched)
              rw [reads key (List.mem_singleton_self key)] at stem
              exact stem_ne dotted (Option.some.inj stem).symm
      | cons second others =>
          rw [List.map_cons, List.map_cons, matchPieces] at matched
          · rcases Option.bind_eq_some_iff.mp matched with ⟨own, isOwn, bound⟩
            rcases Option.bind_eq_some_iff.mp bound with ⟨later, isLater, isParams⟩
            cases isParams
            rw [List.flatMap_cons] at distinct reads member
            rcases List.nodup_append.mp distinct with ⟨_, laterDistinct, apart⟩
            cases segment with
            | literal text =>
                rw [matchPiece, Segment.piece, if_pos rfl] at isOwn
                cases isOwn
                exact ih laterDistinct isLater reads key member dotted
            | dynamic first =>
                have own : isWord (escapeSegment (values first)) = true := by
                  by_contra notWord
                  rw [matchPiece, Segment.piece, if_neg notWord] at isOwn
                  cases isOwn
                rw [matchPiece, Segment.piece, if_pos own] at isOwn
                cases isOwn
                rcases List.mem_append.mp member with here | there
                · cases List.mem_singleton.mp here
                  rw [(stem_of_dotted dotted).1] at own
                  cases own
                · apply ih laterDistinct isLater _ key there dotted
                  intro other among
                  have different : other ≠ first := fun same =>
                    apart first (List.mem_singleton_self first) other among same.symm
                  have read := reads other (List.mem_append_right _ among)
                  rw [PathParameters.value, List.singleton_append, List.lookup_cons,
                    beq_eq_false_iff_ne.mpr different] at read
                  exact read
          · simp

end

/-! ## All routes -/

section

variable {route other : Route} {values : String → String}

theorem matchPieces_of_matches {verb : Verb} {pieces : List (List Char)}
    (matched : other.matches verb pieces ≠ none) :
    other.verb = verb ∧ matchPieces other.format other.segments pieces ≠ none := by
  unfold Route.matches at matched
  split_ifs at matched with sameVerb
  · refine ⟨sameVerb, ?_⟩
    intro nothing
    rw [nothing] at matched
    exact matched rfl
  · exact absurd rfl matched

/-- A route that matches the path of another overlaps with it. -/
theorem meets_of_matches (dotless : ∀ piece ∈ route.pieces values, '.' ∉ piece)
    (matched : other.matches route.verb (route.pieces values) ≠ none) :
    other.meets route = true := by
  rcases matchPieces_of_matches matched with ⟨sameVerb, inPieces⟩
  have each := forall₂_of_matchPieces dotless inPieces
  rw [Route.pieces, List.forall₂_map_right_iff, List.forall₂_iff_zip] at each
  rw [Route.meets, Bool.and_eq_true, Bool.and_eq_true, List.all_eq_true]
  refine ⟨⟨decide_eq_true sameVerb, decide_eq_true each.1⟩, ?_⟩
  rintro ⟨first, second⟩ member
  have fits := each.2 member
  cases first with
  | dynamic key => rfl
  | literal text =>
      cases second with
      | dynamic key => rfl
      | literal word =>
          by_contra different
          apply fits
          apply if_neg
          intro same
          exact different (decide_eq_true (String.toList_inj.mp same).symm)

theorem isFormOf_iff {form member : Route} : form.isFormOf member = true ↔
    form.verb = .get ∧ member.verb = .get ∧ ∃ collection key,
      form.segments = [.literal collection, .literal "new"] ∧
        member.segments = [.literal collection, .dynamic key] := by
  unfold Route.isFormOf
  constructor
  · intro isForm
    rw [Bool.and_eq_true, Bool.and_eq_true, decide_eq_true_eq, decide_eq_true_eq] at isForm
    rcases isForm with ⟨⟨isGet, memberGet⟩, shape⟩
    refine ⟨isGet, memberGet, ?_⟩
    split at shape
    · rename_i collection word same key formSegments memberSegments
      rw [Bool.and_eq_true, decide_eq_true_eq, decide_eq_true_eq] at shape
      rw [shape.2] at formSegments
      rw [← shape.1] at memberSegments
      exact ⟨collection, key, formSegments, memberSegments⟩
    · cases shape
  · rintro ⟨isGet, memberGet, collection, key, formSegments, memberSegments⟩
    rw [isGet, memberGet, formSegments, memberSegments]
    simp

theorem new_of_matches (form : other.isFormOf route = true)
    (dotless : ∀ piece ∈ route.pieces values, '.' ∉ piece)
    (matched : other.matches route.verb (route.pieces values) ≠ none) :
    ∀ key ∈ route.keys, values key = "new" := by
  rcases isFormOf_iff.mp form with ⟨_, _, collection, name, formSegments, memberSegments⟩
  have each := forall₂_of_matchPieces dotless (matchPieces_of_matches matched).2
  rw [Route.pieces, formSegments, memberSegments] at each
  rcases each with _ | ⟨_, _ | ⟨isNew, _⟩⟩
  intro key member
  rw [Route.keys, memberSegments] at member
  cases List.mem_singleton.mp member
  rw [← escapeSegment_eq_new_iff]
  by_contra different
  exact isNew (if_neg different)

theorem matches_of_shadowed (form : other.isFormOf route = true)
    (isNew : ∀ key ∈ route.keys, values key = "new") :
    other.matches route.verb (route.pieces values) ≠ none := by
  rcases isFormOf_iff.mp form with ⟨formGet, routeGet, collection, name, formSegments,
    memberSegments⟩
  have value : values name = "new" := by
    apply isNew
    rw [Route.keys, memberSegments]
    exact List.mem_singleton_self name
  have new := escapeSegment_eq_new_iff.mpr value
  have last : matchLast other.format (.literal "new") ['n', 'e', 'w'] = some [] := by
    rw [matchLast_of_dotless (by decide)]
    rfl
  rw [Route.matches, formGet, routeGet, Route.pieces, formSegments, memberSegments]
  simp [Segment.piece, matchPieces, matchPiece, new, last]

theorem matches_self (member : route ∈ ROUTES) (given : ∀ key ∈ route.keys, values key ≠ "")
    (dotless : ∀ key ∈ route.keys, '.' ∉ (values key).toList) :
    route.matches route.verb (route.pieces values) =
      some (route.endpoint, route.segments.flatMap (Segment.parameters values)) := by
  have nonempty : route.segments ≠ [] := by
    rcases orderly_routes.plain route member with root | plain
    · rw [root]
      exact List.cons_ne_nil _ _
    · exact plain.1
  rw [Route.matches, if_pos rfl, Route.pieces,
    matchPieces_self nonempty given dotless (dotless_pieces member dotless)]
  rfl

/-- The path of a route leads back to it if and only if no value in it has a dot, and
it is not taken for that of a form. -/
theorem routeLeads_iff (member : route ∈ ROUTES) (given : ∀ key ∈ route.keys, values key ≠ "") :
    route.Leads values ↔
      (∀ key ∈ route.keys, '.' ∉ (values key).toList) ∧ ¬ route.Shadowed values := by
  rw [Route.Leads, recognize, piecesOf_path member given]
  constructor
  · rintro ⟨params, found, reads⟩
    rcases List.findSome?_eq_some_iff.mp found with ⟨before, first, after, table, matched, none⟩
    have isFirst : first ∈ ROUTES := by
      rw [table]
      exact List.mem_append_right _ List.mem_cons_self
    have sameVerb := (matchPieces_of_matches (ne_of_eq_of_ne matched (Option.some_ne_none _))).1
    rw [Route.matches, if_pos sameVerb] at matched
    rcases map_endpoint_eq_some matched with ⟨sameEndpoint, inPieces⟩
    cases List.inj_on_of_nodup_map orderly_routes.endpoints isFirst member
      (Prod.ext sameVerb sameEndpoint)
    refine ⟨dotless_of_matchPieces (orderly_routes.keys route member) inPieces reads, ?_⟩
    rintro ⟨form, among, isForm, isNew⟩
    have order := orderly_routes.overlaps
    rw [table, List.pairwise_append, List.pairwise_cons] at order
    rw [table, List.mem_append, List.mem_cons] at among
    rcases among with early | rfl | late
    · exact matches_of_shadowed isForm isNew (none form early)
    · rcases isFormOf_iff.mp isForm with ⟨_, _, _, _, shape, others⟩
      rw [shape] at others
      cases others
    · have isLater := (order.2.1.1 form late).2
      rw [isForm] at isLater
      cases isLater
  · rintro ⟨dotless, unshadowed⟩
    rcases List.append_of_mem member with ⟨before, after, table⟩
    refine ⟨_, List.findSome?_eq_some_iff.mpr ⟨before, route, after, table,
      matches_self member given dotless, ?_⟩, ?_⟩
    · intro earlier early
      by_contra matched
      have isEarlier : earlier ∈ ROUTES := by
        rw [table]
        exact List.mem_append_left _ early
      have order := orderly_routes.overlaps
      rw [table, List.pairwise_append] at order
      have pieces := dotless_pieces member dotless
      have isForm := (order.2.2 earlier early route List.mem_cons_self).1
        (meets_of_matches pieces matched)
      exact unshadowed ⟨earlier, isEarlier, isForm, new_of_matches isForm pieces matched⟩
    · intro key isKey
      exact value_escapeSegment (lookup_parameters isKey)

end

/-- `DELETE /vms/:name/shell_sessions/:id` -/
def closeShellRoute : Route where
  verb := .delete
  segments := [.literal "vms", .dynamic "name", .literal "shell_sessions", .dynamic "id"]
  endpoint := ⟨"shell_sessions", "destroy"⟩

theorem routeLeads_iff_closeShell :
    closeShellRoute.Leads fun key => if key = "name" then "new" else "a/b 1" := by
  refine (@routeLeads_iff closeShellRoute _ (by decide +kernel) (by decide)).mpr
    ⟨by decide, ?_⟩
  rintro ⟨form, _, isForm, _⟩
  rcases isFormOf_iff.mp isForm with ⟨_, isGet, _⟩
  cases isGet

end MultipassWebui.Web
