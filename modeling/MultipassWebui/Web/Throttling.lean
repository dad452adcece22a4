import Mathlib.Order.Bounds.Basic
import MultipassWebui.Web.LoginThrottle
import MultipassWebui.Web.RouteTable

/-!
# Which requests the throttles refuse

No request is picked by two throttles, so a count grows by one for each request
that is picked, and a request is refused precisely if what was counted before it in
its window makes the limit.  The throttle of the machines picks what the router
sends to their controllers, but for the collection with a format.
-/

namespace MultipassWebui.Web

open MultipassWebui.Auth

/-! ## One request -/

/-- No request is picked by two of the throttles. -/
def Exclusive (throttles : List Throttle) : Prop :=
  throttles.Pairwise fun first second =>
    ∀ request, first.block request = none ∨ second.block request = none

section

variable {rackAttack : RackAttack} {time : Nat} {request : HttpRequest}
variable {counters : rackAttack.Counters}

theorem throttled_of_unpicked {throttles : List Throttle}
    (unpicked : ∀ throttle ∈ throttles, throttle.block request = none) :
    rackAttack.throttled time request throttles counters = (none, counters) := by
  induction throttles with
  | nil => exact rackAttack.throttled_nil time request counters
  | cons throttle rest ih =>
      rw [List.forall_mem_cons] at unpicked
      rw [rackAttack.throttled_of_unpicked _ _ _ _ _ unpicked.1]
      exact ih unpicked.2

/-- A request is picked by no throttle, or by one, which counts it. -/
theorem throttled_cases {throttles : List Throttle} (exclusive : Exclusive throttles) :
    ((∀ throttle ∈ throttles, throttle.block request = none) ∧
        rackAttack.throttled time request throttles counters = (none, counters)) ∨
      ∃ throttle ∈ throttles, ∃ client counted,
        throttle.client rackAttack request = some client ∧
        rackAttack.read counted = Function.update (rackAttack.read counters)
          (throttle.key time client) (rackAttack.read counters (throttle.key time client) + 1) ∧
        rackAttack.throttled time request throttles counters =
          (if throttle.limit ≤ rackAttack.read counters (throttle.key time client) then
            some throttle
            else none, counted) := by
  induction throttles with
  | nil =>
      exact Or.inl ⟨fun _ member => absurd member List.not_mem_nil,
        rackAttack.throttled_nil time request counters⟩
  | cons throttle rest ih =>
      obtain ⟨others, later⟩ := List.pairwise_cons.mp exclusive
      cases picked : throttle.block request with
      | none =>
          rw [rackAttack.throttled_of_unpicked _ _ _ _ _ picked]
          rcases ih later with
            ⟨unpicked, result⟩ | ⟨other, member, client, counted, picks, grown, result⟩
          · left
            exact ⟨List.forall_mem_cons.mpr ⟨picked, unpicked⟩, result⟩
          · right
            exact ⟨other, List.mem_cons_of_mem _ member, client, counted, picks, grown, result⟩
      | some discriminator =>
          right
          have isClient : throttle.client rackAttack request =
              some (rackAttack.normalizer discriminator) := by
            rw [Throttle.client, picked]
            rfl
          have unpicked : ∀ other ∈ rest, other.block request = none := by
            intro other member
            apply (others other member request).resolve_left
            rw [picked]
            exact Option.some_ne_none discriminator
          rcases rackAttack.throttled_of_client isClient time rest counters with
            ⟨counted, grown, result⟩
          refine ⟨throttle, List.mem_cons_self, _, counted, isClient, grown, ?_⟩
          rw [result]
          split_ifs
          · rfl
          · exact throttled_of_unpicked unpicked

end

theorem exclusive_throttles : Exclusive throttles := by
  rw [Exclusive, throttles, List.pairwise_pair]
  intro request
  by_cases login : request.pathInfo = loginPath
  · right
    have other : matchesApi loginPath = false := by decide
    simp [apiIp, login, other]
  · left
    simp [loginsIp, login]

theorem unpicked_of_ne {first second : Throttle} {request : HttpRequest}
    (isFirst : first ∈ throttles) (isSecond : second ∈ throttles) (different : first ≠ second) :
    first.block request = none ∨ second.block request = none := by
  have symmetric : Std.Symm fun first second : Throttle =>
      first.block request = none ∨ second.block request = none := ⟨fun _ _ => Or.symm⟩
  have pairwise := exclusive_throttles.imp fun neither => neither request
  exact pairwise.forall isFirst isSecond different

theorem eq_of_picks {rackAttack : RackAttack} {first second : Throttle} {request : HttpRequest}
    {here there : String} (isFirst : first ∈ throttles) (isSecond : second ∈ throttles)
    (picksHere : first.client rackAttack request = some here)
    (picksThere : second.client rackAttack request = some there) : first = second := by
  by_contra different
  rcases unpicked_of_ne isFirst isSecond different with none | none
  · rw [Throttle.client_eq_none none] at picksHere
    cases picksHere
  · rw [Throttle.client_eq_none none] at picksThere
    cases picksThere

/-- The throttles count under different names. -/
theorem eq_of_name_eq {first second : Throttle} (isFirst : first ∈ throttles)
    (isSecond : second ∈ throttles) (same : first.name = second.name) : first = second := by
  simp only [throttles, List.mem_cons, List.not_mem_nil, or_false] at isFirst isSecond
  rcases isFirst with rfl | rfl
  · rcases isSecond with rfl | rfl
    · rfl
    · simp [loginsIp, apiIp] at same
  · rcases isSecond with rfl | rfl
    · simp [loginsIp, apiIp] at same
    · rfl

theorem positive_period (throttle : Throttle) (member : throttle ∈ throttles) :
    0 < throttle.period := by
  simp only [throttles, List.mem_cons, List.not_mem_nil, or_false] at member
  rcases member with rfl | rfl
  · exact Nat.succ_pos 59
  · exact Nat.succ_pos 59

/-! ## Sequences of requests -/

section

variable (rackAttack : RackAttack)

/-- The throttle picks the request in this window, for this client. -/
def Throttle.Picks (throttle : Throttle) (window : Nat) (client : String) (arrival : Arrival) :
    Prop :=
  throttle.client rackAttack arrival.request.normalized = some client ∧
    arrival.time / throttle.period = window

instance decidablePicks (throttle : Throttle) (window : Nat) (client : String)
    (arrival : Arrival) : Decidable (throttle.Picks rackAttack window client arrival) :=
  inferInstanceAs (Decidable (_ ∧ _))

/-- How many of the requests it picks. -/
def Throttle.tally (throttle : Throttle) (window : Nat) (client : String)
    (arrivals : List Arrival) : Nat :=
  arrivals.countP fun arrival => throttle.Picks rackAttack window client arrival

end

section

variable {crypto : Crypto} {rackAttack : RackAttack} {site : Site rackAttack} {arrival : Arrival}

/-- The action behind the middleware counts nothing. -/
theorem counters_serve :
    (serve crypto site arrival).2.counters =
      (rackAttack.throttled arrival.time arrival.request.normalized throttles
        site.counters).2 := by
  rcases shape : rackAttack.throttled arrival.time arrival.request.normalized throttles
    site.counters with ⟨refusing, counted⟩
  cases refusing with
  | some throttle => simp [serve, shape]
  | none =>
      simp only [serve, shape]
      rcases dispatch_cases crypto arrival { site with counters := counted } with
        same | ⟨_, store, checked⟩
      · rw [same]
      · rw [checked]

theorem counters_serve_key {throttle : Throttle} (member : throttle ∈ throttles) (window : Nat)
    (client : String) :
    rackAttack.read (serve crypto site arrival).2.counters (window, throttle.name, client) =
      rackAttack.read site.counters (window, throttle.name, client) +
        if throttle.Picks rackAttack window client arrival then 1 else 0 := by
  rw [counters_serve]
  rcases @throttled_cases rackAttack arrival.time arrival.request.normalized site.counters
    throttles exclusive_throttles with
    ⟨unpicked, result⟩ | ⟨other, among, name, counted, picked, grown, result⟩
  · have notPicked : ¬ throttle.Picks rackAttack window client arrival := by
      rintro ⟨picks, _⟩
      rw [Throttle.client_eq_none (unpicked throttle member)] at picks
      exact Option.some_ne_none _ picks.symm
    rw [result, if_neg notPicked]
    rfl
  · rw [result, grown]
    by_cases here : (window, throttle.name, client) = other.key arrival.time name
    · rw [Throttle.key, Prod.mk.injEq, Prod.mk.injEq] at here
      rcases here with ⟨rfl, sameName, rfl⟩
      rcases eq_of_name_eq member among sameName
      have picks : throttle.Picks rackAttack (arrival.time / throttle.period) client arrival :=
        ⟨picked, rfl⟩
      rw [if_pos picks]
      exact Function.update_self _ _ _
    · have notPicked : ¬ throttle.Picks rackAttack window client arrival := by
        rintro ⟨picks, rfl⟩
        by_cases same : throttle = other
        · subst same
          rw [picked, Option.some.injEq] at picks
          rw [picks] at here
          exact here rfl
        · exact same (eq_of_picks member among picks picked)
      rw [if_neg notPicked]
      exact Function.update_of_ne here _ _

/-- A count grows by the number of requests that are picked. -/
theorem counters_serveAll_key {throttle : Throttle} (member : throttle ∈ throttles) (window : Nat)
    (client : String) (arrivals : List Arrival) :
    rackAttack.read (serveAll crypto arrivals site).counters (window, throttle.name, client) =
      rackAttack.read site.counters (window, throttle.name, client) +
        throttle.tally rackAttack window client arrivals := by
  induction arrivals generalizing site with
  | nil => rfl
  | cons arrival rest ih =>
      have later := @ih (serve crypto site arrival).2
      rw [counters_serve_key member] at later
      rw [serveAll, List.foldl_cons, ← serveAll, later, Throttle.tally, Throttle.tally,
        List.countP_cons]
      simp only [decide_eq_true_eq]
      omega

end

/-! ## The answer -/

/-- The seconds that are left of a window. -/
theorem isLeast_reset {time period : Nat} (positive : 0 < period) :
    IsLeast {wait | (time + wait) / period ≠ time / period} (period - time % period) := by
  have below := Nat.mod_lt time positive
  have whole := Nat.div_add_mod time period
  constructor
  · have next : time + (period - time % period) = period * (time / period + 1) := by
      rw [Nat.mul_add, Nat.mul_one]
      omega
    rw [Set.mem_ofPred_eq, next, Nat.mul_div_cancel_left _ positive]
    exact Nat.succ_ne_self _
  · intro wait later
    by_contra early
    apply later
    have same : time + wait = period * (time / period) + (time % period + wait) := by
      omega
    have within : (time % period + wait) / period = 0 := Nat.div_eq_of_lt (by omega)
    rw [same, Nat.mul_add_div positive, within, Nat.add_zero]

section

variable {crypto : Crypto} {rackAttack : RackAttack} {site : Site rackAttack}
variable {arrival : Arrival} {limit reset : Nat}

/-- The application does not give the answer of a throttle. -/
theorem dispatch_ne_tooManyRequests :
    (dispatch crypto arrival site).1 ≠ .tooManyRequests limit reset := by
  cases routed : routeLogin arrival.request.normalized with
  | none => simp [dispatch, routed]
  | some format =>
      simp only [dispatch, routed]
      split_ifs
      · simp
      · simp

theorem serve_eq_tooManyRequests_iff :
    (serve crypto site arrival).1 = .tooManyRequests limit reset ↔
      ∃ throttle ∈ throttles, ∃ client,
        throttle.client rackAttack arrival.request.normalized = some client ∧
        throttle.limit ≤ rackAttack.read site.counters (throttle.key arrival.time client) ∧
        limit = throttle.limit ∧ reset = throttle.period - arrival.time % throttle.period := by
  rcases @throttled_cases rackAttack arrival.time arrival.request.normalized site.counters
    throttles exclusive_throttles with
    ⟨unpicked, result⟩ | ⟨throttle, among, name, counted, picked, _, result⟩
  · have passed : (serve crypto site arrival).1 ≠ .tooManyRequests limit reset := by
      simp only [serve, result]
      exact dispatch_ne_tooManyRequests
    apply iff_of_false passed
    rintro ⟨throttle, member, client, picks, _⟩
    rw [Throttle.client_eq_none (unpicked throttle member)] at picks
    cases picks
  · by_cases full : throttle.limit ≤
        rackAttack.read site.counters (throttle.key arrival.time name)
    · rw [if_pos full] at result
      simp only [serve, result, Response.tooManyRequests.injEq]
      constructor
      · rintro ⟨rfl, rfl⟩
        exact ⟨throttle, among, name, picked, full, rfl, rfl⟩
      · rintro ⟨other, member, client, picks, _, rfl, rfl⟩
        rw [eq_of_picks among member picked picks]
        exact ⟨rfl, rfl⟩
    · rw [if_neg full] at result
      have passed : (serve crypto site arrival).1 ≠ .tooManyRequests limit reset := by
        simp only [serve, result]
        exact dispatch_ne_tooManyRequests
      apply iff_of_false passed
      rintro ⟨other, member, client, picks, reached, _⟩
      cases eq_of_picks among member picked picks
      rw [picked, Option.some.injEq] at picks
      rw [picks] at full
      exact full reached

end

/-- A request is refused precisely if a throttle picks it whose count, and the requests
before it that were picked for its client in its window, make the limit; and the answer
gives the limit and the seconds that are left of the window. -/
theorem serve_tooManyRequests_iff (crypto : Crypto) (rackAttack : RackAttack)
    (site : Site rackAttack) (earlier : List Arrival) (arrival : Arrival) (limit reset : Nat) :
    (serve crypto (serveAll crypto earlier site) arrival).1 = .tooManyRequests limit reset ↔
      ∃ throttle ∈ throttles, ∃ client,
        throttle.Picks rackAttack (arrival.time / throttle.period) client arrival ∧
        throttle.limit ≤
          rackAttack.read site.counters
              (arrival.time / throttle.period, throttle.name, client) +
            throttle.tally rackAttack (arrival.time / throttle.period) client earlier ∧
        limit = throttle.limit ∧
        IsLeast {wait | (arrival.time + wait) / throttle.period ≠
          arrival.time / throttle.period} reset := by
  rw [serve_eq_tooManyRequests_iff]
  have left : ∀ throttle ∈ throttles, (reset = throttle.period - arrival.time % throttle.period ↔
      IsLeast {wait | (arrival.time + wait) / throttle.period ≠
        arrival.time / throttle.period} reset) := by
    intro throttle member
    have least := @isLeast_reset arrival.time _ (positive_period throttle member)
    constructor
    · rintro rfl
      exact least
    · intro other
      exact other.unique least
  constructor
  · rintro ⟨throttle, member, client, picked, full, isLimit, isReset⟩
    rw [Throttle.key, counters_serveAll_key member] at full
    exact ⟨throttle, member, client, ⟨picked, rfl⟩, full, isLimit,
      (left throttle member).mp isReset⟩
  · rintro ⟨throttle, member, client, ⟨picked, _⟩, full, isLimit, isReset⟩
    rw [← counters_serveAll_key member, ← Throttle.key] at full
    exact ⟨throttle, member, client, picked, full, isLimit,
      (left throttle member).mpr isReset⟩

/-- A login from an address, which is one client in either case of its letters. -/
def loginFrom (ip : String) : Arrival where
  time := 130
  request := ⟨"POST", "/login".toList, ip, none, none, true, "admin", "guess"⟩
  raw := ""

def anyCase : RackAttack := fixedWindows fun text => String.ofList (text.toList.map Char.toLower)

theorem serve_tooManyRequests_iff_sixthLogin :
    (serve ⟨id, id, fun _ _ => false⟩
        (serveAll ⟨id, id, fun _ _ => false⟩ (List.replicate 5 (loginFrom "2001:DB8::1"))
          (@opening anyCase (fun _ => (0 : Nat)) Store.empty))
        (loginFrom "2001:db8::1")).1 = .tooManyRequests 5 50 := by
  apply (serve_tooManyRequests_iff _ _ _ _ _ _ _).mpr
  exact ⟨loginsIp, List.mem_cons_self, "2001:db8::1", by decide, by decide, rfl,
    isLeast_reset (by decide)⟩

/-! ## Which requests the throttle of the machines picks -/

/-- The first piece of a path that begins with a slash. -/
theorem piecesOf_cons (rest : List Char) :
    ∃ others, piecesOf ('/' :: rest) = rest.takeWhile (· ≠ '/') :: others := by
  have cut : piecesOf ('/' :: rest) = rest.splitOn '/' := by
    change ((([] : List Char) ++ '/' :: rest).splitOn '/').drop 1 = _
    rw [List.splitOn_append_cons_self]
    rfl
  rw [cut]
  by_cases slash : '/' ∈ rest
  · rcases List.eq_append_cons_of_mem slash with ⟨first, later, rfl, noSlash⟩
    have taken : (first ++ '/' :: later).takeWhile (· ≠ '/') = first := by
      rw [List.takeWhile_append_of_pos]
      · simp
      · intro char member
        exact decide_eq_true fun same => noSlash (same ▸ member)
    rw [List.splitOn_append_cons_self, List.splitOn_eq_singleton noSlash, taken]
    exact ⟨_, rfl⟩
  · have taken : rest.takeWhile (· ≠ '/') = rest := by
      rw [List.takeWhile_eq_self_iff]
      intro char member
      exact decide_eq_true fun same => slash (same ▸ member)
    rw [List.splitOn_eq_singleton slash, taken]
    exact ⟨_, rfl⟩

/-- A word with a slash or nothing behind it is what stands before the first slash. -/
theorem prefix_and_head_iff {word rest : List Char} (noSlash : '/' ∉ word) :
    (word.isPrefixOf rest && (rest.drop word.length).head?.all fun char => char = '/') = true ↔
      rest.takeWhile (· ≠ '/') = word := by
  constructor
  · intro both
    rw [Bool.and_eq_true, List.isPrefixOf_iff_prefix] at both
    rcases both with ⟨⟨more, rfl⟩, ends⟩
    rw [List.drop_left] at ends
    rw [List.takeWhile_append_of_pos]
    · cases more with
      | nil => simp
      | cons char others =>
          have isSlash : char = '/' := by simpa using ends
          simp [isSlash]
    · intro char member
      exact decide_eq_true fun same => noSlash (same ▸ member)
  · intro taken
    have whole := List.takeWhile_append_dropWhile (p := (· ≠ '/')) (l := rest)
    rw [taken] at whole
    rw [Bool.and_eq_true, List.isPrefixOf_iff_prefix]
    refine ⟨⟨_, whole⟩, ?_⟩
    have dropped : rest.drop word.length = rest.dropWhile (· ≠ '/') := by
      conv_lhs => rw [← whole]
      exact List.drop_left
    rw [dropped]
    have head := List.head?_dropWhile_not (· ≠ '/') rest
    cases first : (rest.dropWhile (· ≠ '/')).head? with
    | none => rfl
    | some char =>
        rw [first] at head
        simpa using head

theorem matchesApi_cons_iff (rest : List Char) : matchesApi ('/' :: rest) = true ↔
    rest.takeWhile (· ≠ '/') = "vms".toList ∨ rest.takeWhile (· ≠ '/') = "chat".toList := by
  have vms := @prefix_and_head_iff "vms".toList rest (by decide)
  have chat := @prefix_and_head_iff "chat".toList rest (by decide)
  rw [← vms, ← chat, ← Bool.or_eq_true]
  have same : matchesApi ('/' :: rest) =
      ("vms".toList.isPrefixOf rest &&
          ((rest.drop "vms".toList.length).head?.all fun char => char = '/') ||
        "chat".toList.isPrefixOf rest &&
          (rest.drop "chat".toList.length).head?.all fun char => char = '/') := by
    simp [matchesApi, List.any_cons]
  rw [same]

theorem head?_normalizePath (path : List Char) : (normalizePath path).head? = some '/' := by
  rcases normalizePath_cases path with root | normalized
  · rw [root]
    rfl
  · exact normalized.leads

/-- The routes of the machines, and what they lead to. -/
theorem machines_of_mem_routes : ∀ route ∈ ROUTES,
    (route.endpoint.controller ∈ ["vms", "shell_sessions"] ↔
      route.segments.head? = some (.literal "vms")) ∧
    route.segments.head? ≠ some (.literal "chat") ∧
    (route.segments.head? = some (.literal "vms") → (route.segments.length = 1 ↔
      route.endpoint.controller = "vms" ∧ route.endpoint.action ∈ ["index", "create"])) := by
  decide +kernel

/-- A match of one piece by a literal: the piece is the literal, or it has a format. -/
theorem literal_of_matchLast {format : Bool} {text : String} {piece : List Char}
    {params : PathParameters} (matched : matchLast format (.literal text) piece = some params) :
    piece = text.toList ∧ params = [] ∨ '.' ∈ piece ∧ (params.lookup "format").isSome := by
  unfold matchLast at matched
  split at matched
  · rename_i dot extension shape
    right
    constructor
    · by_contra dotless
      have nothing : piece.dropWhile (· ≠ '.') = [] := by
        rw [List.dropWhile_eq_nil_iff]
        intro char member
        exact decide_eq_true fun same => dotless (same ▸ member)
      rw [nothing] at shape
      cases shape
    · rw [matchPiece] at matched
      split_ifs at matched
      · cases matched
        rfl
      · cases matched
  · rw [matchPiece] at matched
    split_ifs at matched with same
    · cases matched
      exact Or.inl ⟨same, rfl⟩

/-- Of the requests that are routed, the throttle of the machines picks those to their
controllers, but for the collection with a format. -/
theorem block_apiIp_iff {request : HttpRequest} {verb : Verb} {endpoint : Endpoint}
    {params : PathParameters}
    (routed : recognize ROUTES verb request.pathInfo = some (endpoint, params)) :
    apiIp.block request.normalized = some request.ip ↔
      endpoint.controller ∈ ["vms", "shell_sessions"] ∧
        ¬ (endpoint.controller = "vms" ∧ endpoint.action ∈ ["index", "create"] ∧
          (params.lookup "format").isSome) := by
  rcases List.findSome?_eq_some_iff.mp routed with ⟨before, route, after, table, matched, _⟩
  have member : route ∈ ROUTES := by
    rw [table]
    exact List.mem_append_right _ List.mem_cons_self
  have sameVerb := (matchPieces_of_matches (ne_of_eq_of_ne matched (Option.some_ne_none _))).1
  rw [Route.matches, if_pos sameVerb] at matched
  rcases map_endpoint_eq_some matched with ⟨rfl, inPieces⟩
  rcases machines_of_mem_routes route member with ⟨machines, notChat, collection⟩
  rcases literal_of_mem_routes route member with ⟨text, leads⟩
  rcases List.head?_eq_some_iff.mp (head?_normalizePath request.pathInfo) with ⟨rest, shape⟩
  rcases piecesOf_cons rest with ⟨others, isPieces⟩
  have picked : apiIp.block request.normalized = some request.ip ↔
      rest.takeWhile (· ≠ '/') = "vms".toList ∨ rest.takeWhile (· ≠ '/') = "chat".toList := by
    rw [← matchesApi_cons_iff, ← shape]
    simp [apiIp, HttpRequest.normalized]
  rw [picked, machines]
  rw [shape, isPieces] at inPieces
  rcases List.head?_eq_some_iff.mp leads with ⟨more, segments⟩
  rw [segments] at inPieces
  rw [leads] at notChat collection ⊢
  rw [segments, List.length_cons] at collection
  generalize rest.takeWhile (· ≠ '/') = first at inPieces ⊢
  have sameText : first = text.toList → ((first = "vms".toList ∨ first = "chat".toList) ↔
      some (Segment.literal text) = some (.literal "vms")) := by
    rintro rfl
    have notWord : text ≠ "chat" := by
      rintro rfl
      exact notChat rfl
    rw [String.toList_inj, String.toList_inj]
    simp [notWord]
  cases more with
  | nil =>
      cases others with
      | cons second others => simp [matchPieces] at inPieces
      | nil =>
          rcases literal_of_matchLast inPieces with ⟨same, rfl⟩ | ⟨dotted, hasFormat⟩
          · rw [sameText same]
            simp
          · apply iff_of_false
            · rintro (rfl | rfl)
              · exact absurd dotted (by decide)
              · exact absurd dotted (by decide)
            · rintro ⟨isVms, allowed⟩
              rcases (collection isVms).mp rfl with ⟨controller, action⟩
              exact allowed ⟨controller, action, hasFormat⟩
  | cons second more =>
      have same : first = text.toList := by
        by_contra different
        simp [matchPieces, matchPiece, different] at inPieces
      rw [sameText same]
      constructor
      · intro isVms
        refine ⟨isVms, ?_⟩
        rintro ⟨controller, action, _⟩
        exact absurd ((collection isVms).mpr ⟨controller, action⟩) (by simp)
      · exact And.left

/-- A machine is created through `POST /vms.json`. -/
def jsonCreation : HttpRequest :=
  ⟨"POST", "/vms.json".toList, "10.0.0.1", none, none, true, "", ""⟩

theorem block_apiIp_iff_jsonCreation :
    ¬ apiIp.block jsonCreation.normalized = some jsonCreation.ip := by
  have routed : recognize ROUTES .post jsonCreation.pathInfo =
      some (⟨"vms", "create"⟩, [("format", "json".toList)]) := by decide +kernel
  rw [block_apiIp_iff routed]
  exact fun both => both.2 ⟨rfl, by decide, rfl⟩

end MultipassWebui.Web
