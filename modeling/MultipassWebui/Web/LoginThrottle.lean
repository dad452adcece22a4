import Mathlib.Logic.Function.Basic
import MultipassWebui.Auth.Requests
import MultipassWebui.Web.RequestPath

/-!
# The throttles in front of the login

The middleware counts requests per address in windows of a minute and answers
for the application once a limit is passed.  Which requests it counts is decided
by comparing paths, and which requests are logins by the pattern of the route.
The two agree precisely on the requests without a format.
-/

namespace MultipassWebui.Web

open MultipassWebui.Auth
open MultipassWebui.Effect

/-- What the throttles, the router and the login read of a request. -/
structure HttpRequest where
  method : String
  pathInfo : List Char
  ip : String
  remoteIp : Option String
  userAgent : Option String
  /-- The browser guard and the check of the authenticity token let it pass. -/
  verified : Bool
  username : String
  password : String
  deriving DecidableEq, Repr

namespace HttpRequest

def isPost (request : HttpRequest) : Bool := request.method = "POST"

/-- What the middleware makes of `PATH_INFO` before it looks at the request. -/
def normalized (request : HttpRequest) : HttpRequest :=
  { request with pathInfo := normalizePath request.pathInfo }

end HttpRequest

/-! ## Throttles -/

structure Throttle where
  name : String
  limit : Nat
  period : Nat
  block : HttpRequest → Option String

/-- The throttle `logins/ip`. -/
def loginsIp : Throttle where
  name := "logins/ip"
  limit := 5
  period := 60
  block req := if req.pathInfo = loginPath && req.isPost then some req.ip else none

/-- `path.match?(%r{\A/(vms|chat)(/|\z)})` -/
def matchesApi (path : List Char) : Bool :=
  ["/vms".toList, "/chat".toList].any fun start =>
    start.isPrefixOf path && (path.drop start.length).head?.all fun char => char = '/'

/-- The throttle `api/ip`. -/
def apiIp : Throttle where
  name := "api/ip"
  limit := 30
  period := 60
  block req := if matchesApi req.pathInfo then some req.ip else none

def throttles : List Throttle := [loginsIp, apiIp]

namespace Throttle

/-- What the requests of a client are counted under. -/
def key (throttle : Throttle) (time : Nat) (client : String) : Nat × String × String :=
  (time / throttle.period, throttle.name, client)

end Throttle

/-- The library that counts, as it is documented: it keeps one count for a window, a
throttle and a client, and one client is who has one discriminator after the
normalizer.  It asks the throttles in their order; a request that a block picks is
counted, and refused once the count is over the limit. -/
structure RackAttack where
  /-- What `Rack::Attack.cache.store` holds. -/
  Counters : Type
  read : Counters → Nat × String × String → Nat
  /-- `Rack::Attack.throttle_discriminator_normalizer` -/
  normalizer : String → String
  /-- The throttle that refuses the request, and the counts after it. -/
  throttled : Nat → HttpRequest → List Throttle → Counters → Option Throttle × Counters
  throttled_nil : ∀ time request counters, throttled time request [] counters = (none, counters)
  throttled_of_unpicked : ∀ time request throttle rest counters, throttle.block request = none →
    throttled time request (throttle :: rest) counters = throttled time request rest counters
  throttled_of_picked : ∀ time request throttle rest counters discriminator,
    throttle.block request = some discriminator →
    let key := throttle.key time (normalizer discriminator)
    ∃ counted, read counted = Function.update (read counters) key (read counters key + 1) ∧
      throttled time request (throttle :: rest) counters =
        if throttle.limit < read counted key then (some throttle, counted)
        else throttled time request rest counted

/-- The throttles with the counts as a function. -/
def firstExceeded (normalizer : String → String) (time : Nat) (request : HttpRequest) :
    List Throttle → (Nat × String × String → Nat) →
      Option Throttle × (Nat × String × String → Nat)
  | [], counts => (none, counts)
  | throttle :: rest, counts =>
      match throttle.block request with
      | none => firstExceeded normalizer time request rest counts
      | some discriminator =>
          let key := throttle.key time (normalizer discriminator)
          let counted := Function.update counts key (counts key + 1)
          if throttle.limit < counted key then (some throttle, counted)
          else firstExceeded normalizer time request rest counted

def fixedWindows (normalizer : String → String) : RackAttack where
  Counters := Nat × String × String → Nat
  read := id
  normalizer := normalizer
  throttled := firstExceeded normalizer
  throttled_nil _ _ _ := rfl
  throttled_of_unpicked time request throttle rest counts unpicked := by
    rw [firstExceeded, unpicked]
  throttled_of_picked time request throttle rest counts discriminator picked := by
    refine ⟨_, rfl, ?_⟩
    rw [firstExceeded, picked]
    rfl

/-- The client that the throttle counts the request for. -/
def Throttle.client (throttle : Throttle) (rackAttack : RackAttack) (request : HttpRequest) :
    Option String :=
  (throttle.block request).map rackAttack.normalizer

/-! ## The application behind them -/

/-- The route to `SessionsController#create`: the format of a request that it
matches. -/
def routeLogin (request : HttpRequest) : Option (Option (List Char)) :=
  if request.isPost then matchLogin (normalizePath request.pathInfo) else none

/-- A request, the clock in seconds, and the random text that a login draws. -/
structure Arrival where
  time : Nat
  request : HttpRequest
  raw : String
  deriving DecidableEq, Repr

structure Site (rackAttack : RackAttack) where
  counters : rackAttack.Counters
  store : Store
  /-- The address and the window of every call of `Setting#authenticate`. -/
  checks : List (String × Nat)

inductive Response where
  /-- `throttled_responder` -/
  | tooManyRequests (limit reset : Nat)
  | login (outcome : Except RubyError Reply)
  /-- The browser guard or the authenticity token stopped the request. -/
  | refused
  /-- Another route, or none. -/
  | elsewhere

section

variable {rackAttack : RackAttack}

/-- The route and the action behind it. -/
def dispatch (crypto : Crypto) (arrival : Arrival) (site : Site rackAttack) :
    Response × Site rackAttack :=
  let request := arrival.request.normalized
  match routeLogin request with
  | none => (.elsewhere, site)
  | some _ =>
      if request.verified then
        let (outcome, store) := login crypto (arrival.time * 1000000) request.username
          request.password arrival.raw request.remoteIp request.userAgent site.store
        (.login outcome, { site with
          store := store
          checks := site.checks ++ [(request.ip, arrival.time / loginsIp.period)] })
      else (.refused, site)

/-- The middleware in front of the application. -/
def serve (crypto : Crypto) (site : Site rackAttack) (arrival : Arrival) :
    Response × Site rackAttack :=
  match rackAttack.throttled arrival.time arrival.request.normalized throttles
      site.counters with
  | (some throttle, counters) =>
      (.tooManyRequests throttle.limit (throttle.period - arrival.time % throttle.period),
        { site with counters := counters })
  | (none, counters) => dispatch crypto arrival { site with counters := counters }

/-- The site after a sequence of requests. -/
def serveAll (crypto : Crypto) (arrivals : List Arrival) (site : Site rackAttack) :
    Site rackAttack :=
  arrivals.foldl (fun site arrival => (serve crypto site arrival).2) site

/-- No password has been checked yet. -/
def opening (counters : rackAttack.Counters) (store : Store) : Site rackAttack :=
  ⟨counters, store, []⟩

/-- The throttle picks every request that is dispatched to the login, under its
address, and no address has more than five passwords checked in a window. -/
structure RateLimited (arrivals : List Arrival) (after : Site rackAttack) : Prop where
  picks : ∀ arrival ∈ arrivals, (routeLogin arrival.request.normalized).isSome = true →
    loginsIp.block arrival.request.normalized = some arrival.request.ip
  bounded : ∀ ip window, after.checks.count (ip, window) ≤ 5

end

/-! ## The two recognisers -/

/-- The middleware's path is the router's. -/
theorem routeLogin_normalized (request : HttpRequest) :
    routeLogin request.normalized =
      if request.isPost then matchLogin (normalizePath request.pathInfo) else none := by
  rw [routeLogin, HttpRequest.normalized, normalizePath_normalizePath]
  rfl

/-- The throttle picks the requests that the route matches without a format. -/
theorem block_eq_some_iff (request : HttpRequest) :
    loginsIp.block request.normalized = some request.ip ↔
      routeLogin request.normalized = some none := by
  rw [routeLogin_normalized]
  have isPost : request.normalized.isPost = request.isPost := rfl
  have isIp : request.normalized.ip = request.ip := rfl
  simp only [loginsIp, isPost, isIp]
  cases request.isPost with
  | false => simp
  | true =>
      simp only [Bool.and_true, decide_eq_true_eq, ite_true, matchLogin_eq_none_iff]
      constructor
      · intro picked
        split_ifs at picked with same
        exact same
      · intro same
        exact if_pos same

/-! ## Counting -/

section Counting

variable {rackAttack : RackAttack} {time : Nat} {request : HttpRequest} {throttle : Throttle}
variable {counters counted : rackAttack.Counters}

theorem Throttle.client_eq_none (unpicked : throttle.block request = none) :
    throttle.client rackAttack request = none := by
  rw [client, unpicked]
  rfl

/-- A request with a client is counted for it, and refused if the limit was reached. -/
theorem RackAttack.throttled_of_client {client : String}
    (picked : throttle.client rackAttack request = some client) (time : Nat)
    (rest : List Throttle) (counters : rackAttack.Counters) :
    ∃ counted, rackAttack.read counted = Function.update (rackAttack.read counters)
        (throttle.key time client) (rackAttack.read counters (throttle.key time client) + 1) ∧
      rackAttack.throttled time request (throttle :: rest) counters =
        if throttle.limit ≤ rackAttack.read counters (throttle.key time client) then
          (some throttle, counted)
        else rackAttack.throttled time request rest counted := by
  rcases Option.map_eq_some_iff.mp picked with ⟨discriminator, isPicked, rfl⟩
  rcases rackAttack.throttled_of_picked time request throttle rest counters discriminator isPicked
    with ⟨counted, grown, result⟩
  refine ⟨counted, grown, ?_⟩
  rw [result, grown, Function.update_self]
  simp only [Nat.lt_add_one_iff]

/-- Counts only grow. -/
theorem le_throttled (time : Nat) (request : HttpRequest) (counters : rackAttack.Counters)
    (throttles : List Throttle) (key : Nat × String × String) :
    rackAttack.read counters key ≤
      rackAttack.read (rackAttack.throttled time request throttles counters).2 key := by
  induction throttles generalizing counters with
  | nil => rw [rackAttack.throttled_nil]
  | cons throttle rest ih =>
      cases picked : throttle.client rackAttack request with
      | none =>
          rw [rackAttack.throttled_of_unpicked _ _ _ _ _ (Option.map_eq_none_iff.mp picked)]
          exact ih counters
      | some client =>
          rcases rackAttack.throttled_of_client picked time rest counters with
            ⟨counted, grown, result⟩
          have more : rackAttack.read counters key ≤ rackAttack.read counted key := by
            rw [grown, Function.update_apply]
            split_ifs with same
            · rw [same]
              exact Nat.le_succ _
            · exact Nat.le_refl _
          rw [result]
          split_ifs
          · exact more
          · exact Nat.le_trans more (ih counted)

/-- A request that the login throttle picks and that passes was counted, within
the limit. -/
theorem counted_of_passed {client : String}
    (picked : loginsIp.client rackAttack request = some client)
    (passed : rackAttack.throttled time request throttles counters = (none, counted)) :
    rackAttack.read counters (loginsIp.key time client) <
        rackAttack.read counted (loginsIp.key time client) ∧
      rackAttack.read counters (loginsIp.key time client) < 5 := by
  rcases rackAttack.throttled_of_client picked time [apiIp] counters with ⟨middle, grown, result⟩
  rw [throttles, result] at passed
  split_ifs at passed with reached
  · cases congrArg Prod.fst passed
  · have further := le_throttled time request middle [apiIp] (loginsIp.key time client)
    rw [passed, grown, Function.update_self] at further
    exact ⟨further, Nat.lt_of_not_le reached⟩

end Counting

/-! ## Sequences of requests -/

section

variable {rackAttack : RackAttack}

/-- Every check of a password is covered by a count, and they are at most five. -/
def Covered (site : Site rackAttack) : Prop :=
  ∀ ip window,
    site.checks.count (ip, window) ≤
        rackAttack.read site.counters (window, loginsIp.name, rackAttack.normalizer ip) ∧
      site.checks.count (ip, window) ≤ 5

theorem covered_opening (counters : rackAttack.Counters) (store : Store) :
    Covered (opening counters store) := by
  intro ip window
  simp [opening]

/-- What a dispatch does: nothing, or one check for the address of the request. -/
theorem dispatch_cases (crypto : Crypto) (arrival : Arrival) (site : Site rackAttack) :
    ((dispatch crypto arrival site).2 = site) ∨
      ((routeLogin arrival.request.normalized).isSome = true ∧
        ∃ store, (dispatch crypto arrival site).2 = { site with
          store := store
          checks := site.checks ++ [(arrival.request.ip, arrival.time / loginsIp.period)] }) := by
  cases routed : routeLogin arrival.request.normalized with
  | none =>
      left
      simp only [dispatch, routed]
  | some format =>
      simp only [dispatch, routed]
      split_ifs
      · exact Or.inr ⟨rfl, _, rfl⟩
      · exact Or.inl rfl

/-- A request that is dispatched only where the throttle picks it keeps the
checks covered. -/
theorem Covered.serve {site : Site rackAttack} (covered : Covered site) (crypto : Crypto)
    {arrival : Arrival} (picks : (routeLogin arrival.request.normalized).isSome = true →
      loginsIp.block arrival.request.normalized = some arrival.request.ip) :
    Covered (serve crypto site arrival).2 := by
  have grown := le_throttled arrival.time arrival.request.normalized site.counters throttles
  unfold Web.serve
  split
  case h_1 throttle counted refused =>
    intro ip window
    have more := grown (window, loginsIp.name, rackAttack.normalizer ip)
    rw [refused] at more
    exact ⟨Nat.le_trans (covered ip window).1 more, (covered ip window).2⟩
  case h_2 counted passed =>
    have more : ∀ ip window,
        rackAttack.read site.counters (window, loginsIp.name, rackAttack.normalizer ip) ≤
          rackAttack.read counted (window, loginsIp.name, rackAttack.normalizer ip) := by
      intro ip window
      have here := grown (window, loginsIp.name, rackAttack.normalizer ip)
      rw [passed] at here
      exact here
    rcases dispatch_cases crypto arrival { site with counters := counted } with
      same | ⟨routed, store, checked⟩
    · rw [same]
      intro ip window
      exact ⟨Nat.le_trans (covered ip window).1 (more ip window), (covered ip window).2⟩
    · rw [checked]
      have isClient : loginsIp.client rackAttack arrival.request.normalized =
          some (rackAttack.normalizer arrival.request.ip) := by
        rw [Throttle.client, picks routed]
        rfl
      rcases counted_of_passed isClient passed with ⟨within, below⟩
      intro ip window
      rw [List.count_append]
      by_cases here : (ip, window) = (arrival.request.ip, arrival.time / loginsIp.period)
      · cases here
        have before := (covered arrival.request.ip (arrival.time / loginsIp.period)).1
        rw [List.count_singleton_self]
        exact ⟨Nat.succ_le_of_lt (Nat.lt_of_le_of_lt before within),
          Nat.succ_le_of_lt (Nat.lt_of_le_of_lt before below)⟩
      · rw [List.count_eq_zero_of_not_mem fun listed => here (List.mem_singleton.mp listed)]
        exact ⟨Nat.le_trans (covered ip window).1 (more ip window), (covered ip window).2⟩

theorem Covered.serveAll {site : Site rackAttack} (covered : Covered site) (crypto : Crypto)
    {arrivals : List Arrival}
    (picks : ∀ arrival ∈ arrivals, (routeLogin arrival.request.normalized).isSome = true →
      loginsIp.block arrival.request.normalized = some arrival.request.ip) :
    Covered (serveAll crypto arrivals site) := by
  induction arrivals generalizing site with
  | nil => exact covered
  | cons arrival rest ih =>
      exact ih (covered.serve crypto (picks arrival List.mem_cons_self))
        fun other member => picks other (List.mem_cons_of_mem _ member)

/-- Logins are rate limited along a sequence of requests precisely if none of
those that the route matches has a format. -/
theorem rateLimited_iff (crypto : Crypto) (counters : rackAttack.Counters) (store : Store)
    (arrivals : List Arrival) :
    RateLimited arrivals (serveAll crypto arrivals (opening counters store)) ↔
      ∀ arrival ∈ arrivals, ∀ format ∈ routeLogin arrival.request.normalized, format = none := by
  constructor
  · intro limited arrival member format routed
    have picked := limited.picks arrival member (by rw [Option.mem_def.mp routed]; rfl)
    rw [block_eq_some_iff, Option.mem_def.mp routed] at picked
    exact Option.some.inj picked
  · intro noFormat
    have picks : ∀ arrival ∈ arrivals,
        (routeLogin arrival.request.normalized).isSome = true →
          loginsIp.block arrival.request.normalized = some arrival.request.ip := by
      intro arrival member routed
      rcases Option.isSome_iff_exists.mp routed with ⟨format, isFormat⟩
      rw [block_eq_some_iff, isFormat, noFormat arrival member format isFormat]
    exact ⟨picks, fun ip window =>
      ((covered_opening counters store).serveAll crypto picks ip window).2⟩

end

/-! ## Logins with a format -/

/-- A login as JSON from one address. -/
def jsonLogin : Arrival where
  time := 0
  request := ⟨"POST", "/login.json".toList, "10.0.0.1", none, none, true, "admin", "guess"⟩
  raw := ""

/-- Nothing has been counted yet. -/
def noneCounted : (fixedWindows id).Counters := fun _ => (0 : Nat)

/-- Six of them in one window are all dispatched, and check six passwords. -/
theorem jsonLogins_not_rateLimited :
    ¬ RateLimited (List.replicate 6 jsonLogin)
        (serveAll ⟨id, id, fun _ _ => false⟩ (List.replicate 6 jsonLogin)
          (opening noneCounted Store.empty)) ∧
      (serveAll ⟨id, id, fun _ _ => false⟩ (List.replicate 6 jsonLogin)
        (opening noneCounted Store.empty)).checks.count ("10.0.0.1", 0) = 6 := by
  have six : (serveAll ⟨id, id, fun _ _ => false⟩ (List.replicate 6 jsonLogin)
      (opening noneCounted Store.empty)).checks.count ("10.0.0.1", 0) = 6 := by
    decide
  refine ⟨fun limited => ?_, six⟩
  have bounded := limited.bounded "10.0.0.1" 0
  rw [six] at bounded
  exact absurd bounded (by decide)

end MultipassWebui.Web
