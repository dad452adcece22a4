import MultipassWebui.Auth.Credentials
import MultipassWebui.Records.Rows

/-!
# Requests and their credentials

`ApplicationController` decides whether a request is logged in, and the session
and token controllers issue and withdraw the credentials.  What the decision
comes to is stated apart from the code: a request is authentic if its cookie
belongs to a session that has not expired or its header to an API token that
exists.  The audit rows that the controllers write are not part of the model.
-/

namespace MultipassWebui.Auth

open MultipassWebui.Effect
open MultipassWebui.Text

/-- What a request carries.  The cookie is what is left of it once the
signature was checked. -/
structure Headers where
  /-- `cookies.signed[:session_token]` -/
  sessionToken : Option String
  /-- `request.authorization` -/
  authorization : Option String
  origin : Option String
  deriving DecidableEq, Repr

/-- `sub(/\ABearer\s+/, "")` -/
def bearer (authorization : String) : String :=
  match authorization.toList with
  | 'B' :: 'e' :: 'a' :: 'r' :: 'e' :: 'r' :: char :: rest =>
      if isWhite char then String.ofList (rest.dropWhile isWhite) else authorization
  | _ => authorization

/-! ## Authentication -/

section

variable (crypto : Crypto) (now : Int) (headers : Headers)

/-- `current_session` -/
def currentSession : Exec Store RubyError (Option Session) :=
  Session.findValid crypto now headers.sessionToken

/-- `valid_api_token?` -/
def validApiToken (store : Store) : Bool :=
  match headers.authorization with
  | none => false
  | some authorization =>
      if blank authorization then false
      else (ApiToken.findByRawToken crypto (bearer authorization) store).isSome

/-- `logged_in?` -/
def loggedIn : Exec Store RubyError Bool := do
  if (← currentSession crypto now headers).isSome then return true
  else Exec.gets (validApiToken crypto headers)

/-- A session of the table has the digest of the cookie and has not expired. -/
def ValidSession (store : Store) : Prop :=
  ∃ raw ∈ headers.sessionToken, blank raw = false ∧
    ∃ session ∈ store.sessions, session.tokenHash = crypto.hexdigest raw ∧ now < session.expiresAt

/-- A token of the table has the digest of the bearer token. -/
def LiveApiToken (store : Store) : Prop :=
  ∃ authorization ∈ headers.authorization, blank authorization = false ∧
    blank (bearer authorization) = false ∧
    ApiToken.TOKEN_PREFIX.toList.isPrefixOf (bearer authorization).toList = true ∧
    ∃ token ∈ store.apiTokens, token.sha256Digest = crypto.hexdigest (bearer authorization)

/-- The request carries a valid session cookie or a live API token. -/
def Authentic (store : Store) : Prop :=
  ValidSession crypto now headers store ∨ LiveApiToken crypto headers store

instance (store : Store) : Decidable (ValidSession crypto now headers store) :=
  inferInstanceAs (Decidable (∃ raw ∈ headers.sessionToken, _))

instance (store : Store) : Decidable (LiveApiToken crypto headers store) :=
  inferInstanceAs (Decidable (∃ authorization ∈ headers.authorization, _))

instance (store : Store) : Decidable (Authentic crypto now headers store) :=
  inferInstanceAs (Decidable (_ ∨ _))

end

section

variable {crypto : Crypto} {now : Int} {headers : Headers} {store : Store}

theorem validApiToken_iff :
    validApiToken crypto headers store = true ↔ LiveApiToken crypto headers store := by
  unfold validApiToken LiveApiToken ApiToken.findByRawToken
  cases headers.authorization with
  | none => simp
  | some authorization =>
      simp only [Option.mem_some_iff, exists_eq_left']
      cases blank authorization with
      | true => simp
      | false =>
          cases blank (bearer authorization) with
          | true => simp
          | false =>
              rw [if_neg Bool.false_ne_true, if_neg Bool.false_ne_true]
              split_ifs with leads
              · simp only [leads, true_and, ApiToken.isSome_compareEach]
              · simp only [leads, false_and, and_false, Option.isSome_none, Bool.false_eq_true]

/-- The unique index makes the row that a digest finds the only one. -/
theorem findByHash_eq_some {session : Session} (member : session ∈ store.sessions) :
    Session.findByHash session.tokenHash store = some session := by
  have distinct : store.sessions.Pairwise fun first second => first.tokenHash ≠ second.tokenHash :=
    List.pairwise_map.mp store.uniqueHashes
  exact Records.Rows.find?_key_eq_some distinct member

/-- A cookie that is valid finds its session and leaves the table alone. -/
theorem currentSession_of_valid (valid : ValidSession crypto now headers store) :
    ∃ session, currentSession crypto now headers store = (.ok (some session), store) := by
  rcases valid with ⟨raw, carried, notBlank, session, member, equal, future⟩
  refine ⟨session, ?_⟩
  have found : Session.findByHash (Session.hashToken crypto raw) store = some session := by
    rw [Session.hashToken, ← equal]
    exact findByHash_eq_some member
  rw [currentSession, Option.mem_def.mp carried, Session.findValid, notBlank,
    if_neg Bool.false_ne_true, Exec.bind_ok (Exec.gets_apply _ _), found]
  simp [Session.future, future]

/-- A cookie that is not valid finds nothing, and takes at most its expired session away. -/
theorem currentSession_of_not_valid (invalid : ¬ ValidSession crypto now headers store) :
    ∃ after, currentSession crypto now headers store = (.ok none, after) ∧
      after.apiTokens = store.apiTokens := by
  unfold currentSession
  cases carried : headers.sessionToken with
  | none => exact ⟨store, rfl, rfl⟩
  | some raw =>
      cases isBlank : blank raw with
      | true =>
          refine ⟨store, ?_, rfl⟩
          rw [Session.findValid, isBlank]
          rfl
      | false =>
          rw [Session.findValid, isBlank, if_neg Bool.false_ne_true,
            Exec.bind_ok (Exec.gets_apply _ _)]
          cases found : Session.findByHash (Session.hashToken crypto raw) store with
          | none => exact ⟨store, rfl, rfl⟩
          | some session =>
              have equal : session.tokenHash = crypto.hexdigest raw := by
                have selected := List.find?_some found
                exact of_decide_eq_true selected
              have expired : session.future now = false := by
                rw [Session.future, decide_eq_false_iff_not]
                intro future
                exact invalid ⟨raw, carried, isBlank, session, List.mem_of_find?_eq_some found,
                  equal, future⟩
              refine ⟨store.keepSessions fun row => row.id ≠ session.id, ?_, rfl⟩
              simp only [expired, Session.reap]
              rfl

theorem loggedIn_of_authentic (authentic : Authentic crypto now headers store) :
    ∃ after, loggedIn crypto now headers store = (.ok true, after) := by
  by_cases valid : ValidSession crypto now headers store
  · rcases currentSession_of_valid valid with ⟨session, found⟩
    refine ⟨store, ?_⟩
    rw [loggedIn, Exec.bind_ok found]
    rfl
  · rcases currentSession_of_not_valid valid with ⟨after, found, sameTokens⟩
    have live : LiveApiToken crypto headers after := by
      rw [LiveApiToken, sameTokens]
      exact authentic.resolve_left valid
    refine ⟨after, ?_⟩
    rw [loggedIn, Exec.bind_ok found, Option.isSome_none, if_neg Bool.false_ne_true,
      Exec.gets_apply, validApiToken_iff.mpr live]

theorem loggedIn_of_not_authentic (notAuthentic : ¬ Authentic crypto now headers store) :
    ∃ after, loggedIn crypto now headers store = (.ok false, after) := by
  have invalid : ¬ ValidSession crypto now headers store :=
    fun valid => notAuthentic (Or.inl valid)
  rcases currentSession_of_not_valid invalid with ⟨after, found, sameTokens⟩
  have notLive : validApiToken crypto headers after = false := by
    rw [Bool.eq_false_iff, Ne, validApiToken_iff, LiveApiToken, sameTokens]
    exact fun live => notAuthentic (Or.inr live)
  refine ⟨after, ?_⟩
  rw [loggedIn, Exec.bind_ok found, Option.isSome_none, if_neg Bool.false_ne_true,
    Exec.gets_apply, notLive]

/-- The code lets in precisely the authentic requests. -/
theorem loggedIn_iff :
    (loggedIn crypto now headers store).1 = .ok true ↔ Authentic crypto now headers store := by
  constructor
  · intro letIn
    by_contra notAuthentic
    rcases loggedIn_of_not_authentic notAuthentic with ⟨after, refused⟩
    rw [refused] at letIn
    cases letIn
  · intro authentic
    rcases loggedIn_of_authentic authentic with ⟨after, letIn⟩
    rw [letIn]

end

/-! ## The session and token controllers -/

/-- What a request is answered with. -/
inductive Reply where
  | authenticationRequired
  | signedIn (sessionToken : String)
  | invalidLogin
  | signedOut
  | tokenCreated (rawToken : String)
  | tokenRefused
  | tokenRevoked (name : String)
  | terminal (sessionId : String)
  | terminalKilled
  | redirect
  | badRequest
  | notFound
  | conflict (state : String)
  | internalServerError
  deriving DecidableEq, Repr

/-- `SessionsController#create`; the password and the user name are texts. -/
def login (crypto : Crypto) (now : Int) (username password raw : String)
    (ipAddress userAgent : Option String) : Exec Store RubyError Reply := do
  let setting ← Setting.current crypto
  if setting.authenticate crypto password && setting.username = username then do
    let rawToken ← Session.issue crypto now raw ipAddress userAgent
    return .signedIn rawToken
  else return .invalidLogin

/-- `SessionsController#destroy` -/
def logout (crypto : Crypto) (now : Int) (headers : Headers) : Exec Store RubyError Reply := do
  match ← currentSession crypto now headers with
  | some session => do
      session.destroy
      return .signedOut
  | none => return .signedOut

/-- `ApiTokensController#create` -/
def createToken (crypto : Crypto) (name slugHex tokenHex : String) : Exec Store RubyError Reply :=
  Exec.rescue
    (if blank name then Exec.raise ApiToken.invalidMessage
    else do
      let raw ← ApiToken.issue crypto name slugHex tokenHex
      return .tokenCreated raw)
    fun error => if error.isRecordInvalid then some (pure .tokenRefused) else none

/-- `ApiTokensController#destroy` -/
def destroyToken (idSlug : String) : Exec Store RubyError Reply := do
  let token ← ApiToken.revoke idSlug
  return .tokenRevoked token.name

end MultipassWebui.Auth
