import Mathlib.Data.List.Nodup
import MultipassWebui.Effect.Core
import MultipassWebui.Effect.RubyError
import MultipassWebui.Text.Strings

/-!
# Login sessions and API tokens

The two kinds of credential, the tables behind them, and the operations of
their models.  Both are stored as digests of the token that the client holds.
The digest and the password functions are parameters, and random tokens are
arguments of the operations that draw them.
-/

namespace MultipassWebui.Auth

open MultipassWebui.Effect
open MultipassWebui.Text

/-- The cryptographic functions the models call. -/
structure Crypto where
  /-- `Digest::SHA256.hexdigest` -/
  hexdigest : String → String
  /-- The digest that `has_secure_password` stores for a password. -/
  passwordDigest : String → String
  /-- `BCrypt::Password.new(digest).is_password?(password)` -/
  isPassword : String → String → Bool

/-- A row of `sessions`. -/
structure Session where
  id : Nat
  tokenHash : String
  expiresAt : Int
  ipAddress : Option String
  userAgent : Option String
  deriving DecidableEq, Repr

/-- A row of `api_tokens`. -/
structure ApiToken where
  idSlug : String
  name : String
  tokenPrefix : String
  sha256Digest : String
  deriving DecidableEq, Repr

/-- A row of `settings`, as far as signing in reads it. -/
structure Setting where
  username : String
  passwordDigest : String
  deriving DecidableEq, Repr

/-- The tables, in the order of insertion, with the unique indexes that
authentication rests on. -/
structure Store where
  sessions : List Session
  sessionSequence : Nat
  apiTokens : List ApiToken
  settings : List Setting
  uniqueHashes : (sessions.map Session.tokenHash).Nodup
  uniqueDigests : (apiTokens.map ApiToken.sha256Digest).Nodup

namespace Store

def empty : Store := ⟨[], 0, [], [], List.nodup_nil, List.nodup_nil⟩

/-- Delete the sessions that do not satisfy a condition. -/
def keepSessions (kept : Session → Bool) (store : Store) : Store :=
  { store with
    sessions := store.sessions.filter kept
    uniqueHashes := store.uniqueHashes.sublist (List.filter_sublist.map _) }

/-- Delete the API tokens that do not satisfy a condition. -/
def keepApiTokens (kept : ApiToken → Bool) (store : Store) : Store :=
  { store with
    apiTokens := store.apiTokens.filter kept
    uniqueDigests := store.uniqueDigests.sublist (List.filter_sublist.map _) }

end Store

theorem nodup_map_concat {α β : Type} [DecidableEq β] {key : α → β} {rows : List α} {row : α}
    (nodup : (rows.map key).Nodup) (fresh : key row ∉ rows.map key) :
    ((rows ++ [row]).map key).Nodup := by
  have extended := List.Nodup.concat fresh nodup
  rw [List.concat_eq_append] at extended
  rw [List.map_append]
  exact extended

/-! ## Sessions -/

namespace Session

def TTL_HOURS : Int := 24

/-- `TTL_HOURS.hours.from_now` -/
def expiry (now : Int) : Int := now + TTL_HOURS * (60 * 60 * 1000000)

/-- `create!`, which the unique index on `token_hash` can refuse. -/
def create (tokenHash : String) (expiresAt : Int) (ipAddress userAgent : Option String) :
    Exec Store RubyError PUnit := fun store =>
  if taken : tokenHash ∈ store.sessions.map Session.tokenHash then
    (.error (.recordNotUnique "index_sessions_on_token_hash"), store)
  else
    (.ok ⟨⟩, { store with
      sessions := store.sessions ++
        [⟨store.sessionSequence, tokenHash, expiresAt, ipAddress, userAgent⟩]
      sessionSequence := store.sessionSequence + 1
      uniqueHashes := nodup_map_concat store.uniqueHashes taken })

/-- `destroy` -/
def destroy (session : Session) : Exec Store RubyError PUnit :=
  Exec.modify (Store.keepSessions fun row => row.id ≠ session.id)

/-- `expires_at.future?` -/
def future (now : Int) (session : Session) : Bool := now < session.expiresAt

/-- `reap!` -/
def reap (now : Int) (session : Session) : Exec Store RubyError (Option Session) := do
  if !session.future now then session.destroy
  return none

section

variable (crypto : Crypto) (now : Int)

/-- `hash_token` -/
def hashToken (raw : String) : String := crypto.hexdigest raw

/-- `issue!`; the raw token is drawn at random. -/
def issue (raw : String) (ipAddress userAgent : Option String) : Exec Store RubyError String := do
  create (hashToken crypto raw) (expiry now) ipAddress userAgent
  return raw

/-- `find_by(token_hash:)` -/
def findByHash (tokenHash : String) (store : Store) : Option Session :=
  store.sessions.find? fun session => session.tokenHash = tokenHash

/-- `find_valid` -/
def findValid (rawToken : Option String) : Exec Store RubyError (Option Session) :=
  match rawToken with
  | none => pure none
  | some raw =>
      if blank raw then pure none
      else do
        match ← Exec.gets (findByHash (hashToken crypto raw)) with
        | none => pure none
        | some session => if session.future now then pure (some session) else session.reap now

end

/-- `SweepSessionsJob#perform` -/
def sweep (now : Int) : Exec Store RubyError PUnit :=
  Exec.modify (Store.keepSessions fun session => !(session.expiresAt < now : Bool))

end Session

/-! ## API tokens -/

namespace ApiToken

def TOKEN_PREFIX : String := "pgo_"

/-- `[0, 12]` -/
def leading (raw : String) : String := String.ofList (raw.toList.take 12)

/-- The validations of a new token. -/
def valid (store : Store) (token : ApiToken) : Bool :=
  !blank token.idSlug && store.apiTokens.all (fun row => row.idSlug ≠ token.idSlug) &&
    !blank token.name && store.apiTokens.all (fun row => row.name ≠ token.name) &&
    token.name.length ≤ 64 && !blank token.tokenPrefix && !blank token.sha256Digest

/-- `create!` -/
def create (token : ApiToken) : Exec Store RubyError PUnit := fun store =>
  if taken : token.sha256Digest ∈ store.apiTokens.map ApiToken.sha256Digest then
    (.error .recordInvalid, store)
  else if token.valid store then
    (.ok ⟨⟩, { store with
      apiTokens := store.apiTokens ++ [token]
      uniqueDigests := nodup_map_concat store.uniqueDigests taken })
  else (.error .recordInvalid, store)

/-- What `raise ActiveRecord::RecordInvalid, message` raises: the exception
class asks its argument for the errors of a record. -/
def invalidMessage : RubyError := .noMethodError "errors"

/-- `issue!`; the two texts of hexadecimal digits are drawn at random. -/
def issue (crypto : Crypto) (name slugHex tokenHex : String) : Exec Store RubyError String :=
  if blank name then Exec.raise invalidMessage
  else do
    let rawToken := TOKEN_PREFIX ++ tokenHex
    create ⟨"tok_" ++ slugHex, name, leading rawToken, crypto.hexdigest rawToken⟩
    return rawToken

/-- `find(id)`, then `destroy`. -/
def revoke (idSlug : String) : Exec Store RubyError ApiToken := do
  match ← Exec.gets fun store => store.apiTokens.find? fun token => token.idSlug = idSlug with
  | none => Exec.raise .recordNotFound
  | some token => do
      Exec.modify (Store.keepApiTokens fun row => row.idSlug ≠ token.idSlug)
      return token

/-- `OpenSSL.fixed_length_secure_compare`, which raises on unequal lengths. -/
def fixedLengthSecureCompare (first second : String) : Except RubyError Bool :=
  if first.utf8ByteSize = second.utf8ByteSize then .ok (first = second)
  else .error (.argumentError "inputs must be of equal length")

/-- The loop of `find_by_raw_token`: a comparison that raises passes on to the
next row.  Digests are unique, so the order of the rows plays no part. -/
def compareEach (computedHash : String) : List ApiToken → Option ApiToken
  | [] => none
  | token :: rest =>
      match fixedLengthSecureCompare token.sha256Digest computedHash with
      | .ok true => some token
      | _ => compareEach computedHash rest

/-- `find_by_raw_token` -/
def findByRawToken (crypto : Crypto) (rawToken : String) (store : Store) : Option ApiToken :=
  if blank rawToken then none
  else if TOKEN_PREFIX.toList.isPrefixOf rawToken.toList then
    compareEach (crypto.hexdigest rawToken) store.apiTokens
  else none

/-- The loop finds a row precisely if one has the digest. -/
theorem isSome_compareEach (computedHash : String) (tokens : List ApiToken) :
    (compareEach computedHash tokens).isSome = true ↔
      ∃ token ∈ tokens, token.sha256Digest = computedHash := by
  induction tokens with
  | nil => simp [compareEach]
  | cons token rest ih =>
      unfold compareEach fixedLengthSecureCompare
      by_cases equal : token.sha256Digest = computedHash
      · simp [equal]
      · by_cases sameLength : token.sha256Digest.utf8ByteSize = computedHash.utf8ByteSize
        · simp [equal, sameLength, ih]
        · simp [equal, sameLength, ih]

end ApiToken

/-! ## Settings -/

namespace Setting

/-- `Setting.current`: the first row, which is created if there is none. -/
def current (crypto : Crypto) : Exec Store RubyError Setting := do
  match ← Exec.gets fun store => store.settings.head? with
  | some setting => pure setting
  | none => do
      let setting : Setting := ⟨"admin", crypto.passwordDigest "admin"⟩
      Exec.modify fun store => { store with settings := store.settings ++ [setting] }
      return setting

theorem current_of_head {crypto : Crypto} {store : Store} {setting : Setting}
    (found : store.settings.head? = some setting) :
    current crypto store = (.ok setting, store) := by
  rw [current, Exec.bind_ok (Exec.gets_apply _ _), found]
  rfl

/-- `authenticate` -/
def authenticate (crypto : Crypto) (setting : Setting) (password : String) : Bool :=
  !blank setting.passwordDigest && crypto.isPassword setting.passwordDigest password

end Setting

end MultipassWebui.Auth
