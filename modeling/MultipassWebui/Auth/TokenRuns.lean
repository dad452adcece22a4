import MultipassWebui.Auth.Credentials
import MultipassWebui.Records.Rows

/-!
# API tokens over runs

Tokens are issued, imported from the configuration of the Go version, and
revoked.  The scan that compares digests in constant time finds what the
indexed lookup finds, whatever digests were imported.  A revoked token stays
refused until its digest is brought in again, which another import can do.
-/

namespace MultipassWebui.Auth

open MultipassWebui.Effect
open MultipassWebui.Text

namespace ApiToken

/-- `find_or_create_by!(id_slug:)` for an entry of the configuration; an absent
value is the empty text, which the validations do not tell apart. -/
def findOrCreate (token : ApiToken) : Exec Store RubyError PUnit := do
  match ← Exec.gets fun store => store.apiTokens.find? fun row => row.idSlug = token.idSlug with
  | some _ => pure ⟨⟩
  | none => create token

/-- The loop over `cfg["api_tokens"]`. -/
def importEach : List ApiToken → Exec Store RubyError PUnit
  | [] => pure ⟨⟩
  | token :: rest => do
      findOrCreate token
      importEach rest

/-- The import of the API tokens; whether another part of the transaction
fails is left open. -/
def importTokens (tokens : List ApiToken) (failure : Option RubyError) :
    Exec Store RubyError PUnit :=
  Exec.transaction do
    importEach tokens
    match failure with
    | some raised => Exec.raise raised
    | none => pure ⟨⟩

/-- The lookup that the index on `sha256_digest` would make. -/
def findByDigest (digest : String) (store : Store) : Option ApiToken :=
  store.apiTokens.find? fun token => token.sha256Digest = digest

/-! ## The scan and the index -/

/-- A row that cannot be compared is passed over like one that differs. -/
theorem compareEach_eq_find? (computedHash : String) (tokens : List ApiToken) :
    compareEach computedHash tokens =
      tokens.find? fun token => token.sha256Digest = computedHash := by
  induction tokens with
  | nil => rfl
  | cons token rest ih =>
      unfold compareEach fixedLengthSecureCompare
      by_cases equal : token.sha256Digest = computedHash
      · simp [equal]
      · by_cases sameLength : token.sha256Digest.utf8ByteSize = computedHash.utf8ByteSize
        · simp [equal, sameLength, ih]
        · simp [equal, sameLength, ih]

/-- A text with the prefix of the tokens is not blank. -/
theorem blank_of_prefix {raw : String}
    (leads : TOKEN_PREFIX.toList.isPrefixOf raw.toList = true) : blank raw = false := by
  rw [List.isPrefixOf_iff_prefix] at leads
  rcases leads with ⟨rest, shape⟩
  rw [blank, ← shape]
  rfl

theorem findByRawToken_eq (crypto : Crypto) (raw : String) (store : Store) :
    findByRawToken crypto raw store =
      if TOKEN_PREFIX.toList.isPrefixOf raw.toList then findByDigest (crypto.hexdigest raw) store
      else none := by
  unfold findByRawToken
  split_ifs with isBlank leads
  · rw [ blank_of_prefix leads] at isBlank
    cases isBlank
  · rfl
  · exact compareEach_eq_find? _ _
  · rfl

/-- The index finds the row with the digest, which is the only one. -/
theorem findByDigest_iff {digest : String} {store : Store} {token : ApiToken} :
    findByDigest digest store = some token ↔
      token ∈ store.apiTokens ∧ token.sha256Digest = digest := by
  constructor
  · intro found
    have selected := List.find?_some found
    exact ⟨List.mem_of_find?_eq_some found, of_decide_eq_true selected⟩
  · rintro ⟨member, rfl⟩
    have distinct : store.apiTokens.Pairwise fun first second =>
        first.sha256Digest ≠ second.sha256Digest := List.pairwise_map.mp store.uniqueDigests
    exact Records.Rows.find?_key_eq_some distinct member

theorem findByRawToken_iff {crypto : Crypto} {raw : String} {store : Store} {token : ApiToken} :
    findByRawToken crypto raw store = some token ↔
      TOKEN_PREFIX.toList.isPrefixOf raw.toList = true ∧
        token ∈ store.apiTokens ∧ token.sha256Digest = crypto.hexdigest raw := by
  rw [findByRawToken_eq]
  split_ifs with leads
  · rw [findByDigest_iff, and_iff_right leads]
  · simp [leads]

end ApiToken

/-! ## Runs -/

/-- The calls that concern the table of API tokens.  The texts of hexadecimal
digits are those that `issue` draws. -/
inductive TokenCall where
  | issue (name slugHex tokenHex : String)
  | importTokens (tokens : List ApiToken) (failure : Option RubyError)
  /-- `ApiTokensController#destroy` -/
  | revoke (idSlug : String)
  deriving DecidableEq, Repr

namespace TokenCall

/-- The store after a call. -/
def perform (crypto : Crypto) (store : Store) : TokenCall → Store
  | issue name slugHex tokenHex => (ApiToken.issue crypto name slugHex tokenHex store).2
  | importTokens tokens failure => (ApiToken.importTokens tokens failure store).2
  | revoke idSlug => (ApiToken.revoke idSlug store).2

/-- The call draws the token, or imports a row with its digest. -/
def BringsBack (crypto : Crypto) (raw : String) : TokenCall → Prop
  | issue _ _ tokenHex => ApiToken.TOKEN_PREFIX ++ tokenHex = raw
  | importTokens tokens _ => ∃ token ∈ tokens, token.sha256Digest = crypto.hexdigest raw
  | revoke _ => False

/-- The digests that a call can add to the table. -/
def Brings (crypto : Crypto) (digest : String) : TokenCall → Prop
  | issue _ _ tokenHex => digest = crypto.hexdigest (ApiToken.TOKEN_PREFIX ++ tokenHex)
  | importTokens tokens _ => ∃ token ∈ tokens, token.sha256Digest = digest
  | revoke _ => False

end TokenCall

/-- The store after a list of calls. -/
def tokensAfter (crypto : Crypto) (store : Store) (calls : List TokenCall) : Store :=
  calls.foldl (TokenCall.perform crypto) store

namespace ApiToken

/-- `create!` adds the row or nothing. -/
theorem mem_create {token row : ApiToken} {store : Store}
    (member : row ∈ (create token store).2.apiTokens) : row ∈ store.apiTokens ∨ row = token := by
  unfold create at member
  split_ifs at member with taken valid
  · exact Or.inl member
  · rcases List.mem_append.mp member with old | new
    · exact Or.inl old
    · exact Or.inr (List.mem_singleton.mp new)
  · exact Or.inl member

theorem mem_findOrCreate {token row : ApiToken} {store : Store}
    (member : row ∈ (findOrCreate token store).2.apiTokens) :
    row ∈ store.apiTokens ∨ row = token := by
  rw [findOrCreate, Exec.bind_ok (Exec.gets_apply _ _)] at member
  cases found : store.apiTokens.find? fun row => row.idSlug = token.idSlug with
  | some _ =>
      rw [found] at member
      exact Or.inl member
  | none =>
      rw [found] at member
      exact mem_create member

theorem mem_importEach {tokens : List ApiToken} {row : ApiToken} {store : Store}
    (member : row ∈ (importEach tokens store).2.apiTokens) :
    row ∈ store.apiTokens ∨ row ∈ tokens := by
  induction tokens generalizing store with
  | nil => exact Or.inl member
  | cons token rest ih =>
      have first : ∀ {other}, other ∈ (findOrCreate token store).2.apiTokens →
          other ∈ store.apiTokens ∨ other ∈ token :: rest := by
        intro other otherMem
        rcases mem_findOrCreate otherMem with old | rfl
        · exact Or.inl old
        · exact Or.inr List.mem_cons_self
      rw [importEach, Exec.bind_apply] at member
      rcases ran : findOrCreate token store with ⟨outcome, middle⟩
      rw [ran] at member first
      cases outcome with
      | error raised => exact first member
      | ok _ =>
          rcases ih member with old | imported
          · exact first old
          · exact Or.inr (List.mem_cons_of_mem _ imported)

theorem mem_importTokens {tokens : List ApiToken} {failure : Option RubyError} {row : ApiToken}
    {store : Store} (member : row ∈ (importTokens tokens failure store).2.apiTokens) :
    row ∈ store.apiTokens ∨ row ∈ tokens := by
  unfold importTokens at member
  rcases Exec.transaction_state _ store with done | undone
  · rw [done, Exec.bind_apply] at member
    rcases ran : importEach tokens store with ⟨outcome, middle⟩
    have imported : row ∈ middle.apiTokens → row ∈ store.apiTokens ∨ row ∈ tokens := by
      intro middleMem
      apply mem_importEach
      rw [ran]
      exact middleMem
    rw [ran] at member
    cases outcome with
    | error raised => exact imported member
    | ok _ =>
        cases failure with
        | none => exact imported member
        | some raised => exact imported member
  · rw [undone] at member
    exact Or.inl member

theorem mem_issue {crypto : Crypto} {name slugHex tokenHex : String} {row : ApiToken}
    {store : Store} (member : row ∈ (issue crypto name slugHex tokenHex store).2.apiTokens) :
    row ∈ store.apiTokens ∨ row.sha256Digest = crypto.hexdigest (TOKEN_PREFIX ++ tokenHex) := by
  unfold issue at member
  split_ifs at member with unnamed
  · exact Or.inl member
  · rw [Exec.bind_pure_apply (f := fun _ => TOKEN_PREFIX ++ tokenHex)] at member
    rcases mem_create member with old | rfl
    · exact Or.inl old
    · exact Or.inr rfl

theorem mem_revoke {idSlug : String} {row : ApiToken} {store : Store}
    (member : row ∈ (revoke idSlug store).2.apiTokens) : row ∈ store.apiTokens := by
  rw [revoke, Exec.bind_ok (Exec.gets_apply _ _)] at member
  cases found : store.apiTokens.find? fun token => token.idSlug = idSlug with
  | none =>
      rw [found] at member
      exact member
  | some token =>
      rw [found] at member
      exact List.mem_of_mem_filter member

/-- A revocation that returns takes every row with the id away. -/
theorem not_mem_of_revoke {idSlug : String} {token : ApiToken} {store after : Store}
    (revoked : revoke idSlug store = (.ok token, after)) :
    token ∈ store.apiTokens ∧ token ∉ after.apiTokens := by
  rw [revoke, Exec.bind_ok (Exec.gets_apply _ _)] at revoked
  cases found : store.apiTokens.find? fun token => token.idSlug = idSlug with
  | none =>
      rw [found] at revoked
      cases revoked
  | some row =>
      rw [found] at revoked
      cases revoked
      refine ⟨List.mem_of_find?_eq_some found, ?_⟩
      simp [Store.keepApiTokens]

end ApiToken

/-- The step lemma: a digest in the table was there before or was brought by the call. -/
theorem TokenCall.digest_mem {crypto : Crypto} {call : TokenCall} {store : Store} {row : ApiToken}
    (member : row ∈ (call.perform crypto store).apiTokens) :
    row ∈ store.apiTokens ∨ call.Brings crypto row.sha256Digest := by
  cases call with
  | issue name slugHex tokenHex => exact ApiToken.mem_issue member
  | importTokens tokens failure =>
      rcases ApiToken.mem_importTokens member with old | imported
      · exact Or.inl old
      · exact Or.inr ⟨row, imported, rfl⟩
  | revoke idSlug => exact Or.inl (ApiToken.mem_revoke member)

/-- The run lemma: a digest that is not in the table and that no call brings stays out. -/
theorem digest_absent_of_run {crypto : Crypto} {digest : String} {calls : List TokenCall}
    {store : Store} (absent : ∀ row ∈ store.apiTokens, row.sha256Digest ≠ digest)
    (notBrought : ∀ call ∈ calls, ¬ call.Brings crypto digest) :
    ∀ row ∈ (tokensAfter crypto store calls).apiTokens, row.sha256Digest ≠ digest := by
  induction calls generalizing store with
  | nil => exact absent
  | cons call rest ih =>
      apply ih
      · intro row member equal
        rcases TokenCall.digest_mem member with old | brought
        · exact absent row old equal
        · rw [equal] at brought
          exact notBrought call List.mem_cons_self brought
      · exact fun other member => notBrought other (List.mem_cons_of_mem _ member)

/-! ## Authentication along runs -/

/-- A token is refused after any calls that follow its revocation. -/
def RevokedStaysRefused (crypto : Crypto) : Prop :=
  ∀ (store : Store) (calls : List TokenCall) (idSlug raw : String) (token : ApiToken)
    (after : Store) (later : List TokenCall),
    ApiToken.revoke idSlug (tokensAfter crypto store calls) = (.ok token, after) →
      token.sha256Digest = crypto.hexdigest raw →
      ApiToken.findByRawToken crypto raw (tokensAfter crypto after later) = none

/-- An entry of the configuration. -/
def ciToken : ApiToken := ⟨"ci", "ci", "pgo_", "pgo_1"⟩

/-- The entry is imported, revoked and imported again. -/
theorem importedAgain_not_revokedStaysRefused :
    ¬ RevokedStaysRefused ⟨id, id, fun _ _ => false⟩ := by
  intro refused
  have found := refused Store.empty [.importTokens [ciToken] none] "ci" "pgo_1" ciToken
    Store.empty [.importTokens [ciToken] none] rfl rfl
  exact absurd found (by decide)

/-- On every run the scan answers as the indexed lookup does: with the row that
has the digest of a raw token with the prefix, and with nothing else.  A
revoked token is refused as long as no call draws it or imports its digest. -/
theorem tokenAuthentication (crypto : Crypto) (store : Store) (calls : List TokenCall)
    (raw : String) :
    (∀ token, ApiToken.findByRawToken crypto raw (tokensAfter crypto store calls) = some token ↔
      ApiToken.TOKEN_PREFIX.toList.isPrefixOf raw.toList = true ∧
        token ∈ (tokensAfter crypto store calls).apiTokens ∧
        token.sha256Digest = crypto.hexdigest raw) ∧
    (ApiToken.findByRawToken crypto raw (tokensAfter crypto store calls) =
      if ApiToken.TOKEN_PREFIX.toList.isPrefixOf raw.toList then
        ApiToken.findByDigest (crypto.hexdigest raw) (tokensAfter crypto store calls)
      else none) ∧
    ∀ (idSlug : String) (token : ApiToken) (after : Store) (later : List TokenCall),
      ApiToken.revoke idSlug (tokensAfter crypto store calls) = (.ok token, after) →
      token.sha256Digest = crypto.hexdigest raw →
      (∀ name slugHex tokenHex, .issue name slugHex tokenHex ∈ later →
        crypto.hexdigest (ApiToken.TOKEN_PREFIX ++ tokenHex) = crypto.hexdigest raw →
        ApiToken.TOKEN_PREFIX ++ tokenHex = raw) →
      (∀ call ∈ later, ¬ call.BringsBack crypto raw) →
      ApiToken.findByRawToken crypto raw (tokensAfter crypto after later) = none := by
  refine ⟨fun _ => ApiToken.findByRawToken_iff, ApiToken.findByRawToken_eq _ _ _, ?_⟩
  intro idSlug token after later revoked equal injective notBroughtBack
  rcases ApiToken.not_mem_of_revoke revoked with ⟨member, removed⟩
  have absent : ∀ row ∈ after.apiTokens, row.sha256Digest ≠ crypto.hexdigest raw := by
    intro row rowMem sameDigest
    have before : row ∈ (tokensAfter crypto store calls).apiTokens := by
      apply @ApiToken.mem_revoke idSlug
      rw [revoked]
      exact rowMem
    have sameRow : row = token := List.inj_on_of_nodup_map
      (tokensAfter crypto store calls).uniqueDigests before member (sameDigest.trans equal.symm)
    rw [sameRow] at rowMem
    exact removed rowMem
  have notBrought : ∀ call ∈ later, ¬ call.Brings crypto (crypto.hexdigest raw) := by
    intro call callMem brings
    cases call with
    | issue name slugHex tokenHex =>
        exact notBroughtBack _ callMem (injective name slugHex tokenHex callMem brings.symm)
    | importTokens tokens failure => exact notBroughtBack _ callMem brings
    | revoke other => exact brings
  rw [Option.eq_none_iff_forall_ne_some]
  intro row found
  rcases ApiToken.findByRawToken_iff.mp found with ⟨_, rowMem, sameDigest⟩
  exact digest_absent_of_run absent notBrought row rowMem sameDigest

/-- A malformed digest beside the imported one, and a revocation. -/
theorem tokenAuthentication_ci :
    ApiToken.findByRawToken ⟨id, id, fun _ _ => false⟩ "pgo_1"
      (tokensAfter ⟨id, id, fun _ _ => false⟩ Store.empty
        [.importTokens [⟨"bad", "bad", "pgo_", "?"⟩, ciToken] none]) = some ciToken ∧
    ApiToken.findByRawToken ⟨id, id, fun _ _ => false⟩ "pgo_1"
      (tokensAfter ⟨id, id, fun _ _ => false⟩ Store.empty
        [.issue "other" "0" "2"]) = none := by
  have otherToken : ∀ call ∈ [TokenCall.issue "other" "0" "2"],
      ¬ call.BringsBack ⟨id, id, fun _ _ => false⟩ "pgo_1" := by
    intro call member
    rw [List.mem_singleton.mp member]
    exact (by decide : ApiToken.TOKEN_PREFIX ++ "2" ≠ "pgo_1")
  constructor
  · exact ((tokenAuthentication _ _ _ _).1 ciToken).mpr ⟨by decide, by decide, rfl⟩
  · exact (tokenAuthentication ⟨id, id, fun _ _ => false⟩ Store.empty
      [.importTokens [ciToken] none] "pgo_1").2.2 "ci" ciToken Store.empty
      [.issue "other" "0" "2"] rfl rfl (by simp) otherToken

end MultipassWebui.Auth
