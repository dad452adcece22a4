import Mathlib.Data.Set.Function
import MultipassWebui.Auth.SessionLedger

/-!
# Login sessions over runs

What the ledger holds is read off the history of a run: a session stands if
its token was issued, has not expired, and was not presented to a logout
since.  Calls that find or sweep are not part of that, so they can be inserted
anywhere.
-/

namespace MultipassWebui.Auth

open MultipassWebui.Effect
open MultipassWebui.Text

/-! ## The ledger and the history -/

section

variable {crypto : Crypto}

/-- A position of a list is its head or a position of its tail. -/
theorem exists_split_cons {α : Type} {P : α → List α → Prop} {head : α} {tail : List α} :
    (∃ earlier item later, head :: tail = earlier ++ item :: later ∧ P item later) ↔
      P head tail ∨ ∃ earlier item later, tail = earlier ++ item :: later ∧ P item later := by
  constructor
  · rintro ⟨earlier, item, later, split, holds⟩
    cases earlier with
    | nil =>
        cases split
        exact Or.inl holds
    | cons first others =>
        cases split
        exact Or.inr ⟨others, item, later, rfl, holds⟩
  · rintro (holds | ⟨earlier, item, later, rfl, holds⟩)
    · exact ⟨[], head, tail, rfl, holds⟩
    · exact ⟨head :: earlier, item, later, rfl, holds⟩

/-- What entering one call does to a digest and an expiry. -/
theorem exists_enter_iff (ledger : Ledger) (timed : TimedCall) (tokenHash : String)
    (expiresAt : Int) :
    (∃ session ∈ (ledger.enter crypto timed).granted,
      session.tokenHash = tokenHash ∧ session.expiresAt = expiresAt) ↔
      (∃ session ∈ ledger.granted, session.tokenHash = tokenHash ∧
        session.expiresAt = expiresAt) ∧ timed.withdraws crypto tokenHash expiresAt = false ∨
      timed.Grants crypto tokenHash expiresAt := by
  have filtered : (∃ session ∈ ledger.granted.filter fun session =>
        !timed.withdraws crypto session.tokenHash session.expiresAt,
      session.tokenHash = tokenHash ∧ session.expiresAt = expiresAt) ↔
      (∃ session ∈ ledger.granted, session.tokenHash = tokenHash ∧
        session.expiresAt = expiresAt) ∧ timed.withdraws crypto tokenHash expiresAt = false := by
    simp only [List.mem_filter, Bool.not_eq_true']
    constructor
    · rintro ⟨session, ⟨member, stays⟩, rfl, rfl⟩
      exact ⟨⟨session, member, rfl, rfl⟩, stays⟩
    · rintro ⟨⟨session, member, rfl, rfl⟩, stays⟩
      exact ⟨session, ⟨member, stays⟩, rfl, rfl⟩
  rcases timed with ⟨time, call⟩
  cases call with
  | issue raw ipAddress userAgent =>
      simp only [Ledger.enter, TimedCall.withdraws, TimedCall.Grants, List.mem_append,
        List.mem_singleton, or_and_right, exists_or, exists_eq_left, and_true,
        SessionCall.issue.injEq]
      apply or_congr Iff.rfl
      constructor
      · rintro ⟨equal, expiry⟩
        exact ⟨raw, ipAddress, userAgent, ⟨rfl, rfl, rfl⟩, equal, expiry⟩
      · rintro ⟨_, _, _, ⟨rfl, rfl, rfl⟩, equal, expiry⟩
        exact ⟨equal, expiry⟩
  | findValid rawToken =>
      simp only [TimedCall.Grants, reduceCtorEq, false_and, exists_false, or_false]
      exact filtered
  | sweep =>
      simp only [TimedCall.Grants, reduceCtorEq, false_and, exists_false, or_false]
      exact filtered
  | logout headers =>
      simp only [TimedCall.Grants, reduceCtorEq, false_and, exists_false, or_false]
      exact filtered

/-- A digest and an expiry are in the ledger if they were granted, or there
before, and not withdrawn since. -/
theorem exists_granted_iff (ledger : Ledger) (calls : List TimedCall) (tokenHash : String)
    (expiresAt : Int) :
    (∃ session ∈ (ledger.after crypto calls).granted,
      session.tokenHash = tokenHash ∧ session.expiresAt = expiresAt) ↔
      (∃ session ∈ ledger.granted, session.tokenHash = tokenHash ∧
        session.expiresAt = expiresAt) ∧
        (∀ timed ∈ calls, timed.withdraws crypto tokenHash expiresAt = false) ∨
      ∃ earlier timed later, calls = earlier ++ timed :: later ∧
        timed.Grants crypto tokenHash expiresAt ∧
        ∀ other ∈ later, other.withdraws crypto tokenHash expiresAt = false := by
  induction calls generalizing ledger with
  | nil => simp [Ledger.after]
  | cons timed rest ih =>
      have unfolded : ledger.after crypto (timed :: rest) =
          (ledger.enter crypto timed).after crypto rest := rfl
      have positions := @exists_split_cons TimedCall
        (fun granting later => granting.Grants crypto tokenHash expiresAt ∧
          ∀ other ∈ later, other.withdraws crypto tokenHash expiresAt = false) timed rest
      rw [unfolded, ih, exists_enter_iff, positions, List.forall_mem_cons, or_and_right, or_assoc,
        and_assoc]

/-- A call that finds or sweeps leaves no trace in the ledger. -/
theorem enter_of_quiet (ledger : Ledger) {timed : TimedCall} (quiet : timed.quiet = true) :
    ledger.enter crypto timed = ledger := by
  have keepsAll : (ledger.granted.filter fun _ => !false) = ledger.granted :=
    List.filter_eq_self.mpr fun _ _ => rfl
  rcases timed with ⟨time, call⟩
  cases call with
  | issue raw ipAddress userAgent => cases quiet
  | findValid rawToken => exact congrArg (Ledger.mk · ledger.sequence) keepsAll
  | sweep => exact congrArg (Ledger.mk · ledger.sequence) keepsAll
  | logout headers => cases quiet

/-- A list of calls with calls that find or sweep inserted anywhere. -/
inductive Extends : List TimedCall → List TimedCall → Prop where
  | nil : Extends [] []
  | keep {calls more : List TimedCall} (timed : TimedCall) (tail : Extends calls more) :
      Extends (timed :: calls) (timed :: more)
  | insert {calls more : List TimedCall} {timed : TimedCall} (quiet : timed.quiet = true)
      (tail : Extends calls more) : Extends calls (timed :: more)

theorem Extends.after_eq {calls more : List TimedCall} (extended : Extends calls more)
    (ledger : Ledger) : ledger.after crypto more = ledger.after crypto calls := by
  induction extended generalizing ledger with
  | nil => rfl
  | keep timed _ ih => exact ih (ledger.enter crypto timed)
  | insert quiet _ ih =>
      rw [← ih ledger, Ledger.after, List.foldl_cons, enter_of_quiet ledger quiet]
      rfl

theorem Extends.issuedTokens_eq {calls more : List TimedCall} (extended : Extends calls more) :
    issuedTokens more = issuedTokens calls := by
  induction extended with
  | nil => rfl
  | keep timed _ ih => exact congrArg (timed.issued ++ ·) ih
  | @insert _ _ timed quiet _ ih =>
      rw [← ih, issuedTokens, List.flatMap_cons]
      rcases timed with ⟨time, call⟩
      cases call with
      | issue raw ipAddress userAgent => cases quiet
      | findValid rawToken => rfl
      | sweep => rfl
      | logout headers => cases quiet

/-- In the history, the token was issued less than 24 hours before, and no
logout has presented it since. -/
def LoggedIn (calls : List TimedCall) (now : Int) (raw : String) : Prop :=
  ∃ earlier issuing later, calls = earlier ++ issuing :: later ∧ raw ∈ issuing.issued ∧
    now < issuing.time + 24 * 3600000000 ∧ ∀ timed ∈ later, ¬ timed.LogsOut raw

/-- All tokens that the calls issue or present. -/
def tokensOf (calls : List TimedCall) : List String :=
  issuedTokens calls ++ calls.flatMap TimedCall.presented

theorem logout_of_withdraws {timed : TimedCall} {tokenHash : String} {expiresAt : Int}
    (withdraws : timed.withdraws crypto tokenHash expiresAt = true) :
    ∃ headers, timed.call = .logout headers ∧ ∃ raw ∈ headers.sessionToken,
      tokenHash = Session.hashToken crypto raw := by
  rcases timed with ⟨time, call⟩
  cases call with
  | issue raw ipAddress userAgent => cases withdraws
  | findValid rawToken => cases withdraws
  | sweep => cases withdraws
  | logout headers =>
      rcases withdraws_iff.mp withdraws with ⟨raw, presented, _, equal, _⟩
      exact ⟨headers, rfl, raw, presented, equal⟩

/-- For a token of the calls, the history says what the ledger says. -/
theorem loggedIn_iff_ledger {calls : List TimedCall} {now : Int} {raw : String} {sequence : Nat}
    (past : ∀ timed ∈ calls, timed.time ≤ now) (notBlank : blank raw = false)
    (injective : ∀ token ∈ tokensOf calls,
      Session.hashToken crypto token = Session.hashToken crypto raw → token = raw) :
    (∃ session ∈ ((⟨[], sequence⟩ : Ledger).after crypto calls).granted,
      session.tokenHash = Session.hashToken crypto raw ∧ now < session.expiresAt) ↔
      LoggedIn calls now raw := by
  constructor
  · rintro ⟨session, member, equal, alive⟩
    rcases (exists_granted_iff _ _ _ _).mp ⟨session, member, rfl, rfl⟩ with
      ⟨⟨_, old, _⟩, _⟩ | ⟨earlier, issuing, later, split, grants, kept⟩
    · cases old
    · rcases grants with ⟨drawn, ipAddress, userAgent, call, sameHash, expiry⟩
      have inIssued : drawn ∈ issuing.issued := by
        rw [TimedCall.issued, call]
        exact List.mem_singleton.mpr rfl
      have issuingMem : issuing ∈ calls := by
        rw [split]
        exact List.mem_append_right _ List.mem_cons_self
      have inTokens : drawn ∈ tokensOf calls :=
        List.mem_append_left _ (List.mem_flatMap_of_mem issuingMem inIssued)
      have sameToken : drawn = raw := injective drawn inTokens (sameHash.trans equal)
      refine ⟨earlier, issuing, later, split, sameToken ▸ inIssued, ?_, ?_⟩
      · rw [← expiry] at alive
        exact alive
      · rintro ⟨time, _⟩ otherMem ⟨headers, rfl, presented⟩
        have order : time ≤ now := by
          apply past ⟨time, .logout headers⟩
          rw [split]
          exact List.mem_append_right _ (List.mem_cons_of_mem _ otherMem)
        have withdraws := withdraws_iff.mpr
          ⟨raw, presented, notBlank, equal, lt_of_le_of_lt order alive⟩
        rw [kept _ otherMem] at withdraws
        cases withdraws
  · rintro ⟨earlier, issuing, later, split, drawn, alive, kept⟩
    have grants : issuing.Grants crypto (Session.hashToken crypto raw)
        (Session.expiry issuing.time) := by
      rcases issuing with ⟨time, call⟩
      cases call with
      | issue token ipAddress userAgent =>
          rw [List.mem_singleton.mp drawn]
          exact ⟨token, ipAddress, userAgent, rfl, rfl, rfl⟩
      | findValid rawToken => cases drawn
      | sweep => cases drawn
      | logout headers => cases drawn
    have stays : ∀ other ∈ later, other.withdraws crypto (Session.hashToken crypto raw)
        (Session.expiry issuing.time) = false := by
      intro other otherMem
      rw [Bool.eq_false_iff]
      intro withdraws
      rcases logout_of_withdraws withdraws with ⟨headers, call, token, presented, equal⟩
      have otherInCalls : other ∈ calls := by
        rw [split]
        exact List.mem_append_right _ (List.mem_cons_of_mem _ otherMem)
      have inPresented : token ∈ other.presented := by
        rw [TimedCall.presented, call]
        exact Option.mem_toList.mpr presented
      have sameToken : token = raw := injective token
        (List.mem_append_right _ (List.mem_flatMap_of_mem otherInCalls inPresented)) equal.symm
      exact kept other otherMem ⟨headers, call, sameToken ▸ presented⟩
    rcases (exists_granted_iff ⟨[], sequence⟩ calls _ _).mpr
      (Or.inr ⟨earlier, issuing, later, split, grants, stays⟩) with ⟨session, member, equal, expiry⟩
    exact ⟨session, member, equal, expiry ▸ alive⟩

end

/-! ## The answers of a run -/

section

variable {crypto : Crypto} {store : Store} {calls : List TimedCall} {now : Int}

/-- The table covers the ledger after every run that starts without sessions. -/
theorem represents_run (empty : store.sessions = [])
    (ordered : calls.Pairwise fun first second => first.time ≤ second.time)
    (past : ∀ timed ∈ calls, timed.time ≤ now)
    (distinct : ((issuedTokens calls).map (Session.hashToken crypto)).Nodup) :
    Represents crypto now calls (storeAfter crypto store calls)
      ((⟨[], store.sessionSequence⟩ : Ledger).after crypto calls) := by
  cases calls with
  | nil => exact represents_start crypto now empty
  | cons first rest =>
      have order : ∀ timed ∈ first :: rest, first.time ≤ timed.time := by
        intro timed member
        rcases List.mem_cons.mp member with rfl | later
        · exact le_refl _
        · exact (List.pairwise_cons.mp ordered).1 timed later
      exact (represents_start crypto first.time empty).run order ordered distinct
        (past first List.mem_cons_self) past

/-- On a run at non-decreasing instants whose tokens are distinct and hashed
without collision, `find_valid` finds a session precisely if the token was
issued within 24 hours and not logged out; and inserting calls that find or
sweep changes no answer. -/
theorem findValid_iff_loggedIn (rawToken : Option String) (empty : store.sessions = [])
    (ordered : calls.Pairwise fun first second => first.time ≤ second.time)
    (past : ∀ timed ∈ calls, timed.time ≤ now) (distinct : (issuedTokens calls).Nodup)
    (injective : Set.InjOn (Session.hashToken crypto)
      {token | token ∈ tokensOf calls ∨ token ∈ rawToken}) :
    ((∃ session, (Session.findValid crypto now rawToken (storeAfter crypto store calls)).1 =
        .ok (some session)) ↔
      ∃ raw ∈ rawToken, blank raw = false ∧ LoggedIn calls now raw) ∧
    ∀ more, Extends calls more →
      more.Pairwise (fun first second => first.time ≤ second.time) →
      (∀ timed ∈ more, timed.time ≤ now) →
      (Session.findValid crypto now rawToken (storeAfter crypto store more)).1 =
        (Session.findValid crypto now rawToken (storeAfter crypto store calls)).1 := by
  have distinctHashes : ((issuedTokens calls).map (Session.hashToken crypto)).Nodup := by
    apply List.Nodup.map_on _ distinct
    intro first firstMem second secondMem equal
    exact injective (Or.inl (List.mem_append_left _ firstMem))
      (Or.inl (List.mem_append_left _ secondMem)) equal
  have represents := represents_run empty ordered past distinctHashes
  rcases represents.findValid_apply rawToken with ⟨after, answered, _⟩
  constructor
  · rw [answered]
    simp only [Except.ok.injEq, represents.standing_iff]
    constructor
    · rintro ⟨session, member, raw, presented, notBlank, equal, alive⟩
      have noCollision : ∀ token ∈ tokensOf calls,
          Session.hashToken crypto token = Session.hashToken crypto raw → token = raw :=
        fun token member same => injective (Or.inl member) (Or.inr presented) same
      exact ⟨raw, presented, notBlank,
        (loggedIn_iff_ledger past notBlank noCollision).mp ⟨session, member, equal, alive⟩⟩
    · rintro ⟨raw, presented, notBlank, loggedIn⟩
      have noCollision : ∀ token ∈ tokensOf calls,
          Session.hashToken crypto token = Session.hashToken crypto raw → token = raw :=
        fun token member same => injective (Or.inl member) (Or.inr presented) same
      rcases (loggedIn_iff_ledger past notBlank noCollision).mpr loggedIn with
        ⟨session, member, equal, alive⟩
      exact ⟨session, member, raw, presented, notBlank, equal, alive⟩
  · intro more extended moreOrdered morePast
    have moreRepresents := represents_run empty moreOrdered morePast
      (extended.issuedTokens_eq ▸ distinctHashes)
    rcases moreRepresents.findValid_apply rawToken with ⟨moreAfter, moreAnswered, _⟩
    rw [answered, moreAnswered, extended.after_eq]

/-- A login, a sweep, and another login that is logged out. -/
def twoLogins : List TimedCall :=
  [⟨0, .issue "a1" none none⟩, ⟨5, .sweep⟩, ⟨6, .issue "b2" none none⟩,
    ⟨7, .logout ⟨some "b2", none, none⟩⟩]

theorem findValid_iff_loggedIn_twoLogins :
    ∃ session, (Session.findValid ⟨id, id, fun _ _ => false⟩ 8 (some "a1")
      (storeAfter ⟨id, id, fun _ _ => false⟩ Store.empty twoLogins)).1 = .ok (some session) := by
  have injective : Set.InjOn (Session.hashToken ⟨id, id, fun _ _ => false⟩)
      {token | token ∈ tokensOf twoLogins ∨ token ∈ some "a1"} :=
    fun _ _ _ _ equal => equal
  have standing : LoggedIn twoLogins 8 "a1" :=
    ⟨[], _, _, rfl, List.mem_singleton.mpr rfl, by decide, by simp [TimedCall.LogsOut]⟩
  exact (findValid_iff_loggedIn (some "a1") rfl (by decide) (by decide) (by decide)
    injective).1.mpr ⟨"a1", rfl, by decide, standing⟩

end

end MultipassWebui.Auth
