import Mathlib.Data.Int.Order.Basic
import MultipassWebui.Auth.Requests
import MultipassWebui.Collections.Expiring

/-!
# The ledger of login sessions

A run is a list of calls, each at an instant.  What was issued and not logged
out is the ledger of a run; it knows nothing of reaped or swept rows.  The
table of sessions covers the ledger after every run, so `find_valid` answers
from the ledger.
-/

namespace MultipassWebui.Auth

open MultipassWebui.Collections
open MultipassWebui.Effect
open MultipassWebui.Text

/-- The calls that concern the table of sessions.  The raw token of `issue` is
the one it draws. -/
inductive SessionCall where
  | issue (raw : String) (ipAddress userAgent : Option String)
  | findValid (rawToken : Option String)
  /-- `SweepSessionsJob#perform` -/
  | sweep
  /-- `SessionsController#destroy` -/
  | logout (headers : Headers)
  deriving DecidableEq, Repr

/-- A call and the instant it is made at. -/
structure TimedCall where
  time : Int
  call : SessionCall
  deriving DecidableEq, Repr

/-- What a call returns. -/
inductive Answer where
  | token (raw : String)
  | found (session : Option Session)
  | swept
  | reply (reply : Reply)
  deriving DecidableEq, Repr

namespace TimedCall

/-- Make the call. -/
def perform (crypto : Crypto) (timed : TimedCall) : Exec Store RubyError Answer :=
  match timed.call with
  | .issue raw ipAddress userAgent => do
      return .token (← Session.issue crypto timed.time raw ipAddress userAgent)
  | .findValid rawToken => do return .found (← Session.findValid crypto timed.time rawToken)
  | .sweep => do
      Session.sweep timed.time
      return .swept
  | .logout headers => do return .reply (← Auth.logout crypto timed.time headers)

/-- The tokens that a call issues. -/
def issued (timed : TimedCall) : List String :=
  match timed.call with
  | .issue raw _ _ => [raw]
  | _ => []

/-- The tokens that a call presents. -/
def presented (timed : TimedCall) : List String :=
  match timed.call with
  | .findValid rawToken => rawToken.toList
  | .logout headers => headers.sessionToken.toList
  | _ => []

/-- The calls that are made without being asked for an answer or a change. -/
def quiet (timed : TimedCall) : Bool :=
  match timed.call with
  | .findValid _ | .sweep => true
  | _ => false

/-- The call is a logout that presents the token. -/
def LogsOut (raw : String) (timed : TimedCall) : Prop :=
  ∃ headers, timed.call = .logout headers ∧ headers.sessionToken = some raw

end TimedCall

/-- The store after a list of calls. -/
def storeAfter (crypto : Crypto) (store : Store) (calls : List TimedCall) : Store :=
  calls.foldl (fun current timed => (timed.perform crypto current).2) store

/-! ## The ledger -/

/-- The sessions that were issued and not logged out. -/
structure Ledger where
  granted : List Session
  sequence : Nat

namespace TimedCall

variable (crypto : Crypto)

/-- The call logs out the session with this digest and expiry. -/
def withdraws (timed : TimedCall) (tokenHash : String) (expiresAt : Int) : Bool :=
  match timed.call with
  | .logout ⟨some raw, _, _⟩ =>
      !blank raw && tokenHash = Session.hashToken crypto raw && timed.time < expiresAt
  | _ => false

/-- The call issues a session with this digest and expiry. -/
def Grants (timed : TimedCall) (tokenHash : String) (expiresAt : Int) : Prop :=
  ∃ raw ipAddress userAgent, timed.call = .issue raw ipAddress userAgent ∧
    Session.hashToken crypto raw = tokenHash ∧ Session.expiry timed.time = expiresAt

end TimedCall

namespace Ledger

variable (crypto : Crypto)

/-- Enter a call. -/
def enter (ledger : Ledger) (timed : TimedCall) : Ledger :=
  match timed.call with
  | .issue raw ipAddress userAgent =>
      ⟨ledger.granted ++ [⟨ledger.sequence, Session.hashToken crypto raw,
        Session.expiry timed.time, ipAddress, userAgent⟩], ledger.sequence + 1⟩
  | _ =>
      ⟨ledger.granted.filter fun session =>
        !timed.withdraws crypto session.tokenHash session.expiresAt, ledger.sequence⟩

/-- The ledger after a list of calls. -/
def after (ledger : Ledger) (calls : List TimedCall) : Ledger := calls.foldl (enter crypto) ledger

/-- What `find_valid` is to answer. -/
def standing (ledger : Ledger) (now : Int) (rawToken : Option String) : Option Session :=
  rawToken.bind fun raw =>
    if blank raw then none
    else ledger.granted.find? fun session =>
      session.tokenHash = Session.hashToken crypto raw && session.future now

end Ledger

/-! ## The table covers the ledger -/

/-- The tokens that a list of calls issued. -/
def issuedTokens (calls : List TimedCall) : List String := calls.flatMap TimedCall.issued

/-- After the calls, at the instant, the table of sessions covers the ledger. -/
structure Represents (crypto : Crypto) (now : Int) (calls : List TimedCall) (store : Store)
    (ledger : Ledger) : Prop where
  covers : Covers Session.expiresAt now store.sessions ledger.granted
  sequence : store.sessionSequence = ledger.sequence
  ids : ledger.granted.Pairwise fun first second => first.id ≠ second.id
  hashes : ledger.granted.Pairwise fun first second => first.tokenHash ≠ second.tokenHash
  drawn : ∀ session ∈ ledger.granted, session.id < ledger.sequence
  issued : ∀ session ∈ ledger.granted, ∃ raw ∈ issuedTokens calls,
    session.tokenHash = Session.hashToken crypto raw

section

variable {crypto : Crypto} {now : Int} {calls : List TimedCall} {store : Store} {ledger : Ledger}

theorem represents_start (crypto : Crypto) (now : Int) {store : Store}
    (empty : store.sessions = []) :
    Represents crypto now [] store ⟨[], store.sessionSequence⟩ := by
  constructor
  · rw [empty]
    exact Covers.refl _ _ _
  · rfl
  · exact List.Pairwise.nil
  · exact List.Pairwise.nil
  · intro session member
    cases member
  · intro session member
    cases member

/-- The ids of the rows of the table tell them apart. -/
theorem Represents.eq_of_id_eq (represents : Represents crypto now calls store ledger)
    {first second : Session} (firstMem : first ∈ store.sessions)
    (secondMem : second ∈ store.sessions) (equal : first.id = second.id) : first = second :=
  Records.Rows.eq_of_key_eq represents.ids (represents.covers.sound first firstMem)
    (represents.covers.sound second secondMem) equal

/-- `find_valid` answers with the row that has the digest and is alive. -/
theorem findValid_of_alive {raw : String} {session : Session} (notBlank : blank raw = false)
    (member : session ∈ store.sessions) (equal : session.tokenHash = Session.hashToken crypto raw)
    (alive : session.future now = true) :
    Session.findValid crypto now (some raw) store = (.ok (some session), store) := by
  rw [Session.findValid, notBlank, if_neg Bool.false_ne_true, Exec.bind_ok (Exec.gets_apply _ _),
    ← equal, findByHash_eq_some member]
  simp [alive]

/-- Without such a row it answers with nothing, and deletes expired rows at most. -/
theorem Represents.findValid_of_not_alive (represents : Represents crypto now calls store ledger)
    {rawToken : Option String}
    (noneAlive : ∀ raw ∈ rawToken, blank raw = false → ∀ session ∈ store.sessions,
      session.tokenHash = Session.hashToken crypto raw → session.future now = false) :
    ∃ after, Session.findValid crypto now rawToken store = (.ok none, after) ∧
      after.sessionSequence = store.sessionSequence ∧
      ∃ kept : Session → Bool, after.sessions = store.sessions.filter kept ∧
        ∀ session ∈ store.sessions, now < session.expiresAt → kept session = true := by
  have unchanged : ∃ kept : Session → Bool, store.sessions = store.sessions.filter kept ∧
      ∀ session ∈ store.sessions, now < session.expiresAt → kept session = true :=
    ⟨fun _ => true, by simp, fun _ _ _ => rfl⟩
  cases rawToken with
  | none => exact ⟨store, rfl, rfl, unchanged⟩
  | some raw =>
      cases isBlank : blank raw with
      | true =>
          refine ⟨store, ?_, rfl, unchanged⟩
          rw [Session.findValid, isBlank]
          rfl
      | false =>
          rw [Session.findValid, isBlank, if_neg Bool.false_ne_true,
            Exec.bind_ok (Exec.gets_apply _ _)]
          cases found : Session.findByHash (Session.hashToken crypto raw) store with
          | none => exact ⟨store, rfl, rfl, unchanged⟩
          | some session =>
              have member : session ∈ store.sessions := List.mem_of_find?_eq_some found
              have selected := List.find?_some found
              have expired := noneAlive raw rfl isBlank session member (of_decide_eq_true selected)
              refine ⟨store.keepSessions fun row => row.id ≠ session.id, ?_, rfl,
                fun row => row.id ≠ session.id, rfl, ?_⟩
              · simp only [expired, Session.reap]
                rfl
              · intro row rowMember alive
                rw [decide_eq_true_eq]
                intro sameId
                rw [represents.eq_of_id_eq rowMember member sameId] at alive
                exact absurd (decide_eq_true alive) (Bool.eq_false_iff.mp expired)

/-- The session that stands is the one of the ledger with the digest, if it is alive. -/
theorem Represents.standing_iff (represents : Represents crypto now calls store ledger)
    {rawToken : Option String} {session : Session} :
    ledger.standing crypto now rawToken = some session ↔
      session ∈ ledger.granted ∧ ∃ raw ∈ rawToken, blank raw = false ∧
        session.tokenHash = Session.hashToken crypto raw ∧ now < session.expiresAt := by
  unfold Ledger.standing
  cases rawToken with
  | none => simp
  | some raw =>
      rw [Option.bind_some]
      cases isBlank : blank raw with
      | true => simp [isBlank]
      | false =>
          rw [if_neg Bool.false_ne_true]
          simp only [Option.mem_some_iff, exists_eq_left', isBlank, true_and]
          constructor
          · intro found
            have selected := List.find?_some found
            simp only [Bool.and_eq_true, decide_eq_true_eq, Session.future] at selected
            exact ⟨List.mem_of_find?_eq_some found, selected⟩
          · rintro ⟨member, equal, alive⟩
            apply Records.Rows.find?_eq_some_of_unique member
            · simp [equal, Session.future, alive]
            · intro other otherMem selected
              simp only [Bool.and_eq_true, decide_eq_true_eq] at selected
              exact Records.Rows.eq_of_key_eq represents.hashes otherMem member
                (selected.1.trans equal.symm)

/-- `find_valid` answers from the ledger, and deletes expired rows at most. -/
theorem Represents.findValid_apply (represents : Represents crypto now calls store ledger)
    (rawToken : Option String) :
    ∃ after, Session.findValid crypto now rawToken store =
        (.ok (ledger.standing crypto now rawToken), after) ∧
      after.sessionSequence = store.sessionSequence ∧
      ∃ kept : Session → Bool, after.sessions = store.sessions.filter kept ∧
        ∀ session ∈ store.sessions, now < session.expiresAt → kept session = true := by
  cases standing : ledger.standing crypto now rawToken with
  | some session =>
      rcases represents.standing_iff.mp standing with
        ⟨member, raw, presented, notBlank, equal, alive⟩
      have inTable := represents.covers.complete session member alive
      refine ⟨store, ?_, rfl, fun _ => true, by simp, fun _ _ _ => rfl⟩
      rw [Option.mem_def.mp presented]
      exact findValid_of_alive notBlank inTable equal (decide_eq_true alive)
  | none =>
      apply represents.findValid_of_not_alive
      intro raw presented notBlank session member equal
      rw [Session.future, decide_eq_false_iff_not]
      intro alive
      have inLedger := represents.covers.sound session member
      have stands := represents.standing_iff.mpr ⟨inLedger, raw, presented, notBlank, equal, alive⟩
      rw [standing] at stands
      cases stands

/-! ## What a call keeps -/

theorem Represents.later (represents : Represents crypto now calls store ledger) {time : Int}
    (order : now ≤ time) : Represents crypto time calls store ledger :=
  ⟨represents.covers.later order, represents.sequence, represents.ids, represents.hashes,
    represents.drawn, represents.issued⟩

/-- A call that only takes rows away from the table and from the ledger. -/
theorem Represents.fewer (represents : Represents crypto now calls store ledger)
    {timed : TimedCall} (after : Store) {stays : Session → Bool}
    (sequence : after.sessionSequence = store.sessionSequence)
    (covers : Covers Session.expiresAt now after.sessions (ledger.granted.filter stays)) :
    Represents crypto now (calls ++ [timed]) after
      ⟨ledger.granted.filter stays, ledger.sequence⟩ := by
  constructor
  · exact covers
  · exact sequence.trans represents.sequence
  · exact represents.ids.sublist List.filter_sublist
  · exact represents.hashes.sublist List.filter_sublist
  · intro session member
    exact represents.drawn session (List.mem_of_mem_filter member)
  · intro session member
    rcases represents.issued session (List.mem_of_mem_filter member) with ⟨raw, drawn, equal⟩
    refine ⟨raw, ?_, equal⟩
    rw [issuedTokens, List.flatMap_append]
    exact List.mem_append_left _ drawn

/-- A call that takes expired rows away from the table, and nothing from the ledger. -/
theorem Represents.swept (represents : Represents crypto now calls store ledger)
    {timed : TimedCall} (after : Store) {kept stays : Session → Bool}
    (sequence : after.sessionSequence = store.sessionSequence)
    (table : after.sessions = store.sessions.filter kept)
    (keepsAlive : ∀ session ∈ store.sessions, now < session.expiresAt → kept session = true)
    (allStay : ∀ session ∈ ledger.granted, stays session = true) :
    Represents crypto now (calls ++ [timed]) after
      ⟨ledger.granted.filter stays, ledger.sequence⟩ := by
  apply represents.fewer after sequence
  rw [table, List.filter_eq_self.mpr allStay]
  exact represents.covers.sweep keepsAlive

theorem Represents.findValid (represents : Represents crypto now calls store ledger)
    (rawToken : Option String) :
    Represents crypto now (calls ++ [⟨now, .findValid rawToken⟩])
      (TimedCall.perform crypto ⟨now, .findValid rawToken⟩ store).2
      (ledger.enter crypto ⟨now, .findValid rawToken⟩) := by
  have performed : (TimedCall.perform crypto ⟨now, .findValid rawToken⟩ store).2 =
      (Session.findValid crypto now rawToken store).2 :=
    congrArg Prod.snd (Exec.bind_pure_apply _ Answer.found store)
  rcases represents.findValid_apply rawToken with
    ⟨after, answered, sequence, kept, table, keepsAlive⟩
  rw [performed, answered]
  exact represents.swept after sequence table keepsAlive fun _ _ => rfl

theorem Represents.sweep (represents : Represents crypto now calls store ledger) :
    Represents crypto now (calls ++ [⟨now, .sweep⟩])
      (TimedCall.perform crypto ⟨now, .sweep⟩ store).2 (ledger.enter crypto ⟨now, .sweep⟩) := by
  apply represents.swept (store.keepSessions fun session => !(session.expiresAt < now)) rfl rfl
  · intro session _ alive
    rw [Bool.not_eq_true', decide_eq_false_iff_not]
    exact not_lt_of_gt alive
  · exact fun _ _ => rfl

/-- A token whose digest is new gets its row. -/
theorem issue_of_untaken {raw : String} {ipAddress userAgent : Option String}
    (untaken : Session.hashToken crypto raw ∉ store.sessions.map Session.tokenHash) :
    ∃ after, Session.issue crypto now raw ipAddress userAgent store = (.ok raw, after) ∧
      after.sessions = store.sessions ++ [⟨store.sessionSequence, Session.hashToken crypto raw,
        Session.expiry now, ipAddress, userAgent⟩] ∧
      after.sessionSequence = store.sessionSequence + 1 := by
  have created : Session.create (Session.hashToken crypto raw) (Session.expiry now) ipAddress
      userAgent store = (.ok ⟨⟩, _) := dif_neg untaken
  exact ⟨_, Exec.bind_ok created _, rfl, rfl⟩

theorem Represents.issue (represents : Represents crypto now calls store ledger) {raw : String}
    (ipAddress userAgent : Option String)
    (unused : ∀ old ∈ issuedTokens calls,
      Session.hashToken crypto raw ≠ Session.hashToken crypto old) :
    Represents crypto now (calls ++ [⟨now, .issue raw ipAddress userAgent⟩])
      (TimedCall.perform crypto ⟨now, .issue raw ipAddress userAgent⟩ store).2
      (ledger.enter crypto ⟨now, .issue raw ipAddress userAgent⟩) := by
  have newHash : ∀ session ∈ ledger.granted,
      session.tokenHash ≠ Session.hashToken crypto raw := by
    intro session member equal
    rcases represents.issued session member with ⟨old, drawn, oldEqual⟩
    exact unused old drawn (equal.symm.trans oldEqual)
  have untaken : Session.hashToken crypto raw ∉ store.sessions.map Session.tokenHash := by
    intro taken
    rcases List.mem_map.mp taken with ⟨session, member, equal⟩
    exact newHash session (represents.covers.sound session member) equal
  rcases issue_of_untaken untaken with ⟨after, returned, table, sequence⟩
  have performed : (TimedCall.perform crypto ⟨now, .issue raw ipAddress userAgent⟩ store).2 =
      after := congrArg Prod.snd (Exec.bind_ok returned _)
  rw [performed]
  constructor
  · rw [table, represents.sequence]
    exact represents.covers.grant _
  · rw [sequence, represents.sequence]
    rfl
  · apply Records.Rows.pairwise_concat represents.ids
    intro old member
    exact Nat.ne_of_lt (represents.drawn old member)
  · exact Records.Rows.pairwise_concat represents.hashes newHash
  · intro session member
    rcases List.mem_append.mp member with old | new
    · exact Nat.lt_succ_of_lt (represents.drawn session old)
    · rw [List.mem_singleton.mp new]
      exact Nat.lt_succ_self _
  · intro session member
    rw [issuedTokens, List.flatMap_append]
    rcases List.mem_append.mp member with old | new
    · rcases represents.issued session old with ⟨earlier, drawn, equal⟩
      exact ⟨earlier, List.mem_append_left _ drawn, equal⟩
    · refine ⟨raw, List.mem_append_right _ (List.mem_singleton.mpr rfl), ?_⟩
      rw [List.mem_singleton.mp new]

theorem withdraws_iff {time expiresAt : Int} {headers : Headers} {tokenHash : String} :
    TimedCall.withdraws crypto ⟨time, .logout headers⟩ tokenHash expiresAt = true ↔
      ∃ raw ∈ headers.sessionToken, blank raw = false ∧
        tokenHash = Session.hashToken crypto raw ∧ time < expiresAt := by
  rcases headers with ⟨_ | raw, authorization, origin⟩
  · simp [TimedCall.withdraws]
  · simp [TimedCall.withdraws, and_assoc]

/-- A logout deletes the session that was found. -/
theorem logout_state {headers : Headers} {found : Option Session} {after : Store}
    (answered : Session.findValid crypto now headers.sessionToken store = (.ok found, after)) :
    (TimedCall.perform crypto ⟨now, .logout headers⟩ store).2 =
      found.elim after fun session => after.keepSessions fun row => row.id ≠ session.id := by
  have performed : (TimedCall.perform crypto ⟨now, .logout headers⟩ store).2 =
      (Auth.logout crypto now headers store).2 :=
    congrArg Prod.snd (Exec.bind_pure_apply _ Answer.reply store)
  have loggedOut : Auth.logout crypto now headers store = _ := Exec.bind_ok answered _
  rw [performed, loggedOut]
  cases found with
  | none => rfl
  | some session => rfl

/-- A logout takes the session that stands out of the table and the ledger. -/
theorem Represents.logout (represents : Represents crypto now calls store ledger)
    (headers : Headers) :
    Represents crypto now (calls ++ [⟨now, .logout headers⟩])
      (TimedCall.perform crypto ⟨now, .logout headers⟩ store).2
      (ledger.enter crypto ⟨now, .logout headers⟩) := by
  rcases represents.findValid_apply headers.sessionToken with
    ⟨after, answered, sequence, kept, table, keepsAlive⟩
  have covers : Covers Session.expiresAt now after.sessions ledger.granted := by
    rw [table]
    exact represents.covers.sweep keepsAlive
  -- On the ledger, withdrawing and standing are the same.
  have withdrawn_iff : ∀ row ∈ ledger.granted,
      TimedCall.withdraws crypto ⟨now, .logout headers⟩ row.tokenHash row.expiresAt = true ↔
        ledger.standing crypto now headers.sessionToken = some row := by
    intro row member
    rw [withdraws_iff, represents.standing_iff]
    exact (and_iff_right member).symm
  rw [logout_state answered]
  cases standing : ledger.standing crypto now headers.sessionToken with
  | none =>
      apply represents.swept after sequence table keepsAlive
      intro row member
      rw [Bool.not_eq_true', ← Bool.not_eq_true, withdrawn_iff row member, standing]
      exact nofun
  | some session =>
      have member := (represents.standing_iff.mp standing).1
      have same_iff : ∀ row ∈ after.sessions, row.id = session.id ↔ session = row := by
        intro row rowMember
        constructor
        · intro equal
          exact (Records.Rows.eq_of_key_eq represents.ids (covers.sound row rowMember) member
            equal).symm
        · rintro rfl
          rfl
      apply represents.fewer (after.keepSessions fun row => row.id ≠ session.id) sequence
      apply covers.withdraw
      · intro row rowMember isKept
        rw [Bool.not_eq_true', ← Bool.not_eq_true,
          withdrawn_iff row (covers.sound row rowMember), standing, Option.some_inj]
        rw [decide_eq_true_eq, Ne, same_iff row rowMember] at isKept
        exact isKept
      · intro row rowMember _ stays
        rw [Bool.not_eq_true', ← Bool.not_eq_true,
          withdrawn_iff row (covers.sound row rowMember), standing, Option.some_inj] at stays
        rw [decide_eq_true_eq, Ne, same_iff row rowMember]
        exact stays

/-- The step lemma: a call takes the store and the ledger along. -/
theorem Represents.perform (represents : Represents crypto now calls store ledger)
    {timed : TimedCall} (order : now ≤ timed.time)
    (unused : ∀ raw ∈ timed.issued, ∀ old ∈ issuedTokens calls,
      Session.hashToken crypto raw ≠ Session.hashToken crypto old) :
    Represents crypto timed.time (calls ++ [timed]) (timed.perform crypto store).2
      (ledger.enter crypto timed) := by
  have later := represents.later order
  rcases timed with ⟨time, call⟩
  cases call with
  | issue raw ipAddress userAgent =>
      exact later.issue ipAddress userAgent (unused raw (List.mem_singleton.mpr rfl))
  | findValid rawToken => exact later.findValid rawToken
  | sweep => exact later.sweep
  | logout headers => exact later.logout headers

/-- The run lemma: after calls at non-decreasing instants, the table covers the ledger. -/
theorem Represents.run {more : List TimedCall}
    (represents : Represents crypto now calls store ledger)
    (order : ∀ timed ∈ more, now ≤ timed.time)
    (ordered : more.Pairwise fun first second => first.time ≤ second.time)
    (distinct : ((issuedTokens (calls ++ more)).map (Session.hashToken crypto)).Nodup)
    {time : Int} (after : now ≤ time) (past : ∀ timed ∈ more, timed.time ≤ time) :
    Represents crypto time (calls ++ more) (storeAfter crypto store more)
      (ledger.after crypto more) := by
  induction more generalizing now calls store ledger with
  | nil =>
      rw [List.append_nil]
      exact represents.later after
  | cons timed rest ih =>
      rw [List.append_cons] at distinct ⊢
      have unused : ∀ raw ∈ timed.issued, ∀ old ∈ issuedTokens calls,
          Session.hashToken crypto raw ≠ Session.hashToken crypto old := by
        intro raw drawn old oldDrawn equal
        rw [issuedTokens, List.flatMap_append, List.flatMap_append, List.map_append,
          List.map_append] at distinct
        have apart := List.disjoint_of_nodup_append (List.Nodup.of_append_left distinct)
        apply apart (List.mem_map_of_mem oldDrawn)
        rw [← equal, List.flatMap_singleton]
        exact List.mem_map_of_mem drawn
      rcases List.pairwise_cons.mp ordered with ⟨first, others⟩
      exact ih (represents.perform (order timed List.mem_cons_self) unused) first others distinct
        (past timed List.mem_cons_self)
        fun other member => past other (List.mem_cons_of_mem _ member)

end

end MultipassWebui.Auth
