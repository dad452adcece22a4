import MultipassWebui.Installation.System
import MultipassWebui.Migration.Idempotent

/-!
# Requests without credentials

Whoever carries neither a session nor a token and does not know the password
can end sessions at most: whatever is sent, and however often, nothing else of
the installation changes, but that the first form creates the row of the settings.
The channels of the terminals are not part of the installation.
-/

namespace MultipassWebui.Installation

open MultipassWebui.Auth (Store)
open MultipassWebui.Effect
open MultipassWebui.Migration (Setting current current_of_first exists_first_current)
open MultipassWebui.Text
open MultipassWebui.Transition

/-- The form has the user name and the password of the settings. -/
def SignIn.Matches (form : SignIn) (state : State) : Prop :=
  ∃ row ∈ (state.seeded form.env).configuration.settings.first,
    blank row.2.passwordDigest = false ∧
      form.env.crypto.isPassword row.2.passwordDigest form.password = true ∧
      row.2.username = form.username

/-- What can happen without credentials: visits that are not let in, forms that do not
match, and the end of sessions. -/
def Outside (state : State) : Happening → Prop
  | .visit visit _ | .console visit _ => ¬ visit.Authentic state
  | .signIn form => ¬ form.Matches state
  | .signOut .. | .sweep _ => True
  | .tick _ | .shells _ => False

instance decidableMatches (form : SignIn) (state : State) : Decidable (form.Matches state) :=
  inferInstanceAs (Decidable (∃ row ∈ (state.seeded form.env).configuration.settings.first, _))

instance decidableOutside (state : State) : DecidablePred (Outside state)
  | .visit visit _ | .console visit _ => inferInstanceAs (Decidable (¬ visit.Authentic state))
  | .signIn form => inferInstanceAs (Decidable (¬ form.Matches state))
  | .signOut .. | .sweep _ => isTrue trivial
  | .tick _ | .shells _ => isFalse id

/-- Sessions are ended, the row of the settings is created where there is none, and
nothing else changes. -/
structure EndsSessions (before after : State) : Prop where
  settings : after.configuration.settings = before.configuration.settings ∨
    before.configuration.settings.rows = [] ∧
      ∃ env, after.configuration.settings =
        before.configuration.settings.insert (Setting.seed env)
  vmDefaults : after.configuration.vmDefaults = before.configuration.vmDefaults
  webhooks : after.webhooks = before.webhooks
  profiles : after.profiles = before.profiles
  database : after.database = before.database
  disk : after.disk = before.disk
  shells : after.shells = before.shells
  credentials : Fewer before.accounts after.accounts

section

variable {state : State}

theorem EndsSessions.trans {first second third : State} (earlier : EndsSessions first second)
    (later : EndsSessions second third) : EndsSessions first third where
  settings := by
    rcases later.settings with kept | ⟨empty, env, created⟩
    · rw [kept]
      exact earlier.settings
    · right
      rcases earlier.settings with same | ⟨_, other, inserted⟩
      · rw [← same]
        exact ⟨empty, env, created⟩
      · rw [inserted] at empty
        exact absurd empty (List.append_ne_nil_of_right_ne_nil _ (List.cons_ne_nil _ _))
  vmDefaults := later.vmDefaults.trans earlier.vmDefaults
  webhooks := later.webhooks.trans earlier.webhooks
  profiles := later.profiles.trans earlier.profiles
  database := later.database.trans earlier.database
  disk := later.disk.trans earlier.disk
  shells := later.shells.trans earlier.shells
  credentials := IsTrans.trans _ _ _ earlier.credentials later.credentials

/-- Looking for a session. -/
theorem EndsSessions.of_fewer {store : Store} (fewer : Fewer state.accounts store) :
    EndsSessions state (state.setAccounts store) :=
  ⟨Or.inl rfl, rfl, rfl, rfl, rfl, rfl, rfl, fewer.sessions, fewer.apiTokens, fewer.sequence⟩

/-- Asking for the settings. -/
theorem EndsSessions.of_seeded (env : Migration.Environment) :
    EndsSessions state (state.seeded env) where
  settings := by
    by_cases empty : state.configuration.settings.rows = []
    · right
      refine ⟨empty, env, ?_⟩
      rw [State.seeded, current, empty]
      rfl
    · left
      rw [State.seeded, current, if_neg]
      simpa using empty
  vmDefaults := rfl
  webhooks := rfl
  profiles := rfl
  database := rfl
  disk := rfl
  shells := rfl
  credentials := ⟨List.Sublist.refl _, rfl, rfl⟩

/-- The first account is that of the first row. -/
theorem head_accounts {row : Nat × Setting}
    (isFirst : state.configuration.settings.first = some row) :
    state.accounts.settings.head? = some (State.account row.2) := by
  unfold State.accounts Records.Table.values
  rw [List.map_map, List.head?_map]
  exact congrArg (Option.map _) isFirst

/-- A form that does not match does nothing once the settings are there. -/
theorem signIn_of_not_matches {form : SignIn} (refused : ¬ form.Matches state) :
    form.perform state = (.ok .invalidLogin,
      (state.seeded form.env).setAccounts (state.seeded form.env).accounts) := by
  rcases exists_first_current (Setting.seed form.env) state.configuration.settings with
    ⟨row, first⟩
  have isFirst : (state.seeded form.env).configuration.settings.first = some row := first
  have mismatch : ¬ ((State.account row.2).authenticate form.env.crypto form.password &&
      (State.account row.2).username = form.username) = true := by
    intro isMatch
    simp only [Auth.Setting.authenticate, Bool.and_eq_true, Bool.not_eq_true',
      decide_eq_true_eq] at isMatch
    exact refused ⟨row, isFirst, isMatch.1.1, isMatch.1.2, isMatch.2⟩
  have login : Auth.login form.env.crypto form.now form.username form.password form.raw
      form.ipAddress form.userAgent (state.seeded form.env).accounts =
        (.ok .invalidLogin, (state.seeded form.env).accounts) := by
    rw [Auth.login, Exec.bind_ok (Auth.Setting.current_of_head (head_accounts isFirst)),
      if_neg mismatch]
    rfl
  rw [SignIn.perform, Exec.bind_ok (Exec.modify_apply _ _), Exec.zoom_apply, login]

theorem endsSessions_next {target : State} {happening : Happening}
    (outside : Outside state happening) (step : next state happening = some target) :
    EndsSessions state target := by
  cases happening with
  | visit visit action =>
      cases step
      rw [Visit.perform_of_not_authentic outside]
      exact EndsSessions.of_fewer (keeps_loggedIn state.accounts)
  | console visit message =>
      cases step
      rw [Visit.console, Exec.bind_ok (Visit.loggedIn_of_not_authentic outside),
        if_neg Bool.false_ne_true]
      exact EndsSessions.of_fewer (keeps_loggedIn state.accounts)
  | signIn form =>
      cases step
      rw [signIn_of_not_matches outside]
      exact (EndsSessions.of_seeded form.env).trans (EndsSessions.of_fewer (Std.Refl.refl _))
  | signOut crypto now headers =>
      cases step
      exact EndsSessions.of_fewer (keeps_logout state.accounts)
  | sweep now =>
      cases step
      exact EndsSessions.of_fewer (keeps_keepSessions _ state.accounts)
  | tick env => exact outside.elim
  | shells turn => exact outside.elim

end

/-- Over a run of requests without credentials, in whatever order, sessions are ended
and nothing else changes, but for the first row of the settings. -/
theorem endsSessions_of_run {start target : State} {happenings : List Happening}
    (outside : Throughout next Outside start happenings)
    (executed : run next start happenings = some target) : EndsSessions start target := by
  induction happenings generalizing start with
  | nil =>
      cases executed
      exact ⟨Or.inl rfl, rfl, rfl, rfl, rfl, rfl, rfl, Std.Refl.refl _⟩
  | cons happening rest ih =>
      obtain ⟨middle, step, tail⟩ := (run_cons_eq_some_iff _ _ _ _ _).mp executed
      obtain ⟨condition, later⟩ := outside middle step
      exact (endsSessions_next condition step).trans (ih later tail)

/-- An installation in which the owner has signed in. -/
def signedInState : State := (firstSignIn.perform (first emptyDisk)).2

/-- The same site, long after the session of the owner has expired. -/
def laterSite : Web.ActionEnvironment :=
  { Web.plainSite with deployment := { Web.plainSite.deployment with now := 10 ^ 15 } }

/-- A visit without a cookie, a guess, a visit with the expired cookie and another guess. -/
def intrusion : List Happening :=
  let creation : Records.Request :=
    ⟨"POST", "/webhooks", .object [("webhook", webhookForm "key")]⟩
  let guess : Happening := .signIn { firstSignIn with username := "root" }
  [.visit ⟨Web.plainSite, ⟨0, "0000"⟩, ⟨none, none, none⟩, creation, false⟩ (.webhooks .create),
    guess,
    .visit ⟨laterSite, ⟨0, "0001"⟩, ⟨some "s1", none, none⟩, creation, false⟩ (.webhooks .create),
    guess]

theorem endsSessions_of_run_intrusion :
    ∃ target, run next signedInState intrusion = some target ∧
      signedInState.accounts.sessions.length = 1 ∧ target.accounts.sessions.length = 0 ∧
      EndsSessions signedInState target := by
  refine ⟨_, rfl, rfl, rfl, @endsSessions_of_run _ _ intrusion ?_ rfl⟩
  rintro _ ⟨⟩
  refine ⟨by decide, ?_⟩
  rintro _ ⟨⟩
  refine ⟨by decide, ?_⟩
  rintro _ ⟨⟩
  refine ⟨by decide, ?_⟩
  rintro _ ⟨⟩
  exact ⟨by decide, trivial⟩

end MultipassWebui.Installation
