import MultipassWebui.Auth.Requests
import MultipassWebui.Effect.Frame
import MultipassWebui.Scheduler.Job
import MultipassWebui.Web.AuditPayload
import MultipassWebui.Web.Replies

/-!
# The whole installation

One process serves requests, runs the recurring jobs and keeps the shells.  Its
state is made up of the tables, the disk, the machines and the shells, and what
happens to it comes in any order: visits with or without credentials, sign-ins
and sign-outs, ticks of the scheduler, sweeps of the sessions, and the turns of
the reader threads, of the shells and of the reaper.
-/

namespace MultipassWebui.Installation

open MultipassWebui.Auth (Crypto Headers Store)
open MultipassWebui.Effect
open MultipassWebui.Files (Disk)
open MultipassWebui.Migration (Setting)
open MultipassWebui.Records
open MultipassWebui.Terminals (ReadResult ReapEnvironment Server SessionRef)
open MultipassWebui.Transition
open MultipassWebui.Web

/-- The tables, the disk, the machines and the shells.  The settings of the store
of credentials are those of the configuration. -/
structure State where
  configuration : Configuration
  webhooks : List Migration.Webhook
  profiles : List StoredProfile
  database : Database
  credentials : Store
  disk : Disk
  shells : ShellHost

namespace State

/-- The audit log. -/
def log (state : State) : List Event := state.database.events

def setLog (events : List Event) (state : State) : State :=
  { state with database := { state.database with events } }

/-- The row of the settings that signing in reads. -/
def account (setting : Setting) : Auth.Setting := ⟨setting.username, setting.passwordDigest⟩

/-- The credentials, with the settings as signing in sees them. -/
def accounts (state : State) : Store :=
  { state.credentials with settings := state.configuration.settings.values.map account }

def setAccounts (store : Store) (state : State) : State := { state with credentials := store }

/-- `Setting.current` creates the row where there is none. -/
def seeded (env : Migration.Environment) (state : State) : State :=
  { state with
    configuration := { state.configuration with
      settings := Migration.current (Setting.seed env) state.configuration.settings } }

/-- What an action works on. -/
def part (state : State) : (action : Action) → action.State
  | .updateSettings => state.configuration
  | .webhooks _ => state.webhooks
  | .profiles _ => state.profiles
  | .schedules _ => state.database
  | .createToken | .destroyToken => state.accounts
  | .templates _ | .playbooks _ => state.disk
  | .vms _ => state.shells.host
  | .openShell | .closeShell => state.shells

def setPart (state : State) : (action : Action) → action.State → State
  | .updateSettings, configuration => { state with configuration }
  | .webhooks _, webhooks => { state with webhooks }
  | .profiles _, profiles => { state with profiles }
  | .schedules _, database => { state with database }
  | .createToken, store | .destroyToken, store => state.setAccounts store
  | .templates _, disk | .playbooks _, disk => { state with disk }
  | .vms _, host => { state with shells := { state.shells with host } }
  | .openShell, shells | .closeShell, shells => { state with shells }

end State

/-! ## Visits -/

/-- What a visitor sends, what the action meets, and the id that it draws. -/
structure Visit where
  site : ActionEnvironment
  stamp : EventStamp
  headers : Headers
  request : Request
  /-- The reply is a page, whose layout shows the user name of `Setting.current`. -/
  page : Bool

namespace Visit

variable (visit : Visit)

def crypto : Crypto := visit.site.deployment.env.crypto

def now : Int := visit.site.deployment.now

/-- `logged_in?` -/
def loggedIn : Exec State RubyError Bool :=
  Exec.zoom State.accounts State.setAccounts
    (Auth.loggedIn visit.crypto visit.now visit.headers)

/-- `Setting.current` is asked for the directory of the files. -/
def asksDirectory : Action → Bool
  | .templates .show | .templates .edit =>
      match param visit.request "name" with
      | .string name => (CloudInitTemplatesController.builtinName name).isNone
      | _ => false
  | .templates .create | .templates .update =>
      (Multipass.Cloudinit.validateCloudInitYaml visit.site.templates.toText
        visit.site.templates.yamlError (param visit.request "content") :
          Except RubyError PUnit.{1}).isOk
  | .templates .destroy | .playbooks _ => true
  | _ => false

/-- The row is created before the action, which finds it. -/
def prepared (action : Action) (state : State) : State :=
  if visit.page || visit.asksDirectory action then state.seeded visit.site.deployment.env
  else state

/-- `Setting.current` -/
def setting (state : State) : Setting :=
  (state.configuration.settings.first.map Prod.snd).getD
    (Setting.seed visit.site.deployment.env)

/-- The directories of templates and playbooks are read from the settings. -/
def siteIn (state : State) : ActionEnvironment :=
  { visit.site with
    templates := { visit.site.templates with cloudInitDir := (visit.setting state).cloudInitDir }
    playbooks := { visit.site.playbooks with playbooksDir := (visit.setting state).playbooksDir } }

/-- A computation on the part of an action and the log. -/
def onPart {α : Type} (action : Action) (body : Exec (App action.State) RubyError α) :
    Exec State RubyError α :=
  Exec.zoom (fun state => ⟨state.part action, state.log⟩)
    (fun app state => (state.setPart action app.state).setLog app.events) body

/-- The action, once `require_login` has let the request in. -/
def act (action : Action) : Exec State RubyError PUnit := fun state =>
  onPart action (action.perform (visit.siteIn state) visit.stamp visit.request) state

/-- `require_login`, and then the action. -/
def perform (action : Action) : Exec State RubyError PUnit := do
  if ← visit.loggedIn then do
    Exec.modify (visit.prepared action)
    visit.act action

/-- `VmsController#console`, which writes nothing to the log; `message` is `e.message`. -/
def console (message : RubyError → String) : Exec State RubyError PUnit := do
  if ← visit.loggedIn then do
    Exec.modify (visit.prepared .openShell)
    let _ ← onPart .openShell (VmsController.consoleReply visit.site.multipass message
      visit.request visit.site.spawn visit.site.sessionId)

end Visit

/-! ## Signing in and out -/

/-- The user name and the password of the form, and the token that is drawn. -/
structure SignIn where
  env : Migration.Environment
  now : Int
  username : String
  password : String
  raw : String
  ipAddress : Option String
  userAgent : Option String

/-- `SessionsController#create`; `Setting.current` comes first. -/
def SignIn.perform (signIn : SignIn) : Exec State RubyError Auth.Reply := do
  Exec.modify (State.seeded signIn.env)
  Exec.zoom State.accounts State.setAccounts
    (Auth.login signIn.env.crypto signIn.now signIn.username signIn.password signIn.raw
      signIn.ipAddress signIn.userAgent)

/-- `SessionsController#destroy`, which finds no session unless the request is let in. -/
def signOut (crypto : Crypto) (now : Int) (headers : Headers) :
    Exec State RubyError Auth.Reply :=
  Exec.zoom State.accounts State.setAccounts (Auth.logout crypto now headers)

/-! ## Jobs and threads -/

/-- `SchedulerTickJob#perform` -/
def tick (env : Scheduler.Environment) : Exec State RubyError PUnit :=
  Exec.zoom (fun state => ⟨state.database, [], []⟩)
    (fun world state => { state with database := world.db }) (Scheduler.Job.perform env)

/-- `SweepSessionsJob#perform` -/
def sweep (now : Int) : Exec State RubyError PUnit :=
  Exec.zoom State.accounts State.setAccounts (Auth.Session.sweep now)

/-- What happens to the shells without a request. -/
inductive ShellTurn where
  /-- The reader thread of a session takes a turn. -/
  | read (ref : SessionRef) (result : ReadResult)
  | exits (ref : SessionRef)
  /-- `ReapIdleSessionsJob#perform` -/
  | reap (env : ReapEnvironment)

def ShellTurn.action : ShellTurn → Server.Action
  | .read ref result => .read ref result
  | .exits ref => .shellExits ref
  | .reap env => .reap env

/-! ## Everything that happens -/

inductive Happening where
  | visit (visit : Visit) (action : Action)
  | console (visit : Visit) (message : RubyError → String)
  | signIn (form : SignIn)
  | signOut (crypto : Crypto) (now : Int) (headers : Headers)
  | tick (env : Scheduler.Environment)
  | sweep (now : Int)
  | shells (turn : ShellTurn)

/-- What a computation leaves, whether it returns or raises, is the next state. -/
def next : Step State Happening
  | state, .visit visit action => some (visit.perform action state).2
  | state, .console visit message => some (visit.console message state).2
  | state, .signIn form => some (form.perform state).2
  | state, .signOut crypto now headers => some (Installation.signOut crypto now headers state).2
  | state, .tick env => some (Installation.tick env state).2
  | state, .sweep now => some (Installation.sweep now state).2
  | state, .shells turn =>
      (Server.next state.shells.server turn.action).map fun server =>
        { state with shells := { state.shells with server } }

/-- The first start of the application, on a given disk. -/
def first (disk : Disk) : State :=
  ⟨⟨Table.empty, Table.empty⟩, [], [], Database.empty, Store.empty, disk,
    ⟨⟨[], Collections.OrderedHash.empty, none, []⟩, Server.empty⟩⟩

/-! ## Looking for a session -/

/-- Sessions are deleted, and nothing else. -/
structure Fewer (before after : Store) : Prop where
  sessions : List.Sublist after.sessions before.sessions
  apiTokens : after.apiTokens = before.apiTokens
  sequence : after.sessionSequence = before.sessionSequence

instance isPreorder_fewer : IsPreorder Store Fewer where
  refl _ := ⟨List.Sublist.refl _, rfl, rfl⟩
  trans _ _ _ first second := ⟨second.sessions.trans first.sessions,
    second.apiTokens.trans first.apiTokens, second.sequence.trans first.sequence⟩

section

variable {crypto : Crypto} {now : Int} {headers : Headers}

theorem keeps_keepSessions (kept : Auth.Session → Bool) :
    Exec.Keeps Fewer (Exec.modify (Store.keepSessions kept) : Exec Store RubyError PUnit) :=
  fun _ => ⟨List.filter_sublist, rfl, rfl⟩

theorem keeps_reap (session : Auth.Session) : Exec.Keeps Fewer (session.reap now) := by
  unfold Auth.Session.reap
  dsimp only
  split_ifs
  · exact Exec.keeps_bind (keeps_keepSessions _) fun _ => Exec.keeps_pure _
  · exact Exec.keeps_pure _

theorem keeps_currentSession : Exec.Keeps Fewer (Auth.currentSession crypto now headers) := by
  unfold Auth.currentSession Auth.Session.findValid
  split
  · exact Exec.keeps_pure _
  · split_ifs
    · exact Exec.keeps_pure _
    · refine Exec.keeps_bind (Exec.keeps_gets _) fun found => ?_
      cases found with
      | none => exact Exec.keeps_pure _
      | some session =>
          dsimp only
          split_ifs
          · exact Exec.keeps_pure _
          · exact keeps_reap session

theorem keeps_loggedIn : Exec.Keeps Fewer (Auth.loggedIn crypto now headers) := by
  unfold Auth.loggedIn
  refine Exec.keeps_bind keeps_currentSession fun found => ?_
  split_ifs
  · exact Exec.keeps_pure _
  · exact Exec.keeps_gets _

theorem keeps_logout : Exec.Keeps Fewer (Auth.logout crypto now headers) := by
  unfold Auth.logout
  refine Exec.keeps_bind keeps_currentSession fun found => ?_
  cases found with
  | none => exact Exec.keeps_pure _
  | some session => exact Exec.keeps_bind (keeps_keepSessions _) fun _ => Exec.keeps_pure _

end

/-! ## What a visit does -/

namespace Visit

variable {visit : Visit} {state : State} {action : Action}

/-- The request carries a valid session cookie or a live API token. -/
def Authentic (visit : Visit) (state : State) : Prop :=
  Auth.Authentic visit.crypto visit.now visit.headers state.accounts

instance decidableAuthentic (visit : Visit) (state : State) :
    Decidable (visit.Authentic state) :=
  inferInstanceAs (Decidable (Auth.Authentic _ _ _ _))

/-- The state after a visitor was let in or not. -/
def admitted (visit : Visit) (state : State) : State := (visit.loggedIn state).2

/-- The state in which the action of a visit begins. -/
def begun (visit : Visit) (action : Action) (state : State) : State :=
  visit.prepared action (visit.admitted state)

theorem loggedIn_of_authentic (authentic : visit.Authentic state) :
    visit.loggedIn state = (.ok true, visit.admitted state) := by
  rcases Auth.loggedIn_of_authentic authentic with ⟨after, letIn⟩
  rw [admitted, loggedIn, Exec.zoom_apply, letIn]

theorem loggedIn_of_not_authentic (refused : ¬ visit.Authentic state) :
    visit.loggedIn state = (.ok false, visit.admitted state) := by
  rcases Auth.loggedIn_of_not_authentic refused with ⟨after, isRefused⟩
  rw [admitted, loggedIn, Exec.zoom_apply, isRefused]

/-- What asking for the settings keeps holds where an action begins if it holds of the
visitor who is let in. -/
theorem begun_of {holds : State → Prop} (visit : Visit) (action : Action) (state : State)
    (admitted : holds (visit.admitted state))
    (seeded : ∀ env reached, holds reached → holds (State.seeded env reached)) :
    holds (visit.begun action state) := by
  unfold begun prepared
  split_ifs
  · exact seeded _ _ admitted
  · exact admitted

@[simp]
theorem log_begun : (visit.begun action state).log = state.log :=
  @begun_of (fun reached => reached.log = state.log) visit action state rfl fun _ _ same => same

@[simp]
theorem webhooks_begun : (visit.begun action state).webhooks = state.webhooks :=
  @begun_of (fun reached => reached.webhooks = state.webhooks) visit action state rfl
    fun _ _ same => same

@[simp]
theorem profiles_begun : (visit.begun action state).profiles = state.profiles :=
  @begun_of (fun reached => reached.profiles = state.profiles) visit action state rfl
    fun _ _ same => same

theorem perform_of_authentic (authentic : visit.Authentic state) :
    visit.perform action state = visit.act action (visit.begun action state) := by
  rw [perform, Exec.bind_ok (loggedIn_of_authentic authentic), if_pos rfl]
  rfl

theorem perform_of_not_authentic (refused : ¬ visit.Authentic state) :
    visit.perform action state = (.ok ⟨⟩, visit.admitted state) := by
  rw [perform, Exec.bind_ok (loggedIn_of_not_authentic refused), if_neg Bool.false_ne_true]
  rfl

end Visit

/-! ## Steps that are no action -/

/-- The tables that only actions change are kept, and so is the disk. -/
structure Aside (before after : State) : Prop where
  vmDefaults : after.configuration.vmDefaults = before.configuration.vmDefaults
  webhooks : after.webhooks = before.webhooks
  profiles : after.profiles = before.profiles
  disk : after.disk = before.disk

/-- A step is the action of a visit that is let in, or it keeps these tables. -/
theorem next_cases {state target : State} {happening : Happening}
    (step : next state happening = some target) :
    (∃ visit action, happening = .visit visit action ∧ visit.Authentic state ∧
      target = (visit.act action (visit.begun action state)).2) ∨ Aside state target := by
  cases happening with
  | visit visit action =>
      cases step
      by_cases authentic : visit.Authentic state
      · rw [Visit.perform_of_authentic authentic]
        exact Or.inl ⟨visit, action, rfl, authentic, rfl⟩
      · rw [Visit.perform_of_not_authentic authentic]
        exact Or.inr ⟨rfl, rfl, rfl, rfl⟩
  | console visit message =>
      cases step
      right
      by_cases authentic : visit.Authentic state
      · rw [Visit.console, Exec.bind_ok (Visit.loggedIn_of_authentic authentic), if_pos rfl,
          Exec.bind_ok (Exec.modify_apply _ _), Exec.bind_state fun _ _ => rfl]
        have aside : Aside state (visit.begun .openShell state) :=
          visit.begun_of .openShell state ⟨rfl, rfl, rfl, rfl⟩
            fun _ _ ⟨vmDefaults, webhooks, profiles, disk⟩ => ⟨vmDefaults, webhooks, profiles, disk⟩
        exact ⟨aside.vmDefaults, aside.webhooks, aside.profiles, aside.disk⟩
      · rw [Visit.console, Exec.bind_ok (Visit.loggedIn_of_not_authentic authentic),
          if_neg Bool.false_ne_true]
        exact ⟨rfl, rfl, rfl, rfl⟩
  | signIn form | signOut crypto now headers | tick env | sweep now =>
      cases step
      exact Or.inr ⟨rfl, rfl, rfl, rfl⟩
  | shells turn =>
      rcases Option.map_eq_some_iff.mp step with ⟨server, _, rfl⟩
      exact Or.inr ⟨rfl, rfl, rfl, rfl⟩

/-! ## A first run -/

def emptyDisk : Disk := ⟨Files.Tree.empty, []⟩

/-- The first sign-in, with the password that the settings begin with. -/
def firstSignIn : SignIn := ⟨Migration.plainEnvironment, 0, "admin", "admin", "s1", none, none⟩

/-- A visit in the session of the first sign-in. -/
def signedIn (suffix : String) (request : Request) : Visit :=
  ⟨plainSite, ⟨0, suffix⟩, ⟨some "s1", none, none⟩, request, false⟩

def webhookForm (secret : String) : Encoding.Json :=
  .object [("name", .string "ops"), ("url", .string "https://ops.test/hook"),
    ("secret", .string secret)]

/-- The owner signs in and creates a webhook. -/
def opening : List Happening :=
  [.signIn firstSignIn,
    .visit (signedIn "0000" ⟨"POST", "/webhooks", .object [("webhook", webhookForm "key")]⟩)
      (.webhooks .create)]

end MultipassWebui.Installation
