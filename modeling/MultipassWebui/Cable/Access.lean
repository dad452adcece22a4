import MultipassWebui.Cable.System
import MultipassWebui.Terminals.Invariant

/-!
# Who writes to a shell

Requests reach a terminal through `require_login`, cables reach it without.
What clients write comes from authenticated clients as long as every
subscription to an open session happens to be made over an authentic
connection.  A single subscription that is not lets its client write.
-/

namespace MultipassWebui.Cable

open MultipassWebui.Auth (Crypto Headers Reply Store)
open MultipassWebui.Collections
open MultipassWebui.Effect
open MultipassWebui.Encoding
open MultipassWebui.Terminals
open MultipassWebui.Transition

/-- Whatever clients have written to a pseudo terminal came over a channel
whose connection was authentic when the channel was subscribed. -/
def OnlyAuthenticated (system : System) : Prop :=
  ∀ write ∈ system.writes, write.credentialed = true

instance : DecidablePred OnlyAuthenticated := fun system =>
  inferInstanceAs (Decidable (∀ write ∈ system.writes, _))

/-- A subscription to an open session is made over an authentic connection. -/
def SubscribesAuthenticated (framework : Framework) (system : System) : Action → Prop
  | .subscribe connection _ params =>
      ∀ client ∈ system.connections.get? connection,
        ∀ ref ∈ TerminalChannel.namedSession params system.terminals,
          ∀ session ∈ system.terminals.objects[ref]?, session.Open →
            Auth.Authentic framework.crypto system.now client.headers system.store
  | _ => True

instance (framework : Framework) (system : System) (action : Action) :
    Decidable (SubscribesAuthenticated framework system action) :=
  match action with
  | .subscribe connection _ params =>
      inferInstanceAs (Decidable (∀ client ∈ system.connections.get? connection,
        ∀ ref ∈ TerminalChannel.namedSession params system.terminals,
          ∀ session ∈ system.terminals.objects[ref]?, session.Open → _))
  | .tick _ | .login _ _ _ _ _ | .request _ _ | .sweep | .read _ _ | .shellExits _ | .reap _
  | .connect _ _ | .disconnect _ | .unsubscribe _ _ | .receive _ _ _ => isTrue trivial

/-! ## Requests and the background -/

/-- What leaves the cables alone and changes the terminals by their own steps. -/
structure RequestFrame (before after : System) : Prop where
  connections : after.connections = before.connections
  writes : after.writes = before.writes
  terminals : Reachable Server.next before.terminals after.terminals

instance : IsPreorder System RequestFrame where
  refl _ := ⟨rfl, rfl, Reachable.refl _ _⟩
  trans _ _ _ first second :=
    ⟨second.connections.trans first.connections, second.writes.trans first.writes,
      first.terminals.trans second.terminals⟩

section Frame

variable {α : Type}

theorem keeps_onStore (body : Exec Store RubyError α) : Exec.Keeps RequestFrame (onStore body) :=
  fun _ => ⟨rfl, rfl, Reachable.refl _ _⟩

theorem keeps_onTerminals {body : Exec Server RubyError α} (action : Server.Action)
    (isStep : ∀ server, Server.next server action = some (body server).2) :
    Exec.Keeps RequestFrame (onTerminals body) := by
  have keeps : Exec.Keeps (Reachable Server.next) body :=
    fun server => (Reachable.refl _ _).tail (isStep server)
  exact Exec.keeps_zoom keeps fun _ _ reachable => ⟨rfl, rfl, reachable⟩

theorem keeps_setVmName (vmName : String) {action : Exec System RubyError Reply}
    (keeps : Exec.Keeps RequestFrame action) :
    Exec.Keeps RequestFrame (setVmName vmName action) := by
  unfold setVmName
  split_ifs
  · exact keeps
  · exact Exec.keeps_pure _

theorem keeps_requireRunningVm (vmState : Except RubyError String)
    {action : Exec System RubyError Reply} (keeps : Exec.Keeps RequestFrame action) :
    Exec.Keeps RequestFrame (requireRunningVm vmState action) := by
  cases vmState with
  | ok state =>
      unfold requireRunningVm
      dsimp only
      split_ifs
      · exact keeps
      · exact Exec.keeps_pure _
  | error error =>
      unfold requireRunningVm
      dsimp only
      split_ifs
      · exact Exec.keeps_pure _
      · exact Exec.keeps_raise _

theorem keeps_openShell (vmName sessionId : String) (env : SpawnEnvironment) :
    Exec.Keeps RequestFrame (openShell vmName sessionId env) := by
  apply Exec.keeps_rescue
  · apply Exec.keeps_bind
    · exact keeps_onTerminals (.openSession vmName sessionId env) fun _ => rfl
    · intro _
      exact Exec.keeps_pure _
  · intro error handled handles
    cases error <;> cases handles <;> exact Exec.keeps_pure _

theorem keeps_perform (framework : Framework) (headers : Headers) (request : Request) :
    Exec.Keeps RequestFrame (perform framework headers request) := by
  cases request with
  | logout => exact Exec.keeps_bind (Exec.keeps_gets _) fun _ => keeps_onStore _
  | createToken name slugHex tokenHex => exact keeps_onStore _
  | destroyToken idSlug => exact keeps_onStore _
  | createShell vmName sessionId vmState env =>
      refine Exec.keeps_bind (Exec.keeps_gets _) fun now => ?_
      exact keeps_setVmName _ (keeps_requireRunningVm _ (keeps_openShell _ _ _))
  | destroyShell vmName sessionId =>
      apply keeps_setVmName
      apply Exec.keeps_bind
      · exact keeps_onTerminals (.kill sessionId) fun _ => rfl
      · intro _
        exact Exec.keeps_pure _
  | console vmName env =>
      refine Exec.keeps_bind (Exec.keeps_gets _) fun now => keeps_setVmName _ ?_
      apply Exec.keeps_bind
      · exact keeps_onTerminals (.console vmName _) fun _ => rfl
      · intro reply
        cases reply with
        | page sessionId => exact Exec.keeps_pure _
        | redirect => exact Exec.keeps_pure _

theorem keeps_handle (framework : Framework) (headers : Headers) (request : Request) :
    Exec.Keeps RequestFrame (handle framework headers request) := by
  refine Exec.keeps_bind (Exec.keeps_gets _) fun now => ?_
  refine Exec.keeps_bind (keeps_onStore _) fun isLoggedIn => ?_
  cases isLoggedIn with
  | true => exact keeps_perform framework headers request
  | false => exact Exec.keeps_pure _

/-- A request that is not authentic reaches no terminal. -/
theorem handle_of_not_authentic {framework : Framework} {system : System} {headers : Headers}
    (notAuthentic : ¬ Auth.Authentic framework.crypto system.now headers system.store)
    (request : Request) :
    ∃ store, handle framework headers request system =
      (.ok .authenticationRequired, system.setStore store) := by
  rcases Auth.loggedIn_of_not_authentic notAuthentic with ⟨store, refused⟩
  have checked : onStore (Auth.loggedIn framework.crypto system.now headers) system =
      (.ok false, system.setStore store) := by
    rw [onStore, Exec.zoom_apply, refused]
  refine ⟨store, ?_⟩
  rw [handle, Exec.bind_ok (Exec.gets_apply _ _), Exec.bind_ok checked]
  rfl

theorem background_frame {system target : System} {action : Server.Action}
    (step : background system action = some target) : RequestFrame system target := by
  rcases Option.map_eq_some_iff.mp step with ⟨terminals, serverStep, rfl⟩
  exact ⟨rfl, rfl, (Reachable.refl _ _).tail serverStep⟩

end Frame

/-! ## The invariant -/

/-- The channels of a connection are credentialed or lead nowhere. -/
def Connection.Guarded (terminals : Server) (client : Connection) : Prop :=
  ∀ channel ∈ client.subscriptions.entries,
    channel.2.credentialed = true ∨ terminals.Shut channel.2.session

/-- Nothing was written without credentials, and no channel without
credentials leads to an open session. -/
structure System.Guarded (system : System) : Prop where
  wellFormed : system.terminals.WellFormed
  connections : ∀ client ∈ system.connections.entries, client.2.Guarded system.terminals
  writes : OnlyAuthenticated system

/-- Input that arrives changes a session in a benign way. -/
theorem benign_receiveOn (session : Session) (payload : Json) :
    Session.Benign session (TerminalChannel.receiveOn payload session).2 := by
  have benign_write : ∀ bytes, Session.Benign session (Session.write bytes true session).2 := by
    intro bytes
    rcases Session.write_state session bytes true with same | ⟨isOpen, master, opened, written⟩
    · rw [same]
      exact ⟨rfl, id, id, id⟩
    · rw [written]
      refine ⟨rfl, fun _ => isOpen, fun sound => ⟨fun _ => rfl, ?_⟩, fun settled => settled⟩
      intro other isMaster closed
      cases isMaster
      rw [opened] at closed
      cases closed
  rcases TerminalChannel.receiveOn_state session payload with same | ⟨bytes, received⟩
  · rw [same]
    exact ⟨rfl, id, id, id⟩
  · rw [received]
    exact benign_write bytes

/-- A session that cannot be written to ignores input. -/
theorem receiveOn_of_not_open {session : Session} (notOpen : ¬ session.Open) (payload : Json) :
    (TerminalChannel.receiveOn payload session).2 = session := by
  rcases TerminalChannel.receiveOn_state session payload with same | ⟨bytes, received⟩
  · exact same
  · rcases Session.write_state session bytes true with same | ⟨isOpen, _⟩
    · rw [received, same]
    · exact absurd isOpen notOpen

section Steps

variable {framework : Framework} {system target : System}

theorem System.Guarded.frame (guarded : system.Guarded) (frame : RequestFrame system target) :
    target.Guarded := by
  constructor
  · exact guarded.wellFormed.reachable frame.terminals
  · intro client member channel isChannel
    rw [frame.connections] at member
    rcases guarded.connections client member channel isChannel with credentialed | shut
    · exact Or.inl credentialed
    · exact Or.inr (shut.reachable guarded.wellFormed frame.terminals)
  · unfold OnlyAuthenticated
    rw [frame.writes]
    exact guarded.writes

theorem System.Guarded.setConnection (guarded : system.Guarded) {client : Connection}
    (safe : client.Guarded system.terminals) (connection : Nat) :
    (system.setConnection connection client).Guarded := by
  constructor
  · exact guarded.wellFormed
  · rintro ⟨other, found⟩ member
    rcases OrderedHash.mem_insert_iff.mp member with ⟨_, rfl⟩ | ⟨_, old⟩
    · exact safe
    · exact guarded.connections _ old
  · exact guarded.writes

theorem System.Guarded.client (guarded : system.Guarded) {connection : Nat} {client : Connection}
    (found : system.connections.get? connection = some client) :
    client.Guarded system.terminals :=
  guarded.connections _ (OrderedHash.get?_eq_some_iff.mp found)

/-- What an accepted or rejected subscription does. -/
theorem subscribe_cases (wf : system.terminals.WellFormed) {connection : Nat} {identifier : String}
    {params : Json} (step : system.subscribe framework connection identifier params = some target) :
    ∃ client, system.connections.get? connection = some client ∧
      (TerminalChannel.namedSession params system.terminals = none ∧ target = system ∨
        ∃ ref, TerminalChannel.namedSession params system.terminals = some ref ∧
          target = system.setConnection connection
            { client with
              subscriptions := client.subscriptions.insert identifier
                ⟨ref, decide (Auth.Authentic framework.crypto system.now client.headers
                  system.store)⟩ }) := by
  rcases Option.bind_eq_some_iff.mp step with ⟨client, found, rest⟩
  refine ⟨client, found, ?_⟩
  rw [TerminalChannel.subscribed_apply wf.free] at rest
  split_ifs at rest
  cases named : TerminalChannel.namedSession params system.terminals with
  | none =>
      rw [named] at rest
      cases rest
      exact Or.inl ⟨rfl, rfl⟩
  | some ref =>
      rw [named] at rest
      cases rest
      exact Or.inr ⟨ref, rfl, rfl⟩

theorem System.Guarded.subscribe (guarded : system.Guarded) {connection : Nat} {identifier : String}
    {params : Json}
    (condition : SubscribesAuthenticated framework system (.subscribe connection identifier params))
    (step : system.subscribe framework connection identifier params = some target) :
    target.Guarded := by
  rcases subscribe_cases guarded.wellFormed step with
    ⟨client, found, ⟨_, rfl⟩ | ⟨ref, named, rfl⟩⟩
  · exact guarded
  · apply guarded.setConnection
    rintro ⟨other, channel⟩ member
    rcases OrderedHash.mem_insert_iff.mp member with ⟨_, rfl⟩ | ⟨_, old⟩
    · by_cases authentic : Auth.Authentic framework.crypto system.now client.headers system.store
      · exact Or.inl (decide_eq_true authentic)
      · right
        have bound : ref < system.terminals.objects.length := by
          unfold TerminalChannel.namedSession at named
          split_ifs at named
          rcases Option.bind_eq_some_iff.mp named with ⟨sessionId, _, registered⟩
          exact guarded.wellFormed.bound (OrderedHash.get?_eq_some_iff.mp registered)
        have isSession := List.getElem?_eq_getElem bound
        exact ⟨_, isSession, fun isOpen =>
          authentic (condition client found ref named _ isSession isOpen)⟩
    · exact guarded.client found _ old

/-- What a received message does. -/
theorem receive_cases {connection : Nat} {identifier : String} {payload : Json}
    (step : system.receive connection identifier payload = some target) :
    ∃ client channel, system.connections.get? connection = some client ∧
      client.subscriptions.get? identifier = some channel ∧
      target.connections = system.connections ∧
      target.terminals = system.terminals.updateObject channel.session
        (fun session => (TerminalChannel.receiveOn payload session).2) ∧
      target.writes = system.writes ++ System.writesOf channel.credentialed
        (System.inputOf system.terminals channel.session)
        (System.inputOf target.terminals channel.session) := by
  rcases Option.bind_eq_some_iff.mp step with ⟨client, found, rest⟩
  rcases Option.bind_eq_some_iff.mp rest with ⟨channel, isChannel, final⟩
  cases final
  exact ⟨client, channel, found, isChannel, rfl, Server.onObject_state _ _, rfl⟩

theorem credentialed_of_mem_writesOf {credentialed : Bool} {before after : Bytes}
    {write : TerminalWrite} (member : write ∈ System.writesOf credentialed before after) :
    write.credentialed = credentialed := by
  unfold System.writesOf at member
  split_ifs at member
  · cases member
  · rw [List.mem_singleton.mp member]

theorem System.Guarded.receive (guarded : system.Guarded) {connection : Nat} {identifier : String}
    {payload : Json} (step : system.receive connection identifier payload = some target) :
    target.Guarded := by
  rcases receive_cases step with
    ⟨client, channel, found, isChannel, sameConnections, terminals, written⟩
  have benign : ∀ session, system.terminals.objects[channel.session]? = some session →
      Session.Benign session (TerminalChannel.receiveOn payload session).2 :=
    fun session _ => benign_receiveOn session payload
  constructor
  · rw [terminals]
    exact guarded.wellFormed.updateObject benign
  · intro other member otherChannel isOther
    rw [sameConnections] at member
    rcases guarded.connections other member otherChannel isOther with credentialed | shut
    · exact Or.inl credentialed
    · rw [terminals]
      exact Or.inr (shut.updateObject benign)
  · intro write member
    rw [written] at member
    rcases List.mem_append.mp member with old | new
    · exact guarded.writes write old
    · have listed := OrderedHash.get?_eq_some_iff.mp isChannel
      rcases guarded.client found _ listed with credentialed | shut
      · rw [credentialed_of_mem_writesOf new]
        exact credentialed
      · rcases shut with ⟨session, isSession, notOpen⟩
        have sameInput : System.inputOf target.terminals channel.session =
            System.inputOf system.terminals channel.session := by
          rw [terminals, System.inputOf, Server.getElem?_updateObject_self isSession,
            receiveOn_of_not_open notOpen, System.inputOf, isSession]
        rw [sameInput, System.writesOf, if_pos rfl] at new
        cases new

/-- One step. -/
theorem System.Guarded.next (guarded : system.Guarded) {action : Action}
    (condition : SubscribesAuthenticated framework system action)
    (step : next framework system action = some target) : target.Guarded := by
  cases action with
  | tick elapsed =>
      cases step
      exact guarded.frame ⟨rfl, rfl, Reachable.refl _ _⟩
  | login username password raw ipAddress userAgent =>
      cases step
      exact guarded.frame (keeps_onStore _ system)
  | request headers request =>
      cases step
      exact guarded.frame (keeps_handle framework headers request system)
  | sweep =>
      cases step
      exact guarded.frame (keeps_onStore _ system)
  | read session result => exact guarded.frame (background_frame step)
  | shellExits session => exact guarded.frame (background_frame step)
  | reap subscribers => exact guarded.frame (background_frame step)
  | connect connection headers =>
      simp only [Cable.next, System.connect] at step
      split_ifs at step
      cases step
      exact guarded.setConnection (fun _ member => absurd member List.not_mem_nil) connection
  | disconnect connection =>
      cases step
      exact ⟨guarded.wellFormed,
        fun client member => guarded.connections client (OrderedHash.mem_delete_iff.mp member).2,
        guarded.writes⟩
  | subscribe connection identifier params => exact guarded.subscribe condition step
  | unsubscribe connection identifier =>
      rcases Option.bind_eq_some_iff.mp step with ⟨client, found, rest⟩
      cases rest
      apply guarded.setConnection
      intro channel member
      exact guarded.client found channel (OrderedHash.mem_delete_iff.mp member).2
  | receive connection identifier payload => exact guarded.receive step

theorem guarded_start (now : Int) (store : Store) : (System.start now store).Guarded where
  wellFormed := Server.wellFormed_empty
  connections _ member := absurd member List.not_mem_nil
  writes _ member := absurd member List.not_mem_nil

end Steps

/-- Along every run in which each subscription to an open session is made over
an authentic connection, only authenticated clients write to a shell. -/
theorem onlyAuthenticated_of_subscribesAuthenticated (framework : Framework) (now : Int)
    (store : Store) (actions : List Action)
    (subscriptions : Throughout (next framework) (SubscribesAuthenticated framework)
      (System.start now store) actions) :
    Always (next framework) OnlyAuthenticated (System.start now store) actions := by
  have guarded : Always (next framework) System.Guarded (System.start now store) actions :=
    always_of_throughout (fun _ _ _ guarded condition step => guarded.next condition step)
      (guarded_start now store) subscriptions
  exact guarded.imp fun _ holds => holds.writes

/-! ## The condition is needed -/

section Needed

variable {framework : Framework} {system target : System} {connection : Nat} {identifier : String}

/-- Over a channel without credentials, plain input to an open session is written. -/
theorem not_onlyAuthenticated_receive {client : Connection} {channel : Subscription}
    {session : Session} {text : String}
    (found : system.connections.get? connection = some client)
    (isChannel : client.subscriptions.get? identifier = some channel)
    (uncredentialed : channel.credentialed = false)
    (isSession : system.terminals.objects[channel.session]? = some session) (isOpen : session.Open)
    (plain : Session.isResize (encodeText text) true = false) (nonempty : encodeText text ≠ []) :
    ∃ target, next framework system
        (.receive connection identifier (inputMessage (encodeText text))) = some target ∧
      ¬ OnlyAuthenticated target := by
  rcases isOpen with ⟨alive, master, isMaster, opened⟩
  have received : system.receive connection identifier (inputMessage (encodeText text)) =
      some { system with
        terminals := (Server.onObject channel.session
          (TerminalChannel.receiveOn (inputMessage (encodeText text))) system.terminals).2
        writes := system.writes ++ [⟨false, encodeText text⟩] } := by
    have before : System.inputOf system.terminals channel.session = master.input := by
      rw [System.inputOf, isSession, Option.bind_some, isMaster]
      rfl
    have after : System.inputOf
        (Server.onObject channel.session
          (TerminalChannel.receiveOn (inputMessage (encodeText text))) system.terminals).2
        channel.session = master.input ++ encodeText text := by
      rw [Server.onObject_state, System.inputOf, Server.getElem?_updateObject_self isSession,
        TerminalChannel.receiveOn_inputMessage,
        Session.write_plain alive isMaster opened plain]
      rfl
    have grown : master.input ++ encodeText text ≠ master.input := by simpa using nonempty
    simp only [System.receive, found, isChannel, Option.bind_eq_bind, Option.bind_some, before,
      after, System.writesOf, if_neg grown, uncredentialed, List.drop_left]
  refine ⟨_, received, ?_⟩
  intro authenticated
  have credentialed := authenticated ⟨false, encodeText text⟩
    (List.mem_append_right _ (List.mem_singleton_self _))
  cases credentialed

/-- A subscription that fails the condition lets its client write at once. -/
theorem not_onlyAuthenticated_of_subscribe {params : Json} (wf : system.terminals.WellFormed)
    (step : next framework system (.subscribe connection identifier params) = some target)
    (fails : ¬ SubscribesAuthenticated framework system (.subscribe connection identifier params)) :
    ∃ final, next framework target
        (.receive connection identifier (inputMessage (encodeText "ls\r"))) = some final ∧
      ¬ OnlyAuthenticated final := by
  simp only [SubscribesAuthenticated, not_forall] at fails
  rcases fails with ⟨client, found, ref, named, session, isSession, isOpen, notAuthentic⟩
  rcases subscribe_cases wf step with ⟨other, otherFound, accepted⟩
  cases Option.mem_unique found otherFound
  rcases accepted with ⟨unnamed, _⟩ | ⟨otherRef, otherNamed, rfl⟩
  · rw [Option.mem_def, unnamed] at named
    cases named
  · cases Option.mem_unique named otherNamed
    apply not_onlyAuthenticated_receive (OrderedHash.get?_insert_self _ _ _)
      (OrderedHash.get?_insert_self _ _ _) (decide_eq_false notAuthentic) isSession isOpen
    · decide
    · decide

end Needed

/-! ## With and without credentials -/

/-- A token, its SHA-256 digest, and the digest of the default password. -/
def sampleToken : String := "c486b325f6a69f5182e2e0c007eb074c6caee04ce596a47c93ffce60acce2e4c"

def sampleTokenHash : String := "45626ff10c2b0b141ef15f9640ee1b38c4724d5e47c59df46117f4c4b8c5924f"

def samplePasswordDigest : String := "$2a$12$abcdefghijklmnopqrstuu12w/m81itNBaKxNG/AZzaB5lMPiIWPq"

/-- The cryptography on the sample, behind a check that allows every origin. -/
def sampleFramework : Framework where
  crypto :=
    { hexdigest := fun raw => if raw = sampleToken then sampleTokenHash else raw
      passwordDigest := fun password =>
        if password = "admin" then samplePasswordDigest else password
      isPassword := fun digest password => digest = samplePasswordDigest && password = "admin" }
  originAllowed := fun _ => true

/-- The request of a browser that is signed in, and of one that is not. -/
def signedIn : Headers := ⟨some sampleToken, none, none⟩

def signedOut : Headers := ⟨none, none, none⟩

/-- Signing in and opening a shell. -/
def openedShell : List Action :=
  [.login "admin" "admin" sampleToken none none,
    .request signedIn (.createShell "web" "a1" (.ok "Running") ⟨0, none, none⟩)]

/-- The identifier's parameters that the browser sends. -/
def shellParams : Json :=
  .object [("channel", .string "TerminalChannel"), ("vm_name", .string "web"),
    ("session_id", .string "a1")]

/-- Connecting, subscribing and typing. -/
def typing (headers : Headers) : List Action :=
  [.connect 0 headers, .subscribe 0 "terminal" shellParams,
    .receive 0 "terminal" (inputMessage (encodeText "ls\r"))]

theorem onlyAuthenticated_of_subscribesAuthenticated_signedIn :
    Always (next sampleFramework) OnlyAuthenticated (System.start 0 Store.empty)
      (openedShell ++ typing signedIn) :=
  onlyAuthenticated_of_subscribesAuthenticated sampleFramework 0 Store.empty _ (by decide)

/-- A client that has signed out goes on writing to the shell by its id. -/
theorem signedOut_not_onlyAuthenticated :
    ¬ Always (next sampleFramework) OnlyAuthenticated (System.start 0 Store.empty)
      (openedShell ++ .request signedIn .logout :: typing signedOut) := by
  decide

end MultipassWebui.Cable
