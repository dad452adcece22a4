import MultipassWebui.Auth.Requests
import MultipassWebui.Effect.Frame
import MultipassWebui.Terminals.Lifecycle
import MultipassWebui.Terminals.Wire

/-!
# The two entry points

HTTP requests and cable connections reach the same terminals.  A request of a
guarded controller passes `require_login` first.  A cable connection passes the
check of its origin, which is the framework's, and the connection class adds
none.  A step of the system is a request, a turn of the background, or a
command on a cable.
-/

namespace MultipassWebui.Terminals.TerminalChannel

open MultipassWebui.Effect
open MultipassWebui.Encoding

/-- Everything but `nil` and `false` is true. -/
def truthy : Option Json → Bool
  | none | some .null | some (.bool false) => false
  | _ => true

/-- A text as a key of the registry, whose keys are texts. -/
def textOf : Option Json → Option String
  | some (.string text) => some text
  | _ => none

/-- `subscribed` up to the replay: the session that is subscribed to, or
nothing when the subscription is rejected. -/
def subscribed (params : Json) : Exec Server RubyError (Option SessionRef) :=
  if truthy (params.field? "vm_name") && truthy (params.field? "session_id") then
    match textOf (params.field? "session_id") with
    | some sessionId => Server.find sessionId
    | none => pure none
  else pure none

/-- The session that the parameters of a subscription name. -/
def namedSession (params : Json) (server : Server) : Option SessionRef :=
  if truthy (params.field? "vm_name") && truthy (params.field? "session_id") then
    (textOf (params.field? "session_id")).bind server.sessions.get?
  else none

theorem subscribed_apply {server : Server} (free : server.mutexHeld = false) (params : Json) :
    subscribed params server = (.ok (namedSession params server), server) := by
  unfold subscribed namedSession
  split_ifs with named
  · cases textOf (params.field? "session_id") with
    | some sessionId => exact Server.find_apply free sessionId
    | none => rfl
  · rfl

end MultipassWebui.Terminals.TerminalChannel

namespace MultipassWebui.Cable

open MultipassWebui.Collections
open MultipassWebui.Effect
open MultipassWebui.Encoding
open MultipassWebui.Auth (Crypto Headers Reply Store)
open MultipassWebui.Terminals
open MultipassWebui.Transition

/-- The code outside the repository: the cryptography, and the check of the
origin of a cable request. -/
structure Framework where
  crypto : Crypto
  originAllowed : Option String → Bool

/-- A `TerminalChannel` that was not rejected. -/
structure Subscription where
  /-- `@session` -/
  session : SessionRef
  /-- The connection's request was authentic when the channel was subscribed,
  recorded for the statements only. -/
  credentialed : Bool
  deriving DecidableEq, Repr

/-- A cable connection: its request, and its channels by identifier. -/
structure Connection where
  headers : Headers
  subscriptions : OrderedHash String Subscription

/-- Bytes of a client that were written to a pseudo terminal, and whether the
client's channel was credentialed. -/
structure TerminalWrite where
  credentialed : Bool
  bytes : Bytes
  deriving DecidableEq, Repr

structure System where
  now : Int
  store : Store
  terminals : Server
  connections : OrderedHash Nat Connection
  /-- Recorded for the statements only. -/
  writes : List TerminalWrite

namespace System

/-- Nobody is connected and no shell is open. -/
def start (now : Int) (store : Store) : System := ⟨now, store, Server.empty, OrderedHash.empty, []⟩

def setStore (store : Store) (system : System) : System := { system with store := store }

def setTerminals (terminals : Server) (system : System) : System :=
  { system with terminals := terminals }

def setConnection (connection : Nat) (client : Connection) (system : System) : System :=
  { system with connections := system.connections.insert connection client }

end System

def onStore {α : Type} (body : Exec Store RubyError α) : Exec System RubyError α :=
  Exec.zoom System.store System.setStore body

def onTerminals {α : Type} (body : Exec Server RubyError α) : Exec System RubyError α :=
  Exec.zoom System.terminals System.setTerminals body

/-! ## Requests -/

/-- The requests of the controllers that `require_login` guards. -/
inductive Request where
  | logout
  | createToken (name slugHex tokenHex : String)
  | destroyToken (idSlug : String)
  /-- Opening a shell, with the answer of `get_vm_info`. -/
  | createShell (vmName sessionId : String) (vmState : Except RubyError String)
      (env : SpawnEnvironment)
  | destroyShell (vmName sessionId : String)
  | console (vmName : String) (env : Server.ConsoleEnvironment)

/-- `set_vm_name`, then the action. -/
def setVmName (vmName : String) (action : Exec System RubyError Reply) :
    Exec System RubyError Reply :=
  if validVmName vmName then action else pure .badRequest

/-- `require_running_vm`, then the action. -/
def requireRunningVm (vmState : Except RubyError String) (action : Exec System RubyError Reply) :
    Exec System RubyError Reply :=
  match vmState with
  | .ok state => if state = "Running" then action else pure (.conflict state)
  | .error error => if error.isCommandError then pure .notFound else Exec.raise error

/-- `ShellSessionsController#create` after its checks. -/
def openShell (vmName sessionId : String) (env : SpawnEnvironment) : Exec System RubyError Reply :=
  Exec.rescue
    (do
      let _ ← onTerminals (Server.openSession vmName sessionId env)
      return .terminal sessionId)
    fun
      | .validationError _ => some (pure .badRequest)
      | _ => some (pure .internalServerError)

/-- `ShellSessionsController#destroy` after its checks. -/
def killShell (sessionId : String) : Exec System RubyError Reply := do
  onTerminals (Server.kill sessionId)
  return .terminalKilled

/-- `VmsController#console` after its checks. -/
def consolePage (vmName : String) (env : Server.ConsoleEnvironment) :
    Exec System RubyError Reply := do
  match ← onTerminals (Server.console vmName env) with
  | .page sessionId => return .terminal sessionId
  | .redirect => return .redirect

section

variable (framework : Framework)

/-- The action of a request that was let in. -/
def perform (headers : Headers) : Request → Exec System RubyError Reply
  | .logout => do
      let now ← Exec.gets System.now
      onStore (Auth.logout framework.crypto now headers)
  | .createToken name slugHex tokenHex =>
      onStore (Auth.createToken framework.crypto name slugHex tokenHex)
  | .destroyToken idSlug => onStore (Auth.destroyToken idSlug)
  | .createShell vmName sessionId vmState env => do
      let now ← Exec.gets System.now
      setVmName vmName
        (requireRunningVm vmState (openShell vmName sessionId { env with now := now }))
  | .destroyShell vmName sessionId => setVmName vmName (killShell sessionId)
  | .console vmName env => do
      let now ← Exec.gets System.now
      setVmName vmName (consolePage vmName { env with spawn := { env.spawn with now := now } })

/-- `require_login`, then the action. -/
def handle (headers : Headers) (request : Request) : Exec System RubyError Reply := do
  let now ← Exec.gets System.now
  if ← onStore (Auth.loggedIn framework.crypto now headers) then perform framework headers request
  else return .authenticationRequired

/-! ## Cables -/

namespace System

/-- Accept a connection: `ApplicationCable::Connection` has no `connect`. -/
def connect (system : System) (connection : Nat) (headers : Headers) : Option System :=
  if framework.originAllowed headers.origin && (system.connections.get? connection).isNone then
    some (system.setConnection connection ⟨headers, OrderedHash.empty⟩)
  else none

/-- The command `subscribe` under an identifier that is not in use. -/
def subscribe (system : System) (connection : Nat) (identifier : String) (params : Json) :
    Option System := do
  let client ← system.connections.get? connection
  if (client.subscriptions.get? identifier).isSome then none
  else
    match TerminalChannel.subscribed params system.terminals with
    | (.ok (some session), terminals) =>
        let credentialed : Bool :=
          decide (Auth.Authentic framework.crypto system.now client.headers system.store)
        some ((system.setTerminals terminals).setConnection connection
          { client with
            subscriptions := client.subscriptions.insert identifier ⟨session, credentialed⟩ })
    | (_, terminals) => some (system.setTerminals terminals)

/-- The command `unsubscribe`; the session goes on. -/
def unsubscribe (system : System) (connection : Nat) (identifier : String) : Option System := do
  let client ← system.connections.get? connection
  some (system.setConnection connection
    { client with subscriptions := client.subscriptions.delete identifier })

/-- The bytes that were written to the terminal of a session. -/
def inputOf (terminals : Server) (session : SessionRef) : Bytes :=
  ((terminals.objects[session]?).bind Terminals.Session.master).elim [] Terminals.Master.input

/-- What a command has added to the input of a terminal. -/
def writesOf (credentialed : Bool) (before after : Bytes) : List TerminalWrite :=
  if after = before then [] else [⟨credentialed, after.drop before.length⟩]

/-- The action `receive` of a channel. -/
def receive (system : System) (connection : Nat) (identifier : String) (payload : Json) :
    Option System := do
  let client ← system.connections.get? connection
  let channel ← client.subscriptions.get? identifier
  let terminals :=
    (Server.onObject channel.session (TerminalChannel.receiveOn payload) system.terminals).2
  some { system with
    terminals := terminals
    writes := system.writes ++ writesOf channel.credentialed
      (inputOf system.terminals channel.session) (inputOf terminals channel.session) }

end System

/-! ## Steps -/

inductive Action where
  /-- Time passes. -/
  | tick (elapsed : Nat)
  | login (username password raw : String) (ipAddress userAgent : Option String)
  | request (headers : Headers) (request : Request)
  /-- `SweepSessionsJob` -/
  | sweep
  | read (session : SessionRef) (result : ReadResult)
  | shellExits (session : SessionRef)
  /-- `ReapIdleSessionsJob`, with the count of subscribers for each output stream. -/
  | reap (subscribers : String → Int)
  | connect (connection : Nat) (headers : Headers)
  | disconnect (connection : Nat)
  | subscribe (connection : Nat) (identifier : String) (params : Json)
  | unsubscribe (connection : Nat) (identifier : String)
  | receive (connection : Nat) (identifier : String) (payload : Json)

/-- A step of the terminals that no client asks for. -/
def background (system : System) (action : Server.Action) : Option System :=
  (Server.next system.terminals action).map fun terminals => system.setTerminals terminals

def next : Step System Action
  | system, .tick elapsed => some { system with now := system.now + elapsed }
  | system, .login username password raw ipAddress userAgent =>
      some (onStore
        (Auth.login framework.crypto system.now username password raw ipAddress userAgent) system).2
  | system, .request headers request => some (handle framework headers request system).2
  | system, .sweep => some (onStore (Auth.Session.sweep system.now) system).2
  | system, .read session result => background system (.read session result)
  | system, .shellExits session => background system (.shellExits session)
  | system, .reap subscribers => background system (.reap ⟨system.now, subscribers⟩)
  | system, .connect connection headers => system.connect framework connection headers
  | system, .disconnect connection =>
      some { system with connections := system.connections.delete connection }
  | system, .subscribe connection identifier params =>
      system.subscribe framework connection identifier params
  | system, .unsubscribe connection identifier => system.unsubscribe connection identifier
  | system, .receive connection identifier payload => system.receive connection identifier payload

end

end MultipassWebui.Cable
