/-
`QQClientBackend` of `napcat-protocol` under concurrent calls. Every call takes the lock of
`listen_task` and keeps it until it returns, and tokio grants it in order; `connect` and `disconnect`
clear the flags, and `listen` sets `listening`, before they have it. A step is what a call or a
listener does between two awaits. The client is known by its connection state, and its calls end as
their events say.
-/
import NapCat.Protocol.Event
import NapCat.QQClient.Tcp
import NapCat.Lib.Turns

namespace NapCat

open QQClient (ConnectionState QQClientConfig QQClientError Packet)

/-- QQ client integration configuration. -/
structure QQClientBackendConfig where
  endpoint : String
  account : Option String := none
  password : Option String := none
  connectTimeoutMs : UInt64 := 2000
  listenPollMs : UInt64 := 150

/-- Account and password, when both are there. -/
def QQClientBackendConfig.credentials (config : QQClientBackendConfig) : Option (String × String) :=
  match config.account, config.password with
  | some account, some password => some (account, password)
  | _, _ => none

def mapQqError : QQClientError → ProtocolError
  | .transport t => .transport t
  | .protocol t => .serialization t
  | .login t => .transport ("login error: " ++ t)
  | .invalidState t => .transport t
  | .timeout t => .transport t

/-- Convert inbound QQ packet to protocol event stream. -/
def decodeInboundPacket (packet : Packet) : Except ProtocolError (Option ProtocolEvent) :=
  match packet.route with
  | "message.received" =>
    match decodeJson packet.payload with
    | .ok message => .ok (some (.messageReceived message))
    | .error e => .error (.serialization e.text)
  | "client.connected" => .ok (some (.connected packet.payload))
  | "client.session" => .ok (some (.connected packet.payload))
  | "system.error" => .ok (some (.warning packet.payload))
  | _ => .ok none

namespace QQBackend

/-! ## The listener task -/

/-- Where a listener is: not yet polled, in its loop, cancelled by an abort, or past the loop. -/
inductive ListenerAt
  | spawned
  | receiving
  | sleeping
  | aborted
  | ended
  deriving DecidableEq

structure Listener where
  pollMs : UInt64
  pos : ListenerAt := .spawned
  deriving DecidableEq

def ListenerAt.abort : ListenerAt → ListenerAt
  | .ended => .ended
  | _ => .aborted

/-- The flags, the config, the task slot, the state of the client, the listeners spawned and what they
have sent. A handle is the index of its listener. -/
structure Shared where
  config : QQClientBackendConfig
  client : ConnectionState := .disconnected
  connected : Bool := false
  loggedIn : Bool := false
  listening : Bool := false
  stopRequested : Bool := false
  listenTask : Option Nat := none
  listeners : List Listener := []
  notified : List (Nat × ProtocolEvent) := []

def Shared.notify (g : Shared) (t : Nat) (events : List ProtocolEvent) : Shared :=
  { g with notified := g.notified ++ events.map (t, ·) }

/-- How an iteration of the loop ends. -/
inductive Iteration
  | again
  | sleep
  | leave
  deriving DecidableEq

/-- What one receive leads to; `subscribed` says whether notify has a receiver. -/
def handleReceived (subscribed : Bool) : Except QQClientError (Option Packet) → List ProtocolEvent × Iteration
  | .ok (some packet) =>
    match decodeInboundPacket packet with
    | .ok (some event) => ([event], if subscribed then .again else .leave)
    | .ok none => ([], .again)
    | .error e => ([.warning ("failed to parse inbound packet: " ++ e.text)], .again)
  | .ok none => ([], .sleep)
  | .error e => ([.warning ("receive packet failed: " ++ e.text)], .sleep)

/-- A listener is polled, or its receive ends. -/
inductive ListenerAct
  | go
  | received (r : Except QQClientError (Option Packet)) (subscribed : Bool)

/-- What a listener sends in its step and how its iteration ends: `none` when the step is not its. -/
def Listener.iteration (l : Listener) : ListenerAct → Option (List ProtocolEvent × Iteration)
  | .go =>
    match l.pos with
    | .spawned | .sleeping => some ([], .again)
    | _ => none
  | .received r subscribed =>
    match l.pos with
    | .receiving => some (handleReceived subscribed r)
    | _ => none

/-- The condition of the loop. -/
def Shared.goesOn (g : Shared) : Bool := g.connected && !g.stopRequested

/-- Where the listener awaits next, if it stays in its loop: a sleep of no time is none. -/
def Listener.next (g : Shared) (l : Listener) : Iteration → Option ListenerAt
  | .leave => none
  | .again => if g.goesOn then some .receiving else none
  | .sleep => if 0 < l.pollMs then some .sleeping else if g.goesOn then some .receiving else none

/-- One step of listener `t`. Past its loop it clears `listening`. -/
def Listener.step (g : Shared) (t : Nat) (l : Listener) (a : ListenerAct) : Option (Shared × Listener) :=
  (l.iteration a).map fun (events, iteration) =>
    match l.next g iteration with
    | some pos => (g.notify t events, { l with pos })
    | none => ({ g.notify t (events ++ [.disconnected]) with listening := false }, { l with pos := .ended })

/-- Whether the step takes the listener out of its loop. -/
def Listener.leaves (g : Shared) (l : Listener) (a : ListenerAct) : Bool :=
  ((l.iteration a).map fun r => l.next g r.2) = some none

/-- Take the handle out of the slot and abort its listener: every listener is at an await. -/
def Shared.abortListener (g : Shared) : Shared :=
  match g.listenTask with
  | none => g
  | some t =>
    { g with listenTask := none, listeners := g.listeners.modify t fun l => { l with pos := l.pos.abort } }

/-! ## The calls -/

inductive Op
  | connect (endpoint : String)
  | disconnect
  | listen

/-- A call in progress: before the lock, then holding it. -/
inductive Pc
  | connect (endpoint : String)
  | connectClosing (endpoint : String)
  | buildConfig (endpoint : String)
  | readCredentials (config : QQClientConfig)
  | storeEndpoint (config : QQClientConfig) (credentials : Option (String × String))
  | clientConnect (config : QQClientConfig) (credentials : Option (String × String))
  | clientLogin (account password : String)
  | disconnect
  | disconnectClosing
  | listen
  | readPoll

/-- A call goes on, or its client call ends. -/
inductive Act
  | go
  | client (r : Except QQClientError Unit)

inductive Env
  | listener (t : Nat) (a : ListenerAct)

abbrev Reply := Except ProtocolError Unit

abbrev Next := Turns.Next Pc Reply

def fail (text : String) : Next := .ret (.error (.transport text))

def start (g : Shared) : Op → Shared × Next
  | .connect endpoint =>
    ({ g with stopRequested := false, connected := false, listening := false, loggedIn := false },
      .call (.connect endpoint))
  | .disconnect =>
    ({ g with stopRequested := true, connected := false, listening := false, loggedIn := false }, .call .disconnect)
  | .listen =>
    if ¬ g.connected then (g, fail "protocol is not connected")
    else if g.listening then (g, fail "listen already started")
    else ({ g with listening := true }, .call .listen)

/-- The endpoint a connect uses. -/
def chosenEndpoint (config : QQClientBackendConfig) (endpoint : String) : String :=
  if Text.isBlank endpoint then config.endpoint else endpoint

def buildConnectConfig (config : QQClientBackendConfig) (endpoint : String) : Except ProtocolError QQClientConfig :=
  if Text.isBlank (chosenEndpoint config endpoint) then .error (.transport "empty qq endpoint")
  else .ok { endpoint := chosenEndpoint config endpoint, token := none, timeoutMs := config.connectTimeoutMs }

/-- Whether a connect is refused for want of credentials. -/
def refused (config : QQClientConfig) (credentials : Option (String × String)) : Bool :=
  credentials.isNone && config.endpoint ≠ "mock://localhost"

/-- The end of a connect: the session is open. -/
def opened (g : Shared) (client : ConnectionState) (loggedIn : Bool) : Shared × Next :=
  ({ g with client, loggedIn, connected := true }, .ret (.ok ()))

def act (g : Shared) : Pc → Act → Option (Shared × Next)
  | .connect endpoint, .go => some (g.abortListener, .call (.connectClosing endpoint))
  | .connectClosing endpoint, .go => some ({ g with client := .disconnected }, .call (.buildConfig endpoint))
  | .buildConfig endpoint, .go =>
    match buildConnectConfig g.config endpoint with
    | .ok config => some (g, .call (.readCredentials config))
    | .error e => some (g, .ret (.error e))
  | .readCredentials config, .go => some (g, .call (.storeEndpoint config g.config.credentials))
  | .storeEndpoint config credentials, .go =>
    some ({ g with config := { g.config with endpoint := config.endpoint } },
      if refused config credentials then fail "qq account/password are required for non-mock endpoints"
      else .call (.clientConnect config credentials))
  | .clientConnect _ credentials, .client (.ok _) =>
    match credentials with
    | some (account, password) => some ({ g with client := .connected }, .call (.clientLogin account password))
    | none => some (opened g .connected g.loggedIn)
  | .clientLogin _ _, .client (.ok _) => some (opened g .loggedIn true)
  | .clientConnect _ _, .client (.error e) | .clientLogin _ _, .client (.error e) =>
    some (g, .ret (.error (mapQqError e)))
  | .disconnect, .go => some (g.abortListener, .call .disconnectClosing)
  | .disconnectClosing, .go => some ({ g with client := .disconnected }, .ret (.ok ()))
  | .listen, .go => some (g, .call .readPoll)
  -- the old handle, if there is one, is dropped: its listener runs on
  | .readPoll, .go =>
    some ({ g with listeners := g.listeners ++ [{ pollMs := g.config.listenPollMs }],
                   listenTask := some g.listeners.length }, .ret (.ok ()))
  | _, _ => none

def env (g : Shared) : Env → Option Shared
  | .listener t a => g.listeners[t]?.bind fun l =>
      (l.step g t a).map fun r => { r.1 with listeners := g.listeners.set t r.2 }

/-- A step of the surroundings is one of a listener that has been spawned. -/
theorem env_listener {g g' : Shared} {t : Nat} {a : ListenerAct} (h : env g (.listener t a) = some g') :
    ∃ l g₁ l', g.listeners[t]? = some l ∧ l.step g t a = some (g₁, l') ∧
      g' = { g₁ with listeners := g.listeners.set t l' } := by
  obtain ⟨l, hl, h⟩ := Option.bind_eq_some_iff.1 h
  obtain ⟨⟨g₁, l'⟩, hs, rfl⟩ := Option.map_eq_some_iff.1 h
  exact ⟨l, g₁, l', hl, hs, rfl⟩

abbrev Sys := Turns.Sys Shared Pc Reply

abbrev Event := Turns.Event Op Act Env

def program : Turns.Program Shared Pc Reply Op Act Env := ⟨start, act, env⟩

def step : Sys → Event → Option Sys := Turns.step program

/-- A new backend. -/
def init (config : QQClientBackendConfig) : Sys := ⟨{ config }, [], []⟩

end QQBackend

end NapCat
