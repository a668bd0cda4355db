/-
`OneBotHttpBackend` of `napcat-protocol`: `connect`, `disconnect`, `listen` and the listener tasks
that `listen` spawns. A step is one operation on a flag, or what stands between two awaits around
them. Nothing aborts or joins a listener: its handle is kept in `listen_task` and never read.
-/
import NapCat.Protocol.ListenEnvelope
import NapCat.Lib.Text
import NapCat.Lib.Threads

namespace NapCat

open Json

/-- Configuration for OneBot HTTP backend. -/
structure OneBotBackendConfig where
  baseUrl : String
  accessToken : Option String := none
  listenTimeoutMs : UInt64 := 600
  listenMaxEvents : Nat := 8

/-- A `GET` request. -/
structure HttpRequest where
  url : String
  bearer : Option String
  query : List (String × String)

/-- What comes of a request: none, or a response without a success status, without a JSON body, or
with one. -/
inductive HttpResponse
  | failed (error : String)
  | nonSuccess (status : String)
  | badBody (error : String)
  | body (raw : Json)

namespace OneBotHttp

/-- Build a sanitized endpoint URL path. -/
def endpointUrl (config : OneBotBackendConfig) (path : String) : String :=
  Text.trimEndMatches '/' config.baseUrl ++ "/" ++ Text.trimStartMatches '/' path

def listenRequest (config : OneBotBackendConfig) : HttpRequest where
  url := endpointUrl config "/message/listen"
  bearer := config.accessToken
  query := [("timeout_ms", toString config.listenTimeoutMs.toNat), ("max_events", toString config.listenMaxEvents)]

def statusRequest (config : OneBotBackendConfig) : HttpRequest where
  url := endpointUrl config "/get_status"
  bearer := config.accessToken
  query := []

def mapStatusPayload (raw : Json) : Bool :=
  (((raw.get "data").getD raw).get "online" >>= asBool).getD false

/-- What `get_status` makes of its response. -/
def statusResult : HttpResponse → Except ProtocolError Bool
  | .failed e => .error (.transport e)
  | .nonSuccess status => .error (.transport ("status request failed with " ++ status))
  | .badBody e => .error (.serialization e)
  | .body raw => .ok (mapStatusPayload raw)

/-- What `listen` makes of one response: the events it sends, and how long it then sleeps. -/
def handleResponse (subscribed : Bool) : HttpResponse → List ProtocolEvent × Option Nat
  | .failed e => ([.warning ("message/listen failed: " ++ e)], some 500)
  | .nonSuccess status => ([.warning ("message/listen non-success: " ++ status)], some 200)
  | .badBody e => ([.warning ("message/listen payload decode failed: " ++ e)], some 200)
  | .body raw =>
    let items := (OneBotListenEnvelope.fromJson raw).data
    (notifyItems subscribed items, if delivers items then none else some 20)

/-! ## The listener task -/

/-- Where a listener is. The loop reads `connected` and then `stop_requested`. -/
inductive Listener
  | greeting
  | checkingConnected
  | checkingStop
  | requesting
  | polling
  | sleeping (ms : Nat)
  | closing
  | clearing
  | ended
  deriving DecidableEq

/-- The flags, the task slot, the listeners spawned, and the requests they have issued and events
they have sent. A handle is the index of its listener. -/
structure Shared where
  connected : Bool := false
  listening : Bool := false
  stopRequested : Bool := false
  listenTask : Option Nat := none
  listeners : List Listener := []
  requests : List (Nat × HttpRequest) := []
  notified : List (Nat × ProtocolEvent) := []

/-- A listener goes on, or its request has an answer; `subscribed` says whether notify has a receiver. -/
inductive ListenerAct
  | go
  | respond (r : HttpResponse) (subscribed : Bool)

def Shared.notify (g : Shared) (t : Nat) (events : List ProtocolEvent) : Shared :=
  { g with notified := g.notified ++ events.map (t, ·) }

def afterSleep : Option Nat → Listener
  | none => .checkingConnected
  | some ms => .sleeping ms

/-- One step of listener `t`. -/
def Listener.step (config : OneBotBackendConfig) (g : Shared) (t : Nat) :
    Listener → ListenerAct → Option (Shared × Listener)
  | .greeting, .go => some (g.notify t [.connected config.baseUrl], .checkingConnected)
  -- the two reads of the loop condition
  | .checkingConnected, .go => some (g, if g.connected then .checkingStop else .closing)
  | .checkingStop, .go => some (g, if g.stopRequested then .closing else .requesting)
  | .requesting, .go => some ({ g with requests := g.requests ++ [(t, listenRequest config)] }, .polling)
  | .polling, .respond r subscribed =>
    some (g.notify t (handleResponse subscribed r).1, afterSleep (handleResponse subscribed r).2)
  | .sleeping _, .go => some (g, .checkingConnected)
  | .closing, .go => some (g.notify t [.disconnected], .clearing)
  | .clearing, .go => some ({ g with listening := false }, .ended)
  | _, _ => none

/-! ## The calls -/

inductive Op
  | connect (endpoint : String)
  | disconnect
  | listen

inductive Pc
  | awaitingStatus (r : HttpRequest)
  | storingConnected
  | storingRunning
  | storingStop
  | storingIdle
  | swapping
  | spawning
  | done (r : Except ProtocolError Unit)

inductive Act
  | go
  | respond (r : HttpResponse)

inductive Env
  | listener (t : Nat) (a : ListenerAct)

def fail (text : String) : Pc := .done (.error (.transport text))

/-- The URL `connect` checks. -/
def connectUrl (config : OneBotBackendConfig) (endpoint : String) : String :=
  if (Text.trim endpoint).isEmpty then Text.trim config.baseUrl else Text.trim endpoint

/-- `connect` up to its request: the endpoint is checked, the status asked of the configured base URL. -/
def beginConnect (config : OneBotBackendConfig) (endpoint : String) : Pc :=
  let url := connectUrl config endpoint
  if url.isEmpty then fail "empty onebot endpoint"
  else if ¬ Text.startsWith url "http://" ∧ ¬ Text.startsWith url "https://" then
    fail "onebot endpoint must start with http:// or https://"
  else if Text.isBlank config.baseUrl then fail "empty base URL"
  else .awaitingStatus (statusRequest config)

def begin (config : OneBotBackendConfig) (g : Shared) : Op → Option (Shared × Pc)
  | .connect endpoint => some (g, beginConnect config endpoint)
  | .disconnect => some ({ g with connected := false }, .storingStop)
  | .listen => some (g, if g.connected then .swapping else fail "protocol is not connected")

def act (g : Shared) : Pc → Act → Option (Shared × Pc)
  | .awaitingStatus _, .respond r =>
    match statusResult r with
    | .ok _ => some (g, .storingConnected)
    | .error e => some (g, .done (.error e))
  | .storingConnected, .go => some ({ g with connected := true }, .storingRunning)
  | .storingRunning, .go => some ({ g with stopRequested := false }, .done (.ok ()))
  | .storingStop, .go => some ({ g with stopRequested := true }, .storingIdle)
  | .storingIdle, .go => some ({ g with listening := false }, .done (.ok ()))
  | .swapping, .go =>
    some ({ g with listening := true }, if g.listening then fail "listen already started" else .spawning)
  -- the slot is locked, the listener spawned and its handle stored without an await in between
  | .spawning, .go =>
    some ({ g with listeners := g.listeners ++ [.greeting], listenTask := some g.listeners.length }, .done (.ok ()))
  | _, _ => none

def env (config : OneBotBackendConfig) (g : Shared) : Env → Option Shared
  | .listener t a => g.listeners[t]?.bind fun p =>
      (p.step config g t a).map fun r => { r.1 with listeners := g.listeners.set t r.2 }

/-- A step of the surroundings is one of a listener that has been spawned. -/
theorem env_listener {config : OneBotBackendConfig} {g g' : Shared} {t : Nat} {a : ListenerAct}
    (h : env config g (.listener t a) = some g') : ∃ l g₁ q, g.listeners[t]? = some l ∧
      l.step config g t a = some (g₁, q) ∧ g' = { g₁ with listeners := g.listeners.set t q } := by
  obtain ⟨l, hl, h⟩ := Option.bind_eq_some_iff.1 h
  obtain ⟨⟨g₁, q⟩, hs, rfl⟩ := Option.map_eq_some_iff.1 h
  exact ⟨l, g₁, q, hl, hs, rfl⟩

abbrev Sys := Threads.Sys Shared Pc

abbrev Event := Threads.Event Op Act Env

def program (config : OneBotBackendConfig) : Threads.Program Shared Pc Op Act Env :=
  ⟨begin config, act, env config⟩

def step (config : OneBotBackendConfig) : Sys → Event → Option Sys := Threads.step (program config)

/-- A new backend. -/
def init : Sys := ⟨{}, []⟩

end OneBotHttp

end NapCat
