/-
`run_with_state` of `napcat-api`: the server start-up with its five exits, over a protocol backend the
caller has connected. What a backend is to it is an interface with laws, which the backends of
`napcat-protocol` meet.
-/
import NapCat.Protocol.Dismissed

namespace NapCat.Api.Server

/-- A protocol backend, as far as the server calls it. `active` says that a session is open, or that there is a
listener that has not been told to stop. -/
structure Backend (S : Type) where
  active : S → Prop
  listen : S → S × Except ProtocolError Unit
  disconnect : S → S × Except ProtocolError Unit
  active_of_refused : ∀ s e, (listen s).2 = .error e → (active (listen s).1 ↔ active s)
  not_active_disconnect : ∀ s, ¬ active (disconnect s).1

/-- The fields of `ApiState` that the start-up writes or calls. -/
structure State (S : Type) where
  runtimeRunning : Bool := false
  protocol : Option S := none

def State.setRuntimeRunning {S : Type} (state : State S) (running : Bool) : State S :=
  { state with runtimeRunning := running }

/-- The address parser, the socket and the server as one start-up finds them, and what requests do to
the backend while it serves. -/
structure Host (S A : Type) where
  parse : String → Except String A
  bind : A → Except String Unit
  serve : A → Except String Unit
  meanwhile : S → S

variable {S A : Type}

/-- The start of the listener, if there is a backend. -/
def startListen (backend : Backend S) (state : State S) : State S × Except ProtocolError Unit :=
  match state.protocol with
  | none => (state, .ok ())
  | some protocol =>
    ({ state with protocol := some (backend.listen protocol).1 },
      (backend.listen protocol).2.mapError fun e => .transport ("protocol listen failed: " ++ e.text))

/-- The runtime is marked stopped and the backend, if there is one, disconnected, whatever that returns. -/
def shutDown (backend : Backend S) (state : State S) : State S :=
  { runtimeRunning := false, protocol := state.protocol.map fun protocol => (backend.disconnect protocol).1 }

/-- `run_with_state`. -/
def runWithState (backend : Backend S) (host : Host S A) (addr : String) (state : State S) :
    State S × Except ProtocolError Unit :=
  let state := state.setRuntimeRunning true
  match host.parse addr with
  | .error err => (state.setRuntimeRunning false, .error (.transport err))
  | .ok socketAddr =>
    match startListen backend state with
    | (state, .error error) => (state.setRuntimeRunning false, .error error)
    | (state, .ok ()) =>
      match host.bind socketAddr with
      | .error err => (shutDown backend state, .error (.transport err))
      | .ok () =>
        let state := { state with protocol := state.protocol.map host.meanwhile }
        (shutDown backend state, (host.serve socketAddr).mapError .transport)

/-- What a start-up is to leave behind: not running, and nothing of a backend active. -/
def CleanedUp (backend : Backend S) (state : State S) : Prop :=
  state.runtimeRunning = false ∧ ∀ protocol ∈ state.protocol, ¬ backend.active protocol

/-- The start-up gets as far as the socket: the address parses, and the backend listens. -/
def GetsToSocket (backend : Backend S) (host : Host S A) (addr : String) (protocol : S) : Prop :=
  (∃ socketAddr, host.parse addr = .ok socketAddr) ∧ (backend.listen protocol).2 = .ok ()

theorem shutDown_cleanedUp (backend : Backend S) (state : State S) : CleanedUp backend (shutDown backend state) := by
  refine ⟨rfl, fun protocol h => ?_⟩
  obtain ⟨p, -, rfl⟩ := Option.map_eq_some_iff.1 h
  exact backend.not_active_disconnect p

/-- The runtime is never left marked as running. -/
theorem runWithState_notRunning (backend : Backend S) (host : Host S A) (addr : String) (state : State S) :
    (runWithState backend host addr state).1.runtimeRunning = false := by
  unfold runWithState
  dsimp only
  split
  · rfl
  · split
    · rfl
    · split <;> rfl

/-- Without a backend there is nothing to disconnect. -/
theorem runWithState_protocol_none (backend : Backend S) (host : Host S A) (addr : String) {state : State S}
    (h : state.protocol = none) : (runWithState backend host addr state).1.protocol = none := by
  obtain ⟨running, protocol⟩ := state
  obtain rfl : protocol = none := h
  unfold runWithState
  dsimp only [State.setRuntimeRunning, startListen]
  split
  · rfl
  · split <;> rfl

/-- Past the socket every exit shuts down. -/
theorem runWithState_cleanedUp {backend : Backend S} {host : Host S A} {addr : String} {state : State S} {protocol : S}
    (hp : state.protocol = some protocol) (h : GetsToSocket backend host addr protocol) :
    CleanedUp backend (runWithState backend host addr state).1 := by
  obtain ⟨⟨socketAddr, ha⟩, hl⟩ := h
  have hs : startListen backend (state.setRuntimeRunning true) =
      ({ runtimeRunning := true, protocol := some (backend.listen protocol).1 }, .ok ()) := by
    simp only [startListen, State.setRuntimeRunning, hp, hl, Except.mapError]
  simp only [runWithState, ha, hs]
  split <;> exact shutDown_cleanedUp backend _

/-- Before the socket no exit disconnects, and a backend that does not listen is as active as it was. -/
theorem runWithState_leaves {backend : Backend S} {host : Host S A} {addr : String} {state : State S} {protocol : S}
    (hp : state.protocol = some protocol) (h : ¬ GetsToSocket backend host addr protocol) :
    ∃ left, (runWithState backend host addr state).1.protocol = some left ∧
      (backend.active left ↔ backend.active protocol) := by
  cases ha : host.parse addr with
  | error err =>
    refine ⟨protocol, ?_, .rfl⟩
    simp only [runWithState, ha, State.setRuntimeRunning, hp]
  | ok socketAddr =>
    cases hl : (backend.listen protocol).2 with
    | ok u => exact absurd ⟨⟨socketAddr, ha⟩, hl⟩ h
    | error e =>
      refine ⟨(backend.listen protocol).1, ?_, backend.active_of_refused protocol e hl⟩
      simp only [runWithState, ha, startListen, State.setRuntimeRunning, hp, hl, Except.mapError]

/-- A start-up cleans up exactly if a backend that the caller has active comes with it only where the
address parses and the backend listens. -/
theorem cleanedUp_iff (backend : Backend S) (host : Host S A) (addr : String) (state : State S) :
    CleanedUp backend (runWithState backend host addr state).1 ↔
      ∀ protocol ∈ state.protocol, backend.active protocol → GetsToSocket backend host addr protocol := by
  constructor
  · intro h protocol hp ha
    by_contra hn
    obtain ⟨left, hleft, hact⟩ := runWithState_leaves hp hn
    exact h.2 left hleft (hact.2 ha)
  · intro h
    cases hp : state.protocol with
    | none =>
      refine ⟨runWithState_notRunning backend host addr state, fun protocol hprot => ?_⟩
      rw [runWithState_protocol_none backend host addr hp] at hprot
      cases hprot
    | some protocol =>
      by_cases hs : GetsToSocket backend host addr protocol
      · exact runWithState_cleanedUp hp hs
      · refine ⟨runWithState_notRunning backend host addr state, fun left hl => ?_⟩
        obtain ⟨left', hleft, hact⟩ := runWithState_leaves hp hs
        obtain rfl : left' = left := Option.some.inj (hleft.symm.trans hl)
        exact fun ha => hs (h protocol hp (hact.1 ha))

/-- `MockProtocol`, as whether it is connected: its `listen` starts nothing. -/
def mock : Backend Bool where
  active connected := connected = true
  listen connected := (connected, .ok ())
  disconnect _ := (false, .ok ())
  active_of_refused _ _ _ := .rfl
  not_active_disconnect _ := Bool.false_ne_true

/-! ## The OneBot backend -/

section OneBot

open OneBotHttp (Shared)

def oneBotListen (g : Shared) : Shared × Except ProtocolError Unit :=
  if g.connected = false then (g, .error (.transport "protocol is not connected"))
  else if g.listening = true then (g, .error (.transport "listen already started"))
  else
    ({ g with
        listening := true
        listeners := g.listeners ++ [.greeting]
        listenTask := some g.listeners.length }, .ok ())

def oneBotDisconnect (g : Shared) : Shared × Except ProtocolError Unit :=
  ({ g with connected := false, stopRequested := true, listening := false }, .ok ())

/-- Nothing aborts or joins a listener: those that a disconnect finds are to leave by themselves. -/
def oneBot : Backend Shared where
  active g := g.connected = true ∨ ∃ t < g.listeners.length, ¬ OneBotHttp.Dismissed g t
  listen := oneBotListen
  disconnect := oneBotDisconnect
  active_of_refused g e h := by
    unfold oneBotListen at h ⊢
    split_ifs at h ⊢ <;> rfl
  not_active_disconnect g := by
    rintro (hc | ⟨t, ht, hn⟩)
    · exact Bool.false_ne_true hc
    · exact hn (OneBotHttp.dismissed_of_not_connected rfl ht)

/-- The listener that a listen starts is active, unless a disconnect has begun meanwhile. -/
theorem oneBot_listen_starts {g : Shared} (hs : g.stopRequested = false) (h : (oneBot.listen g).2 = .ok ()) :
    ¬ OneBotHttp.Dismissed (oneBot.listen g).1 g.listeners.length := by
  unfold oneBot oneBotListen at h ⊢
  dsimp only at h ⊢
  split_ifs at h ⊢ with hc hl
  have hc : g.connected = true := eq_true_of_ne_false hc
  refine OneBotHttp.not_dismissed_of_going hc hs List.getElem?_concat_length ?_
  simp [OneBotHttp.Listener.going, hc, hs]

theorem oneBot_run (config : OneBotBackendConfig) (calls : List OneBotHttp.Pc) (as : List OneBotHttp.Act)
    {g g' : Shared} {p p' : OneBotHttp.Pc}
    (h : Run.exec (Threads.alone (OneBotHttp.program config)) (g, p) as = some (g', p')) :
    Run.exec (OneBotHttp.step config) ⟨g, calls ++ [p]⟩ (as.map (.act calls.length)) = some ⟨g', calls ++ [p']⟩ :=
  Threads.exec_alone calls as _ _ h

/-- `listen` and `disconnect` of the backend, called alone, are these. -/
theorem oneBot_listen_run (config : OneBotBackendConfig) (g : Shared) (calls : List OneBotHttp.Pc) :
    ∃ as : List OneBotHttp.Act,
      Run.exec (OneBotHttp.step config) ⟨g, calls⟩ (.start .listen :: as.map (.act calls.length)) =
        some ⟨(oneBot.listen g).1, calls ++ [.done (oneBot.listen g).2]⟩ := by
  obtain ⟨connected, listening, stopRequested, task, listeners, requests, notified⟩ := g
  cases connected with
  | false => exact ⟨[], rfl⟩
  | true =>
    cases listening with
    | true => exact ⟨[.go], oneBot_run config calls [.go] rfl⟩
    | false => exact ⟨[.go, .go], oneBot_run config calls [.go, .go] rfl⟩

theorem oneBot_disconnect_run (config : OneBotBackendConfig) (g : Shared) (calls : List OneBotHttp.Pc) :
    ∃ as : List OneBotHttp.Act,
      Run.exec (OneBotHttp.step config) ⟨g, calls⟩ (.start .disconnect :: as.map (.act calls.length)) =
        some ⟨(oneBot.disconnect g).1, calls ++ [.done (oneBot.disconnect g).2]⟩ :=
  ⟨[.go, .go], oneBot_run config calls [.go, .go] rfl⟩

/-- A host whose addresses are `host:port` with a port of digits, and on which nothing else fails. -/
def portHost : Host Shared String where
  parse addr := if ((Text.cutAt [':'] addr.toList).map fun p => p.2.all Char.isDigit) = some true then .ok addr
    else .error "invalid socket address syntax"
  bind _ := .ok ()
  serve _ := .ok ()
  meanwhile g := g

/-- An address that does not parse leaves the session of a connected backend open. -/
theorem invalid_addr_leaves_session :
    (runWithState oneBot portHost "invalid:addr" ⟨false, some { connected := true }⟩).2 =
      .error (.transport "invalid socket address syntax") ∧
    (runWithState oneBot portHost "invalid:addr" ⟨false, some { connected := true }⟩).1.protocol =
      some { connected := true } ∧
    ¬ CleanedUp oneBot (runWithState oneBot portHost "invalid:addr" ⟨false, some { connected := true }⟩).1 := by
  have h : runWithState oneBot portHost "invalid:addr" ⟨false, some { connected := true }⟩ =
      (⟨false, some { connected := true }⟩, .error (.transport "invalid socket address syntax")) := rfl
  rw [h]
  refine ⟨rfl, rfl, fun hc => ?_⟩
  exact hc.2 { connected := true } rfl (.inl rfl)

end OneBot

/-! ## The QQ client backend -/

section QQ

open QQBackend (Shared)

def qqListen (g : Shared) : Shared × Except ProtocolError Unit :=
  if g.connected = false then (g, .error (.transport "protocol is not connected"))
  else if g.listening = true then (g, .error (.transport "listen already started"))
  else
    ({ g with
        listening := true
        listeners := g.listeners ++ [{ pollMs := g.config.listenPollMs }]
        listenTask := some g.listeners.length }, .ok ())

def qqDisconnect (g : Shared) : Shared × Except ProtocolError Unit :=
  ({ Shared.abortListener { g with
        stopRequested := true
        connected := false
        listening := false
        loggedIn := false } with client := .disconnected }, .ok ())

/-- An abort reaches the listener in the slot alone: one whose handle is lost is to leave by itself. -/
def qq : Backend Shared where
  active g := g.connected = true ∨ g.client ≠ .disconnected ∨ ∃ t < g.listeners.length, ¬ QQBackend.Dismissed g t
  listen := qqListen
  disconnect := qqDisconnect
  active_of_refused g e h := by
    unfold qqListen at h ⊢
    split_ifs at h ⊢ <;> rfl
  not_active_disconnect g := by
    have hconn : (qqDisconnect g).1.connected = false := QQBackend.connected_abortListener _
    rintro (hc | hc | ⟨t, ht, hn⟩)
    · rw [hconn] at hc
      cases hc
    · exact hc rfl
    · exact hn (QQBackend.dismissed_of_not_connected hconn ht)

theorem qq_listen_starts {g : Shared} (hs : g.stopRequested = false) (h : (qq.listen g).2 = .ok ()) :
    ¬ QQBackend.Dismissed (qq.listen g).1 g.listeners.length := by
  unfold qq qqListen at h ⊢
  dsimp only at h ⊢
  split_ifs at h ⊢ with hc hl
  have hc : g.connected = true := eq_true_of_ne_false hc
  exact QQBackend.not_dismissed_of_inLoop (by simp [Shared.goesOn, hc, hs]) List.getElem?_concat_length rfl

theorem qq_listen_run (g : Shared) (returned : List QQBackend.Reply) :
    ∃ as : List QQBackend.Act, Run.exec QQBackend.step ⟨g, [], returned⟩ (.start .listen :: as.map .act) =
      some ⟨(qq.listen g).1, [], returned ++ [(qq.listen g).2]⟩ := by
  obtain ⟨config, client, connected, loggedIn, listening, stopRequested, task, listeners, notified⟩ := g
  cases connected with
  | false => exact ⟨[], rfl⟩
  | true =>
    cases listening with
    | true => exact ⟨[], rfl⟩
    | false => exact ⟨[.go, .go], rfl⟩

theorem qq_disconnect_run (g : Shared) (returned : List QQBackend.Reply) :
    ∃ as : List QQBackend.Act, Run.exec QQBackend.step ⟨g, [], returned⟩ (.start .disconnect :: as.map .act) =
      some ⟨(qq.disconnect g).1, [], returned ++ [(qq.disconnect g).2]⟩ :=
  ⟨[.go, .go], rfl⟩

end QQ

end NapCat.Api.Server
