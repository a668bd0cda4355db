/-
The mock client in the place of the TCP client: call by call, where the two answer alike.
-/
import NapCat.QQClient.Mock
import NapCat.QQClient.Sequential
import NapCat.Lib.Lockstep

namespace NapCat.QQClient.Substitution

open Tcp (Visit Session Duration Op Reply Ready)

/-- The variants of `QQClientError`. -/
inductive ErrorKind
  | transport
  | protocol
  | login
  | invalidState
  | timeout
  deriving DecidableEq

def kindOf : QQClientError → ErrorKind
  | .transport _ => .transport
  | .protocol _ => .protocol
  | .login _ => .login
  | .invalidState _ => .invalidState
  | .timeout _ => .timeout

/-- What is compared of a result. The text of a ticket is the mock's own, or the peer's. -/
inductive Answer
  | unit
  | ticket
  | packet (p : Option Packet)
  | error (kind : ErrorKind)
  deriving DecidableEq

def answerOf : Except QQClientError Reply → Answer
  | .ok .unit => .unit
  | .ok (.token _) => .ticket
  | .ok (.packet p) => .packet p
  | .error e => .error (kindOf e)

/-- A call to the mock, with its answer and the state after it. -/
def mockCall (m : Mock) (v : Visit) : Mock × Answer × ConnectionState :=
  let r := m.perform v.now v.op
  (r.1, answerOf r.2, r.1.state)

/-- A call to the TCP client, with its answer and the state after it. -/
def tcpCall (s : Session) (v : Visit) : Option (Session × Answer × ConnectionState) :=
  (Tcp.perform s v).map fun r => (r.1, answerOf r.2, r.1.client.state)

/-- Endpoints are `host:port`, and intervals below 2^64 ms. -/
def InDomain (v : Visit) : Prop :=
  match v.op with
  | .connect config => (normalizeTcpEndpoint config.endpoint).isOk = true
  | .heartbeat interval => interval.asMillis < 2 ^ 64
  | _ => True

instance (v : Visit) : Decidable (InDomain v) := by
  unfold InDomain
  split <;> infer_instance

theorem InDomain.endpoint {v : Visit} {config : QQClientConfig} (h : InDomain v) (hv : v.op = .connect config) :
    ∃ addr, normalizeTcpEndpoint config.endpoint = .ok addr := by
  rw [InDomain, hv] at h
  cases hn : normalizeTcpEndpoint config.endpoint with
  | ok addr => exact ⟨addr, rfl⟩
  | error e => simp [hn, Except.isOk, Except.toBool] at h

theorem InDomain.interval {v : Visit} {interval : Duration} (h : InDomain v) (hv : v.op = .heartbeat interval) :
    interval.asMillis < 2 ^ 64 := by
  rw [InDomain, hv] at h
  exact h

/-- Where the two answer a call alike, by what the mock holds before it. -/
def Compatible (m : Mock) (v : Visit) : Prop :=
  match v.op with
  -- the mock opens an open session again
  | .connect _ => m.state ≠ .connected
  -- the TCP client logs in again, and reads the payload of the answer
  | .login account password =>
    m.state ≠ .loggedIn ∧ (m.state = .connected → (Text.isBlank account || Text.isBlank password) = false →
      (Json.ofText v.ack).isOk = true)
  -- only the mock refuses a timeout of zero
  | .sendPacket _ => m.timeoutMs ≠ 0
  -- the mock has nothing to wait for
  | .receivePacket => m.state = .disconnected
  -- the two check the session and the interval in different orders
  | .heartbeat interval =>
    if m.timeoutMs = 0 then m.state ≠ .disconnected ∧ interval.nanos = 0
    else ¬ (m.state = .connected ∧ interval.nanos = 0)
  | .disconnect => True

instance (m : Mock) (v : Visit) : Decidable (Compatible m v) := by
  unfold Compatible
  split <;> infer_instance

/-- Between calls the clients are in the same state, and neither has anything to be received. -/
structure Related (m : Mock) (s : Session) : Prop where
  state : s.client.state = m.state
  ready : Ready s
  inbound : m.inboundPackets = []

/-- The two answer the call alike exactly where they are compatible, and are related after it. -/
structure Meets (m : Mock) (s : Session) (v : Visit) : Prop where
  exists_call : ∃ s' b, tcpCall s v = some (s', b) ∧ (b = (mockCall m v).2 ↔ Compatible m v) ∧
    (Compatible m v → Related (mockCall m v).1 s')

variable {m m' : Mock} {s s' : Session} {v : Visit} {x y : Except QQClientError Reply}

theorem Meets.alike (hm : m.perform v.now v.op = (m', x)) (ht : Tcp.perform s v = some (s', y))
    (ha : answerOf y = answerOf x) (hr : Related m' s') (hc : Compatible m v) : Meets m s v := by
  refine ⟨s', (answerOf y, s'.client.state), ?_, ⟨fun _ => hc, fun _ => ?_⟩, fun _ => ?_⟩
  · rw [tcpCall, ht]
    rfl
  · rw [mockCall, hm, ha, hr.state]
  · rw [mockCall, hm]
    exact hr

theorem Meets.apart (hm : m.perform v.now v.op = (m', x)) (ht : Tcp.perform s v = some (s', y))
    (ha : answerOf y ≠ answerOf x) (hc : ¬ Compatible m v) : Meets m s v := by
  refine ⟨s', (answerOf y, s'.client.state), ?_, ⟨fun hb => ?_, fun h => absurd h hc⟩, fun h => absurd h hc⟩
  · rw [tcpCall, ht]
    rfl
  · rw [mockCall, hm] at hb
    exact absurd (congrArg Prod.fst hb) ha

/-! ## The six calls -/

theorem not_blank_of_normalize {endpoint addr : String} (h : normalizeTcpEndpoint endpoint = .ok addr) :
    Text.isBlank endpoint = false := by
  cases hb : Text.isBlank endpoint with
  | false => rfl
  | true =>
    have he : normalizeTcpEndpoint endpoint = .error (.transport "empty tcp endpoint") := if_pos hb
    rw [he] at h
    cases h

theorem meets_connect {config : QQClientConfig} (h : Related m s) (hd : InDomain v) (hv : v.op = .connect config) :
    Meets m s v := by
  obtain ⟨addr, hn⟩ := hd.endpoint hv
  have hb := not_blank_of_normalize hn
  have hc : Compatible m v ↔ m.state ≠ .connected := by rw [Compatible, hv]
  -- only a logged-in mock refuses
  have hopens (hs : m.state ≠ .loggedIn) : m.perform v.now v.op =
      ({ m with state := .connected, endpoint := some config.endpoint, timeoutMs := config.timeoutMs }, .ok .unit) := by
    rw [hv]
    simp only [Mock.perform, Mock.connect, hb, hs, Bool.false_eq_true, if_false]
  cases hs : m.state with
  | disconnected =>
    have hm := hopens (hs ▸ ConnectionState.noConfusion)
    have ht := Tcp.perform_connect h.ready (h.state.trans hs) hn hv
    refine .alike hm ht rfl ⟨rfl, ?_, h.inbound⟩ (hc.2 (hs ▸ ConnectionState.noConfusion))
    refine ⟨ConnectionState.noConfusion, fun _ => Option.some_ne_none addr, h.ready.unlocked, fun _ => ?_, rfl⟩
    exact effectiveTimeoutMs_ne_zero config.timeoutMs
  | connected =>
    have hm := hopens (hs ▸ ConnectionState.noConfusion)
    have ht := Tcp.perform_connect_open (.inl (h.state.trans hs)) hv
    exact .apart hm ht Answer.noConfusion fun hcomp => hc.1 hcomp hs
  | loggedIn =>
    have hm : m.perform v.now v.op = (m, .error (.invalidState "already logged in, disconnect first")) := by
      rw [hv]
      simp only [Mock.perform, Mock.connect, hb, hs, Bool.false_eq_true, if_false, if_true]
    have ht := Tcp.perform_connect_open (.inr (h.state.trans hs)) hv
    exact .alike hm ht rfl h (hc.2 (hs ▸ ConnectionState.noConfusion))
  | closing => exact absurd (h.state.trans hs) h.ready.state

/-- In an open session the TCP client does not refuse a login for its state. -/
theorem login_open {account password : String} (h : Ready s)
    (hs : s.client.state = .connected ∨ s.client.state = .loggedIn) (hv : v.op = .login account password) :
    ∃ s' y, Tcp.perform s v = some (s', y) ∧ answerOf y ≠ .error .invalidState := by
  cases hb : Text.isBlank account || Text.isBlank password with
  | true =>
    refine ⟨_, _, Tcp.perform_login_blank hs hb hv, ?_⟩
    rintro ⟨⟩
  | false =>
    rw [Tcp.perform_login h hs hb hv]
    by_cases htime : s.client.timeoutMs = 0 ∧ v.late = true
    · refine ⟨_, _, Tcp.drive_late htime, ?_⟩
      rintro ⟨⟩
    · cases hack : Json.ofText v.ack with
      | ok payload => exact ⟨_, _, Tcp.drive_ack hack htime, Answer.noConfusion⟩
      | error e =>
        refine ⟨_, _, Tcp.drive_badAck hack htime, ?_⟩
        rintro ⟨⟩

/-- A login with credentials, connected and not logged in: the ticket is given for an answer in JSON. -/
theorem meets_login_connected {account password : String} (h : Related m s) (hs : m.state = .connected)
    (hb : (Text.isBlank account || Text.isBlank password) = false) (hv : v.op = .login account password) :
    Meets m s v := by
  have hc : Compatible m v ↔ (Json.ofText v.ack).isOk = true := by simp [Compatible, hv, hs, hb]
  have hstate := h.state.trans hs
  have hm : m.perform v.now v.op = ({ m with token := some ("mock-token-" ++ account), state := .loggedIn },
      .ok (.token (account ++ ":logged-in"))) := by
    rw [hv]
    simp only [Mock.perform, Mock.login, hs, hb, ne_eq, not_true_eq_false, if_false, Bool.false_eq_true]
  have htime : ¬ (s.client.timeoutMs = 0 ∧ v.late = true) := fun ht => h.ready.timeout hstate ht.1
  have ht := Tcp.perform_login h.ready (.inl hstate) hb hv
  cases hack : Json.ofText v.ack with
  | ok payload =>
    rw [Tcp.drive_ack hack htime] at ht
    refine .alike hm ht rfl ⟨rfl, ?_, h.inbound⟩ (hc.2 (by rw [hack]; rfl))
    refine ⟨ConnectionState.noConfusion, fun _ => h.ready.stream ?_, h.ready.unlocked, fun hf => ?_, rfl⟩
    · rw [hstate]
      exact ConnectionState.noConfusion
    · cases hf
  | error e =>
    rw [Tcp.drive_badAck hack htime] at ht
    refine .apart hm ht Answer.noConfusion fun hcomp => ?_
    have hok := hc.1 hcomp
    rw [hack] at hok
    cases hok

theorem meets_login {account password : String} (h : Related m s) (hv : v.op = .login account password) :
    Meets m s v := by
  -- the mock logs in only when connected
  have hrefused (hs : m.state ≠ .connected) :
      m.perform v.now v.op = (m, .error (.invalidState "must connect before login")) := by
    rw [hv]
    exact if_pos hs
  cases hs : m.state with
  | disconnected =>
    have hm := hrefused (hs ▸ ConnectionState.noConfusion)
    have ht := Tcp.perform_login_closed (h.state.trans hs) hv
    exact .alike hm ht rfl h (by simp [Compatible, hv, hs])
  | connected =>
    cases hb : Text.isBlank account || Text.isBlank password with
    | true =>
      have hm : m.perform v.now v.op = (m, .error (.login "account and password required")) := by
        rw [hv]
        simp only [Mock.perform, Mock.login, hs, hb, ne_eq, not_true_eq_false, if_false, if_true]
      have ht := Tcp.perform_login_blank (.inl (h.state.trans hs)) hb hv
      exact .alike hm ht rfl h (by simp [Compatible, hv, hs, hb])
    | false => exact meets_login_connected h hs hb hv
  | loggedIn =>
    have hm := hrefused (hs ▸ ConnectionState.noConfusion)
    obtain ⟨s', y, ht, hy⟩ := login_open h.ready (.inr (h.state.trans hs)) hv
    exact .apart hm ht hy (by simp [Compatible, hv, hs])
  | closing => exact absurd (h.state.trans hs) h.ready.state

theorem meets_sendPacket {packet : Packet} (h : Related m s) (hv : v.op = .sendPacket packet) : Meets m s v := by
  have hc : Compatible m v ↔ m.timeoutMs ≠ 0 := by rw [Compatible, hv]
  -- without a timeout the mock refuses whatever its state
  have hzero (ht0 : m.timeoutMs = 0) : m.perform v.now v.op = (m, .error (.timeout "configured timeout is zero")) := by
    simp only [hv, Mock.perform, Mock.sendPacket, Mock.isLoggedIn, ht0, if_true]
  by_cases hs : m.state = .loggedIn
  · have hstate := h.state.trans hs
    have ht := Tcp.perform_sendPacket h.ready hstate hv
    by_cases ht0 : m.timeoutMs = 0
    · exact .apart (hzero ht0) ht Answer.noConfusion fun hcomp => hc.1 hcomp ht0
    · have hm : m.perform v.now v.op = ({ m with sentPackets := m.sentPackets ++ [packet] }, .ok .unit) := by
        simp only [hv, Mock.perform, Mock.sendPacket, Mock.isLoggedIn, ht0, if_false, hs, decide_true]
      refine .alike hm ht rfl ⟨h.state, ?_, h.inbound⟩ (hc.2 ht0)
      exact ⟨h.ready.state, h.ready.stream, h.ready.unlocked, h.ready.timeout, rfl⟩
  · have ht := Tcp.perform_sendPacket_refused (fun hl => hs (h.state.symm.trans hl)) hv
    by_cases ht0 : m.timeoutMs = 0
    · refine .apart (hzero ht0) ht ?_ fun hcomp => hc.1 hcomp ht0
      rintro ⟨⟩
    · have hm : m.perform v.now v.op = (m, .error (.invalidState "must login before sending packets")) := by
        simp only [hv, Mock.perform, Mock.sendPacket, Mock.isLoggedIn, ht0, if_false, hs, decide_false]
      exact .alike hm ht rfl h (hc.2 ht0)

theorem meets_receivePacket (h : Related m s) (hv : v.op = .receivePacket) : Meets m s v := by
  have hc : Compatible m v ↔ m.state = .disconnected := by rw [Compatible, hv]
  have hm : m.perform v.now v.op = (m, .ok (.packet none)) := by
    obtain ⟨endpoint, token, state, beat, ms, sent, inbound⟩ := m
    obtain rfl : inbound = [] := h.inbound
    rw [hv]
    rfl
  by_cases hs : m.state = .disconnected
  · exact .alike hm (Tcp.perform_receivePacket_closed (h.state.trans hs) hv) rfl h (hc.2 hs)
  · have ht := Tcp.perform_receivePacket h.ready (fun hd => hs (h.state.symm.trans hd)) hv
    exact .apart hm ht Answer.noConfusion fun hcomp => hs (hc.1 hcomp)

/-- In an open session the TCP client does not refuse a heartbeat for its interval, if it has one. -/
theorem heartbeat_open {interval : Duration} (h : Ready s)
    (hs : s.client.state = .connected ∨ s.client.state = .loggedIn) (hi : interval.nanos ≠ 0)
    (hms : interval.asMillis < 2 ^ 64) (hv : v.op = .heartbeat interval) :
    ∃ s' y, Tcp.perform s v = some (s', y) ∧ answerOf y ≠ .error .timeout := by
  rcases hs with hs | hs
  · refine ⟨_, _, Tcp.perform_heartbeat_connected h hs hi hms hv, ?_⟩
    rintro ⟨⟩
  · exact ⟨_, _, Tcp.perform_heartbeat h hs hi hms hv, Answer.noConfusion⟩

/-- The heartbeat of a mock whose timeout is zero. -/
theorem meets_heartbeat_zero {interval : Duration} (h : Related m s) (hd : InDomain v) (ht0 : m.timeoutMs = 0)
    (hv : v.op = .heartbeat interval) : Meets m s v := by
  have hc : Compatible m v ↔ m.state ≠ .disconnected ∧ interval.nanos = 0 := by
    simp only [Compatible, hv, ht0, if_true]
  have hm : m.perform v.now v.op = (m, .error (.timeout "configured timeout is zero")) := by
    simp only [hv, Mock.perform, Mock.heartbeat, Mock.isLoggedIn, ht0, if_true]
  by_cases hs : m.state = .disconnected
  · have ht := Tcp.perform_heartbeat_closed (h.state.trans hs) hv
    refine .apart hm ht ?_ fun hcomp => (hc.1 hcomp).1 hs
    rintro ⟨⟩
  · have hopen := h.ready.isOpen fun hf => hs (h.state.symm.trans hf)
    by_cases hi : interval.nanos = 0
    · exact .alike hm (Tcp.perform_heartbeat_zero hopen hi hv) rfl h (hc.2 ⟨hs, hi⟩)
    · obtain ⟨s', y, ht, hy⟩ := heartbeat_open h.ready hopen hi (hd.interval hv) hv
      exact .apart hm ht hy fun hcomp => hi (hc.1 hcomp).2

theorem meets_heartbeat {interval : Duration} (h : Related m s) (hd : InDomain v) (ht0 : m.timeoutMs ≠ 0)
    (hv : v.op = .heartbeat interval) : Meets m s v := by
  have hc : Compatible m v ↔ ¬ (m.state = .connected ∧ interval.nanos = 0) := by
    simp only [Compatible, hv, ht0, if_false]
  -- the mock asks for the login first
  have hrefused (hs : m.state ≠ .loggedIn) :
      m.perform v.now v.op = (m, .error (.invalidState "must login before heartbeat")) := by
    simp only [hv, Mock.perform, Mock.heartbeat, Mock.isLoggedIn, ht0, if_false, hs, decide_false]
  have hms := hd.interval hv
  cases hs : m.state with
  | disconnected =>
    have hm := hrefused (hs ▸ ConnectionState.noConfusion)
    have ht := Tcp.perform_heartbeat_closed (h.state.trans hs) hv
    refine .alike hm ht rfl h (hc.2 fun hf => ?_)
    rw [hs] at hf
    cases hf.1
  | connected =>
    have hm := hrefused (hs ▸ ConnectionState.noConfusion)
    have hstate := h.state.trans hs
    by_cases hi : interval.nanos = 0
    · have ht := Tcp.perform_heartbeat_zero (.inl hstate) hi hv
      refine .apart hm ht ?_ fun hcomp => hc.1 hcomp ⟨hs, hi⟩
      rintro ⟨⟩
    · have ht := Tcp.perform_heartbeat_connected h.ready hstate hi hms hv
      exact .alike hm ht rfl h (hc.2 fun hf => hi hf.2)
  | loggedIn =>
    have hstate := h.state.trans hs
    have hcomp : Compatible m v := by
      refine hc.2 fun hf => ?_
      rw [hs] at hf
      cases hf.1
    by_cases hi : interval.nanos = 0
    · have hm : m.perform v.now v.op = (m, .error (.timeout "heartbeat interval is zero")) := by
        simp only [hv, Mock.perform, Mock.heartbeat, Mock.isLoggedIn, ht0, if_false, hs, decide_true, hi, if_true]
      exact .alike hm (Tcp.perform_heartbeat_zero (.inr hstate) hi hv) rfl h hcomp
    · have hm : m.perform v.now v.op =
          ({ m with heartbeatAt := some v.now, timeoutMs := UInt64.ofNat interval.asMillis }, .ok .unit) := by
        simp only [hv, Mock.perform, Mock.heartbeat, Mock.isLoggedIn, ht0, if_false, hs, decide_true, hi,
          Nat.not_le.2 hms]
      refine .alike hm (Tcp.perform_heartbeat h.ready hstate hi hms hv) rfl ⟨h.state, ?_, h.inbound⟩ hcomp
      refine ⟨h.ready.state, h.ready.stream, h.ready.unlocked, fun hf => ?_, rfl⟩
      rw [show s.client.state = .loggedIn from hstate] at hf
      cases hf
  | closing => exact absurd (h.state.trans hs) h.ready.state

theorem meets_disconnect (h : Related m s) (hv : v.op = .disconnect) : Meets m s v := by
  have hm : m.perform v.now v.op = m.disconnect := by
    rw [hv]
    rfl
  have ht := Tcp.perform_disconnect h.ready hv
  have hready := h.ready.unlocked
  refine .alike hm ht rfl ⟨rfl, ⟨ConnectionState.noConfusion, fun hf => absurd rfl hf, hready, ?_, rfl⟩, rfl⟩ ?_
  · exact ConnectionState.noConfusion
  · rw [Compatible, hv]
    trivial

/-! ## Sequences of calls -/

theorem agrees : Lockstep.Agrees mockCall tcpCall Related InDomain Compatible where
  step m s v h hd := by
    suffices hmeets : Meets m s v from hmeets.exists_call
    cases hv : v.op with
    | connect config => exact meets_connect h hd hv
    | login account password => exact meets_login h hv
    | sendPacket packet => exact meets_sendPacket h hv
    | receivePacket => exact meets_receivePacket h hv
    | heartbeat interval =>
      by_cases ht0 : m.timeoutMs = 0
      · exact meets_heartbeat_zero h hd ht0 hv
      · exact meets_heartbeat h hd ht0 hv
    | disconnect => exact meets_disconnect h hv

theorem related_default : Related {} {} :=
  ⟨rfl, ⟨ConnectionState.noConfusion, fun h => absurd rfl h, rfl, ConnectionState.noConfusion, rfl⟩, rfl⟩

/-- From the default state the two clients answer every call of a sequence alike exactly when each
call is one that the mock, in the state it is in by then, answers as the TCP client does. -/
theorem stands_in_iff {visits : List Visit} (hd : ∀ v ∈ visits, InDomain v) :
    Lockstep.answers? tcpCall {} visits = some (Lockstep.answers mockCall {} visits) ↔
      Run.Along (Lockstep.next mockCall) Compatible {} visits :=
  agrees.answers_iff visits {} {} related_default hd

/-- A session with a send and a heartbeat, a receive after it, and a connect without a timeout. -/
def session : List Visit :=
  [{ op := .connect ⟨"tcp://host:1", none, 500⟩ }, { op := .login "alice" "secret" },
    { op := .sendPacket ⟨"msg.send", "hi"⟩ }, { op := .heartbeat ⟨5000000000⟩, now := 7 }, { op := .disconnect },
    { op := .receivePacket }, { op := .connect ⟨"host:2", none, 0⟩ }]

theorem stands_in_iff_session : Lockstep.answers? tcpCall {} session = some
    [(.unit, .connected), (.ticket, .loggedIn), (.unit, .loggedIn), (.unit, .loggedIn), (.unit, .disconnected),
      (.packet none, .disconnected), (.unit, .connected)] :=
  (stands_in_iff (by decide +kernel)).2 (by decide +kernel)

def connectTwice : List Visit :=
  [{ op := .connect ⟨"tcp://host:1", none, 500⟩ }, { op := .connect ⟨"tcp://host:1", none, 500⟩ }]

/-- The mock opens the open session again, and the TCP client refuses. -/
theorem stands_in_fails : (∀ v ∈ connectTwice, InDomain v) ∧
    Lockstep.answers mockCall {} connectTwice = [(.unit, .connected), (.unit, .connected)] ∧
    Lockstep.answers? tcpCall {} connectTwice = some [(.unit, .connected), (.error .invalidState, .connected)] := by
  decide +kernel

end NapCat.QQClient.Substitution
