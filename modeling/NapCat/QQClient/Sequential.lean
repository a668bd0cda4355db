/-
`TcpQQClient` under calls made one at a time, against a peer that accepts every connection, takes in
every line, answers every `auth.login` with `auth.ok` and sends nothing else.
-/
import NapCat.QQClient.Tcp

namespace NapCat.QQClient.Tcp

/-- A call and what it meets: the clock, the payload that the peer answers a login with, and whether a
read without any time comes before the answer. -/
structure Visit where
  op : Op
  now : Nat := 0
  ack : String := "{}"
  late : Bool := false

/-- The client, and the payloads of the answers it has not read. -/
structure Session where
  client : Shared := {}
  acks : List String := []

/-- The outcome of what a call waits for. -/
def respond (v : Visit) (acks : List String) : Pc → Act
  | .connecting _ _ _ | .write _ _ (.write _) => .io .ok
  | .loginAck _ (.stream _) | .receive (.stream _) => .convert none
  | .loginAck _ (.read ms) | .receive (.read ms) =>
    match acks with
    | [] => .read .expired
    | ack :: _ => if ms = 0 ∧ v.late then .read .expired else .read (.line (wireBytes ⟨"auth.ok", ack⟩))
  | .beatAt _ => .clock v.now
  | _ => .go

/-- The answers not read after a step with this outcome. What has arrived behind a line goes down with
the reader of the line, and what belongs to a closed stream with the stream. -/
def unread (v : Visit) (acks : List String) : Pc → Act → List String
  | .write .login _ (.write _), _ => acks ++ [v.ack]
  | .discStream, _ => []
  | _, .read (.line _) => []
  | _, _ => acks

/-- A call up to its return. -/
def drive (v : Visit) : Nat → Session → Pc → Option (Session × Except QQClientError Reply)
  | _, s, .done r => some (s, r)
  | 0, _, _ => none
  | n + 1, s, pc =>
    (act s.client pc (respond v s.acks pc)).bind fun r =>
      drive v n ⟨r.1, unread v s.acks pc (respond v s.acks pc)⟩ r.2

/-- More steps than any call takes. -/
def maxSteps : Nat := 24

/-- One call. -/
def perform (s : Session) (v : Visit) : Option (Session × Except QQClientError Reply) :=
  (start s.client v.op).bind fun r => drive v maxSteps { s with client := r.1 } r.2

/-! ## Calls are runs -/

theorem step_begin (g : Shared) (calls : List Pc) (op : Op) :
    step ⟨g, calls⟩ (.start op) = (start g op).map fun r => ⟨r.1, calls ++ [r.2]⟩ := by
  simp only [step, Threads.step, program]

/-- A call that has returned takes no step. -/
theorem alone_done {g : Shared} {r : Except QQClientError Reply} {as : List Act} {s : Shared × Pc}
    (h : Run.exec (Threads.alone program) (g, .done r) as = some s) : as = [] ∧ s = (g, .done r) := by
  cases as with
  | nil => exact ⟨rfl, (Option.some.inj h).symm⟩
  | cons a as =>
    obtain ⟨m, hm, -⟩ := Option.bind_eq_some_iff.1 h
    cases hm

theorem drive_run {v : Visit} (calls : List Pc) {r : Except QQClientError Reply} {s' : Session} :
    ∀ (n : Nat) (s : Session) (pc : Pc), drive v n s pc = some (s', r) →
      ∃ es, Run.exec step ⟨s.client, calls ++ [pc]⟩ es = some ⟨s'.client, calls ++ [.done r]⟩ := by
  intro n
  induction n with
  | zero =>
    intro s pc h
    cases pc <;> cases h
    exact ⟨[], rfl⟩
  | succ n ih =>
    intro s pc h
    by_cases hd : ∃ r', pc = .done r'
    · obtain ⟨r', rfl⟩ := hd
      cases h
      exact ⟨[], rfl⟩
    · rw [drive] at h
      · obtain ⟨⟨g, pc'⟩, ha, h⟩ := Option.bind_eq_some_iff.1 h
        obtain ⟨es, hes⟩ := ih _ _ h
        refine ⟨.act calls.length (respond v s.acks pc) :: es, ?_⟩
        rw [Run.exec_cons, step, Threads.step_last, show program.act s.client pc _ = some (g, pc') from ha]
        exact hes
      · exact fun r' hr => hd ⟨r', hr⟩

/-- A call made alone is a run of the client in which no other call takes a step. -/
theorem perform_run {v : Visit} {s s' : Session} {r : Except QQClientError Reply} (calls : List Pc)
    (h : perform s v = some (s', r)) :
    ∃ es, Run.exec step ⟨s.client, calls⟩ (.start v.op :: es) = some ⟨s'.client, calls ++ [.done r]⟩ := by
  obtain ⟨⟨g, pc⟩, hst, h⟩ := Option.bind_eq_some_iff.1 h
  obtain ⟨es, hes⟩ := drive_run calls maxSteps _ _ h
  refine ⟨es, ?_⟩
  rw [Run.exec_cons, step_begin, hst]
  exact hes

/-! ## What each call does -/

/-- Between calls: the session is open exactly while it has a stream, nothing is unread, and a session
that is not logged in has some time to wait for its answer. -/
structure Ready (s : Session) : Prop where
  state : s.client.state ≠ .closing
  stream : s.client.state ≠ .disconnected → s.client.stream ≠ none
  unlocked : s.client.streamLocked = false
  timeout : s.client.state = .connected → s.client.timeoutMs ≠ 0
  acks : s.acks = []

theorem Ready.isOpen {s : Session} (h : Ready s) (hs : s.client.state ≠ .disconnected) :
    s.client.state = .connected ∨ s.client.state = .loggedIn := by
  cases hst : s.client.state with
  | disconnected => exact absurd hst hs
  | connected => exact .inl rfl
  | loggedIn => exact .inr rfl
  | closing => exact absurd hst h.state

/-- A call that ends in its first step. -/
theorem perform_refused {s : Session} {v : Visit} {r : Except QQClientError Reply}
    (h : start s.client v.op = some (s.client, .done r)) : perform s v = some (s, r) := by
  rw [perform, h]
  rfl

theorem not_isSessionOpen {g : Shared} (h : g.state = .disconnected) : g.isSessionOpen = false := by
  rw [Shared.isSessionOpen, h]
  rfl

theorem perform_connect_open {s : Session} {v : Visit} {config : QQClientConfig}
    (hs : s.client.state = .connected ∨ s.client.state = .loggedIn) (hv : v.op = .connect config) :
    perform s v = some (s, .error (.invalidState "connection already active")) := by
  apply perform_refused
  simp only [hv, start, Shared.isSessionOpen_iff.2 hs, if_true, fail]

theorem perform_connect {s : Session} {v : Visit} {config : QQClientConfig} {addr : String} (h : Ready s)
    (hs : s.client.state = .disconnected) (hn : normalizeTcpEndpoint config.endpoint = .ok addr)
    (hv : v.op = .connect config) :
    perform s v = some (⟨{ s.client with
      endpoint := some config.endpoint
      timeoutMs := effectiveTimeoutMs config.timeoutMs
      stream := some addr
      state := .connected }, []⟩, .ok .unit) := by
  obtain ⟨⟨endpoint, token, state, beat, ms, stream, locked, written⟩, acks⟩ := s
  obtain rfl : locked = false := h.unlocked
  obtain rfl : acks = [] := h.acks
  obtain rfl : state = .disconnected := hs
  simp only [perform, hv, start, Shared.isSessionOpen, hn]
  rfl

theorem perform_login_closed {s : Session} {v : Visit} {account password : String}
    (hs : s.client.state = .disconnected) (hv : v.op = .login account password) :
    perform s v = some (s, .error (.invalidState "must connect before login")) := by
  apply perform_refused
  simp only [hv, start, not_isSessionOpen hs, Bool.not_false, if_true, fail]

theorem perform_login_blank {s : Session} {v : Visit} {account password : String}
    (hs : s.client.state = .connected ∨ s.client.state = .loggedIn)
    (hb : (Text.isBlank account || Text.isBlank password) = true) (hv : v.op = .login account password) :
    perform s v = some (s, .error (.login "account and password required")) := by
  apply perform_refused
  simp only [hv, start, Shared.isSessionOpen_iff.2 hs, hb, Bool.not_true, Bool.false_eq_true, if_false, if_true, fail]

def loginLine (account password : String) : String :=
  buildWireLine "auth.login" (Json.obj [("account", .str account), ("password", .str password)]).toText

/-- The token that the client takes from the payload of an answer. -/
def tokenOf (payload : Json) : String := ((payload.get "token").bind Json.asStr).getD "session"

/-- The steps of a login up to the read of its answer. -/
theorem drive_login {s : Session} {v : Visit} {line : String} (h : Ready s) (hs : s.client.state ≠ .disconnected) :
    drive v maxSteps s (.write .login line .stream) =
      drive v 18 ⟨{ s.client with written := s.client.written ++ [line] }, [v.ack]⟩
        (.loginAck 3 (.read s.client.timeoutMs)) := by
  obtain ⟨⟨endpoint, token, state, beat, ms, stream, locked, written⟩, acks⟩ := s
  obtain rfl : locked = false := h.unlocked
  obtain rfl : acks = [] := h.acks
  obtain ⟨addr, rfl⟩ : ∃ addr, stream = some addr := Option.ne_none_iff_exists'.1 (h.stream hs)
  cases state with
  | disconnected => exact absurd rfl hs
  | closing => exact absurd rfl h.state
  | connected => rfl
  | loggedIn => rfl

/-- The answer is read and logs the session in. -/
theorem drive_ack {v : Visit} {g : Shared} {payload : Json} {ms : UInt64} (hp : Json.ofText v.ack = .ok payload)
    (ht : ¬ (ms = 0 ∧ v.late = true)) :
    drive v 18 ⟨g, [v.ack]⟩ (.loginAck 3 (.read ms)) =
      some (⟨{ g with token := some (tokenOf payload), state := .loggedIn }, []⟩, .ok (.token (tokenOf payload))) := by
  have hr : respond v [v.ack] (.loginAck 3 (.read ms)) = .read (.line (wireBytes ⟨"auth.ok", v.ack⟩)) := if_neg ht
  have ha : act g (.loginAck 3 (.read ms)) (.read (.line (wireBytes ⟨"auth.ok", v.ack⟩))) =
      some (g, .loginToken (tokenOf payload)) := by
    simp only [act, recvOnce, answer, decodeLine_wireBytes, Option.map_some, ackStep, hp, if_true]
    rfl
  rw [drive, hr, ha]
  · rfl
  · exact fun r hd => by cases hd

/-- An answer whose payload is not JSON ends the login. -/
theorem drive_badAck {v : Visit} {g : Shared} {e : Json.Error} {ms : UInt64} (hp : Json.ofText v.ack = .error e)
    (ht : ¬ (ms = 0 ∧ v.late = true)) :
    drive v 18 ⟨g, [v.ack]⟩ (.loginAck 3 (.read ms)) =
      some (⟨g, []⟩, .error (.protocol ("invalid login payload: " ++ e.text))) := by
  have hr : respond v [v.ack] (.loginAck 3 (.read ms)) = .read (.line (wireBytes ⟨"auth.ok", v.ack⟩)) := if_neg ht
  have ha : act g (.loginAck 3 (.read ms)) (.read (.line (wireBytes ⟨"auth.ok", v.ack⟩))) =
      some (g, fail (.protocol ("invalid login payload: " ++ e.text))) := by
    simp only [act, recvOnce, answer, decodeLine_wireBytes, Option.map_some, ackStep, hp, if_true]
  rw [drive, hr, ha]
  · rfl
  · exact fun r hd => by cases hd

/-- A read without any time expires before the answer. -/
theorem drive_late {v : Visit} {g : Shared} {ms : UInt64} (ht : ms = 0 ∧ v.late = true) :
    drive v 18 ⟨g, [v.ack]⟩ (.loginAck 3 (.read ms)) = some (⟨g, [v.ack]⟩, .error (.timeout "receive timeout")) := by
  have hr : respond v [v.ack] (.loginAck 3 (.read ms)) = .read .expired := if_pos ht
  rw [drive, hr]
  · rfl
  · exact fun r hd => by cases hd

/-- A login in an open session with credentials comes to the read of its answer. -/
theorem perform_login {s : Session} {v : Visit} {account password : String} (h : Ready s)
    (hs : s.client.state = .connected ∨ s.client.state = .loggedIn)
    (hb : (Text.isBlank account || Text.isBlank password) = false) (hv : v.op = .login account password) :
    perform s v = drive v 18 ⟨{ s.client with written := s.client.written ++ [loginLine account password] }, [v.ack]⟩
      (.loginAck 3 (.read s.client.timeoutMs)) := by
  have hopen := Shared.isSessionOpen_iff.2 hs
  have hst : s.client.state ≠ .disconnected := by
    rcases hs with hs | hs <;> rw [hs] <;> exact ConnectionState.noConfusion
  simp only [perform, hv, start, hopen, hb, Bool.not_true, Bool.false_eq_true, if_false, Option.bind_some]
  exact drive_login h hst

theorem perform_sendPacket_refused {s : Session} {v : Visit} {packet : Packet} (hs : s.client.state ≠ .loggedIn)
    (hv : v.op = .sendPacket packet) :
    perform s v = some (s, .error (.invalidState "must login before sending packets")) := by
  apply perform_refused
  rw [hv]
  exact if_pos hs

theorem perform_sendPacket {s : Session} {v : Visit} {packet : Packet} (h : Ready s)
    (hs : s.client.state = .loggedIn) (hv : v.op = .sendPacket packet) :
    perform s v = some (⟨{ s.client with
      written := s.client.written ++ [buildWireLine packet.route packet.payload] }, []⟩, .ok .unit) := by
  obtain ⟨⟨endpoint, token, state, beat, ms, stream, locked, written⟩, acks⟩ := s
  obtain rfl : locked = false := h.unlocked
  obtain rfl : acks = [] := h.acks
  obtain rfl : state = .loggedIn := hs
  obtain ⟨addr, rfl⟩ : ∃ addr, stream = some addr := Option.ne_none_iff_exists'.1 (h.stream ConnectionState.noConfusion)
  simp only [perform, hv]
  rfl

theorem perform_receivePacket_closed {s : Session} {v : Visit} (hs : s.client.state = .disconnected)
    (hv : v.op = .receivePacket) : perform s v = some (s, .ok (.packet none)) := by
  apply perform_refused
  simp only [hv, start, not_isSessionOpen hs, Bool.not_false, if_true]

/-- Nothing is unread, so a receive waits for its timeout. -/
theorem perform_receivePacket {s : Session} {v : Visit} (h : Ready s) (hs : s.client.state ≠ .disconnected)
    (hv : v.op = .receivePacket) : perform s v = some (s, .error (.timeout "receive timeout")) := by
  obtain ⟨⟨endpoint, token, state, beat, ms, stream, locked, written⟩, acks⟩ := s
  obtain rfl : locked = false := h.unlocked
  obtain rfl : acks = [] := h.acks
  obtain ⟨addr, rfl⟩ : ∃ addr, stream = some addr := Option.ne_none_iff_exists'.1 (h.stream hs)
  simp only [perform, hv]
  cases state with
  | disconnected => exact absurd rfl hs
  | closing => exact absurd rfl h.state
  | connected => rfl
  | loggedIn => rfl

theorem perform_heartbeat_closed {s : Session} {v : Visit} {interval : Duration} (hs : s.client.state = .disconnected)
    (hv : v.op = .heartbeat interval) :
    perform s v = some (s, .error (.invalidState "must connect before heartbeat")) := by
  apply perform_refused
  simp only [hv, start, not_isSessionOpen hs, Bool.not_false, if_true, fail]

theorem perform_heartbeat_zero {s : Session} {v : Visit} {interval : Duration}
    (hs : s.client.state = .connected ∨ s.client.state = .loggedIn) (hi : interval.nanos = 0)
    (hv : v.op = .heartbeat interval) : perform s v = some (s, .error (.timeout "heartbeat interval is zero")) := by
  apply perform_refused
  simp only [hv, start, Shared.isSessionOpen_iff.2 hs, hi, Bool.not_true, Bool.false_eq_true, if_false, if_true, fail]

def heartbeatLine (ms : UInt64) : String :=
  buildWireLine "system.heartbeat" (Json.obj [("interval_ms", Json.ofNat ms.toNat)]).toText

theorem perform_heartbeat {s : Session} {v : Visit} {interval : Duration} (h : Ready s)
    (hs : s.client.state = .loggedIn) (hi : interval.nanos ≠ 0) (hm : interval.asMillis < 2 ^ 64)
    (hv : v.op = .heartbeat interval) :
    perform s v = some (⟨{ s.client with
      written := s.client.written ++ [heartbeatLine (UInt64.ofNat interval.asMillis)]
      heartbeatAt := some v.now
      timeoutMs := UInt64.ofNat interval.asMillis }, []⟩, .ok .unit) := by
  obtain ⟨⟨endpoint, token, state, beat, ms, stream, locked, written⟩, acks⟩ := s
  obtain rfl : locked = false := h.unlocked
  obtain rfl : acks = [] := h.acks
  obtain rfl : state = .loggedIn := hs
  obtain ⟨addr, rfl⟩ : ∃ addr, stream = some addr := Option.ne_none_iff_exists'.1 (h.stream ConnectionState.noConfusion)
  simp only [perform, hv, start, Shared.isSessionOpen, hi, Nat.not_le.2 hm, if_false]
  rfl

/-- In a session that is not logged in a heartbeat gets as far as the check of its packet. -/
theorem perform_heartbeat_connected {s : Session} {v : Visit} {interval : Duration} (h : Ready s)
    (hs : s.client.state = .connected) (hi : interval.nanos ≠ 0) (hm : interval.asMillis < 2 ^ 64)
    (hv : v.op = .heartbeat interval) :
    perform s v = some (s, .error (.invalidState "must login before sending packets")) := by
  obtain ⟨⟨endpoint, token, state, beat, ms, stream, locked, written⟩, acks⟩ := s
  obtain rfl : acks = [] := h.acks
  obtain rfl : state = .connected := hs
  simp only [perform, hv, start, Shared.isSessionOpen, hi, Nat.not_le.2 hm, if_false]
  rfl

theorem perform_disconnect {s : Session} {v : Visit} (h : Ready s) (hv : v.op = .disconnect) :
    perform s v = some (⟨{ s.client with
      endpoint := none
      token := none
      heartbeatAt := none
      stream := none
      state := .disconnected }, []⟩, .ok .unit) := by
  obtain ⟨⟨endpoint, token, state, beat, ms, stream, locked, written⟩, acks⟩ := s
  obtain rfl : locked = false := h.unlocked
  obtain rfl : acks = [] := h.acks
  simp only [perform, hv]
  rfl

end NapCat.QQClient.Tcp
