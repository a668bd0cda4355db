/-
`TcpQQClient` under concurrent calls. Every step of a call is what the code does between two await
points: one lock taken and released, or one I/O operation with the outcome its event carries. The
stream lock is the one held across awaits, while a line is written.
-/
import NapCat.QQClient.Wire
import NapCat.Lib.Threads

namespace NapCat.QQClient

/-- Standard client states. -/
inductive ConnectionState
  | disconnected
  | connected
  | loggedIn
  | closing
  deriving DecidableEq, Repr

/-- High-level configuration for QQ protocol connectors. -/
structure QQClientConfig where
  endpoint : String
  token : Option String := none
  timeoutMs : UInt64 := 2000
  deriving DecidableEq, Repr

def effectiveTimeoutMs (raw : UInt64) : UInt64 := if raw = 0 then 2000 else raw

theorem effectiveTimeoutMs_ne_zero (raw : UInt64) : effectiveTimeoutMs raw ≠ 0 := by
  unfold effectiveTimeoutMs
  split_ifs with h
  · decide
  · exact h

/-- The `host:port` of an endpoint, without scheme, query and path. -/
def normalizeTcpEndpoint (raw : String) : Except QQClientError String :=
  let trimmed := Text.trim raw
  if trimmed.isEmpty then .error (.transport "empty tcp endpoint")
  else
    let withoutScheme := ((Text.cutAt "://".toList trimmed.toList).map fun p => String.ofList p.2).getD trimmed
    let host := Text.firstPart '/' (Text.firstPart '?' withoutScheme)
    if Text.isBlank host then .error (.transport "invalid tcp endpoint")
    else if ':' ∈ host.toList then .ok host
    else .error (.transport ("tcp endpoint requires host:port, got " ++ host))

namespace Tcp

/-- The fields of the client. The stream is known by the address it was opened to, and `written` are
the lines handed to it. -/
structure Shared where
  endpoint : Option String := none
  token : Option String := none
  state : ConnectionState := .disconnected
  heartbeatAt : Option Nat := none
  timeoutMs : UInt64 := 2000
  stream : Option String := none
  streamLocked : Bool := false
  written : List String := []
  deriving DecidableEq

/-- `is_session_open`. -/
def Shared.isSessionOpen (g : Shared) : Bool := g.state = .connected ∨ g.state = .loggedIn

theorem Shared.isSessionOpen_iff {g : Shared} :
    g.isSessionOpen = true ↔ g.state = .connected ∨ g.state = .loggedIn := by
  rw [isSessionOpen, decide_eq_true_iff]

/-- A `Duration`, in nanoseconds. -/
structure Duration where
  nanos : Nat

def Duration.asMillis (d : Duration) : Nat := d.nanos / 1000000

inductive Op
  | connect (config : QQClientConfig)
  | login (account password : String)
  | sendPacket (packet : Packet)
  | receivePacket
  | heartbeat (interval : Duration)
  | disconnect

inductive Reply
  | unit
  | token (t : String)
  | packet (p : Option Packet)
  deriving DecidableEq

/-- Inside `recv_once_with_timeout`: before its session check, before it reads the timeout, before it
takes the stream, and reading. -/
inductive RecvAt
  | check
  | deadline
  | stream (timeoutMs : UInt64)
  | read (timeoutMs : UInt64)
  deriving DecidableEq

/-- Who writes a line, and what it goes on with. -/
inductive Writer
  | login
  | sendPacket
  | heartbeat (intervalMs : UInt64)
  deriving DecidableEq

/-- Writing a line: before the stream lock, then holding it. -/
inductive WriteAt
  | stream
  | deadline
  | write (timeoutMs : UInt64)
  deriving DecidableEq

/-- The program point of a call. -/
inductive Pc
  | connecting (config : QQClientConfig) (addr : String) (timeoutMs : UInt64)
  | connEndpoint (config : QQClientConfig) (addr : String) (timeoutMs : UInt64)
  | connTimeout (addr : String) (timeoutMs : UInt64)
  | connStream (addr : String)
  | connState
  | write (who : Writer) (line : String) (at' : WriteAt)
  | loginAck (left : Nat) (r : RecvAt)
  | loginToken (token : String)
  | loginState (token : String)
  | receive (r : RecvAt)
  | beatCheck (intervalMs : UInt64)
  | beatAt (intervalMs : UInt64)
  | beatTimeout (intervalMs : UInt64)
  | discStream
  | discEndpoint
  | discToken
  | discHeartbeat
  | discState
  | panicked
  | done (r : Except QQClientError Reply)

/-- How an I/O operation under a deadline ends. -/
inductive Io
  | ok
  | expired
  | failed (error : String)

/-- A step of a call, with the outcome of the operation it waits for. -/
inductive Act
  | go
  | io (r : Io)
  | convert (error : Option String)
  | read (o : Framing.Outcome UInt8)
  | readFailed (error : String)
  | clock (now : Nat)

def fail (e : QQClientError) : Pc := .done (.error e)

/-! ## The operations -/

/-- The first step of a call: the session check, the checks of the arguments, or `Closing`. -/
def start (g : Shared) : Op → Option (Shared × Pc)
  | .connect config =>
    if g.isSessionOpen then some (g, fail (.invalidState "connection already active"))
    else match normalizeTcpEndpoint config.endpoint with
      | .error e => some (g, fail e)
      | .ok addr => some (g, .connecting config addr (effectiveTimeoutMs config.timeoutMs))
  | .login account password =>
    if !g.isSessionOpen then some (g, fail (.invalidState "must connect before login"))
    else if Text.isBlank account || Text.isBlank password then some (g, fail (.login "account and password required"))
    else
      let request := Json.obj [("account", .str account), ("password", .str password)]
      some (g, .write .login (buildWireLine "auth.login" request.toText) .stream)
  | .sendPacket packet =>
    if g.state ≠ .loggedIn then some (g, fail (.invalidState "must login before sending packets"))
    else some (g, .write .sendPacket (buildWireLine packet.route packet.payload) .stream)
  | .receivePacket =>
    if !g.isSessionOpen then some (g, .done (.ok (.packet none))) else some (g, .receive .check)
  | .heartbeat interval =>
    if !g.isSessionOpen then some (g, fail (.invalidState "must connect before heartbeat"))
    else if interval.nanos = 0 then some (g, fail (.timeout "heartbeat interval is zero"))
    -- `json!` unwraps the conversion of a `u128`, which fails for one that does not fit a `u64`
    else if 2 ^ 64 ≤ interval.asMillis then some (g, .panicked)
    else some (g, .beatCheck (UInt64.ofNat interval.asMillis))
  | .disconnect => some ({ g with state := .closing }, .discStream)

/-- A step of `recv_once_with_timeout`: where it goes on, or what it returns. Between taking the
stream out and putting the write half back there is no await. -/
def recvOnce (g : Shared) : RecvAt → Act → Option (Shared × (RecvAt ⊕ Except QQClientError (Option Packet)))
  | .check, .go => if g.isSessionOpen then some (g, .inl .deadline) else some (g, .inr (.ok none))
  | .deadline, .go => some (g, .inl (.stream g.timeoutMs))
  | .stream ms, .convert error =>
    if g.streamLocked then none
    else match g.stream, error with
      | none, _ => some (g, .inr (.error (.transport "not connected")))
      | some _, none => some (g, .inl (.read ms))
      -- the stream is out of the slot, and the error returns before it is put back
      | some _, some e => some ({ g with stream := none }, .inr (.error (.transport e)))
  | .read _, .read o => some (g, .inr (answer o))
  | .read _, .readFailed e => some (g, .inr (.error (.transport ("read packet failed: " ++ e))))
  | _, _ => none

/-- What the loop of `wait_for_login_ack` does with a received packet, with `left` tries to go. -/
def ackStep (left : Nat) : Except QQClientError (Option Packet) → Pc
  | .error e => fail e
  | .ok none => fail (.timeout "login ack timeout")
  | .ok (some packet) =>
    if packet.route = "auth.ok" then
      match Json.ofText packet.payload with
      | .error e => fail (.protocol ("invalid login payload: " ++ e.text))
      | .ok payload => .loginToken (((payload.get "token").bind Json.asStr).getD "session")
    else if packet.route = "system.error" then fail (.login packet.payload)
    else match left with
      | 0 => fail (.timeout "login ack not received")
      | left + 1 => .loginAck left .check

def Writer.timeoutText : Writer → String
  | .login => "login send timeout"
  | _ => "send timeout"

/-- Where a call goes on once its line is written. -/
def Writer.next : Writer → Pc
  | .login => .loginAck 3 .check
  | .sendPacket => .done (.ok .unit)
  | .heartbeat ms => .beatAt ms

/-- A step of writing a line: take the stream lock, read the timeout, write, release. -/
def writeLine (g : Shared) (who : Writer) (line : String) : WriteAt → Act → Option (Shared × Pc)
  | .stream, .go =>
    if g.streamLocked then none
    else if g.stream = none then some (g, fail (.invalidState "not connected"))
    else some ({ g with streamLocked := true }, .write who line .deadline)
  | .deadline, .go => some (g, .write who line (.write (effectiveTimeoutMs g.timeoutMs)))
  | .write _, .io .ok => some ({ g with streamLocked := false, written := g.written ++ [line] }, who.next)
  | .write _, .io .expired => some ({ g with streamLocked := false }, fail (.timeout who.timeoutText))
  | .write _, .io (.failed e) => some ({ g with streamLocked := false }, fail (.transport e))
  | _, _ => none

/-- A later step of a call. -/
def act (g : Shared) : Pc → Act → Option (Shared × Pc)
  | .connecting config addr ms, .io .ok => some (g, .connEndpoint config addr ms)
  | .connecting _ _ ms, .io .expired =>
    some (g, fail (.timeout ("connect timeout after " ++ toString ms.toNat ++ "ms")))
  | .connecting _ _ _, .io (.failed e) => some (g, fail (.transport e))
  | .connEndpoint config addr ms, .go => some ({ g with endpoint := some config.endpoint }, .connTimeout addr ms)
  | .connTimeout addr ms, .go => some ({ g with timeoutMs := ms }, .connStream addr)
  | .connStream addr, .go => if g.streamLocked then none else some ({ g with stream := some addr }, .connState)
  | .connState, .go => some ({ g with state := .connected }, .done (.ok .unit))
  | .write who line w, a => writeLine g who line w a
  | .loginAck left r, a => (recvOnce g r a).map fun (g', next) =>
      match next with
      | .inl r' => (g', .loginAck left r')
      | .inr result => (g', ackStep left result)
  | .loginToken token, .go => some ({ g with token := some token }, .loginState token)
  | .loginState token, .go => some ({ g with state := .loggedIn }, .done (.ok (.token token)))
  | .receive r, a => (recvOnce g r a).map fun (g', next) =>
      match next with
      | .inl r' => (g', .receive r')
      | .inr result => (g', .done (result.map .packet))
  | .beatCheck ms, .go =>
    if g.state ≠ .loggedIn then some (g, fail (.invalidState "must login before sending packets"))
    else
      let payload := Json.obj [("interval_ms", Json.ofNat ms.toNat)]
      some (g, .write (.heartbeat ms) (buildWireLine "system.heartbeat" payload.toText) .stream)
  | .beatAt ms, .clock now => some ({ g with heartbeatAt := some now }, .beatTimeout ms)
  | .beatTimeout ms, .go => some ({ g with timeoutMs := ms }, .done (.ok .unit))
  | .discStream, .go => if g.streamLocked then none else some ({ g with stream := none }, .discEndpoint)
  | .discEndpoint, .go => some ({ g with endpoint := none }, .discToken)
  | .discToken, .go => some ({ g with token := none }, .discHeartbeat)
  | .discHeartbeat, .go => some ({ g with heartbeatAt := none }, .discState)
  | .discState, .go => some ({ g with state := .disconnected }, .done (.ok .unit))
  | _, _ => none

abbrev Sys := Threads.Sys Shared Pc

abbrev Event := Threads.Event Op Act Empty

def program : Threads.Program Shared Pc Op Act Empty := ⟨start, act, fun _ e => nomatch e⟩

def step : Sys → Event → Option Sys := Threads.step program

/-- A call that has returned. -/
def Pc.finished : Pc → Bool
  | .done _ | .panicked => true
  | _ => false

end Tcp

end NapCat.QQClient
