/-
`MockQQClient`, the in-memory client, under calls made one at a time.
-/
import NapCat.QQClient.Tcp

namespace NapCat.QQClient

open Tcp (Duration Op Reply)

/-- The fields of the client. -/
structure Mock where
  endpoint : Option String := none
  token : Option String := none
  state : ConnectionState := .disconnected
  heartbeatAt : Option Nat := none
  timeoutMs : UInt64 := 2000
  sentPackets : List Packet := []
  inboundPackets : List Packet := []

namespace Mock

/-- What a call does to the client, and what it returns. -/
abbrev Result := Mock × Except QQClientError Reply

def connect (m : Mock) (config : QQClientConfig) : Result :=
  if Text.isBlank config.endpoint then (m, .error (.transport "empty endpoint"))
  else if m.state = .loggedIn then (m, .error (.invalidState "already logged in, disconnect first"))
  -- a connect while connected opens the session again
  else ({ m with state := .connected, endpoint := some config.endpoint, timeoutMs := config.timeoutMs }, .ok .unit)

def login (m : Mock) (account password : String) : Result :=
  if m.state ≠ .connected then (m, .error (.invalidState "must connect before login"))
  else if Text.isBlank account || Text.isBlank password then (m, .error (.login "account and password required"))
  else ({ m with token := some ("mock-token-" ++ account), state := .loggedIn }, .ok (.token (account ++ ":logged-in")))

def isLoggedIn (m : Mock) : Except QQClientError Bool :=
  if m.timeoutMs = 0 then .error (.timeout "configured timeout is zero") else .ok (m.state = .loggedIn)

def sendPacket (m : Mock) (packet : Packet) : Result :=
  match m.isLoggedIn with
  | .error e => (m, .error e)
  | .ok false => (m, .error (.invalidState "must login before sending packets"))
  | .ok true => ({ m with sentPackets := m.sentPackets ++ [packet] }, .ok .unit)

def receivePacket (m : Mock) : Result :=
  ({ m with inboundPackets := m.inboundPackets.tail }, .ok (.packet m.inboundPackets.head?))

def heartbeat (m : Mock) (now : Nat) (interval : Duration) : Result :=
  match m.isLoggedIn with
  | .error e => (m, .error e)
  | .ok false => (m, .error (.invalidState "must login before heartbeat"))
  | .ok true =>
    if interval.nanos = 0 then (m, .error (.timeout "heartbeat interval is zero"))
    else if 2 ^ 64 ≤ interval.asMillis then
      (m, .error (.timeout "heartbeat interval too long: out of range integral type conversion attempted"))
    else ({ m with heartbeatAt := some now, timeoutMs := UInt64.ofNat interval.asMillis }, .ok .unit)

/-- The timeout is kept. -/
def disconnect (m : Mock) : Result :=
  ({ m with state := .disconnected, sentPackets := [], inboundPackets := [], endpoint := none, token := none,
            heartbeatAt := none }, .ok .unit)

/-- One call, at this reading of the clock. -/
def perform (m : Mock) (now : Nat) : Op → Result
  | .connect config => m.connect config
  | .login account password => m.login account password
  | .sendPacket packet => m.sendPacket packet
  | .receivePacket => m.receivePacket
  | .heartbeat interval => m.heartbeat now interval
  | .disconnect => m.disconnect

end Mock

end NapCat.QQClient
