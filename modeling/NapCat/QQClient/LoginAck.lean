/-
The login of `TcpQQClient` past its send step: the bounded loop that waits for the acknowledgement,
over what its receives return.
-/
import NapCat.QQClient.Sequential

namespace NapCat.QQClient.Tcp

open Threads (alone)

/-- What one `recv_once_with_timeout` returns. -/
abbrev Received := Except QQClientError (Option Packet)

/-- `wait_for_login_ack` with this many tries to go. It writes the token, not the state. -/
def waitForLoginAck (g : Shared) : Nat → (Nat → Received) → Shared × Except QQClientError String
  | 0, _ => (g, .error (.timeout "login ack not received"))
  | tries + 1, recv =>
    match recv 0 with
    | .error e => (g, .error e)
    | .ok none => (g, .error (.timeout "login ack timeout"))
    | .ok (some packet) =>
      if packet.route = "auth.ok" then
        match Json.ofText packet.payload with
        | .error e => (g, .error (.protocol ("invalid login payload: " ++ e.text)))
        | .ok payload => ({ g with token := some (tokenOf payload) }, .ok (tokenOf payload))
      else if packet.route = "system.error" then (g, .error (.login packet.payload))
      else waitForLoginAck g tries fun n => recv (n + 1)

def maxRetries : Nat := 4

/-- The end of `login`: the state is written once the acknowledgement is there. -/
def logIn : Shared × Except QQClientError String → Shared × Except QQClientError String
  | (g, .ok token) => ({ g with state := .loggedIn }, .ok token)
  | (g, .error e) => (g, .error e)

/-- `login` once its request is sent. -/
def loginAfterSend (g : Shared) (recv : Nat → Received) : Shared × Except QQClientError String :=
  logIn (waitForLoginAck g maxRetries recv)

/-! ## What decides the loop -/

/-- What a receive decides about the login, if it decides it. -/
def Received.verdict : Received → Option (Except QQClientError String)
  | .error e => some (.error e)
  | .ok none => some (.error (.timeout "login ack timeout"))
  | .ok (some packet) =>
    if packet.route = "auth.ok" then
      match Json.ofText packet.payload with
      | .error e => some (.error (.protocol ("invalid login payload: " ++ e.text)))
      | .ok payload => some (.ok (tokenOf payload))
    else if packet.route = "system.error" then some (.error (.login packet.payload))
    else none

/-- The three kinds of packets. -/
theorem Received.packet_cases (packet : Packet) :
    (packet.route = "auth.ok" ∧ ((∃ e, Json.ofText packet.payload = .error e) ∨
      ∃ payload, Json.ofText packet.payload = .ok payload)) ∨
    (packet.route ≠ "auth.ok" ∧ packet.route = "system.error") ∨
    (packet.route ≠ "auth.ok" ∧ packet.route ≠ "system.error") := by
  by_cases hok : packet.route = "auth.ok"
  · refine .inl ⟨hok, ?_⟩
    cases hp : Json.ofText packet.payload with
    | error e => exact .inl ⟨e, rfl⟩
    | ok payload => exact .inr ⟨payload, rfl⟩
  · exact .inr ((em _).imp (⟨hok, ·⟩) (⟨hok, ·⟩))

/-- The loop left with a verdict. -/
def conclude (g : Shared) : Except QQClientError String → Shared × Except QQClientError String
  | .ok token => ({ g with token := some token }, .ok token)
  | .error e => (g, .error e)

/-- The first verdict ends the loop, and without one it goes on with one try less. -/
theorem waitForLoginAck_succ (g : Shared) (n : Nat) (recv : Nat → Received) :
    waitForLoginAck g (n + 1) recv =
      ((recv 0).verdict.map (conclude g)).getD (waitForLoginAck g n fun k => recv (k + 1)) := by
  rw [waitForLoginAck]
  rcases recv 0 with e | _ | packet
  · rfl
  · rfl
  · rcases Received.packet_cases packet with ⟨hok, ⟨e, hp⟩ | ⟨payload, hp⟩⟩ | ⟨hok, herr⟩ | ⟨hok, herr⟩ <;>
      simp [Received.verdict, conclude, *]

/-! ## Which sequences are accepted -/

theorem ackStep_eq (left : Nat) (o : Received) :
    ackStep left o = match o.verdict with
      | some (.ok t) => .loginToken t
      | some (.error e) => fail e
      | none => match left with
        | 0 => fail (.timeout "login ack not received")
        | left + 1 => .loginAck left .check := by
  rcases o with e | _ | packet
  · rfl
  · rfl
  · rcases Received.packet_cases packet with ⟨hok, ⟨e, hp⟩ | ⟨payload, hp⟩⟩ | ⟨hok, herr⟩ | ⟨hok, herr⟩
    · simp [Received.verdict, ackStep, *]
    · simp [Received.verdict, ackStep, tokenOf, *]
    · simp [Received.verdict, ackStep, *]
    · cases left <;> simp [Received.verdict, ackStep, *]

/-- What the receive that this step ends returns, if it ends one. -/
def received (g : Shared) : Pc → Act → Option Received
  | .loginAck _ r, a => (recvOnce g r a).bind fun x => x.2.getRight?
  | _, _ => none

/-- What the receives of a call alone return, in order. -/
def outcomes : Shared × Pc → List Act → List Received
  | _, [] => []
  | s, a :: as => (received s.1 s.2 a).toList ++ ((alone program s a).map fun s' => outcomes s' as).getD []

theorem outcomes_cons {s s' : Shared × Pc} {a : Act} (as : List Act) (h : alone program s a = some s') :
    outcomes s (a :: as) = (received s.1 s.2 a).toList ++ outcomes s' as := by
  rw [outcomes, h, Option.map_some, Option.getD_some]

/-- A receive may take the stream, and leaves state and token. -/
theorem recvOnce_keeps {g g' : Shared} {r : RecvAt} {a : Act} {next : RecvAt ⊕ Received}
    (h : recvOnce g r a = some (g', next)) : g'.state = g.state ∧ g'.token = g.token := by
  unfold recvOnce at h
  split at h
  · split at h <;> cases h <;> exact ⟨rfl, rfl⟩
  · cases h; exact ⟨rfl, rfl⟩
  · split at h
    · cases h
    · split at h <;> cases h <;> exact ⟨rfl, rfl⟩
  · cases h; exact ⟨rfl, rfl⟩
  · cases h; exact ⟨rfl, rfl⟩
  · cases h

/-- A login alone that has its acknowledgement. -/
theorem alone_loginToken {g : Shared} {t : String} {r : Except QQClientError Reply} {as : List Act} {g' : Shared}
    (h : Run.exec (alone program) (g, .loginToken t) as = some (g', .done r)) :
    r = .ok (.token t) ∧ g' = { g with token := some t, state := .loggedIn } := by
  rcases as with _ | ⟨a, _ | ⟨b, as⟩⟩
  · cases h
  · cases a <;> cases h
  · cases a with
    | go =>
      cases b with
      | go =>
        have hd := (alone_done h).2
        cases hd
        exact ⟨rfl, rfl⟩
      | io | convert | read | readFailed | clock => cases h
    | io | convert | read | readFailed | clock => cases h

/-- What a login returned, and what it left of state and token, as the function of its receives has it. -/
def Matches (g' : Shared) (res : Except QQClientError Reply) (r : Shared × Except QQClientError String) : Prop :=
  res = r.2.map .token ∧ g'.state = r.1.state ∧ g'.token = r.1.token

theorem run_loginAck {g₀ g' : Shared} {res : Except QQClientError Reply} :
    ∀ (as : List Act) (g : Shared) (left : Nat) (r : RecvAt) (recv : Nat → Received),
      g.state = g₀.state ∧ g.token = g₀.token →
      (∀ k o, (outcomes (g, .loginAck left r) as)[k]? = some o → recv k = o) →
      Run.exec (alone program) (g, .loginAck left r) as = some (g', .done res) →
      Matches g' res (logIn (waitForLoginAck g₀ (left + 1) recv)) := by
  intro as
  induction as with
  | nil =>
    intro g left r recv _ _ h
    cases h
  | cons a as ih =>
    intro g left r recv hg hrecv h
    obtain ⟨m, hm, h⟩ := Option.bind_eq_some_iff.1 h
    have ha := outcomes_cons as hm
    obtain ⟨⟨g₁, next⟩, hr, rfl⟩ := Option.map_eq_some_iff.1 hm
    have hk := recvOnce_keeps hr
    have hg₁ : g₁.state = g₀.state ∧ g₁.token = g₀.token := ⟨hk.1.trans hg.1, hk.2.trans hg.2⟩
    cases next with
    | inl r' =>
      have hnone : received g (.loginAck left r) a = none := by rw [received, hr]; rfl
      rw [ha, hnone] at hrecv
      exact ih g₁ left r' recv hg₁ hrecv h
    | inr result =>
      have hsome : received g (.loginAck left r) a = some result := by rw [received, hr]; rfl
      rw [ha, hsome] at hrecv
      have h0 : recv 0 = result := hrecv 0 result rfl
      have hrest : ∀ k o, (outcomes (g₁, ackStep left result) as)[k]? = some o → recv (k + 1) = o :=
        fun k o hk => hrecv (k + 1) o hk
      change Run.exec _ (g₁, ackStep left result) as = _ at h
      rw [ackStep_eq, ← h0] at h hrest
      rw [waitForLoginAck_succ]
      cases hv : (recv 0).verdict with
      | some v =>
        rw [hv] at h
        cases v with
        | ok t =>
          obtain ⟨rfl, rfl⟩ := alone_loginToken h
          exact ⟨rfl, rfl, rfl⟩
        | error e =>
          have hd := (alone_done h).2
          cases hd
          exact ⟨rfl, hg₁⟩
      | none =>
        rw [hv] at h
        cases left with
        | zero =>
          have hd := (alone_done h).2
          cases hd
          exact ⟨rfl, hg₁⟩
        | succ left =>
          rw [hv] at hrest
          exact ih g₁ left .check (fun k => recv (k + 1)) hg₁ hrest h

/-- A login that runs alone past its send step does what `loginAfterSend` does with what its receives
return, whatever they would return after that. -/
theorem run_loginAfterSend {g g' : Shared} {res : Except QQClientError Reply} {as : List Act} {recv : Nat → Received}
    (hrecv : ∀ k o, (outcomes (g, Writer.login.next) as)[k]? = some o → recv k = o)
    (h : Run.exec (alone program) (g, Writer.login.next) as = some (g', .done res)) :
    Matches g' res (loginAfterSend g recv) :=
  run_loginAck as g 3 .check recv ⟨rfl, rfl⟩ hrecv h

end NapCat.QQClient.Tcp
