/-
The timeout of the two clients. `TcpQQClient` replaces a configured zero when it connects, so with
intervals of whole milliseconds its timeout is never zero; `MockQQClient` stores what it is given and
refuses calls while it is zero. An interval below a millisecond is cut off to a zero that neither
checks.
-/
import NapCat.QQClient.Mock
import NapCat.Lib.Run

namespace NapCat.QQClient

open Tcp (Duration Op Reply)

/-- A heartbeat is asked for with interval zero or with one of a millisecond at least. -/
def NoShortBeat : Op → Prop
  | .heartbeat interval => interval.nanos = 0 ∨ 1000000 ≤ interval.nanos
  | _ => True

theorem asMillis_eq_zero_iff (d : Duration) : d.asMillis = 0 ↔ d.nanos < 1000000 := by
  rw [Duration.asMillis, Nat.div_eq_zero_iff]
  omega

/-- The conversion of an interval that both clients let through. -/
theorem ofNat_asMillis_ne_zero {interval : Duration} (h : NoShortBeat (.heartbeat interval))
    (hzero : interval.nanos ≠ 0) (hfits : ¬ 2 ^ 64 ≤ interval.asMillis) : UInt64.ofNat interval.asMillis ≠ 0 := by
  have hmillis : interval.asMillis ≠ 0 := by
    rw [ne_eq, asMillis_eq_zero_iff]
    exact Nat.not_lt.2 (h.resolve_left hzero)
  intro he
  have := congrArg UInt64.toNat he
  rw [UInt64.toNat_ofNat_of_lt' (Nat.not_le.1 hfits)] at this
  exact hmillis this

namespace Tcp

/-- The timeout that a call has read or is going to write. -/
def RecvAt.carried : RecvAt → Option UInt64
  | .stream ms | .read ms => some ms
  | .check | .deadline => none

def Pc.carried : Pc → Option UInt64
  | .connecting _ _ ms | .connEndpoint _ _ ms | .connTimeout _ ms => some ms
  | .write (.heartbeat ms) _ _ | .beatCheck ms | .beatAt ms | .beatTimeout ms => some ms
  | .loginAck _ r | .receive r => r.carried
  | _ => none

/-- The deadline under which a call reads from the stream. -/
def Pc.deadline : Pc → Option UInt64
  | .loginAck _ (.read ms) | .receive (.read ms) => some ms
  | _ => none

/-- A session has a timeout, and no receive in it waits for no time at all. -/
structure Timed (s : Sys) : Prop where
  loggedIn : s.shared.state = .loggedIn → 1 ≤ s.shared.timeoutMs
  deadline : ∀ c ∈ s.calls, c.deadline ≠ some 0

/-- No timeout is zero, of the client or of a call. -/
structure NonZero (s : Sys) : Prop where
  shared : s.shared.timeoutMs ≠ 0
  calls : ∀ c ∈ s.calls, c.carried ≠ some 0

theorem Pc.deadline_of_carried {c : Pc} (h : c.carried ≠ some 0) : c.deadline ≠ some 0 := by
  unfold Pc.deadline
  split
  · exact h
  · exact h
  · exact fun he => by cases he

theorem NonZero.timed {s : Sys} (h : NonZero s) : Timed s where
  loggedIn _ := by
    have := h.shared
    rw [UInt64.le_iff_toNat_le]
    exact Nat.pos_of_ne_zero fun he => this (UInt64.toNat_inj.1 he)
  deadline c hc := Pc.deadline_of_carried (h.calls c hc)

/-! ## What one step does to the timeouts -/

theorem start_nonZero {g g' : Shared} {op : Op} {p : Pc} (h : start g op = some (g', p)) (hop : NoShortBeat op) :
    g'.timeoutMs = g.timeoutMs ∧ p.carried ≠ some 0 := by
  cases op with
  | connect config =>
    simp only [start] at h
    split_ifs at h
    · cases h
      exact ⟨rfl, by simp [fail, Pc.carried]⟩
    · split at h <;> cases h
      · exact ⟨rfl, by simp [fail, Pc.carried]⟩
      · exact ⟨rfl, by simpa [Pc.carried] using effectiveTimeoutMs_ne_zero _⟩
  | login account password =>
    simp only [start] at h
    split_ifs at h <;> cases h <;> exact ⟨rfl, by simp [fail, Pc.carried]⟩
  | sendPacket packet =>
    simp only [start] at h
    split_ifs at h <;> cases h <;> exact ⟨rfl, by simp [fail, Pc.carried]⟩
  | receivePacket =>
    simp only [start] at h
    split_ifs at h <;> cases h <;> exact ⟨rfl, by simp [Pc.carried, RecvAt.carried]⟩
  | heartbeat interval =>
    simp only [start] at h
    split_ifs at h with hopen hzero hfits <;> cases h
    · exact ⟨rfl, by simp [fail, Pc.carried]⟩
    · exact ⟨rfl, by simp [fail, Pc.carried]⟩
    · exact ⟨rfl, by simp [Pc.carried]⟩
    · exact ⟨rfl, by simpa [Pc.carried] using ofNat_asMillis_ne_zero hop hzero hfits⟩
  | disconnect =>
    cases h
    exact ⟨rfl, by simp [Pc.carried]⟩

theorem recvOnce_nonZero {g g' : Shared} {r : RecvAt} {a : Act} {x : RecvAt ⊕ Except QQClientError (Option Packet)}
    (h : recvOnce g r a = some (g', x)) (hg : g.timeoutMs ≠ 0) (hr : r.carried ≠ some 0) :
    g'.timeoutMs = g.timeoutMs ∧ ∀ r', x = .inl r' → r'.carried ≠ some 0 := by
  unfold recvOnce at h
  split at h
  · split_ifs at h <;> cases h
    · exact ⟨rfl, fun r' he => by cases he; simp [RecvAt.carried]⟩
    · exact ⟨rfl, fun r' he => by cases he⟩
  · cases h
    exact ⟨rfl, fun r' he => by cases he; simpa [RecvAt.carried] using hg⟩
  · split_ifs at h
    split at h <;> cases h
    · exact ⟨rfl, fun r' he => by cases he⟩
    · exact ⟨rfl, fun r' he => by cases he; exact hr⟩
    · exact ⟨rfl, fun r' he => by cases he⟩
  · cases h
    exact ⟨rfl, fun r' he => by cases he⟩
  · cases h
    exact ⟨rfl, fun r' he => by cases he⟩
  · cases h

theorem ackStep_carried (left : Nat) (r : Except QQClientError (Option Packet)) :
    (ackStep left r).carried ≠ some 0 := by
  unfold ackStep fail
  split
  · simp [Pc.carried]
  · simp [Pc.carried]
  · split_ifs
    · split <;> simp [Pc.carried]
    · simp [Pc.carried]
    · split <;> simp [Pc.carried, RecvAt.carried]

theorem writeLine_nonZero {g g' : Shared} {who : Writer} {line : String} {w : WriteAt} {a : Act} {q : Pc}
    (h : writeLine g who line w a = some (g', q)) (hp : (Pc.write who line w).carried ≠ some 0) :
    g'.timeoutMs = g.timeoutMs ∧ q.carried ≠ some 0 := by
  have hsame : ∀ w', (Pc.write who line w').carried ≠ some 0 := fun w' => by cases who <;> exact hp
  have hnext : who.next.carried ≠ some 0 := by
    cases who with
    | login => simp [Writer.next, Pc.carried, RecvAt.carried]
    | sendPacket => simp [Writer.next, Pc.carried]
    | heartbeat ms => exact hp
  have hfail : ∀ e, (fail e).carried ≠ some 0 := fun e => by simp [fail, Pc.carried]
  unfold writeLine at h
  split at h
  · split_ifs at h <;> cases h
    · exact ⟨rfl, hfail _⟩
    · exact ⟨rfl, hsame _⟩
  · cases h
    exact ⟨rfl, hsame _⟩
  · cases h
    exact ⟨rfl, hnext⟩
  · cases h
    exact ⟨rfl, hfail _⟩
  · cases h
    exact ⟨rfl, hfail _⟩
  · cases h

theorem act_nonZero {g g' : Shared} {p q : Pc} {a : Act} (h : act g p a = some (g', q)) (hg : g.timeoutMs ≠ 0)
    (hp : p.carried ≠ some 0) : g'.timeoutMs ≠ 0 ∧ q.carried ≠ some 0 := by
  have hfail : ∀ e, (fail e).carried ≠ some 0 := fun e => by simp [fail, Pc.carried]
  unfold act at h
  split at h
  · cases h
    exact ⟨hg, hp⟩
  · cases h
    exact ⟨hg, hfail _⟩
  · cases h
    exact ⟨hg, hfail _⟩
  · cases h
    exact ⟨hg, hp⟩
  · -- a connect stores the timeout it was given
    cases h
    exact ⟨fun he => hp (congrArg some he), by simp [Pc.carried]⟩
  · split_ifs at h
    cases h
    exact ⟨hg, by simp [Pc.carried]⟩
  · cases h
    exact ⟨hg, by simp [Pc.carried]⟩
  · obtain ⟨hsame, hq⟩ := writeLine_nonZero h hp
    exact ⟨hsame ▸ hg, hq⟩
  · obtain ⟨⟨g1, x⟩, hr, hx⟩ := Option.map_eq_some_iff.1 h
    obtain ⟨hsame, hnext⟩ := recvOnce_nonZero hr hg hp
    cases x with
    | inl r' =>
      cases hx
      exact ⟨hsame ▸ hg, hnext r' rfl⟩
    | inr result =>
      cases hx
      exact ⟨hsame ▸ hg, ackStep_carried _ _⟩
  · cases h
    exact ⟨hg, by simp [Pc.carried]⟩
  · cases h
    exact ⟨hg, by simp [Pc.carried]⟩
  · obtain ⟨⟨g1, x⟩, hr, hx⟩ := Option.map_eq_some_iff.1 h
    obtain ⟨hsame, hnext⟩ := recvOnce_nonZero hr hg hp
    cases x with
    | inl r' =>
      cases hx
      exact ⟨hsame ▸ hg, hnext r' rfl⟩
    | inr result =>
      cases hx
      exact ⟨hsame ▸ hg, by simp [Pc.carried]⟩
  · split_ifs at h <;> cases h
    · exact ⟨hg, hfail _⟩
    · exact ⟨hg, hp⟩
  · cases h
    exact ⟨hg, hp⟩
  · -- and a heartbeat its interval
    cases h
    exact ⟨fun he => hp (congrArg some he), by simp [Pc.carried]⟩
  · split_ifs at h
    cases h
    exact ⟨hg, by simp [Pc.carried]⟩
  · cases h
    exact ⟨hg, by simp [Pc.carried]⟩
  · cases h
    exact ⟨hg, by simp [Pc.carried]⟩
  · cases h
    exact ⟨hg, by simp [Pc.carried]⟩
  · cases h
    exact ⟨hg, by simp [Pc.carried]⟩
  · cases h

open Threads in
theorem nonZero_step (s : Sys) (e : Event) (s' : Sys) (h : NonZero s) (he : ∀ op, e = .start op → NoShortBeat op)
    (hs : step s e = some s') : NonZero s' := by
  cases e with
  | start op =>
    obtain ⟨g, p, hst, rfl⟩ := step_start hs
    have hst : start s.shared op = some (g, p) := hst
    obtain ⟨hsame, hp⟩ := start_nonZero hst (he op rfl)
    exact ⟨hsame ▸ h.shared, forall_append h.calls hp⟩
  | act i a =>
    obtain ⟨p, g, q, hi, hact, rfl⟩ := step_act hs
    obtain ⟨hg, hq⟩ := act_nonZero hact h.shared (h.calls p (mem_of_get hi))
    exact ⟨hg, forall_set h.calls hq⟩
  | env e => cases e

theorem nonZero_init : NonZero ⟨{}, []⟩ := ⟨by decide, fun _ hc => (by cases hc)⟩

theorem tcp_timed {es : List Event} {s : Sys} (hes : ∀ op, .start op ∈ es → NoShortBeat op)
    (hs : Run.exec step ⟨{}, []⟩ es = some s) : Timed s := by
  refine (Run.exec_inv nonZero_step es _ _ nonZero_init (Run.along_of_forall es _ fun e he op heq => ?_) hs).timed
  exact hes op (heq ▸ he)

end Tcp

namespace Mock

/-- The client, and the timeout of the last connect that succeeded. -/
structure Configured where
  client : Mock := {}
  timeoutMs : UInt64 := 2000

def configuredBy (timeoutMs : UInt64) : Op → Except QQClientError Reply → UInt64
  | .connect config, .ok _ => config.timeoutMs
  | _, _ => timeoutMs

/-- A call, at a reading of the clock. -/
def Configured.step (s : Configured) (call : Nat × Op) : Option Configured :=
  let r := s.client.perform call.1 call.2
  some ⟨r.1, configuredBy s.timeoutMs call.2 r.2⟩

/-- The in-memory client takes a timeout of zero: a session has it, and a call in it is refused for it, only where
zero was configured. -/
structure Timed (s : Configured) : Prop where
  loggedIn : s.client.state = .loggedIn → (1 ≤ s.client.timeoutMs ↔ s.timeoutMs ≠ 0)
  refused : ∀ now op, s.client.state = .loggedIn →
    (s.client.perform now op).2 = .error (.timeout "configured timeout is zero") → s.timeoutMs = 0

/-- An open session has the timeout zero exactly where zero was configured. -/
def ZeroIfConfigured (s : Configured) : Prop :=
  s.client.state ≠ .disconnected → (s.client.timeoutMs = 0 ↔ s.timeoutMs = 0)

/-- Only the login check names the configured timeout, and only where it is zero. -/
theorem perform_refused {m : Mock} {now : Nat} {op : Op}
    (h : (m.perform now op).2 = .error (.timeout "configured timeout is zero")) : m.timeoutMs = 0 := by
  by_contra hne
  have hcheck : m.isLoggedIn = .ok (m.state = .loggedIn) := by rw [isLoggedIn, if_neg hne]
  cases op with
  | connect config =>
    simp only [perform, connect] at h
    split_ifs at h <;> cases h
  | login account password =>
    simp only [perform, login] at h
    split_ifs at h <;> cases h
  | sendPacket packet =>
    simp only [perform, sendPacket, hcheck] at h
    split at h <;> simp_all
  | receivePacket => cases h
  | heartbeat interval =>
    simp only [perform, heartbeat, hcheck] at h
    split at h <;> try split_ifs at h
    all_goals simp_all
  | disconnect => cases h

theorem configured_step (s : Configured) (call : Nat × Op) (s' : Configured) (h : ZeroIfConfigured s)
    (hcall : NoShortBeat call.2) (hs : s.step call = some s') : ZeroIfConfigured s' := by
  obtain ⟨m, configured⟩ := s
  obtain ⟨now, op⟩ := call
  cases hs
  cases op with
  | connect config =>
    simp only [ZeroIfConfigured, perform, connect]
    split_ifs
    · exact h
    · exact h
    · exact fun _ => Iff.rfl
  | login account password =>
    simp only [ZeroIfConfigured, perform, login]
    split_ifs with hconnected hblank
    · exact h
    · exact h
    · have hopen : m.state = .connected := not_not.1 hconnected
      exact fun _ => h (by rw [hopen]; decide)
  | sendPacket packet =>
    simp only [ZeroIfConfigured, perform, sendPacket]
    split <;> exact h
  | receivePacket => exact h
  | heartbeat interval =>
    simp only [ZeroIfConfigured, perform, heartbeat]
    split
    · exact h
    · exact h
    · rename_i hcheck
      split_ifs with hzero hfits
      · exact h
      · exact h
      · -- the check of the login has seen a timeout that is not zero
        have hlogged : m.timeoutMs ≠ 0 ∧ m.state = .loggedIn := by
          unfold isLoggedIn at hcheck
          split_ifs at hcheck with hne
          exact ⟨hne, of_decide_eq_true (Except.ok.inj hcheck)⟩
        have hconf : configured ≠ 0 := fun he => hlogged.1 ((h (by rw [hlogged.2]; decide)).2 he)
        exact fun _ => ⟨fun he => absurd he (ofNat_asMillis_ne_zero hcall hzero hfits), fun he => absurd he hconf⟩
  | disconnect => exact fun hopen => absurd rfl hopen

theorem mock_timed {calls : List (Nat × Op)} {s : Configured} (hcalls : ∀ call ∈ calls, NoShortBeat call.2)
    (hs : Run.exec Configured.step {} calls = some s) : Timed s := by
  have h : ZeroIfConfigured s :=
    Run.exec_inv configured_step calls _ _ (fun hopen => absurd rfl hopen) (Run.along_of_forall calls _ hcalls) hs
  have hopen : s.client.state = .loggedIn → s.client.state ≠ .disconnected := fun he hd => by
    rw [he] at hd
    cases hd
  refine ⟨fun hlogged => ?_, fun now op hlogged hrefused => (h (hopen hlogged)).1 (perform_refused hrefused)⟩
  rw [ne_eq, ← h (hopen hlogged), UInt64.le_iff_toNat_le, ← UInt64.toNat_inj]
  exact Nat.one_le_iff_ne_zero

/-- An interval below a millisecond passes the check for zero, and its zero milliseconds are stored. -/
theorem heartbeat_short {m : Mock} {now : Nat} {interval : Duration} (hlogged : m.state = .loggedIn)
    (htimeout : m.timeoutMs ≠ 0) (hpos : interval.nanos ≠ 0) (hshort : interval.nanos < 1000000) :
    m.heartbeat now interval = ({ m with heartbeatAt := some now, timeoutMs := 0 }, .ok .unit) := by
  have hmillis := (asMillis_eq_zero_iff interval).2 hshort
  simp [heartbeat, isLoggedIn, htimeout, hlogged, hpos, hmillis]

end Mock

/-- Without heartbeats below a millisecond, in every state that calls can reach: the timeout of a
logged-in `TcpQQClient` is at least 1 and no read of it has a zero deadline, and the timeout of a
logged-in `MockQQClient` is at least 1 unless its last connect was given zero. -/
theorem timeouts_positive {es : List Tcp.Event} {s : Tcp.Sys} {calls : List (Nat × Op)} {m : Mock.Configured}
    (hes : ∀ op, .start op ∈ es → NoShortBeat op) (hs : Run.exec Tcp.step ⟨{}, []⟩ es = some s)
    (hcalls : ∀ call ∈ calls, NoShortBeat call.2) (hm : Run.exec Mock.Configured.step {} calls = some m) :
    Tcp.Timed s ∧ Mock.Timed m :=
  ⟨Tcp.tcp_timed hes hs, Mock.mock_timed hcalls hm⟩

/-- A connect with the timeout zero, and a receive that reads. -/
def receiveRun : List Tcp.Event :=
  [.start (.connect { endpoint := "localhost:1", timeoutMs := 0 }), .act 0 (.io .ok), .act 0 .go, .act 0 .go,
    .act 0 .go, .act 0 .go, .start .receivePacket, .act 1 .go, .act 1 .go, .act 1 (.convert none)]

/-- A session of the mock with a heartbeat. -/
def beatCalls : List (Nat × Op) :=
  [(0, .connect { endpoint := "mock", timeoutMs := 5 }), (0, .login "a" "b"), (1, .heartbeat ⟨1000000⟩)]

theorem timeouts_positive_receiveRun : ∃ s m, Run.exec Tcp.step ⟨{}, []⟩ receiveRun = some s ∧
    Run.exec Mock.Configured.step {} beatCalls = some m ∧ Tcp.Timed s ∧ Mock.Timed m := by
  have hs : (Run.exec Tcp.step ⟨{}, []⟩ receiveRun).isSome := by decide +kernel
  have hm : (Run.exec Mock.Configured.step {} beatCalls).isSome := rfl
  obtain ⟨s, hs⟩ := Option.isSome_iff_exists.1 hs
  obtain ⟨m, hm⟩ := Option.isSome_iff_exists.1 hm
  have hes : ∀ op, .start op ∈ receiveRun → NoShortBeat op := by
    intro op hop
    simp only [receiveRun, List.mem_cons, Threads.Event.start.injEq, reduceCtorEq, List.not_mem_nil, or_false,
      false_or] at hop
    rcases hop with rfl | rfl <;> trivial
  have hcalls : ∀ call ∈ beatCalls, NoShortBeat call.2 := by
    simp [beatCalls, NoShortBeat]
  exact ⟨s, m, hs, hm, timeouts_positive hes hs hcalls hm⟩

/-- A mock session whose connect was given the timeout zero. -/
def zeroCalls : List (Nat × Op) :=
  [(0, .connect { endpoint := "mock", timeoutMs := 0 }), (0, .login "a" "b")]

/-- It is logged in, and its calls are refused for their timeout. -/
theorem zero_timeout_session : ∃ s, Run.exec Mock.Configured.step {} zeroCalls = some s ∧
    s.client.state = .loggedIn ∧ ¬ 1 ≤ s.client.timeoutMs ∧
    (s.client.perform 0 (.sendPacket ⟨"a", "b"⟩)).2 = .error (.timeout "configured timeout is zero") := by
  refine ⟨_, rfl, ?_⟩
  decide +kernel

end NapCat.QQClient
