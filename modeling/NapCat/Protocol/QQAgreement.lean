/-
Backend and client agree: when no connect gives up with the flags of another one set or with the
client connected, and none succeeds while a disconnect waits, the flags of a QQ client backend tell
the state of its client whenever no connect or disconnect is in progress.
-/
import NapCat.Protocol.QQListener

namespace NapCat.QQBackend.Agreement

open Turns
open QQClient (ConnectionState QQClientConfig)

/-- The flags of the backend say what the state of its client is. -/
structure Agrees (g : Shared) : Prop where
  connected : g.connected = true ↔ g.client = .connected ∨ g.client = .loggedIn
  loggedIn : g.loggedIn = true ↔ g.client = .loggedIn
  running : g.connected = true → g.stopRequested = false

/-! ## The condition -/

/-- A connect gives up after it has closed the client's session. -/
def givesUp (g : Shared) : Pc → Act → Bool
  | .buildConfig endpoint, .go => Text.isBlank (chosenEndpoint g.config endpoint)
  | .storeEndpoint config credentials, .go => refused config credentials
  | .clientConnect _ _, .client (.error _) => true
  | _, _ => false

def loginFails : Pc → Act → Bool
  | .clientLogin _ _, .client (.error _) => true
  | _, _ => false

/-- A connect succeeds. -/
def succeeds : Pc → Act → Bool
  | .clientConnect _ none, .client (.ok _) | .clientLogin _ _, .client (.ok _) => true
  | _, _ => false

def isDisconnect : Pc → Bool
  | .disconnect | .disconnectClosing => true
  | _ => false

def isConnect (p : Pc) : Bool := p.role ≠ .listen ∧ ¬ isDisconnect p

/-- Behind the first call a connect or disconnect waits. -/
def CloserWaits (s : Sys) : Prop := ∃ p ∈ s.queue.tail, p.role = .closer

/-- A connect gives up only with `connected` clear or another call about to close the session again, a
login fails only in the second case, and a connect succeeds only while no disconnect waits. -/
structure OrderlyStep (s : Sys) (p : Pc) (a : Act) : Prop where
  gaveUp : givesUp s.shared p a = true → s.shared.connected = false ∨ CloserWaits s
  failed : loginFails p a = true → CloserWaits s
  succeeded : succeeds p a = true → ∀ r ∈ s.queue.tail, isDisconnect r = false

def Orderly (s : Sys) : Event → Prop
  | .act a => ∀ p ∈ s.queue.head?, OrderlyStep s p a
  | _ => True

instance (s : Sys) : Decidable (CloserWaits s) := inferInstanceAs (Decidable (∃ p ∈ s.queue.tail, _))

instance (s : Sys) (p : Pc) (a : Act) : Decidable (OrderlyStep s p a) :=
  decidable_of_iff ((givesUp s.shared p a = true → s.shared.connected = false ∨ CloserWaits s) ∧
    (loginFails p a = true → CloserWaits s) ∧
    (succeeds p a = true → ∀ r ∈ s.queue.tail, isDisconnect r = false))
    ⟨fun ⟨a, b, c⟩ => ⟨a, b, c⟩, fun ⟨a, b, c⟩ => ⟨a, b, c⟩⟩

instance (s : Sys) (e : Event) : Decidable (Orderly s e) := by
  unfold Orderly
  split <;> infer_instance

/-! ## The invariant -/

/-- Before the lock. -/
def isWaiting : Pc → Bool
  | .connect _ | .disconnect | .listen => true
  | _ => false

/-- What the call with the lock knows of the client and the config. -/
def Knows (g : Shared) : Pc → Prop
  | .buildConfig _ | .readCredentials _ => g.client = .disconnected
  | .storeEndpoint _ credentials | .clientConnect _ credentials =>
    g.client = .disconnected ∧ credentials = g.config.credentials
  | .clientLogin _ _ => g.client = .connected ∧ g.config.credentials ≠ none
  | _ => True

/-- The first call knows what it has found, the others wait. -/
def Shape (g : Shared) : List Pc → Prop
  | [] => True
  | p :: rest => Knows g p ∧ ∀ r ∈ rest, isWaiting r = true

/-- Every connect in the queue has a disconnect behind it. -/
def EndsStopped : List Pc → Prop
  | [] => True
  | p :: rest => (isConnect p = true → ∃ r ∈ rest, isDisconnect r = true) ∧ EndsStopped rest

structure Inv (s : Sys) : Prop where
  credentials : s.shared.loggedIn = true → s.shared.config.credentials ≠ none
  loggedIn : s.shared.loggedIn = true → s.shared.connected = true
  running : s.shared.connected = true → s.shared.stopRequested = false
  noDisconnect : s.shared.connected = true → ∀ p ∈ s.queue, isDisconnect p = false
  stopped : s.shared.stopRequested = true → EndsStopped s.queue
  shape : Shape s.shared s.queue
  settled : (∀ p ∈ s.queue, p.role = .listen) → Agrees s.shared

theorem knows_of_waiting {g : Shared} {p : Pc} (h : isWaiting p = true) : Knows g p := by
  cases p <;> first | exact trivial | cases h

theorem Shape.append {g g' : Shared} {q : List Pc} {p : Pc} (h : Shape g q) (hp : isWaiting p = true)
    (hc : g'.client = g.client) (hg : g'.config = g.config) : Shape g' (q ++ [p]) := by
  cases q with
  | nil => exact ⟨knows_of_waiting hp, fun r hr => by cases hr⟩
  | cons r rest =>
    refine ⟨?_, Threads.forall_append h.2 hp⟩
    have := h.1
    unfold Knows at this ⊢
    rw [hc, hg]
    exact this

theorem Shape.tail {g g' : Shared} {p : Pc} {rest : List Pc} (h : Shape g (p :: rest)) : Shape g' rest := by
  cases rest with
  | nil => exact trivial
  | cons r rest =>
    exact ⟨knows_of_waiting (h.2 r List.mem_cons_self), fun x hx => h.2 x (List.mem_cons_of_mem r hx)⟩

theorem EndsStopped.append_disconnect {p : Pc} (hp : isDisconnect p = true) :
    ∀ {q : List Pc}, EndsStopped (q ++ [p])
  | [] => ⟨fun hc => by simp [isConnect, hp] at hc, trivial⟩
  | r :: rest => ⟨fun _ => ⟨p, by simp, hp⟩, EndsStopped.append_disconnect hp⟩

theorem EndsStopped.append {p : Pc} (hp : isConnect p = false) :
    ∀ {q : List Pc}, EndsStopped q → EndsStopped (q ++ [p])
  | [], _ => ⟨fun hc => (by rw [hp] at hc; cases hc), trivial⟩
  | r :: rest, h => by
    constructor
    · intro hc
      obtain ⟨d, hd, hdis⟩ := h.1 hc
      exact ⟨d, List.mem_append_left _ hd, hdis⟩
    · exact EndsStopped.append hp h.2

/-! ## The first step of a call -/

theorem Inv.start {s : Sys} {op : Op} {g : Shared} {p : Pc} (h : Inv s) (hs : start s.shared op = (g, .call p)) :
    Inv ⟨g, s.queue ++ [p], s.returned⟩ := by
  -- with a connect or disconnect in the queue nothing is settled
  have hun : ∀ {r : Pc} {P : Prop}, r.role = .closer → (∀ x ∈ s.queue ++ [r], x.role = .listen) → P := by
    intro r P hr hall
    have := hall r (by simp)
    rw [hr] at this
    cases this
  unfold QQBackend.start at hs
  split at hs
  · cases hs
    exact ⟨fun hl => (by cases hl), fun hl => (by cases hl), fun hc => (by cases hc), fun hc => (by cases hc),
      fun hst => (by cases hst), h.shape.append rfl rfl rfl, hun rfl⟩
  · cases hs
    exact ⟨fun hl => (by cases hl), fun hl => (by cases hl), fun hc => (by cases hc), fun hc => (by cases hc),
      fun _ => .append_disconnect rfl, h.shape.append rfl rfl rfl, hun rfl⟩
  · split at hs
    · cases hs
    · split at hs
      · cases hs
      · cases hs
        refine ⟨h.credentials, h.loggedIn, h.running, fun hc => Threads.forall_append (h.noDisconnect hc) rfl,
          fun hst => (h.stopped hst).append rfl, h.shape.append rfl rfl rfl, fun hall => ?_⟩
        have ha := h.settled fun p hp => hall p (List.mem_append_left _ hp)
        exact ⟨ha.connected, ha.loggedIn, ha.running⟩

/-! ## Later steps of a call -/

/-- The flags and the credentials are those of before. -/
structure Same (g g' : Shared) : Prop where
  connected : g'.connected = g.connected
  loggedIn : g'.loggedIn = g.loggedIn
  stopRequested : g'.stopRequested = g.stopRequested
  credentials : g'.config.credentials = g.config.credentials

theorem Same.rfl {g : Shared} : Same g g := ⟨Eq.refl _, Eq.refl _, Eq.refl _, Eq.refl _⟩

theorem Agrees.same {g g' : Shared} (h : Agrees g) (hs : Same g g') (hc : g'.client = g.client) : Agrees g' := by
  constructor
  · rw [hs.connected, hc]; exact h.connected
  · rw [hs.loggedIn, hc]; exact h.loggedIn
  · rw [hs.connected, hs.stopRequested]; exact h.running

/-- With the flags untouched, what is left to show is about the queue. -/
theorem Inv.same {s : Sys} {g : Shared} {queue : List Pc} {returned : List Reply} (h : Inv s) (hs : Same s.shared g)
    (hno : (∀ r ∈ s.queue, isDisconnect r = false) → ∀ r ∈ queue, isDisconnect r = false)
    (hst : EndsStopped s.queue → EndsStopped queue) (hshape : Shape g queue)
    (hset : (∀ r ∈ queue, r.role = .listen) → Agrees g) : Inv ⟨g, queue, returned⟩ := by
  refine ⟨?_, ?_, ?_, ?_, ?_, hshape, hset⟩ <;> dsimp only
  · rw [hs.loggedIn, hs.credentials]; exact h.credentials
  · rw [hs.loggedIn, hs.connected]; exact h.loggedIn
  · rw [hs.connected, hs.stopRequested]; exact h.running
  · rw [hs.connected]; exact fun hc => hno (h.noDisconnect hc)
  · rw [hs.stopRequested]; exact fun hc => hst (h.stopped hc)

/-- The first call goes on without touching the flags. -/
theorem Inv.call {s : Sys} {g : Shared} {p q : Pc} {rest : List Pc} (h : Inv s) (hq : s.queue = p :: rest)
    (hs : Same s.shared g) (hc : isConnect q = isConnect p) (hd : isDisconnect q = isDisconnect p)
    (hk : Knows g q) (hset : q.role = .listen → p.role = .listen ∧ g.client = s.shared.client) :
    Inv ⟨g, q :: rest, s.returned⟩ := by
  have hshape := h.shape
  rw [hq] at hshape
  refine h.same hs ?_ ?_ ⟨hk, hshape.2⟩ fun hall => ?_
  · rw [hq, List.forall_mem_cons, List.forall_mem_cons, hd]
    exact id
  · rw [hq, EndsStopped, EndsStopped, hc]
    exact id
  · obtain ⟨hrole, hrest⟩ := List.forall_mem_cons.1 hall
    obtain ⟨hp, hcl⟩ := hset hrole
    refine (h.settled ?_).same hs hcl
    rw [hq]
    exact List.forall_mem_cons.2 ⟨hp, hrest⟩

/-- The first call returns without touching the flags. -/
theorem Inv.ret {s : Sys} {g : Shared} {p : Pc} {rest : List Pc} {returned : List Reply} (h : Inv s)
    (hq : s.queue = p :: rest) (hs : Same s.shared g) (hset : (∀ r ∈ rest, r.role = .listen) → Agrees g) :
    Inv ⟨g, rest, returned⟩ := by
  have hshape := h.shape
  rw [hq] at hshape
  refine h.same hs ?_ ?_ hshape.tail hset
  · rw [hq, List.forall_mem_cons]
    exact And.right
  · rw [hq, EndsStopped]
    exact And.right

/-- With the client disconnected and `connected` clear the two agree. -/
theorem Inv.agrees_closed {s : Sys} {g : Shared} (h : Inv s) (hs : Same s.shared g) (hc : s.shared.connected = false)
    (hcl : g.client = .disconnected) : Agrees g := by
  have hl : s.shared.loggedIn = false := by
    cases hl : s.shared.loggedIn with
    | false => rfl
    | true => rw [h.loggedIn hl] at hc; cases hc
  constructor
  · rw [hs.connected, hc, hcl]; decide
  · rw [hs.loggedIn, hl, hcl]; decide
  · rw [hs.connected, hc]; intro hf; cases hf

/-- A connect gives up: the flags are clear or nothing is settled yet. -/
theorem Inv.giveUp {s : Sys} {g : Shared} {p : Pc} {rest : List Pc} {returned : List Reply} (h : Inv s)
    (hq : s.queue = p :: rest) (hs : Same s.shared g) (hcl : g.client = .disconnected)
    (hc : s.shared.connected = false ∨ CloserWaits s) : Inv ⟨g, rest, returned⟩ := by
  refine h.ret hq hs fun hall => ?_
  rcases hc with hc | ⟨r, hr, hrole⟩
  · exact h.agrees_closed hs hc hcl
  · rw [hq] at hr
    rw [hall r hr] at hrole
    cases hrole

/-- A connect succeeds while no disconnect waits: nobody has asked to stop since it began. -/
theorem Inv.succeed {s : Sys} {g : Shared} {p : Pc} {rest : List Pc} {returned : List Reply} (h : Inv s)
    (hq : s.queue = p :: rest) (hp : isConnect p = true) (hd : ∀ r ∈ s.queue.tail, isDisconnect r = false)
    (hconn : g.connected = true) (hst : g.stopRequested = s.shared.stopRequested)
    (hcr : g.loggedIn = true → g.config.credentials ≠ none) (hset : s.shared.stopRequested = false → Agrees g) :
    Inv ⟨g, rest, returned⟩ := by
  have hshape := h.shape
  rw [hq] at hshape hd
  have hstop : s.shared.stopRequested = false := by
    cases hst' : s.shared.stopRequested with
    | false => rfl
    | true =>
      have hold := h.stopped hst'
      rw [hq] at hold
      obtain ⟨r, hr, hrd⟩ := hold.1 hp
      rw [hd r hr] at hrd
      cases hrd
  exact ⟨hcr, fun _ => hconn, (hset hstop).running, fun _ => hd, fun hst' => (by rw [hst, hstop] at hst'; cases hst'),
    hshape.tail, fun _ => hset hstop⟩

theorem same_abort (g : Shared) : Same g g.abortListener ∧ g.abortListener.client = g.client := by
  unfold Shared.abortListener
  split
  · exact ⟨.rfl, rfl⟩
  · exact ⟨⟨rfl, rfl, rfl, rfl⟩, rfl⟩

theorem givesUp_of_error {g : Shared} {endpoint : String} {e : ProtocolError}
    (h : buildConnectConfig g.config endpoint = .error e) : givesUp g (.buildConfig endpoint) .go = true := by
  unfold buildConnectConfig at h
  split at h
  · rename_i hb
    rw [givesUp, hb]
  · cases h

theorem Inv.act {s : Sys} {a : Act} {p : Pc} {rest : List Pc} {r : Shared × Next} (h : Inv s)
    (hc : OrderlyStep s p a) (hq : s.queue = p :: rest) (hs : act s.shared p a = some r) :
    Inv (Sys.after rest s.returned r) := by
  have hknows : Knows s.shared p := by
    have := h.shape
    rw [hq] at this
    exact this.1
  unfold QQBackend.act at hs
  split at hs
  · cases hs
    exact h.call hq (same_abort _).1 rfl rfl trivial fun hr => by cases hr
  · cases hs
    exact h.call hq ⟨rfl, rfl, rfl, rfl⟩ rfl rfl rfl fun hr => by cases hr
  · -- the endpoint is blank, or the connect goes on
    split at hs
    · cases hs
      exact h.call hq .rfl rfl rfl hknows fun hr => by cases hr
    · rename_i endpoint e he
      cases hs
      exact h.giveUp hq .rfl hknows (hc.gaveUp (givesUp_of_error he))
  · cases hs
    exact h.call hq .rfl rfl rfl ⟨hknows, rfl⟩ fun hr => by cases hr
  · cases hs
    split
    · rename_i hr
      exact h.giveUp hq ⟨rfl, rfl, rfl, rfl⟩ hknows.1 (hc.gaveUp hr)
    · exact h.call hq ⟨rfl, rfl, rfl, rfl⟩ rfl rfl hknows fun hr => by cases hr
  · -- the client is connected: it logs in, or the session is open
    split at hs
    · cases hs
      refine h.call hq ⟨rfl, rfl, rfl, rfl⟩ rfl rfl ⟨rfl, ?_⟩ fun hr => by cases hr
      show s.shared.config.credentials ≠ none
      rw [← hknows.2]
      exact Option.some_ne_none _
    · cases hs
      have hl : s.shared.loggedIn = false := by
        cases hl : s.shared.loggedIn with
        | false => rfl
        | true => exact absurd hknows.2.symm (h.credentials hl)
      refine h.succeed hq rfl (hc.succeeded rfl) rfl rfl h.credentials fun hst => ⟨?_, ?_, fun _ => hst⟩
      · exact ⟨fun _ => .inl rfl, fun _ => rfl⟩
      · show s.shared.loggedIn = true ↔ _
        rw [hl]
        exact ⟨fun hf => (by cases hf), fun hf => by cases hf⟩
  · cases hs
    refine h.succeed hq rfl (hc.succeeded rfl) rfl rfl (fun _ => hknows.2) fun hst => ⟨?_, ?_, fun _ => hst⟩
    · exact ⟨fun _ => .inr rfl, fun _ => rfl⟩
    · exact ⟨fun _ => rfl, fun _ => rfl⟩
  · cases hs
    exact h.giveUp hq .rfl hknows.1 (hc.gaveUp rfl)
  · -- a failed login leaves the client connected to whoever waits
    cases hs
    obtain ⟨r, hr, hrole⟩ := hc.failed rfl
    rw [hq] at hr
    refine h.ret hq .rfl fun hall => ?_
    rw [hall r hr] at hrole
    cases hrole
  · cases hs
    exact h.call hq (same_abort _).1 rfl rfl trivial fun hr => by cases hr
  · cases hs
    have hconn : s.shared.connected = false := by
      cases hconn : s.shared.connected with
      | false => rfl
      | true => cases h.noDisconnect hconn _ (hq ▸ List.mem_cons_self)
    exact h.ret hq ⟨rfl, rfl, rfl, rfl⟩ fun _ => h.agrees_closed ⟨rfl, rfl, rfl, rfl⟩ hconn rfl
  · cases hs
    exact h.call hq .rfl rfl rfl trivial fun _ => ⟨rfl, rfl⟩
  · cases hs
    refine h.ret hq ⟨rfl, rfl, rfl, rfl⟩ fun hall => (h.settled ?_).same ⟨rfl, rfl, rfl, rfl⟩ rfl
    rw [hq]
    intro r hr
    rcases List.mem_cons.1 hr with rfl | hr
    · rfl
    · exact hall r hr
  · cases hs

/-! ## Runs -/

/-- Listeners touch neither the flags of the session nor the client. -/
theorem Inv.env {s : Sys} {e : Env} {g : Shared} (h : Inv s) (he : env s.shared e = some g) :
    Inv { s with shared := g } := by
  obtain ⟨t, a⟩ := e
  obtain ⟨l, g', l', -, hs, rfl⟩ := env_listener he
  obtain ⟨⟨events, i⟩, -, hs⟩ := Option.map_eq_some_iff.1 hs
  dsimp only at hs
  split at hs <;> cases hs <;>
    exact ⟨h.credentials, h.loggedIn, h.running, h.noDisconnect, h.stopped, h.shape,
      fun hall => (h.settled hall).same ⟨rfl, rfl, rfl, rfl⟩ rfl⟩

theorem step_inv (s : Sys) (e : Event) (s' : Sys) (h : Inv s) (hc : Orderly s e) (hs : step s e = some s') :
    Inv s' := by
  cases e with
  | start op =>
    rcases step_start hs with ⟨g, p, hr, rfl⟩ | ⟨g, r, hr, rfl⟩
    · exact h.start hr
    · cases start_ret hr
      exact ⟨h.credentials, h.loggedIn, h.running, h.noDisconnect, h.stopped, h.shape, h.settled⟩
  | act a =>
    obtain ⟨p, rest, r, hq, hr, rfl⟩ := step_act hs
    exact h.act (hc p (by rw [hq]; rfl)) hq hr
  | env e =>
    obtain ⟨g, hr, rfl⟩ := step_env hs
    exact h.env hr

theorem Inv.init (config : QQClientBackendConfig) : Inv (init config) where
  credentials hl := by cases hl
  loggedIn hl := by cases hl
  running hc := by cases hc
  noDisconnect hc := by cases hc
  stopped hst := by cases hst
  shape := trivial
  settled _ := by
    refine ⟨⟨fun hc => (by cases hc), ?_⟩, ⟨fun hl => (by cases hl), fun hl => (by cases hl)⟩, fun hc => (by cases hc)⟩
    rintro (hf | hf) <;> cases hf

/-- In every orderly run the backend and its client agree whenever no connect or disconnect is in
progress. -/
theorem backend_agrees {config : QQClientBackendConfig} {es : List Event} {s : Sys}
    (hc : Run.Along step Orderly (QQBackend.init config) es)
    (hs : Run.exec step (QQBackend.init config) es = some s) (hq : ∀ p ∈ s.queue, p.role = .listen) :
    Agrees s.shared :=
  (Run.exec_inv step_inv es _ _ (Inv.init config) hc hs).settled hq

/-- A backend with an account. -/
def accountBackend : QQClientBackendConfig :=
  { endpoint := "mock://localhost", account := some "alice", password := some "secret" }

/-- The first call in progress is a connect, and the client connects. -/
def clientConnects : List Event := List.replicate 5 (.act .go) ++ [.act (.client (.ok ()))]

/-- A session, and a second one whose connect begins while the disconnect is in progress. -/
def sessions : List Event :=
  [.start (.connect "")] ++ clientConnects ++ [.act (.client (.ok ())), .start .disconnect, .start (.connect "")] ++
    disconnects ++ clientConnects ++ [.act (.client (.ok ()))]

theorem backend_agrees_sessions : ∃ s, Run.exec step (QQBackend.init accountBackend) sessions = some s ∧
    Agrees s.shared := by
  have hk : (Run.exec step (QQBackend.init accountBackend) sessions).map (fun s => s.queue.isEmpty) = some true := by
    decide +kernel
  obtain ⟨s, hs, hk⟩ := Option.map_eq_some_iff.1 hk
  rw [List.isEmpty_iff] at hk
  exact ⟨s, hs, backend_agrees (by decide +kernel) hs (by rw [hk]; exact fun p hp => by cases hp)⟩

/-- The client connects and refuses the login. -/
def refusedLogin : List Event :=
  [.start (.connect "")] ++ clientConnects ++ [.act (.client (.error (.login "account and password required")))]

/-- The connect returns and leaves the client's session open. -/
theorem refused_login_disagrees : ∃ s, Run.exec step (QQBackend.init accountBackend) refusedLogin = some s ∧
    s.queue = [] ∧ ¬ Agrees s.shared := by
  have hk : (Run.exec step (QQBackend.init accountBackend) refusedLogin).map
      (fun s => (s.queue.isEmpty, s.shared.connected, s.shared.client)) = some (true, false, .connected) := by
    decide +kernel
  obtain ⟨s, hs, hk⟩ := Option.map_eq_some_iff.1 hk
  rw [Prod.mk.injEq, Prod.mk.injEq, List.isEmpty_iff] at hk
  obtain ⟨hq, hconn, hclient⟩ := hk
  refine ⟨s, hs, hq, fun ha => ?_⟩
  have := ha.connected.2 (.inl hclient)
  rw [hconn] at this
  cases this

end NapCat.QQBackend.Agreement
