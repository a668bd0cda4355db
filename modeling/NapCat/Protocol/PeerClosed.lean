/-
The end of the stream, at the client and at the listener behind it. A receive that reads zero bytes
returns what it returns when the session is not open or no packet is there, and leaves the state; so
the client goes on as connected, refuses a connect, and the listener polls it again.
-/
import NapCat.QQClient.LoginAck
import NapCat.QQClient.Session
import NapCat.Protocol.Dismissed
import NapCat.Protocol.QQAgreement

namespace NapCat.PeerClosed

open QQClient QQClient.Tcp

/-- What noticing the end of the stream comes to, for a receive that returned `r` and left `g`: the state is no open
session's, a connect is admitted, and a listener that the receive was made for, in a backend whose flags tell the
state of its client, is on its way out once it has handled `r`. -/
structure Noticed (g : Shared) (r : Except QQClientError (Option Packet)) : Prop where
  state : g.state ≠ .connected ∧ g.state ≠ .loggedIn
  admitted : ∀ config addr, normalizeTcpEndpoint config.endpoint = .ok addr →
    start g (.connect config) = some (g, .connecting config addr (effectiveTimeoutMs config.timeoutMs))
  listener : ∀ (b b' : QQBackend.Shared) (t : Nat) (subscribed : Bool), b.client = g.state →
    QQBackend.Agreement.Agrees b → QQBackend.env b (.listener t (.received r subscribed)) = some b' →
      QQBackend.Dismissed b' t

/-- Call `i` is a receive, and the event is its read of zero bytes. -/
def ReadsEnd (s : Sys) (e : Event) (i : Nat) : Prop :=
  e = .act i (.read .eof) ∧ ∃ ms, s.calls[i]? = some (.receive (.read ms))

/-- A receive that reads the end of the stream lets its caller and the state know. -/
def Notices (s : Sys) (e : Event) : Prop :=
  ∀ i, ReadsEnd s e i → ∀ s' r, step s e = some s' → s'.calls[i]? = some (.done (r.map .packet)) → Noticed s'.shared r

/-- By the time a receive reads the end of the stream the session is no longer open. -/
def SessionGone (s : Sys) (e : Event) : Prop := ∀ i, ReadsEnd s e i → s.shared.isSessionOpen = false

/-- The call returns that there is no packet, and nothing else changes. -/
theorem step_readsEnd {s : Sys} {e : Event} {i : Nat} (h : ReadsEnd s e i) :
    step s e = some ⟨s.shared, s.calls.set i (.done (.ok (.packet none)))⟩ := by
  obtain ⟨rfl, ms, hi⟩ := h
  simp only [step, Threads.step, hi, Option.bind_some]
  rfl

theorem not_isSessionOpen_iff {g : Shared} :
    g.isSessionOpen = false ↔ g.state ≠ .connected ∧ g.state ≠ .loggedIn := by
  rw [← Bool.not_eq_true, Shared.isSessionOpen_iff, not_or]

/-- What a listener handles while no session is open, it handles on its way out. -/
theorem dismissed_of_not_open {g : Shared} {b b' : QQBackend.Shared} {t : Nat} {a : QQBackend.ListenerAct}
    (h : g.isSessionOpen = false) (hclient : b.client = g.state) (hagrees : QQBackend.Agreement.Agrees b)
    (hstep : QQBackend.env b (.listener t a) = some b') : QQBackend.Dismissed b' t := by
  have hconn : b.connected = false := by
    rw [← Bool.not_eq_true, hagrees.connected, hclient, not_or]
    exact not_isSessionOpen_iff.1 h
  obtain ⟨l, b₁, q, hl, hq, rfl⟩ := QQBackend.env_listener hstep
  have hconn' : b₁.connected = false := (QQBackend.step_unconnected hconn hq).1
  have hlt : t < (b.listeners.set t q).length := by
    rw [List.length_set]
    exact (List.getElem?_eq_some_iff.1 hl).1
  exact QQBackend.dismissed_of_not_connected (g := { b₁ with listeners := b.listeners.set t q }) hconn' hlt

theorem noticed_none_iff {g : Shared} : Noticed g (.ok none) ↔ g.isSessionOpen = false := by
  constructor
  · exact fun h => not_isSessionOpen_iff.2 h.state
  · intro h
    refine ⟨not_isSessionOpen_iff.1 h, fun config addr hn => ?_, fun b b' t subscribed hclient hagrees hstep =>
      dismissed_of_not_open h hclient hagrees hstep⟩
    simp only [start, h, hn, Bool.false_eq_true, if_false]

/-- Over an open session a listener takes the end of the stream for no packet, and stays in its loop. -/
theorem not_dismissed_of_open {g : Shared} {b b' : QQBackend.Shared} {t : Nat} {subscribed : Bool}
    (h : g.isSessionOpen = true) (hclient : b.client = g.state) (hagrees : QQBackend.Agreement.Agrees b)
    (hstep : QQBackend.env b (.listener t (.received (.ok none) subscribed)) = some b') :
    ¬ QQBackend.Dismissed b' t ∧ b'.notified = b.notified := by
  have hconn : b.connected = true := by
    rw [hagrees.connected, hclient]
    exact Shared.isSessionOpen_iff.1 h
  have hgoes : b.goesOn = true := by rw [QQBackend.Shared.goesOn, hconn, hagrees.running hconn]; rfl
  obtain ⟨l, b₁, q, hl, hq, rfl⟩ := QQBackend.env_listener hstep
  obtain ⟨⟨events, i⟩, hiter, hq⟩ := Option.map_eq_some_iff.1 hq
  have hidle : events = [] ∧ i = .sleep := by
    unfold QQBackend.Listener.iteration at hiter
    dsimp only at hiter
    split at hiter <;> cases hiter
    exact ⟨rfl, rfl⟩
  obtain ⟨rfl, rfl⟩ := hidle
  have hnext : ∃ pos, l.next b .sleep = some pos ∧ ({ l with pos } : QQBackend.Listener).inLoop = true := by
    unfold QQBackend.Listener.next
    by_cases hms : 0 < l.pollMs
    · exact ⟨.sleeping, if_pos hms, rfl⟩
    · exact ⟨.receiving, (if_neg hms).trans (if_pos hgoes), rfl⟩
  obtain ⟨pos, hnext, hin⟩ := hnext
  simp only [hnext, Prod.mk.injEq] at hq
  obtain ⟨rfl, rfl⟩ := hq
  refine ⟨QQBackend.not_dismissed_of_inLoop hgoes (List.getElem?_set_self (List.getElem?_eq_some_iff.1 hl).1) hin, ?_⟩
  simp [QQBackend.Shared.notify]

theorem notices_iff (s : Sys) (e : Event) : Notices s e ↔ SessionGone s e := by
  refine forall_congr' fun i => forall_congr' fun h => ?_
  have hlt : i < s.calls.length := (List.getElem?_eq_some_iff.1 h.2.choose_spec).1
  rw [step_readsEnd h]
  constructor
  · exact fun hn => noticed_none_iff.1 (hn ⟨s.shared, s.calls.set i _⟩ (.ok none) rfl (List.getElem?_set_self hlt))
  · rintro hg s' r ⟨⟩ hr
    have hr : Pc.done (.ok (.packet none)) = .done (r.map .packet) := by
      rw [List.getElem?_set_self hlt, Option.some.injEq] at hr
      exact hr
    rcases r with e | p
    · cases hr
    · cases hr
      exact noticed_none_iff.2 hg

/-! ## After the end -/

/-- A step leaves an open session open unless it is a disconnect's. -/
theorem act_isSessionOpen {g g' : Shared} {p q : Pc} {a : Act} (h : g.isSessionOpen = true)
    (hp : p.stage ≠ .closing ∧ p.stage ≠ .taken) (hs : act g p a = some (g', q)) :
    g'.isSessionOpen = true ∧ q.stage ≠ .closing ∧ q.stage ≠ .taken := by
  have keep : ∀ {g₁ : Shared}, g₁.state = g.state → g₁.isSessionOpen = true := fun he => by
    rw [isSessionOpen_congr he, h]
  by_cases hc : ∀ e, a = .convert (some e) → g.stream = none
  · cases act_effect hs hc with
    | quiet _ hq hsame => exact ⟨keep hsame.1, by rw [hq]; exact ⟨Stage.noConfusion, Stage.noConfusion⟩⟩
    | store addr => exact ⟨keep rfl, Stage.noConfusion, Stage.noConfusion⟩
    | connected => exact ⟨rfl, Stage.noConfusion, Stage.noConfusion⟩
    | token t => exact ⟨keep rfl, Stage.noConfusion, Stage.noConfusion⟩
    | loggedIn t => exact ⟨rfl, Stage.noConfusion, Stage.noConfusion⟩
    | take => exact absurd rfl hp.1
    | clear ht => exact absurd ht hp.2
    | closed => exact absurd rfl hp.2
  · -- a conversion that fails takes the stream, not the state
    push Not at hc
    obtain ⟨e, rfl, -⟩ := hc
    cases p with
    | loginAck left r =>
      obtain ⟨⟨g₁, x⟩, hr, hx⟩ := Option.map_eq_some_iff.1 hs
      cases x <;> cases hx
      · exact ⟨keep (recvOnce_keeps hr).1, Stage.noConfusion, Stage.noConfusion⟩
      · refine ⟨keep (recvOnce_keeps hr).1, ?_⟩
        rw [ackStep_stage]
        exact ⟨Stage.noConfusion, Stage.noConfusion⟩
    | receive r =>
      obtain ⟨⟨g₁, x⟩, hr, hx⟩ := Option.map_eq_some_iff.1 hs
      cases x <;> cases hx <;> exact ⟨keep (recvOnce_keeps hr).1, Stage.noConfusion, Stage.noConfusion⟩
    | write who line w => cases w <;> cases hs
    | _ => cases hs

/-- The session is open, and no disconnect is in progress. -/
structure StaysOpen (s : Sys) : Prop where
  isOpen : s.shared.isSessionOpen = true
  calls : ∀ p ∈ s.calls, p.stage ≠ .closing ∧ p.stage ≠ .taken

theorem StaysOpen.step {s s' : Sys} {e : Event} (h : StaysOpen s) (he : e ≠ .start .disconnect)
    (hs : step s e = some s') : StaysOpen s' := by
  cases e with
  | start op =>
    obtain ⟨g, p, hg, rfl⟩ := Threads.step_start hs
    have hg : start s.shared op = some (g, p) := hg
    rcases start_effect hg with ⟨rfl, hp⟩ | ⟨rfl, -, -⟩
    · refine ⟨h.isOpen, Threads.forall_append h.calls ?_⟩
      rw [hp]
      exact ⟨Stage.noConfusion, Stage.noConfusion⟩
    · exact absurd rfl he
  | act i a =>
    obtain ⟨p, g, q, hi, ha, rfl⟩ := Threads.step_act hs
    obtain ⟨hopen, hq⟩ := act_isSessionOpen h.isOpen (h.calls p (Threads.mem_of_get hi)) ha
    exact ⟨hopen, Threads.forall_set h.calls hq⟩
  | env e => exact nomatch e

/-- A client whose peer has closed stays connected and refuses every connect, whatever its calls read,
until someone disconnects it. -/
theorem refused_until_disconnect {s s' : Sys} {es : List Event} (h : StaysOpen s) (hes : .start .disconnect ∉ es)
    (hs : Run.exec step s es = some s') (config : QQClientConfig) :
    start s'.shared (.connect config) = some (s'.shared, fail (.invalidState "connection already active")) := by
  have hne : ∀ e ∈ es, e ≠ .start .disconnect := fun e he hd => hes (hd ▸ he)
  have hinv := Run.exec_inv (fun _ _ _ hi hc hst => hi.step hc hst) es s s' h (Run.along_of_forall es s hne) hs
  exact if_pos hinv.isOpen

/-! ## Every run -/

/-- What an end comes to that is not noticed, where nobody disconnects: from then on every connect is refused, and a
listener of a backend that agrees with its client goes on without a word. -/
structure Overlooked (s : Sys) (e : Event) (es : List Event) : Prop where
  refused : ∀ s', Run.exec step s (e :: es) = some s' → ∀ config,
    start s'.shared (.connect config) = some (s'.shared, fail (.invalidState "connection already active"))
  listener : ∀ (b b' : QQBackend.Shared) (t : Nat) (subscribed : Bool), b.client = s.shared.state →
    QQBackend.Agreement.Agrees b → QQBackend.env b (.listener t (.received (.ok none) subscribed)) = some b' →
      ¬ QQBackend.Dismissed b' t ∧ b'.notified = b.notified

theorem overlooked_of_not_notices {s : Sys} {e : Event} {es : List Event} (h : ¬ Notices s e)
    (hcalls : ∀ p ∈ s.calls, p.stage ≠ .closing ∧ p.stage ≠ .taken) (hes : .start .disconnect ∉ es) :
    Overlooked s e es := by
  rw [notices_iff] at h
  obtain ⟨i, hend, hopen⟩ : ∃ i, ReadsEnd s e i ∧ s.shared.isSessionOpen = true := by
    by_contra hn
    exact h fun i hi => eq_false_of_ne_true fun ho => hn ⟨i, hi, ho⟩
  have hne : .start .disconnect ∉ e :: es := by
    rw [List.mem_cons, not_or, hend.1]
    exact ⟨fun he => (by cases he), hes⟩
  exact ⟨fun s' hs => refused_until_disconnect ⟨hopen, hcalls⟩ hne hs, fun b b' t subscribed hclient hagrees hstep =>
    not_dismissed_of_open hopen hclient hagrees hstep⟩

/-- A run notices every end of its stream exactly if the session is no longer open at each of them; one that is not
noticed, with no disconnect in progress, is overlooked until a disconnect begins. -/
theorem end_noticed_iff (s : Sys) (es : List Event) :
    (Run.Along step Notices s es ↔ Run.Along step SessionGone s es) ∧
      ∀ e, ¬ Notices s e → (∀ p ∈ s.calls, p.stage ≠ .closing ∧ p.stage ≠ .taken) → .start .disconnect ∉ es →
        Overlooked s e es := by
  have he : Notices = SessionGone := funext₂ fun s e => propext (notices_iff s e)
  exact ⟨by rw [he], fun e hn hcalls hes => overlooked_of_not_notices hn hcalls hes⟩

/-- The peer closes a fresh connection while a receive waits. -/
def peerCloses : List Event :=
  [.start (.connect ⟨"host:1", none, 500⟩), .act 0 (.io .ok), .act 0 .go, .act 0 .go, .act 0 .go, .act 0 .go,
    .start .receivePacket, .act 1 .go, .act 1 .go, .act 1 (.convert none)]

/-- A backend over that client, with a listener in a receive. -/
def listening : QQBackend.Shared where
  config := { endpoint := "tcp://host:1" }
  client := .connected
  connected := true
  listening := true
  listenTask := some 0
  listeners := [⟨150, .receiving⟩]

/-- Another connect comes after the end that was not noticed, and the listener gets its answer. -/
theorem end_noticed_iff_peerCloses : ∃ s b', Run.exec step init peerCloses = some s ∧
    Overlooked s (.act 1 (.read .eof)) [.start (.connect ⟨"host:1", none, 500⟩)] ∧
    QQBackend.env listening (.listener 0 (.received (.ok none) true)) = some b' ∧ ¬ QQBackend.Dismissed b' 0 := by
  have hk : (Run.exec step init peerCloses).map (fun s => (s.shared.state, s.calls)) =
      some (.connected, [.done (.ok .unit), .receive (.read 500)]) := by rfl
  obtain ⟨s, hs, hk⟩ := Option.map_eq_some_iff.1 hk
  obtain ⟨hst, hc⟩ := Prod.mk.inj hk
  have hend : ReadsEnd s (.act 1 (.read .eof)) 1 := ⟨rfl, 500, by rw [hc]; rfl⟩
  have hopen : s.shared.isSessionOpen = true := Shared.isSessionOpen_iff.2 (.inl hst)
  have hn : ¬ Notices s (.act 1 (.read .eof)) := fun hn => by
    rw [notices_iff] at hn
    exact Bool.noConfusion (hopen.symm.trans (hn 1 hend))
  have hcalls : ∀ p ∈ s.calls, p.stage ≠ .closing ∧ p.stage ≠ .taken := by
    rw [hc]
    decide
  have hover := (end_noticed_iff s [.start (.connect ⟨"host:1", none, 500⟩)]).2 _ hn hcalls (by simp)
  have hagrees : QQBackend.Agreement.Agrees listening := ⟨by decide, by decide, by decide⟩
  exact ⟨s, _, hs, hover, rfl, (hover.listener listening _ 0 true hst.symm hagrees rfl).1⟩

/-- The state stays connected, the next connect is refused, and the listener sleeps and polls again. -/
theorem end_not_noticed : ∃ s s', Run.exec step init peerCloses = some s ∧ ReadsEnd s (.act 1 (.read .eof)) 1 ∧
    step s (.act 1 (.read .eof)) = some s' ∧ s'.calls[1]? = some (.done (.ok (.packet none))) ∧
    s'.shared.state = .connected ∧
    start s'.shared (.connect ⟨"host:1", none, 500⟩) =
      some (s'.shared, fail (.invalidState "connection already active")) ∧
    QQBackend.handleReceived true (.ok none) = ([], .sleep) ∧ ¬ Noticed s'.shared (.ok none) := by
  have hk : (Run.exec step init peerCloses).map (fun s => (s.shared.state, s.calls[1]?)) =
      some (.connected, some (.receive (.read 500))) := by rfl
  obtain ⟨s, hs, hk⟩ := Option.map_eq_some_iff.1 hk
  obtain ⟨hst, hc⟩ := Prod.mk.inj hk
  have hopen : s.shared.isSessionOpen = true := Shared.isSessionOpen_iff.2 (.inl hst)
  have hend : ReadsEnd s (.act 1 (.read .eof)) 1 := ⟨rfl, 500, hc⟩
  have hlt : 1 < s.calls.length := (List.getElem?_eq_some_iff.1 hc).1
  refine ⟨s, _, hs, hend, step_readsEnd hend, List.getElem?_set_self hlt, hst, ?_, rfl, ?_⟩
  · exact if_pos hopen
  · exact fun hn => hn.state.1 hst

end NapCat.PeerClosed
