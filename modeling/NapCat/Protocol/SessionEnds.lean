/-
How listener sessions end. A listener of the OneBot backend leaves its loop by itself and sends
`Disconnected` last, and only once unless it has passed on one that it received. A listener of the
QQ client backend does so too where it is not aborted in its loop.
-/
import NapCat.Lib.TaggedLog
import NapCat.Protocol.OneBotListener
import NapCat.Protocol.QQListener

namespace NapCat

open TaggedLog

def ProtocolEvent.isDisconnected : ProtocolEvent → Bool
  | .disconnected => true
  | _ => false

/-! ## OneBot -/

/-- The response carries an item that is a `Disconnected` event. -/
def HttpResponse.disconnects : HttpResponse → Bool
  | .body raw => (OneBotListenEnvelope.fromJson raw).data.any fun item =>
      (decodeItem item).toOption.any ProtocolEvent.isDisconnected
  | _ => false

theorem disconnected_notMem_notifyItems {subscribed : Bool} : ∀ {items : List Json},
    (∀ item ∈ items, decodeItem item ≠ .ok .disconnected) → .disconnected ∉ notifyItems subscribed items
  | [], _ => List.not_mem_nil
  | raw :: rest, h => by
    have ih : .disconnected ∉ notifyItems subscribed rest := disconnected_notMem_notifyItems fun item hi =>
      h item (List.mem_cons_of_mem raw hi)
    rw [notifyItems]
    split
    · rename_i event he
      rw [List.mem_cons, not_or]
      refine ⟨fun hd => h raw List.mem_cons_self (hd ▸ he), ?_⟩
      split
      · exact ih
      · exact List.not_mem_nil
    · rw [List.mem_cons, not_or]
      exact ⟨ProtocolEvent.noConfusion, ih⟩

namespace OneBotHttp

theorem disconnected_notMem_handleResponse {subscribed : Bool} {r : HttpResponse} (h : r.disconnects = false) :
    .disconnected ∉ (handleResponse subscribed r).1 := by
  cases r with
  | failed e => exact fun hm => ProtocolEvent.noConfusion (List.mem_singleton.1 hm)
  | nonSuccess status => exact fun hm => ProtocolEvent.noConfusion (List.mem_singleton.1 hm)
  | badBody e => exact fun hm => ProtocolEvent.noConfusion (List.mem_singleton.1 hm)
  | body raw =>
    refine disconnected_notMem_notifyItems fun item hi hd => ?_
    have := List.any_eq_false.1 h item hi
    rw [hd] at this
    exact this rfl

/-- A listener that has sent its last event. -/
def Listener.closed : Listener → Bool
  | .clearing | .ended => true
  | _ => false

/-- No response to a listener carries a `Disconnected` event. -/
def Polite (_ : Sys) : Event → Prop
  | .env (.listener _ (.respond r _)) => r.disconnects = false
  | _ => True

instance (s : Sys) (e : Event) : Decidable (Polite s e) := by
  unfold Polite
  split <;> infer_instance

/-- A listener has ended only with `Disconnected` as the last event it has sent. -/
def SessionsEnd (s : Sys) : Prop :=
  ∀ t, s.shared.listeners[t]? = some .ended → EndsWith .disconnected (sentBy t s.shared.notified)

def Tidy (g : Shared) : Prop := Ends .disconnected Listener.closed g.listeners g.notified

theorem Tidy.act {g g' : Shared} {p q : Pc} {a : Act} (h : Tidy g) (hs : act g p a = some (g', q)) : Tidy g' := by
  unfold OneBotHttp.act at hs
  split at hs
  · split at hs <;> cases hs <;> exact h
  · cases hs; exact h
  · cases hs; exact h
  · cases hs; exact h
  · cases hs; exact h
  · cases hs; exact h
  · cases hs
    exact Ends.append h rfl
  · cases hs

theorem Tidy.listener {config : OneBotBackendConfig} {g g' : Shared} {t : Nat} {a : ListenerAct} {p q : Listener}
    (h : Tidy g) (hp : g.listeners[t]? = some p)
    (ha : ∀ r subscribed, a = .respond r subscribed → r.disconnects = false)
    (hs : p.step config g t a = some (g', q)) : Tidy { g' with listeners := g.listeners.set t q } := by
  unfold Listener.step at hs
  split at hs
  · cases hs
    exact Ends.goOn h hp rfl rfl fun hm => ProtocolEvent.noConfusion (List.mem_singleton.1 hm)
  · cases hs
    refine Ends.stay h hp ?_
    split <;> rfl
  · cases hs
    refine Ends.stay h hp ?_
    split <;> rfl
  · cases hs
    exact Ends.stay h hp rfl
  · rename_i r subscribed
    cases hs
    refine Ends.goOn h hp rfl ?_ (disconnected_notMem_handleResponse (ha r subscribed rfl))
    unfold afterSleep
    split <;> rfl
  · cases hs
    exact Ends.stay h hp rfl
  · cases hs
    exact Ends.close h hp rfl rfl List.not_mem_nil
  · cases hs
    exact Ends.stay h hp rfl
  · cases hs

theorem tidy_step (config : OneBotBackendConfig) (s : Sys) (e : Event) (s' : Sys) (h : Tidy s.shared)
    (hc : Polite s e) (hs : step config s e = some s') : Tidy s'.shared := by
  cases e with
  | start op =>
    obtain ⟨g, p, hr, rfl⟩ := Threads.step_start hs
    cases op <;> cases hr <;> exact h
  | act i a =>
    obtain ⟨p, g, q, -, hr, rfl⟩ := Threads.step_act hs
    exact h.act hr
  | env e =>
    obtain ⟨g, hr, rfl⟩ := Threads.step_env hs
    obtain ⟨t, a⟩ := e
    obtain ⟨p, g', q, hp, hstep, rfl⟩ := env_listener hr
    refine h.listener hp (fun r subscribed ha => ?_) hstep
    subst ha
    exact hc

end OneBotHttp

/-! ## QQ client -/

namespace QQBackend

open QQClient (QQClientError Packet)

theorem disconnected_notMem_handleReceived (subscribed : Bool) (r : Except QQClientError (Option Packet)) :
    .disconnected ∉ (handleReceived subscribed r).1 := by
  unfold handleReceived
  split
  · rename_i packet
    split
    · rename_i event he
      rw [List.mem_singleton]
      rintro rfl
      unfold decodeInboundPacket at he
      split at he
      · split at he <;> cases he
      all_goals cases he
    · exact List.not_mem_nil
    · exact fun hm => ProtocolEvent.noConfusion (List.mem_singleton.1 hm)
  · exact List.not_mem_nil
  · exact fun hm => ProtocolEvent.noConfusion (List.mem_singleton.1 hm)

theorem disconnected_notMem_iteration {l : Listener} {a : ListenerAct} {r : List ProtocolEvent × Iteration}
    (h : l.iteration a = some r) : .disconnected ∉ r.1 := by
  unfold Listener.iteration at h
  split at h
  · split at h <;> cases h <;> exact List.not_mem_nil
  · rename_i x subscribed
    split at h
    · cases h
      exact disconnected_notMem_handleReceived subscribed x
    · cases h

def Listener.closed (l : Listener) : Bool := l.pos = .ended

/-- A connect or disconnect that takes a handle to abort it finds the listener gone already. -/
def Unaborted (s : Sys) : Event → Prop
  | .act .go =>
    match s.queue with
    | .connect _ :: _ | .disconnect :: _ =>
      s.shared.listenTask.all (fun t => decide (s.shared.listeners[t]?.map Listener.pos = some .ended)) = true
    | _ => True
  | _ => True

instance (s : Sys) (e : Event) : Decidable (Unaborted s e) := by
  unfold Unaborted
  split
  · split <;> infer_instance
  · infer_instance

/-- A listener has left its loop or has been cancelled only with `Disconnected` as the last event it has
sent. -/
def SessionsEnd (s : Sys) : Prop :=
  ∀ (t : Nat) (l : Listener), s.shared.listeners[t]? = some l → l.inLoop = false →
    EndsWith .disconnected (sentBy t s.shared.notified)

structure Tidy (g : Shared) : Prop where
  ends : Ends .disconnected Listener.closed g.listeners g.notified
  running : ∀ l ∈ g.listeners, l.pos ≠ .aborted

theorem Tidy.abort {g : Shared} (h : Tidy g)
    (hc : g.listenTask.all (fun t => decide (g.listeners[t]?.map Listener.pos = some .ended)) = true) :
    Tidy g.abortListener := by
  unfold Shared.abortListener
  split
  · exact h
  · rename_i t ht
    rw [ht] at hc
    have hended : g.listeners[t]?.map Listener.pos = some .ended := of_decide_eq_true hc
    have hsame : g.listeners.modify t (fun l => { l with pos := l.pos.abort }) = g.listeners := by
      apply List.ext_getElem?
      intro u
      rw [List.getElem?_modify]
      split
      · rename_i hu
        subst hu
        obtain ⟨l, hl, hpos⟩ := Option.map_eq_some_iff.1 hended
        rw [hl]
        show some { l with pos := l.pos.abort } = some l
        rw [hpos]
        exact congrArg some (by cases l; cases hpos; rfl)
      · exact id_map _
    exact ⟨hsame.symm ▸ h.ends, hsame.symm ▸ h.running⟩

/-- A step that leaves the listeners and what they have sent alone. -/
theorem Tidy.keep {g g' : Shared} (h : Tidy g) (hl : g'.listeners = g.listeners) (hn : g'.notified = g.notified) :
    Tidy g' := by
  constructor
  · rw [hl, hn]; exact h.ends
  · rw [hl]; exact h.running

theorem Tidy.start {g : Shared} (h : Tidy g) (op : Op) : Tidy (start g op).1 := by
  cases op with
  | connect endpoint => exact h.keep rfl rfl
  | disconnect => exact h.keep rfl rfl
  | listen =>
    simp only [QQBackend.start]
    split
    · exact h
    · split
      · exact h
      · exact h.keep rfl rfl

theorem Tidy.act {s : Sys} {a : Act} {p : Pc} {rest : List Pc} {r : Shared × Next} (h : Tidy s.shared)
    (hc : Unaborted s (.act a)) (hq : s.queue = p :: rest) (hs : act s.shared p a = some r) : Tidy r.1 := by
  unfold QQBackend.act at hs
  split at hs
  · cases hs
    simp only [Unaborted, hq] at hc
    exact h.abort hc
  · cases hs; exact h.keep rfl rfl
  · split at hs <;> cases hs <;> exact h
  · cases hs; exact h
  · cases hs; exact h.keep rfl rfl
  · split at hs <;> cases hs <;> exact h.keep rfl rfl
  · cases hs; exact h.keep rfl rfl
  · cases hs; exact h
  · cases hs; exact h
  · cases hs
    simp only [Unaborted, hq] at hc
    exact h.abort hc
  · cases hs; exact h.keep rfl rfl
  · cases hs; exact h
  · cases hs
    refine ⟨h.ends.append rfl, Threads.forall_append h.running ?_⟩
    exact ListenerAt.noConfusion
  · cases hs

/-- A listener takes steps only in its loop, and `Disconnected` is what it sends when it leaves. -/
theorem Tidy.listener {g g' : Shared} {t : Nat} {a : ListenerAct} {l l' : Listener} (h : Tidy g)
    (hl : g.listeners[t]? = some l) (hs : l.step g t a = some (g', l')) :
    Tidy { g' with listeners := g.listeners.set t l' } := by
  obtain ⟨⟨events, i⟩, hi, hs⟩ := Option.map_eq_some_iff.1 hs
  have hin := inLoop_of_iteration hi
  have hclosed : l.closed = false := by
    unfold Listener.closed
    rw [decide_eq_false_iff_not]
    intro hpos
    rw [Listener.inLoop, hpos] at hin
    cases hin
  have hev : .disconnected ∉ events := disconnected_notMem_iteration hi
  cases hn : l.next g i with
  | some pos =>
    simp only [hn, Prod.mk.injEq] at hs
    obtain ⟨rfl, rfl⟩ := hs
    have hin' := next_inLoop hn
    refine ⟨h.ends.goOn hl hclosed ?_ hev, Threads.forall_set h.running fun ha => ?_⟩
    · unfold Listener.closed
      rw [decide_eq_false_iff_not]
      rintro rfl
      cases hin'
    · rw [Listener.inLoop, ha] at hin'
      cases hin'
  | none =>
    simp only [hn, Prod.mk.injEq] at hs
    obtain ⟨rfl, rfl⟩ := hs
    exact ⟨h.ends.close hl hclosed rfl hev, Threads.forall_set h.running ListenerAt.noConfusion⟩

theorem tidy_step (s : Sys) (e : Event) (s' : Sys) (h : Tidy s.shared) (hc : Unaborted s e) (hs : step s e = some s') :
    Tidy s'.shared := by
  cases e with
  | start op =>
    rw [Turns.shared_start hs]
    exact h.start op
  | act a =>
    obtain ⟨p, rest, r, hq, hr, rfl⟩ := Turns.step_act hs
    rw [Turns.after_shared]
    exact h.act hc hq hr
  | env e =>
    obtain ⟨g, hr, rfl⟩ := Turns.step_env hs
    obtain ⟨t, a⟩ := e
    obtain ⟨l, g', l', hl, hstep, rfl⟩ := env_listener hr
    exact h.listener hl hstep

theorem Tidy.sessionsEnd {s : Sys} (h : Tidy s.shared) : SessionsEnd s := by
  intro t l hl hin
  refine h.ends.closed t l hl ?_
  unfold Listener.inLoop at hin
  split at hin
  · rename_i hpos
    exact absurd hpos (h.running l (Threads.mem_of_get hl))
  · rename_i hpos
    exact decide_eq_true hpos
  · cases hin

end QQBackend

/-! ## Runs -/

/-- In every run of a OneBot backend in which no response carries a `Disconnected`, and in every run of
a QQ client backend that aborts no listener in its loop, a listener that has ended has sent
`Disconnected` once, as its last event. -/
theorem sessions_end (oneBot : OneBotBackendConfig) (qq : QQClientBackendConfig) :
    (∀ (es : List OneBotHttp.Event) (s : OneBotHttp.Sys),
      Run.Along (OneBotHttp.step oneBot) OneBotHttp.Polite OneBotHttp.init es →
      Run.exec (OneBotHttp.step oneBot) OneBotHttp.init es = some s → OneBotHttp.SessionsEnd s) ∧
    (∀ (es : List QQBackend.Event) (s : QQBackend.Sys),
      Run.Along QQBackend.step QQBackend.Unaborted (QQBackend.init qq) es →
      Run.exec QQBackend.step (QQBackend.init qq) es = some s → QQBackend.SessionsEnd s) := by
  constructor
  · intro es s hc hs
    have hinit : OneBotHttp.Tidy OneBotHttp.init.shared := Ends.nil
    have h : OneBotHttp.Tidy s.shared :=
      Run.exec_inv (I := fun s => OneBotHttp.Tidy s.shared) (OneBotHttp.tidy_step oneBot) es _ _ hinit hc hs
    exact fun t ht => h.closed t .ended ht rfl
  · intro es s hc hs
    have hinit : QQBackend.Tidy (QQBackend.init qq).shared := ⟨Ends.nil, fun l hl => by cases hl⟩
    have h : QQBackend.Tidy s.shared :=
      Run.exec_inv (I := fun s => QQBackend.Tidy s.shared) QQBackend.tidy_step es _ _ hinit hc hs
    exact h.sessionsEnd

/-- A OneBot session that ends with a disconnect. -/
def oneBotSession : List OneBotHttp.Event :=
  OneBotHttp.connects 0 ++ OneBotHttp.listens 1 ++ OneBotHttp.issues 0 ++ OneBotHttp.disconnects 2 ++
    [.env (.listener 0 (.respond (.failed "closed") true))] ++ OneBotHttp.issues 0

/-- A QQ session whose listener finds nobody listening, and a disconnect after it. -/
def qqSession : List QQBackend.Event :=
  [.start (.connect "")] ++ QQBackend.connects ++ [.start .listen] ++ QQBackend.listens ++
    [.env (.listener 0 .go), .env (.listener 0 (.received (.ok (some ⟨"system.error", "kicked"⟩)) false)),
      .start .disconnect] ++ QQBackend.disconnects

theorem sessions_end_unheard :
    (∃ s, Run.exec (OneBotHttp.step OneBotHttp.localBackend) OneBotHttp.init oneBotSession = some s ∧
      s.shared.listeners = [.ended] ∧ OneBotHttp.SessionsEnd s) ∧
    (∃ s, Run.exec QQBackend.step (QQBackend.init QQBackend.mockBackend) qqSession = some s ∧
      s.shared.listeners = [⟨150, .ended⟩] ∧ QQBackend.SessionsEnd s) := by
  constructor
  · have hk : (Run.exec (OneBotHttp.step OneBotHttp.localBackend) OneBotHttp.init oneBotSession).map
        (fun s => s.shared.listeners) = some [.ended] := by decide +kernel
    obtain ⟨s, hs, hk⟩ := Option.map_eq_some_iff.1 hk
    exact ⟨s, hs, hk, (sessions_end _ QQBackend.mockBackend).1 _ s (by decide +kernel) hs⟩
  · have hk : (Run.exec QQBackend.step (QQBackend.init QQBackend.mockBackend) qqSession).map
        (fun s => s.shared.listeners) = some [⟨150, .ended⟩] := by decide +kernel
    obtain ⟨s, hs, hk⟩ := Option.map_eq_some_iff.1 hk
    exact ⟨s, hs, hk, (sessions_end OneBotHttp.localBackend _).2 _ s (by decide +kernel) hs⟩

/-- A QQ session that a disconnect ends while the listener receives. -/
def abortedSession : List QQBackend.Event :=
  [.start (.connect "")] ++ QQBackend.connects ++ [.start .listen] ++ QQBackend.listens ++
    [.env (.listener 0 .go), .start .disconnect] ++ QQBackend.disconnects

/-- The listener is cancelled and has sent nothing. -/
theorem aborted_without_disconnected : ∃ s,
    Run.exec QQBackend.step (QQBackend.init QQBackend.mockBackend) abortedSession = some s ∧
      s.shared.listeners = [⟨150, .aborted⟩] ∧ ¬ QQBackend.SessionsEnd s := by
  have hk : (Run.exec QQBackend.step (QQBackend.init QQBackend.mockBackend) abortedSession).map
      (fun s => (s.shared.listeners, (sentBy 0 s.shared.notified).length)) = some ([⟨150, .aborted⟩], 0) := by
    decide +kernel
  obtain ⟨s, hs, hk⟩ := Option.map_eq_some_iff.1 hk
  obtain ⟨hl, hn⟩ := Prod.mk.injEq .. ▸ hk
  refine ⟨s, hs, hl, fun h => ?_⟩
  obtain ⟨before, hb, -⟩ := h 0 ⟨150, .aborted⟩ (by rw [hl]; rfl) rfl
  rw [hb, List.length_append] at hn
  cases hn

end NapCat
