/-
What comes in from the two backends. The packets that the listeners of the QQ client receive, and the responses that
those of the OneBot client poll, are followed to the plugins and to the sockets. Of another instance that is polled
nothing arrives but warnings.
-/
import NapCat.Api.ListenFormat
import NapCat.Api.Pipeline
import NapCat.Protocol.ListenItems
import NapCat.Protocol.QQDelivery

namespace NapCat

open Api
open QQClient (Packet packetOf)
open QQBackend.Feed (messageIn messageOf)

/-! ## Messages on their way -/

namespace Api.Pipeline

variable {S E : Type}

/-- What the plugins are given of a message. -/
def payload (m : Message) : Json := m.toJson.canon

/-- Of the messages fed by a backend the plugins are given each one once, in order, up to where the relay is. A socket
hears a stretch of them, woven with a stretch of those posted by requests, and is sent what is due for it. -/
structure Arrive (fed posted : List Message) (s : Pipeline S) : Prop where
  plugins : s.consumers.dispatched <+: fed.map payload
  pluginsAll : Idle s.consumers → s.consumers.dispatched = fed.map payload
  heard : ∀ (i : Nat) (w : Ws) (r : Subscriber), s.consumers.sockets[i]? = some w → s.subscribers.seen[i]? = some r →
    Heard (r.start = 0) (Idle s.consumers ∧ w.next = s.consumers.bus.length) fed posted
      ((r.heard.map Prod.snd).filterMap messageIn)
  written : ∀ (i : Nat) (w : Ws) (r : Subscriber), s.consumers.sockets[i]? = some w →
    s.subscribers.seen[i]? = some r →
    ∃ lost, r.written ++ lost = Subscribers.due w r ∧ lost.length ≤ 1 ∧ (w.pc = .receiving → lost = [])

theorem filterMap_pluginPayload (events : List ProtocolEvent) :
    events.filterMap pluginPayload = (events.filterMap messageIn).map payload := by
  have hpayload : pluginPayload = fun event => (messageIn event).map payload := by
    funext event
    cases event <;> rfl
  rw [hpayload, List.map_filterMap]

theorem inHand_idle {c : Consumers} (h : Idle c) : inHand c = [] := by rw [inHand, h.1]

/-- What the steps of a backend send is fed; what requests publish is posted. -/
theorem arrive {b : Backend S E} {out : E → List Message}
    (hout : ∀ x e x', b.step x e = some x' →
      (b.notified x').filterMap messageIn = (b.notified x).filterMap messageIn ++ out e)
    {es : List (Event E)} {s : Pipeline S} (hs : Run.exec (step b) (init b) es = some s) :
    Arrive (es.flatMap (ofBackend out)) ((es.flatMap posted).filterMap messageIn) s := by
  have hinv := run_inv hs
  have hfed : (b.notified s.backend).filterMap messageIn = es.flatMap (ofBackend out) := exec_notified hout hs
  obtain ⟨hrelayed, hdispatched, -, hidle⟩ := hinv.carried
  rw [filterMap_pluginPayload] at hdispatched
  refine ⟨?_, fun hi => ?_, fun i w r hw hr => ?_, fun i w r hw hr => (hinv.sentTo hw hr).written⟩
  · rw [hdispatched, ← hfed]
    exact (hrelayed.filterMap messageIn).map payload
  · rw [hdispatched, inHand_idle hi, List.append_nil, hidle hi, hfed]
  · rw [← hfed, ← exec_requested hs]
    exact (hinv.sentTo hw hr).heard.filterMap messageIn

end Api.Pipeline

/-! ## The QQ client -/

namespace QQBackend

/-- The packet that a listener receives. -/
def receivedPacket : Event → Option Packet
  | .env (.listener _ (.received r _)) => packetOf r
  | _ => none

/-- Whether a packet that is received finds a receiver on notify. -/
def subscribedAt : Event → Option Bool
  | .env (.listener _ (.received _ subscribed)) => some subscribed
  | _ => none

theorem abortListener_notified (g : Shared) : g.abortListener.notified = g.notified := by
  unfold Shared.abortListener
  split <;> rfl

theorem start_notified (g : Shared) (op : Op) : (start g op).1.notified = g.notified := by
  cases op with
  | connect endpoint => rfl
  | disconnect => rfl
  | listen =>
    rw [start]
    split_ifs <;> rfl

theorem act_notified {g g' : Shared} {p : Pc} {a : Act} {next : Next} (h : act g p a = some (g', next)) :
    g'.notified = g.notified := by
  unfold act at h
  split at h
  · cases h
    exact abortListener_notified g
  · cases h
    rfl
  · split at h <;> cases h <;> rfl
  · cases h
    rfl
  · cases h
    rfl
  · split at h <;> cases h <;> rfl
  · cases h
    rfl
  · cases h
    rfl
  · cases h
    rfl
  · cases h
    exact abortListener_notified g
  · cases h
    rfl
  · cases h
    rfl
  · cases h
    rfl
  · cases h

/-- The messages that one receive sends, whether they find a receiver or not. -/
theorem messages_handleReceived (subscribed : Bool) (r : Received) :
    (handleReceived subscribed r).1.filterMap messageIn = (packetOf r).toList.filterMap messageOf := by
  have hsame : (handleReceived subscribed r).1 = (handleReceived true r).1 := by
    unfold handleReceived
    split
    · split <;> rfl
    · rfl
    · rfl
  rw [hsame, (Feed.handleReceived_expected r).1, Feed.messages_expected]

/-- A step sends only what a listener sends in it: of the messages that of the packet received, if it is one. -/
theorem step_notified {s s' : Sys} {e : Event} (h : step s e = some s') : ∃ sent,
    s'.shared.notified = s.shared.notified ++ sent ∧
      (sent.map Prod.snd).filterMap messageIn = (receivedPacket e).toList.filterMap messageOf := by
  cases e with
  | start op =>
    refine ⟨[], ?_, rfl⟩
    rw [Turns.shared_start h, List.append_nil]
    exact start_notified s.shared op
  | act a =>
    obtain ⟨p, rest, ⟨g, next⟩, -, ha, rfl⟩ := Turns.step_act h
    refine ⟨[], ?_, rfl⟩
    rw [Turns.after_shared, List.append_nil]
    exact act_notified ha
  | env e =>
    obtain ⟨g, he, rfl⟩ := Turns.step_env h
    obtain ⟨t, a⟩ := e
    obtain ⟨l, g₁, l', -, hs, rfl⟩ := env_listener he
    obtain ⟨⟨events, i⟩, hi, hs⟩ := Option.map_eq_some_iff.1 hs
    have hmessages : events.filterMap messageIn =
        (receivedPacket (.env (.listener t a))).toList.filterMap messageOf := by
      cases a with
      | go =>
        cases Feed.iteration_go hi
        rfl
      | received r subscribed =>
        have hr : (events, i) = handleReceived subscribed r := by
          unfold Listener.iteration at hi
          dsimp only at hi
          split at hi
          · exact (Option.some.inj hi).symm
          · cases hi
        rw [show events = (handleReceived subscribed r).1 from congrArg Prod.fst hr]
        exact messages_handleReceived subscribed r
    have hsnd : ∀ evs : List ProtocolEvent, (evs.map (t, ·)).map Prod.snd = evs := fun evs => by
      rw [List.map_map]
      exact List.map_id _
    dsimp only at hs
    split at hs
    · cases hs
      exact ⟨_, rfl, (congrArg _ (hsnd _)).trans hmessages⟩
    · cases hs
      refine ⟨_, rfl, ?_⟩
      rw [hsnd, List.filterMap_append, hmessages]
      exact List.append_nil _

/-- The backend, as it feeds the channel of an `ApiState`. -/
def backend (config : QQClientBackendConfig) : Backend Sys Event where
  init := init config
  step := step
  notified s := s.shared.notified.map Prod.snd
  subscribed := subscribedAt
  silent := rfl
  grows h := by
    obtain ⟨sent, hsent, -⟩ := step_notified h
    rw [hsent, List.map_append]
    exact List.prefix_append _ _

theorem backend_messages (config : QQClientBackendConfig) (x : Sys) (e : Event) (x' : Sys)
    (h : (backend config).step x e = some x') : ((backend config).notified x').filterMap messageIn =
      ((backend config).notified x).filterMap messageIn ++ (receivedPacket e).toList.filterMap messageOf := by
  obtain ⟨sent, hsent, hmessages⟩ := step_notified h
  show (x'.shared.notified.map Prod.snd).filterMap messageIn = _
  rw [hsent, List.map_append, List.filterMap_append, hmessages]
  rfl

/-- The packets received in a run: their messages, in the order in which the listeners got them, whoever connects and
disconnects in between, are given to the plugins and sent to the sockets. -/
theorem packets_arrive {config : QQClientBackendConfig} {es : List (Pipeline.Event Event)} {s : Pipeline Sys}
    (hs : Run.exec (Pipeline.step (backend config)) (Pipeline.init (backend config)) es = some s) :
    Pipeline.Arrive (es.flatMap (Pipeline.ofBackend fun e => (receivedPacket e).toList.filterMap messageOf))
      ((es.flatMap Pipeline.posted).filterMap messageIn) s :=
  Pipeline.arrive (backend_messages config) hs

/-- A packet and a request, to a socket that is open from the start. -/
def onePacket : List (Pipeline.Event Event) :=
  [.start (.connect ""), .act .go, .act .go, .act .go, .act .go, .act .go, .act (.client (.ok ())), .start .listen,
    .act .go, .act .go, .env (.listener 0 .go),
    .env (.listener 0 (.received
      (.ok (some ⟨"message.received", encodeJson (.ofText "m1" "alice" (.group "g1") "hi")⟩)) true))].map .backend ++
  [.wsOpen none, .publish (.messageReceived (.ofText "m2" "api" (.group "g1") "ho")), .relayRecv, .relayDispatched,
    .wsRecv 0 (some 7), .wsSent 0 true, .wsRecv 0 (some 7), .wsSent 0 true].map .api

theorem packets_arrive_onePacket : ∃ s, Run.exec (Pipeline.step (backend { endpoint := "mock://localhost" }))
      (Pipeline.init (backend { endpoint := "mock://localhost" })) onePacket = some s ∧
    s.subscribers.seen.map (fun r => r.written.length) = [2] ∧
    Pipeline.Arrive (onePacket.flatMap (Pipeline.ofBackend fun e => (receivedPacket e).toList.filterMap messageOf))
      ((onePacket.flatMap Pipeline.posted).filterMap messageIn) s := by
  have hk : (Run.exec (Pipeline.step (backend { endpoint := "mock://localhost" }))
      (Pipeline.init (backend { endpoint := "mock://localhost" })) onePacket).map
        (fun s => s.subscribers.seen.map fun r => r.written.length) = some [2] := by
    decide +kernel
  obtain ⟨s, hs, hk⟩ := Option.map_eq_some_iff.1 hk
  exact ⟨s, hs, hk, packets_arrive hs⟩

end QQBackend

/-! ## The OneBot client -/

namespace OneBotHttp

/-- What a listener sends for a response. -/
def respondedWith : Event → List ProtocolEvent
  | .env (.listener _ (.respond r subscribed)) => (handleResponse subscribed r).1
  | _ => []

/-- Whether what a response carries finds a receiver on notify. -/
def subscribedAt : Event → Option Bool
  | .env (.listener _ (.respond _ subscribed)) => some subscribed
  | _ => none

theorem act_notified {g g' : Shared} {p q : Pc} {a : Act} (h : act g p a = some (g', q)) :
    g'.notified = g.notified := by
  unfold act at h
  split at h
  · split at h <;> cases h <;> rfl
  all_goals
    cases h
    try rfl

/-- A step sends only what a listener sends in it: its greeting, what a response gives, or its farewell. -/
theorem step_notified {config : OneBotBackendConfig} {s s' : Sys} {e : Event} (h : step config s e = some s') :
    ∃ t sent, s'.shared.notified = s.shared.notified ++ sent.map (t, ·) ∧
      (sent = respondedWith e ∨
        respondedWith e = [] ∧ (sent = [.connected config.baseUrl] ∨ sent = [.disconnected])) := by
  cases e with
  | start op =>
    obtain ⟨g, p, hb, rfl⟩ := Threads.step_start h
    refine ⟨0, [], ?_, .inl rfl⟩
    rw [List.map_nil, List.append_nil]
    cases op <;> cases hb <;> rfl
  | act i a =>
    obtain ⟨p, g, q, -, ha, rfl⟩ := Threads.step_act h
    refine ⟨0, [], ?_, .inl rfl⟩
    rw [List.map_nil, List.append_nil]
    exact act_notified ha
  | env e =>
    obtain ⟨g, he, rfl⟩ := Threads.step_env h
    obtain ⟨t, a⟩ := e
    obtain ⟨l, g₁, q, -, hs, rfl⟩ := env_listener he
    refine ⟨t, ?_⟩
    unfold Listener.step at hs
    split at hs
    · cases hs
      exact ⟨_, rfl, .inr ⟨rfl, .inl rfl⟩⟩
    · cases hs
      exact ⟨[], (List.append_nil _).symm, .inl rfl⟩
    · cases hs
      exact ⟨[], (List.append_nil _).symm, .inl rfl⟩
    · cases hs
      exact ⟨[], (List.append_nil _).symm, .inl rfl⟩
    · cases hs
      exact ⟨_, rfl, .inl rfl⟩
    · cases hs
      exact ⟨[], (List.append_nil _).symm, .inl rfl⟩
    · cases hs
      exact ⟨_, rfl, .inr ⟨rfl, .inr rfl⟩⟩
    · cases hs
      exact ⟨[], (List.append_nil _).symm, .inl rfl⟩
    · cases hs

/-- The backend, as it feeds the channel of an `ApiState`. -/
def backend (config : OneBotBackendConfig) : Backend Sys Event where
  init := init
  step := step config
  notified s := s.shared.notified.map Prod.snd
  subscribed := subscribedAt
  silent := rfl
  grows h := by
    obtain ⟨t, sent, hsent, -⟩ := step_notified h
    rw [hsent, List.map_append]
    exact List.prefix_append _ _

/-- Greetings and farewells aside, what the listeners send is what their responses give. -/
theorem backend_picks {β : Type} {f : ProtocolEvent → Option β} (hgreeting : ∀ url, f (.connected url) = none)
    (hfarewell : f .disconnected = none) (config : OneBotBackendConfig) (x : Sys) (e : Event) (x' : Sys)
    (h : (backend config).step x e = some x') : ((backend config).notified x').filterMap f =
      ((backend config).notified x).filterMap f ++ (respondedWith e).filterMap f := by
  obtain ⟨t, sent, hsent, hcases⟩ := step_notified h
  have hpick : sent.filterMap f = (respondedWith e).filterMap f := by
    rcases hcases with rfl | ⟨he, rfl | rfl⟩
    · rfl
    · rw [he, List.filterMap_cons, hgreeting]
    · rw [he, List.filterMap_cons, hfarewell]
  have hsnd : (sent.map (t, ·)).map Prod.snd = sent := by
    rw [List.map_map]
    exact List.map_id _
  show (x'.shared.notified.map Prod.snd).filterMap f = _
  rw [hsent, List.map_append, List.filterMap_append, hsnd, hpick]
  rfl

/-- The responses polled in a run: the messages of their items, in the order in which the listeners got them, whoever
connects and disconnects in between, are given to the plugins and sent to the sockets. -/
theorem responses_arrive {config : OneBotBackendConfig} {es : List (Pipeline.Event Event)} {s : Pipeline Sys}
    (hs : Run.exec (Pipeline.step (backend config)) (Pipeline.init (backend config)) es = some s) :
    Pipeline.Arrive (es.flatMap (Pipeline.ofBackend fun e => (respondedWith e).filterMap messageIn))
      ((es.flatMap Pipeline.posted).filterMap messageIn) s :=
  Pipeline.arrive (backend_picks (fun _ => rfl) rfl config) hs

/-- A connect, and a listener that polls once. -/
def onePoll (r : HttpResponse) : List (Pipeline.Event Event) :=
  [.start (.connect ""), .act 0 (.respond (.body .null)), .act 0 .go, .act 0 .go, .start .listen, .act 1 .go,
    .act 1 .go, .env (.listener 0 .go), .env (.listener 0 .go), .env (.listener 0 .go), .env (.listener 0 .go),
    .env (.listener 0 (.respond r true))].map .backend

theorem onePoll_run (r : HttpResponse) : (Run.exec (Pipeline.step (backend ⟨"http://b", none, 600, 8⟩))
    (Pipeline.init (backend ⟨"http://b", none, 600, 8⟩)) (onePoll r)).isSome := rfl

theorem responses_arrive_onePoll : ∃ s,
    Run.exec (Pipeline.step (backend ⟨"http://b", none, 600, 8⟩)) (Pipeline.init (backend ⟨"http://b", none, 600, 8⟩))
      (onePoll (.body (.obj [("data", .arr [.str "x"])]))) = some s ∧
    Pipeline.Arrive ((onePoll (.body (.obj [("data", .arr [.str "x"])]))).flatMap
      (Pipeline.ofBackend fun e => (respondedWith e).filterMap messageIn)) [] s := by
  obtain ⟨s, hs⟩ := Option.isSome_iff_exists.1 (onePoll_run (.body (.obj [("data", .arr [.str "x"])])))
  exact ⟨s, hs, responses_arrive hs⟩

/-! ## Another instance polled -/

/-- A response of the `/message/listen` route of another instance, or none of it. -/
def FromInstance : HttpResponse → Prop
  | .body raw => ∃ events, .ofBody (listenBody (records events)) = HttpResponse.body raw
  | _ => True

/-- How many warnings a response costs: one for each record, or one for the response. -/
def cost : HttpResponse → Nat
  | .body raw => (OneBotListenEnvelope.fromJson raw).data.length
  | _ => 1

def warningIn : ProtocolEvent → Option String
  | .warning text => some text
  | _ => none

/-- Items that do not decode are warned of, one by one. -/
theorem notifyItems_undecoded {subscribed : Bool} : ∀ {items : List Json},
    (∀ raw ∈ items, ∃ e, decodeItem raw = .error e) →
    ((notifyItems subscribed items).filterMap warningIn).length = items.length ∧
      (notifyItems subscribed items).filterMap messageIn = []
  | [], _ => ⟨rfl, rfl⟩
  | raw :: rest, h => by
    obtain ⟨e, he⟩ := h raw List.mem_cons_self
    have hrest : ∀ x ∈ rest, ∃ e, decodeItem x = .error e := fun x hx => h x (List.mem_cons_of_mem raw hx)
    obtain ⟨hlen, hnone⟩ := @notifyItems_undecoded subscribed rest hrest
    rw [notifyItems, he]
    exact ⟨congrArg (· + 1) hlen, hnone⟩

/-- The body of an instance's answer has its records for items. -/
theorem data_of_body {events : List (Option UInt64 × ProtocolEvent)} {raw : Json}
    (h : HttpResponse.ofBody (listenBody (records events)) = .body raw) :
    (OneBotListenEnvelope.fromJson raw).data = (records events).map .str := by
  have hread := fromJson_listenBody (records events)
  unfold HttpResponse.ofBody at h
  split at h
  · rename_i x hx
    cases h
    rw [hx] at hread
    exact Except.ok.inj hread
  · cases h

theorem ofBody_listenBody (events : List (Option UInt64 × ProtocolEvent)) :
    ∃ raw, HttpResponse.ofBody (listenBody (records events)) = .body raw := by
  have hread := fromJson_listenBody (records events)
  unfold HttpResponse.ofBody
  cases hx : Json.ofText (listenBody (records events)) with
  | ok raw => exact ⟨raw, rfl⟩
  | error e =>
    rw [hx] at hread
    cases hread

theorem fromInstance_ofBody (events : List (Option UInt64 × ProtocolEvent)) :
    FromInstance (.ofBody (listenBody (records events))) := by
  obtain ⟨raw, hraw⟩ := ofBody_listenBody events
  rw [hraw]
  exact ⟨events, hraw⟩

theorem cost_ofBody (events : List (Option UInt64 × ProtocolEvent)) :
    cost (.ofBody (listenBody (records events))) = (records events).length := by
  obtain ⟨raw, hraw⟩ := ofBody_listenBody events
  rw [hraw, cost, data_of_body hraw, List.length_map]

theorem handleResponse_fromInstance {r : HttpResponse} (h : FromInstance r) (subscribed : Bool) :
    ((handleResponse subscribed r).1.filterMap warningIn).length = cost r ∧
      (handleResponse subscribed r).1.filterMap messageIn = [] := by
  cases r with
  | failed e | nonSuccess status | badBody e => exact ⟨rfl, rfl⟩
  | body raw =>
    obtain ⟨events, hraw⟩ := h
    refine notifyItems_undecoded fun item hitem => ?_
    rw [data_of_body hraw] at hitem
    obtain ⟨text, htext, rfl⟩ := List.mem_map.1 hitem
    exact decodeItem_record htext

/-- The response that a step gets. -/
def responseIn : Pipeline.Event Event → Option HttpResponse
  | .backend (.env (.listener _ (.respond r _))) => some r
  | _ => none

theorem messages_fromInstance {e : Pipeline.Event Event} (h : ∀ r ∈ responseIn e, FromInstance r) :
    Pipeline.ofBackend (fun e => (respondedWith e).filterMap messageIn) e = [] ∧
      (Pipeline.ofBackend (fun e => (respondedWith e).filterMap warningIn) e).length =
        ((responseIn e).map cost).getD 0 := by
  unfold responseIn at h ⊢
  split
  · rename_i t r subscribed
    obtain ⟨hcost, hnone⟩ := handleResponse_fromInstance (h r rfl) subscribed
    exact ⟨hnone, hcost⟩
  · rename_i hother
    cases e with
    | api e => exact ⟨rfl, rfl⟩
    | backend e =>
      have hsilent : respondedWith e = [] := by
        unfold respondedWith
        split
        · exact absurd rfl (hother _ _ _)
        · rfl
      simp only [Pipeline.ofBackend, hsilent]
      exact ⟨rfl, rfl⟩

/-- Polling another instance brings nothing but warnings: no message reaches the plugins or, unless a request has posted
it, a socket, and there are as many warnings as records in the responses and responses without records to read. -/
theorem polled_warnings {config : OneBotBackendConfig} {es : List (Pipeline.Event Event)} {s : Pipeline Sys}
    (hs : Run.exec (Pipeline.step (backend config)) (Pipeline.init (backend config)) es = some s)
    (h : ∀ r ∈ es.filterMap responseIn, FromInstance r) :
    s.consumers.dispatched = [] ∧ s.relayed.filterMap messageIn = [] ∧
      (∀ (i : Nat) (w : Ws) (r : Subscriber), s.consumers.sockets[i]? = some w → s.subscribers.seen[i]? = some r →
        (r.heard.map Prod.snd).filterMap messageIn <:+: (es.flatMap Pipeline.posted).filterMap messageIn) ∧
      (((backend config).notified s.backend).filterMap warningIn).length =
        ((es.filterMap responseIn).map cost).sum := by
  have hall : ∀ e ∈ es, ∀ r ∈ responseIn e, FromInstance r := fun e he r hr =>
    h r (List.mem_filterMap.2 ⟨e, he, hr⟩)
  have hfed : es.flatMap (Pipeline.ofBackend fun e => (respondedWith e).filterMap messageIn) = [] :=
    List.flatMap_eq_nil_iff.2 fun e he => (messages_fromInstance (hall e he)).1
  have harrive := responses_arrive hs
  rw [hfed] at harrive
  refine ⟨List.prefix_nil.1 harrive.plugins, ?_, fun i w r hw hr => ?_, ?_⟩
  · have hnone := Pipeline.exec_notified (backend_picks (f := messageIn) (fun _ => rfl) rfl config) hs
    rw [hfed] at hnone
    have hrelayed := (Pipeline.run_inv hs).carried.relayed.filterMap messageIn
    rw [hnone, List.prefix_nil, List.filterMap_append] at hrelayed
    exact (List.append_eq_nil_iff.1 hrelayed).1
  · obtain ⟨before, on, after, before', on', after', hnil, hposted, hon, -, -⟩ := harrive.heard i w r hw hr
    obtain ⟨hnil, -⟩ := List.append_eq_nil_iff.1 hnil.symm
    rw [hon.eq_of_nil (List.append_eq_nil_iff.1 hnil).2, hposted]
    exact ⟨before', after', rfl⟩
  · rw [Pipeline.exec_notified (backend_picks (f := warningIn) (fun _ => rfl) rfl config) hs]
    clear hs h hfed harrive
    induction es with
    | nil => rfl
    | cons e es ih =>
      obtain ⟨he, hrest⟩ := List.forall_mem_cons.1 hall
      rw [List.flatMap_cons, List.length_append, ih hrest, (messages_fromInstance he).2, List.filterMap_cons]
      cases responseIn e with
      | none => exact Nat.zero_add _
      | some r => rfl

/-- Another instance has received a message. -/
def oneMessage : List (Option UInt64 × ProtocolEvent) :=
  [(some 7, .messageReceived (.ofText "m1" "alice" (.group "g1") "hi"))]

theorem onePoll_responses (r : HttpResponse) : (onePoll r).filterMap responseIn = [r] := rfl

theorem onePoll_fromInstance (events : List (Option UInt64 × ProtocolEvent)) :
    ∀ r ∈ (onePoll (.ofBody (listenBody (records events)))).filterMap responseIn, FromInstance r := by
  intro r hr
  rw [onePoll_responses, List.mem_singleton] at hr
  rw [hr]
  exact fromInstance_ofBody events

theorem polled_warnings_onePoll : ∃ s, Run.exec (Pipeline.step (backend ⟨"http://b", none, 600, 8⟩))
      (Pipeline.init (backend ⟨"http://b", none, 600, 8⟩))
      (onePoll (.ofBody (listenBody (records oneMessage)))) = some s ∧ s.consumers.dispatched = [] ∧
    (((backend ⟨"http://b", none, 600, 8⟩).notified s.backend).filterMap warningIn).length = 1 := by
  obtain ⟨s, hs⟩ := Option.isSome_iff_exists.1 (onePoll_run (.ofBody (listenBody (records oneMessage))))
  obtain ⟨hplugins, -, -, hwarnings⟩ := polled_warnings hs (onePoll_fromInstance oneMessage)
  rw [onePoll_responses, List.map_singleton, List.sum_singleton, cost_ofBody] at hwarnings
  exact ⟨s, hs, hplugins, hwarnings⟩

end OneBotHttp

end NapCat
