/-
From a protocol backend to the sockets. The listeners of the backend send to the protocol channel, the relay task takes
what it receives to the plugins and to the bus, requests publish on the bus too, and the sockets are sent what they
accept. Whatever the order of all these steps, nothing on the way is invented, doubled or overtaken.
-/
import NapCat.Api.Subscribers
import NapCat.Lib.Woven

namespace NapCat.Api

/-- A backend as its listeners use the channel they are given: its steps and what they have sent so far. -/
structure Backend (S E : Type) where
  init : S
  step : S → E → Option S
  notified : S → List ProtocolEvent
  /-- whether the channel has a receiver, where the outcome of a send depends on it -/
  subscribed : E → Option Bool
  silent : notified init = []
  grows : ∀ {s e s'}, step s e = some s' → notified s <+: notified s'

/-- The backend, the channels and their consumers, and what the relay and the requests have published. -/
structure Pipeline (S : Type) where
  backend : S
  subscribers : Subscribers := {}
  relayed : List ProtocolEvent := []
  requested : List ProtocolEvent := []

namespace Pipeline

variable {S E : Type}

/-- A step of the backend, or one of the consumers and of the other users of the bus. -/
inductive Event (E : Type)
  | backend (e : E)
  | api (e : Consumers.Event)

abbrev consumers (s : Pipeline S) : Consumers := s.subscribers.consumers

/-- Without its relay the channel has no receiver, and what is sent is dropped. -/
def sendAll (c : Consumers) (events : List ProtocolEvent) : Consumers :=
  if c.relay.live then { c with protocolEvents := c.protocolEvents ++ events } else c

def isSend : Consumers.Event → Bool
  | .send _ => true
  | _ => false

/-- What a step publishes for a request. -/
def requests : Consumers.Event → List ProtocolEvent
  | .publish event => [event]
  | _ => []

/-- What a step publishes for the relay: all else that it puts on the bus. -/
def relays (c c' : Consumers) : Consumers.Event → List ProtocolEvent
  | .publish _ => []
  | _ => c'.bus.drop c.bus.length

/-- The backend is the only one to send to the protocol channel, and a listener that sends holds it open. -/
def step (b : Backend S E) (s : Pipeline S) : Event E → Option (Pipeline S)
  | .backend e => (b.step s.backend e).bind fun backend =>
      let events := (b.notified backend).drop (b.notified s.backend).length
      if (b.subscribed e).all (· == s.consumers.relay.live) && (s.consumers.protocolOpen || events.isEmpty) then
        some { s with
          backend := backend
          subscribers := { s.subscribers with consumers := sendAll s.consumers events } }
      else none
  | .api e =>
    if isSend e then none else (Subscribers.step s.subscribers e).map fun subscribers =>
      { s with
        subscribers := subscribers
        relayed := s.relayed ++ relays s.consumers subscribers.consumers e
        requested := s.requested ++ requests e }

def init (b : Backend S E) : Pipeline S := { backend := b.init }

/-- A step of the backend, and the events it sends. -/
theorem step_backend {b : Backend S E} {s s' : Pipeline S} {e : E} (hs : step b s (.backend e) = some s') :
    ∃ x events, b.step s.backend e = some x ∧ b.notified x = b.notified s.backend ++ events ∧
      s' = { s with
        backend := x
        subscribers := { s.subscribers with consumers := sendAll s.consumers events } } := by
  obtain ⟨x, hx, hs⟩ := Option.bind_eq_some_iff.1 hs
  obtain ⟨-, hs⟩ := Option.ite_none_right_eq_some.1 hs
  obtain ⟨events, hgrown⟩ := b.grows hx
  rw [← hgrown, List.drop_left] at hs
  exact ⟨x, events, hx, hgrown.symm, (Option.some.inj hs).symm⟩

theorem step_api {b : Backend S E} {s s' : Pipeline S} {e : Consumers.Event} (hs : step b s (.api e) = some s') :
    ∃ subscribers, isSend e = false ∧ Subscribers.step s.subscribers e = some subscribers ∧
      s' = { s with
        subscribers := subscribers
        relayed := s.relayed ++ relays s.consumers subscribers.consumers e
        requested := s.requested ++ requests e } := by
  obtain ⟨he, hs⟩ := Option.ite_none_left_eq_some.1 hs
  obtain ⟨subscribers, hsub, rfl⟩ := Option.map_eq_some_iff.1 hs
  exact ⟨subscribers, Bool.eq_false_iff.2 he, hsub, rfl⟩

/-! ## What the relay keeps -/

/-- The event that the relay has received and not yet published. -/
def inHand (c : Consumers) : List ProtocolEvent :=
  match c.relay with
  | .dispatching event => [event]
  | _ => []

/-- What the plugins are given of an event. -/
def pluginPayload : ProtocolEvent → Option Json
  | .messageReceived m => some m.toJson.canon
  | _ => none

/-- What a step other than a send does for the relay and the bus. -/
inductive RelayStep (c : Consumers) : Consumers.Event → Consumers → Prop
  | takes (event : ProtocolEvent) (hpc : c.relay = .receiving) (hget : c.protocolEvents[c.relayNext]? = some event) :
    RelayStep c .relayRecv (c.relayTake event)
  | leaves (hpc : c.relay = .receiving) : RelayStep c .relayRecv { c with relay := .exited }
  | publishes (event : ProtocolEvent) (hpc : c.relay = .dispatching event) :
    RelayStep c .relayDispatched (c.relayPublish event)
  | request (event : ProtocolEvent) : RelayStep c (.publish event) { c with bus := c.bus ++ [event] }
  | aside {e : Consumers.Event} {c' : Consumers} (he : ∀ event, e ≠ .publish event)
    (hevents : c'.protocolEvents = c.protocolEvents) (hrelay : c'.relay = c.relay)
    (hnext : c'.relayNext = c.relayNext) (hdispatched : c'.dispatched = c.dispatched) (hbus : c'.bus = c.bus) :
    RelayStep c e c'

theorem relayStep {c c' : Consumers} {e : Consumers.Event} (he : isSend e = false) (hs : c.step e = some c') :
    RelayStep c e c' := by
  cases e with
  | send event => cases he
  | relayRecv =>
    simp only [Consumers.step] at hs
    split at hs
    · rename_i hpc
      split at hs
      · rename_i event n hv
        cases hs
        exact .takes event hpc (Broadcast.recv_value hv).1
      · cases hs
        exact .leaves hpc
      · cases hs
        exact .leaves hpc
      · cases hs
    · cases hs
  | relayDispatched =>
    simp only [Consumers.step] at hs
    split at hs
    · rename_i event hpc
      cases hs
      exact .publishes event hpc
    · cases hs
  | publish event =>
    simp only [Consumers.step, Option.ite_none_right_eq_some, Option.some.injEq] at hs
    obtain ⟨-, rfl⟩ := hs
    exact .request event
  | dropProtocolSenders | wsOpen types =>
    cases hs
    exact .aside (fun _ => Consumers.Event.noConfusion) rfl rfl rfl rfl rfl
  | dropBusSenders =>
    simp only [Consumers.step, Option.ite_none_right_eq_some, Option.some.injEq] at hs
    obtain ⟨-, rfl⟩ := hs
    exact .aside (fun _ => Consumers.Event.noConfusion) rfl rfl rfl rfl rfl
  | wsRecv i time | wsSent i ok =>
    obtain ⟨w, -, hs⟩ := Option.bind_eq_some_iff.1 hs
    obtain ⟨w', -, rfl⟩ := Option.map_eq_some_iff.1 hs
    exact .aside (fun _ => Consumers.Event.noConfusion) rfl rfl rfl rfl rfl
  | wsBroken i =>
    obtain ⟨w, -, rfl⟩ := Option.map_eq_some_iff.1 hs
    exact .aside (fun _ => Consumers.Event.noConfusion) rfl rfl rfl rfl rfl

/-- The relay has published, in order, what it has received but for the event in hand, and has given the plugins the
messages; the bus is what the relay and the requests have published. -/
structure Relays (c : Consumers) (relayed requested : List ProtocolEvent) : Prop where
  le : c.relayNext ≤ c.protocolEvents.length
  inOrder : relayed ++ inHand c = c.protocolEvents.take c.relayNext
  dispatched : c.dispatched = (c.protocolEvents.take c.relayNext).filterMap pluginPayload
  woven : Woven relayed requested c.bus

/-- Received by the relay: one more event of the channel. -/
theorem Relays.take {c : Consumers} {relayed requested : List ProtocolEvent} {event : ProtocolEvent}
    (h : Relays c relayed requested) (hpc : c.relay = .receiving)
    (hget : c.protocolEvents[c.relayNext]? = some event) :
    Relays (c.relayTake event) (relayed ++ (c.relayTake event).bus.drop c.bus.length) requested := by
  have htake : c.protocolEvents.take (c.relayNext + 1) = c.protocolEvents.take c.relayNext ++ [event] := by
    rw [List.take_add_one, hget, Option.toList_some]
  have hidle : inHand c = [] := by rw [inHand, hpc]
  have hrelayed := h.inOrder
  rw [hidle, List.append_nil] at hrelayed
  have hlt : c.relayNext < c.protocolEvents.length := (List.getElem?_eq_some_iff.1 hget).1
  -- all but a message goes straight to the bus
  have hdirect : pluginPayload event = none →
      Relays ({ c with relayNext := c.relayNext + 1 }.relayPublish event)
        (relayed ++ (c.bus ++ [event]).drop c.bus.length) requested := by
    intro hnone
    rw [List.drop_left]
    refine ⟨hlt, ?_, ?_, h.woven.left event⟩
    · show relayed ++ [event] ++ [] = c.protocolEvents.take (c.relayNext + 1)
      rw [htake, hrelayed, List.append_nil]
    · show c.dispatched = (c.protocolEvents.take (c.relayNext + 1)).filterMap pluginPayload
      rw [htake, List.filterMap_append, List.filterMap_cons, hnone, h.dispatched]
      simp
  cases event with
  | messageReceived m =>
    show Relays _ (relayed ++ c.bus.drop c.bus.length) requested
    rw [List.drop_length, List.append_nil]
    refine ⟨hlt, ?_, ?_, h.woven⟩
    · show relayed ++ [.messageReceived m] = c.protocolEvents.take (c.relayNext + 1)
      rw [htake, hrelayed]
    · show c.dispatched ++ [m.toJson.canon] = (c.protocolEvents.take (c.relayNext + 1)).filterMap pluginPayload
      rw [htake, List.filterMap_append, h.dispatched]
      rfl
  | connected endpoint | disconnected | warning message => exact hdirect rfl

theorem Relays.step {c c' : Consumers} {e : Consumers.Event} {relayed requested : List ProtocolEvent}
    (h : Relays c relayed requested) (hs : RelayStep c e c') :
    Relays c' (relayed ++ relays c c' e) (requested ++ requests e) := by
  cases hs with
  | takes event hpc hget =>
    show Relays (c.relayTake event) (relayed ++ (c.relayTake event).bus.drop c.bus.length) (requested ++ [])
    rw [List.append_nil]
    exact h.take hpc hget
  | leaves hpc =>
    have hidle : inHand c = [] := by rw [inHand, hpc]
    have hrelayed := h.inOrder
    rw [hidle] at hrelayed
    show Relays { c with relay := .exited } (relayed ++ c.bus.drop c.bus.length) (requested ++ [])
    rw [List.append_nil, List.drop_length, List.append_nil]
    exact ⟨h.le, hrelayed, h.dispatched, h.woven⟩
  | publishes event hpc =>
    have hhand : inHand c = [event] := by rw [inHand, hpc]
    have hrelayed := h.inOrder
    rw [hhand] at hrelayed
    show Relays (c.relayPublish event) (relayed ++ (c.bus ++ [event]).drop c.bus.length) (requested ++ [])
    rw [List.append_nil, List.drop_left]
    refine ⟨h.le, ?_, h.dispatched, h.woven.left event⟩
    show relayed ++ [event] ++ [] = c.protocolEvents.take c.relayNext
    rw [List.append_nil, hrelayed]
  | request event =>
    show Relays { c with bus := c.bus ++ [event] } (relayed ++ []) (requested ++ [event])
    rw [List.append_nil]
    exact ⟨h.le, h.inOrder, h.dispatched, h.woven.right event⟩
  | aside he hevents hrelay hnext hdispatched hbus =>
    have hnew : relays c c' e = [] ∧ requests e = [] := by
      have hdrop : c'.bus.drop c.bus.length = [] := by rw [hbus, List.drop_length]
      cases e with
      | publish event => exact absurd rfl (he event)
      | _ => exact ⟨hdrop, rfl⟩
    rw [hnew.1, hnew.2, List.append_nil, List.append_nil]
    refine ⟨?_, ?_, ?_, ?_⟩
    · rw [hnext, hevents]
      exact h.le
    · rw [inHand, hrelay, hnext, hevents]
      exact h.inOrder
    · rw [hdispatched, hnext, hevents]
      exact h.dispatched
    · rw [hbus]
      exact h.woven

/-- More events in the channel. -/
theorem Relays.sendAll {c : Consumers} {relayed requested : List ProtocolEvent} (h : Relays c relayed requested)
    (events : List ProtocolEvent) : Relays (sendAll c events) relayed requested := by
  unfold Pipeline.sendAll
  split_ifs
  · have htake : (c.protocolEvents ++ events).take c.relayNext = c.protocolEvents.take c.relayNext :=
      List.take_append_of_le_length h.le
    refine ⟨?_, ?_, ?_, h.woven⟩
    · rw [List.length_append]
      exact Nat.le_add_right_of_le h.le
    · show relayed ++ inHand c = (c.protocolEvents ++ events).take c.relayNext
      rw [htake, h.inOrder]
    · show c.dispatched = ((c.protocolEvents ++ events).take c.relayNext).filterMap pluginPayload
      rw [htake, h.dispatched]
  · exact h

/-! ## Every run -/

/-- The channel has been sent what the listeners have sent, up to the end of the relay; the relay and the sockets have
done their part. -/
structure Inv (b : Backend S E) (s : Pipeline S) : Prop where
  sockets : Subscribers.Inv s.subscribers
  sent : s.consumers.protocolEvents <+: b.notified s.backend
  live : s.consumers.relay.live = true → s.consumers.protocolEvents = b.notified s.backend
  relays : Relays s.consumers s.relayed s.requested

theorem Inv.init (b : Backend S E) : Inv b (init b) where
  sockets := Subscribers.Inv.init
  sent := List.nil_prefix
  live _ := b.silent.symm
  relays := ⟨Nat.le_refl _, rfl, rfl, .nil⟩

/-- The relay does not come back. -/
theorem RelayStep.live {c c' : Consumers} {e : Consumers.Event} (hs : RelayStep c e c') :
    c'.protocolEvents = c.protocolEvents ∧ (c'.relay.live = true → c.relay.live = true) := by
  cases hs with
  | takes event hpc hget => cases event <;> exact ⟨rfl, fun _ => by rw [hpc]; rfl⟩
  | leaves hpc => exact ⟨rfl, fun _ => by rw [hpc]; rfl⟩
  | publishes event hpc => exact ⟨rfl, fun _ => by rw [hpc]; rfl⟩
  | request event => exact ⟨rfl, id⟩
  | aside he hevents hrelay hnext hdispatched hbus => exact ⟨hevents, fun h => hrelay ▸ h⟩

/-- More events sent: with the relay alive the channel has them all. -/
theorem sendAll_sent {c : Consumers} {notified events : List ProtocolEvent} (hsent : c.protocolEvents <+: notified)
    (hlive : c.relay.live = true → c.protocolEvents = notified) :
    (sendAll c events).protocolEvents <+: notified ++ events ∧
      ((sendAll c events).relay.live = true → (sendAll c events).protocolEvents = notified ++ events) := by
  unfold sendAll
  split_ifs with hl
  · have hall : c.protocolEvents ++ events = notified ++ events := by rw [hlive hl]
    exact ⟨hall ▸ List.prefix_rfl, fun _ => hall⟩
  · exact ⟨hsent.trans (List.prefix_append _ _), fun h => absurd h hl⟩

theorem step_inv (b : Backend S E) (s : Pipeline S) (e : Event E) (s' : Pipeline S) (h : Inv b s)
    (hs : step b s e = some s') : Inv b s' := by
  cases e with
  | backend e =>
    obtain ⟨x, events, -, hgrown, rfl⟩ := step_backend hs
    obtain ⟨hsent, hlive⟩ := @sendAll_sent _ _ events h.sent h.live
    rw [← hgrown] at hsent hlive
    refine ⟨?_, hsent, hlive, h.relays.sendAll events⟩
    unfold sendAll
    split_ifs
    · exact h.sockets
    · exact h.sockets
  | api e =>
    obtain ⟨subscribers, he, hsub, rfl⟩ := step_api hs
    obtain ⟨c, hc, rfl⟩ := Option.map_eq_some_iff.1 hsub
    have hstep := relayStep he hc
    obtain ⟨hevents, hlive⟩ := hstep.live
    refine ⟨Subscribers.step_inv _ e _ h.sockets hsub, ?_, fun hl => ?_, h.relays.step hstep⟩
    · show c.protocolEvents <+: b.notified s.backend
      rw [hevents]
      exact h.sent
    · show c.protocolEvents = b.notified s.backend
      rw [hevents]
      exact h.live (hlive hl)

theorem run_inv {b : Backend S E} {es : List (Event E)} {s : Pipeline S}
    (hs : Run.exec (step b) (init b) es = some s) : Inv b s :=
  Run.exec_inv_always (step_inv b) es _ _ (.init b) hs

/-- The relay waits for an event and none is in the channel. -/
def Idle (c : Consumers) : Prop := c.relay = .receiving ∧ c.relayNext = c.protocolEvents.length

/-- What the relay has done about what the listeners have sent. -/
structure Carried (notified : List ProtocolEvent) (s : Pipeline S) : Prop where
  relayed : s.relayed ++ inHand s.consumers <+: notified
  dispatched : s.consumers.dispatched = (s.relayed ++ inHand s.consumers).filterMap pluginPayload
  bus : Woven s.relayed s.requested s.consumers.bus
  idle : Idle s.consumers → s.relayed = notified

theorem Inv.carried {b : Backend S E} {s : Pipeline S} (h : Inv b s) : Carried (b.notified s.backend) s := by
  obtain ⟨hle, hrelayed, hdispatched, hbus⟩ := h.relays
  refine ⟨?_, ?_, hbus, ?_⟩
  · rw [hrelayed]
    exact (List.take_prefix _ _).trans h.sent
  · rw [hrelayed, hdispatched]
  · rintro ⟨hpc, hnext⟩
    have hlive : s.consumers.relay.live = true := by rw [hpc]; rfl
    have hidle : inHand s.consumers = [] := by rw [inHand, hpc]
    rw [hidle, List.append_nil, hnext, List.take_length, h.live hlive] at hrelayed
    exact hrelayed

/-- Of two streams a stretch of each has been heard, each in its order: from the first entry on when `early`, and up to
the last one when `late`. -/
def Heard {α : Type} (early late : Prop) (fed posted heard : List α) : Prop :=
  ∃ before on after before' on' after', fed = before ++ on ++ after ∧ posted = before' ++ on' ++ after' ∧
    Woven on on' heard ∧ (early → before = [] ∧ before' = []) ∧ (late → after = [] ∧ after' = [])

theorem Heard.filterMap {α β : Type} {early late : Prop} {fed posted heard : List α} (f : α → Option β)
    (h : Heard early late fed posted heard) :
    Heard early late (fed.filterMap f) (posted.filterMap f) (heard.filterMap f) := by
  obtain ⟨before, on, after, before', on', after', rfl, rfl, hon, hearly, hlate⟩ := h
  refine ⟨before.filterMap f, on.filterMap f, after.filterMap f, before'.filterMap f, on'.filterMap f,
    after'.filterMap f, ?_, ?_, hon.filterMap f, fun he => ?_, fun hl => ?_⟩
  · rw [List.filterMap_append, List.filterMap_append]
  · rw [List.filterMap_append, List.filterMap_append]
  · obtain ⟨rfl, rfl⟩ := hearly he
    exact ⟨rfl, rfl⟩
  · obtain ⟨rfl, rfl⟩ := hlate hl
    exact ⟨rfl, rfl⟩

/-- What one socket has heard and been sent: a stretch of what the listeners have sent, woven with a stretch of what
requests have published, and the texts due for it but for one that its handler may have lost on its way out. -/
structure Sent (notified : List ProtocolEvent) (s : Pipeline S) (w : Ws) (r : Subscriber) : Prop where
  heard : Heard (r.start = 0) (Idle s.consumers ∧ w.next = s.consumers.bus.length) notified s.requested
    (r.heard.map Prod.snd)
  written : ∃ lost, r.written ++ lost = Subscribers.due w r ∧ lost.length ≤ 1 ∧ (w.pc = .receiving → lost = [])

theorem Inv.sentTo {b : Backend S E} {s : Pipeline S} (h : Inv b s) {i : Nat} {w : Ws} {r : Subscriber}
    (hw : s.consumers.sockets[i]? = some w) (hr : s.subscribers.seen[i]? = some r) :
    Sent (b.notified s.backend) s w r := by
  obtain ⟨hstart, hle, hheard, lost, hwritten, hone, hlost⟩ := h.sockets.sockets i w r hw hr
  obtain ⟨hrelayed, -, hbus, hidle⟩ := h.carried
  refine ⟨?_, lost, hwritten, hone, fun hpc => ?_⟩
  · obtain ⟨later, hlater⟩ := (List.prefix_append _ _).trans hrelayed
    -- the bus is cut where the socket opened and where its handler is
    have hcut : s.consumers.bus = s.consumers.bus.take r.start ++
        ((s.consumers.bus.drop r.start).take (w.next - r.start) ++ s.consumers.bus.drop w.next) := by
      have hdrop : s.consumers.bus.drop w.next = (s.consumers.bus.drop r.start).drop (w.next - r.start) := by
        rw [List.drop_drop, Nat.add_sub_cancel' hstart]
      rw [hdrop, List.take_append_drop, List.take_append_drop]
    obtain ⟨before, xs, before', ys, hxs, hys, hbefore, hrest⟩ := hbus.cut hcut
    obtain ⟨on, after, on', after', rfl, rfl, hon, hafter⟩ := hrest.cut rfl
    refine ⟨before, on, after ++ later, before', on', after', ?_, ?_, hheard ▸ hon, fun he => ?_, ?_⟩
    · rw [← hlater, hxs]
      simp only [List.append_assoc]
    · rw [hys, List.append_assoc]
    · have hlen := hbefore.length
      rw [he, List.take_zero, List.length_nil] at hlen
      exact ⟨List.eq_nil_of_length_eq_zero (by omega), List.eq_nil_of_length_eq_zero (by omega)⟩
    · rintro ⟨hi, hnext⟩
      have hlen := hafter.length
      rw [hnext, List.drop_length, List.length_nil] at hlen
      obtain rfl : after = [] := List.eq_nil_of_length_eq_zero (by omega)
      obtain rfl : after' = [] := List.eq_nil_of_length_eq_zero (by omega)
      rw [hidle hi] at hlater
      exact ⟨List.append_right_eq_self.1 hlater, rfl⟩
  · have := hlost (by rw [hpc]; rfl)
    rw [this, Subscribers.writing, hpc]

/-- What the labels of a run are for the backend. -/
def ofBackend {β : Type} (out : E → List β) : Event E → List β
  | .backend e => out e
  | .api _ => []

def posted : Event E → List ProtocolEvent
  | .backend _ => []
  | .api e => requests e

/-- What the listeners have sent in a run is told by the steps of the backend. -/
theorem exec_notified {β : Type} {b : Backend S E} {f : ProtocolEvent → Option β} {out : E → List β}
    (hout : ∀ x e x', b.step x e = some x' → (b.notified x').filterMap f = (b.notified x).filterMap f ++ out e)
    {es : List (Event E)} {s : Pipeline S} (hs : Run.exec (step b) (init b) es = some s) :
    (b.notified s.backend).filterMap f = es.flatMap (ofBackend out) := by
  have hstep : ∀ (s : Pipeline S) e s', step b s e = some s' →
      (b.notified s'.backend).filterMap f = (b.notified s.backend).filterMap f ++ ofBackend out e := by
    intro s e s' hs
    cases e with
    | backend e =>
      obtain ⟨x, events, hx, -, rfl⟩ := step_backend hs
      exact hout _ e x hx
    | api e =>
      obtain ⟨subscribers, -, -, rfl⟩ := step_api hs
      exact (List.append_nil _).symm
  rw [Run.exec_log hstep es _ _ hs, init, b.silent]
  rfl

theorem exec_requested {b : Backend S E} {es : List (Event E)} {s : Pipeline S}
    (hs : Run.exec (step b) (init b) es = some s) : s.requested = es.flatMap posted := by
  have hstep : ∀ (s : Pipeline S) e s', step b s e = some s' → s'.requested = s.requested ++ posted e := by
    intro s e s' hs
    cases e with
    | backend e =>
      obtain ⟨x, events, -, -, rfl⟩ := step_backend hs
      exact (List.append_nil _).symm
    | api e =>
      obtain ⟨subscribers, -, -, rfl⟩ := step_api hs
      rfl
  exact Run.exec_log hstep es _ _ hs

end Pipeline

end NapCat.Api
