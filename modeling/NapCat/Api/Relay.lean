/-
The relay task of `ApiState::with_protocol` between the protocol channel, the plugin manager and the
event bus. As long as it is never more than the capacity of the channel behind, it publishes every
event once and in order, and dispatches exactly the messages to the plugins, each before it is
published.
-/
import NapCat.Api.Consumers
import NapCat.Lib.Woven
import NapCat.Plugin.Manager

namespace NapCat.Api

open Plugin

/-- The plugin event of a message from the protocol. -/
def pluginEvent (message : Message) : PluginEvent := .message message.toJson.canon (some "protocol")

/-- The channels, the plugin manager, and the dispatch that the relay waits for while it waits for one. -/
structure Relay where
  consumers : Consumers := {}
  manager : Manager.Sys := Manager.init
  call : Nat := 0

namespace Relay

/-- `channel` and `manager` are the steps of others; the relay receives, with the order in which a
dispatch reads the registry, and goes on when its dispatch has returned. -/
inductive Event
  | channel (e : Consumers.Event)
  | manager (e : Manager.Event)
  | recv (order : List (String × Nat))
  | returned

def isRelayStep : Consumers.Event → Bool
  | .relayRecv | .relayDispatched => true
  | _ => false

/-- The relay is the only caller of `dispatch`. -/
def beginsDispatch : Manager.Event → Bool
  | .start (.dispatch _ _) => true
  | _ => false

/-- The relay has received an event. -/
def take (s : Relay) (order : List (String × Nat)) (event : ProtocolEvent) : Option Relay :=
  match event with
  | .messageReceived m =>
    (Manager.step s.manager (.start (.dispatch (pluginEvent m) order))).map fun manager =>
      ⟨s.consumers.relayTake event, manager, s.manager.calls.length⟩
  | _ => some { s with consumers := s.consumers.relayTake event }

def recv (s : Relay) (order : List (String × Nat)) : Option Relay :=
  match s.consumers.relay with
  | .receiving =>
    match Broadcast.recv eventBroadcastCapacity s.consumers.protocolEvents s.consumers.protocolOpen
        s.consumers.relayNext with
    | (.value event, _) => s.take order event
    | (.lagged _, _) | (.closed, _) => some { s with consumers := { s.consumers with relay := .exited } }
    | (.pending, _) => none
  | _ => none

/-- Whatever a dispatch returns is dropped. -/
def returned (s : Relay) : Option Relay :=
  match s.consumers.relay, s.manager.calls[s.call]? with
  | .dispatching event, some (.dispatched _) => some { s with consumers := s.consumers.relayPublish event }
  | _, _ => none

def step (s : Relay) : Event → Option Relay
  | .channel e =>
    if isRelayStep e then none else (s.consumers.step e).map fun consumers => { s with consumers := consumers }
  | .manager e =>
    if beginsDispatch e then none else (Manager.step s.manager e).map fun manager => { s with manager := manager }
  | .recv order => s.recv order
  | .returned => s.returned

/-- What the relay does here is what it does among the consumers of the channels. -/
theorem step_consumers {s s' : Relay} {e : Event} (h : step s e = some s') :
    s'.consumers = s.consumers ∨ ∃ e', s.consumers.step e' = some s'.consumers := by
  cases e with
  | channel e =>
    obtain ⟨-, h⟩ := Option.ite_none_left_eq_some.1 h
    obtain ⟨consumers, hs, rfl⟩ := Option.map_eq_some_iff.1 h
    exact .inr ⟨e, hs⟩
  | manager e =>
    obtain ⟨-, h⟩ := Option.ite_none_left_eq_some.1 h
    obtain ⟨manager, -, rfl⟩ := Option.map_eq_some_iff.1 h
    exact .inl rfl
  | recv order =>
    refine .inr ⟨.relayRecv, ?_⟩
    simp only [step, recv] at h
    split at h
    · rename_i hpc
      split at h
      · rename_i event n hv
        simp only [Consumers.step, hpc, hv]
        unfold take at h
        split at h
        · obtain ⟨manager, -, rfl⟩ := Option.map_eq_some_iff.1 h
          rfl
        · cases h
          rfl
      · rename_i k n hv
        simp only [Consumers.step, hpc, hv]
        cases h
        rfl
      · rename_i n hv
        simp only [Consumers.step, hpc, hv]
        cases h
        rfl
      · cases h
    · cases h
  | returned =>
    refine .inr ⟨.relayDispatched, ?_⟩
    simp only [step, returned] at h
    split at h
    · rename_i event r hpc hr
      cases h
      simp only [Consumers.step, hpc]
    · cases h

/-! ## What a run is seen to do -/

/-- A call of `PluginManager::dispatch`, or a publication of the relay. -/
inductive Action
  | dispatch (event : PluginEvent)
  | publish (event : ProtocolEvent)

def Action.dispatched : Action → Option PluginEvent
  | .dispatch event => some event
  | .publish _ => none

def Action.published : Action → Option ProtocolEvent
  | .publish event => some event
  | .dispatch _ => none

/-- The calls of `dispatch` that have been begun between two states of the manager, by whomever. -/
def begun (m m' : Manager.Sys) : List PluginEvent :=
  (m'.calls.drop m.calls.length).filterMap fun
    | .dispatching event _ _ => some event
    | _ => none

/-- What a step of the relay has put on the bus. -/
def relays (c c' : Consumers) : Event → List ProtocolEvent
  | .recv _ | .returned => c'.bus.drop c.bus.length
  | .channel _ | .manager _ => []

def seen (s : Relay) (e : Event) (s' : Relay) : List Action :=
  (begun s.manager s'.manager).map .dispatch ++ (relays s.consumers s'.consumers e).map .publish

/-- The calls of `dispatch` and the publications of the relay in a run, in their order. -/
def done (es : List Event) : List Action := Run.trace step seen {} es

/-- What a step sends to the protocol channel. -/
def sends : Event → List ProtocolEvent
  | .channel (.send event) => [event]
  | _ => []

/-- What a step of anyone but the relay publishes. -/
def requests : Event → List ProtocolEvent
  | .channel (.publish event) => [event]
  | _ => []

/-! ## Faithfulness -/

/-- What the relay is to do about an event. -/
def actions : ProtocolEvent → List Action
  | .messageReceived m => [.dispatch (.message m.toJson.canon (some "protocol")), .publish (.messageReceived m)]
  | event => [.publish event]

/-- What is left to do about the event that the relay has received last. -/
def pending (s : Relay) : List Action :=
  match s.consumers.relay with
  | .dispatching event => [.publish event]
  | _ => []

/-- A call of `dispatch`, in progress or returned. -/
def isDispatchCall : Manager.Pc → Bool
  | .dispatching _ _ _ | .dispatched _ => true
  | _ => false

/-- The relay has left its loop, or waits for an event that has not been sent. -/
def Idle (s : Relay) : Prop :=
  s.consumers.relay.live = false ∨
    ∃ n, Broadcast.recv eventBroadcastCapacity s.consumers.protocolEvents s.consumers.protocolOpen
      s.consumers.relayNext = (.pending, n) ∧ s.pending = []

/-- The relay is at most the capacity of the channel behind. -/
def Paced (s : Relay) (_ : Event) : Prop :=
  s.consumers.relay.live = true →
    Broadcast.backlog s.consumers.protocolEvents s.consumers.relayNext ≤ eventBroadcastCapacity

instance (s : Relay) (e : Event) : Decidable (Paced s e) := inferInstanceAs (Decidable (_ → _))

/-- A run has done what the events sent ask for, once each and in their order. -/
structure Faithful (es : List Event) (s : Relay) : Prop where
  /-- what is done and what is left to do is what was to do about the events received so far -/
  soFar : done es ++ s.pending = ((es.flatMap sends).take s.consumers.relayNext).flatMap actions
  idle : Idle s → done es = (es.flatMap sends).flatMap actions
  /-- the relay publishes the events sent, and the bus holds nothing else but what others publish -/
  published : Idle s → (done es).filterMap Action.published = es.flatMap sends
  bus : Woven ((done es).filterMap Action.published) (es.flatMap requests) s.consumers.bus
  /-- `dispatch` is called for the messages sent, and the manager has no other call of it -/
  dispatched : Idle s → (done es).filterMap Action.dispatched = (es.flatMap sends).filterMap fun
    | .messageReceived m => some (.message m.toJson.canon (some "protocol"))
    | _ => none
  calls : s.manager.calls.countP isDispatchCall = ((done es).filterMap Action.dispatched).length

/-- The same of what has been done so far, with the events sent read off the channel. -/
structure Inv (done : List Action) (requested : List ProtocolEvent) (s : Relay) : Prop where
  le : s.consumers.relayNext ≤ s.consumers.protocolEvents.length
  soFar : done ++ s.pending = (s.consumers.protocolEvents.take s.consumers.relayNext).flatMap actions
  ended : s.consumers.relay.live = false →
    s.consumers.protocolOpen = false ∧ s.consumers.protocolEvents.length ≤ s.consumers.relayNext
  bus : Woven (done.filterMap Action.published) requested s.consumers.bus
  calls : s.manager.calls.countP isDispatchCall = (done.filterMap Action.dispatched).length

theorem published_actions (events : List ProtocolEvent) :
    (events.flatMap actions).filterMap Action.published = events := by
  induction events with
  | nil => rfl
  | cons event events ih =>
    rw [List.flatMap_cons, List.filterMap_append, ih]
    cases event <;> rfl

theorem dispatched_actions (events : List ProtocolEvent) :
    (events.flatMap actions).filterMap Action.dispatched = events.filterMap fun
      | .messageReceived m => some (.message m.toJson.canon (some "protocol"))
      | _ => none := by
  induction events with
  | nil => rfl
  | cons event events ih =>
    rw [List.flatMap_cons, List.filterMap_append, ih, List.filterMap_cons]
    cases event <;> rfl

theorem Inv.idle {done : List Action} {requested : List ProtocolEvent} {s : Relay} (h : Inv done requested s)
    (hidle : Idle s) : done = s.consumers.protocolEvents.flatMap actions := by
  have hdone : s.consumers.protocolEvents.length ≤ s.consumers.relayNext ∧ s.pending = [] := by
    rcases hidle with hl | ⟨n, hv, hp⟩
    · refine ⟨(h.ended hl).2, ?_⟩
      unfold pending
      split
      · rename_i event hpc
        rw [hpc] at hl; cases hl
      · rfl
    · exact ⟨(Broadcast.recv_pending hv).1, hp⟩
  have hsoFar := h.soFar
  rw [hdone.2, List.append_nil, List.take_of_length_le hdone.1] at hsoFar
  exact hsoFar

/-! ## Steps of others -/

/-- What the other users of the channels can do: publish, and send while the channel is open. -/
structure Elsewhere (c : Consumers) (e : Event) (c' : Consumers) : Prop where
  relay : c'.relay = c.relay
  relayNext : c'.relayNext = c.relayNext
  closed : c.protocolOpen = false → c'.protocolOpen = false ∧ sends e = []
  events : c'.protocolEvents = c.protocolEvents ++ sends e
  bus : c'.bus = c.bus ++ requests e

/-- A step that neither sends nor publishes. -/
theorem Elsewhere.aside {c c' : Consumers} {e : Event} (hs : sends e = []) (hr : requests e = [])
    (hrelay : c'.relay = c.relay) (hnext : c'.relayNext = c.relayNext)
    (hopen : c.protocolOpen = false → c'.protocolOpen = false) (hevents : c'.protocolEvents = c.protocolEvents)
    (hbus : c'.bus = c.bus) : Elsewhere c e c' := by
  refine ⟨hrelay, hnext, fun h => ⟨hopen h, hs⟩, ?_, ?_⟩
  · rw [hs, List.append_nil, hevents]
  · rw [hr, List.append_nil, hbus]

theorem elsewhere_of_step {c c' : Consumers} {e : Consumers.Event} (he : isRelayStep e = false)
    (h : c.step e = some c') : Elsewhere c (.channel e) c' := by
  cases e with
  | send event =>
    obtain ⟨hopen, h⟩ := Option.ite_none_right_eq_some.1 h
    cases h
    refine ⟨rfl, rfl, fun hclosed => ?_, rfl, (List.append_nil _).symm⟩
    rw [hclosed] at hopen
    cases hopen
  | dropProtocolSenders => cases h; exact .aside rfl rfl rfl rfl (fun _ => rfl) rfl rfl
  | relayRecv => cases he
  | relayDispatched => cases he
  | publish event =>
    obtain ⟨-, h⟩ := Option.ite_none_right_eq_some.1 h
    cases h
    exact ⟨rfl, rfl, fun hclosed => ⟨hclosed, rfl⟩, (List.append_nil _).symm, rfl⟩
  | dropBusSenders =>
    obtain ⟨-, h⟩ := Option.ite_none_right_eq_some.1 h
    cases h
    exact .aside rfl rfl rfl rfl id rfl rfl
  | wsOpen types => cases h; exact .aside rfl rfl rfl rfl id rfl rfl
  | wsRecv i _ | wsSent i _ =>
    obtain ⟨w, -, h⟩ := Option.bind_eq_some_iff.1 h
    obtain ⟨w', -, rfl⟩ := Option.map_eq_some_iff.1 h
    exact .aside rfl rfl rfl rfl id rfl rfl
  | wsBroken i =>
    obtain ⟨w, -, rfl⟩ := Option.map_eq_some_iff.1 h
    exact .aside rfl rfl rfl rfl id rfl rfl

theorem Inv.elsewhere {done : List Action} {requested : List ProtocolEvent} {s : Relay} {c : Consumers} {e : Event}
    (h : Inv done requested s) (he : Elsewhere s.consumers e c) :
    Inv done (requested ++ requests e) { s with consumers := c } := by
  have hpending : pending { s with consumers := c } = s.pending := by
    unfold pending
    rw [he.relay]
  refine ⟨?_, ?_, fun hl => ?_, ?_, h.calls⟩
  · show c.relayNext ≤ c.protocolEvents.length
    rw [he.relayNext, he.events, List.length_append]
    exact Nat.le_add_right_of_le h.le
  · show done ++ pending { s with consumers := c } = (c.protocolEvents.take c.relayNext).flatMap actions
    rw [hpending, he.relayNext, he.events, List.take_append_of_le_length h.le]
    exact h.soFar
  · -- the relay leaves its loop only when nothing more can be sent
    show c.protocolOpen = false ∧ c.protocolEvents.length ≤ c.relayNext
    obtain ⟨hclosed, hle⟩ := h.ended (he.relay ▸ hl)
    obtain ⟨hclosed, hnone⟩ := he.closed hclosed
    rw [he.relayNext, he.events, hnone, List.append_nil]
    exact ⟨hclosed, hle⟩
  · show Woven _ _ c.bus
    rw [he.bus]
    exact h.bus.append_right _

/-- A step of the plugin manager that begins no dispatch: none is there that was not there before. -/
theorem begun_manager {m m' : Manager.Sys} {e : Manager.Event} (he : beginsDispatch e = false)
    (h : Manager.step m e = some m') :
    begun m m' = [] ∧ m'.calls.countP isDispatchCall = m.calls.countP isDispatchCall := by
  cases e with
  | start op =>
    obtain ⟨g, p, hb, rfl⟩ := Threads.step_start h
    have hp : isDispatchCall p = false := by
      cases op with
      | load definition host =>
        obtain ⟨rfl, rfl⟩ := Prod.ext_iff.1 (Option.some.inj hb)
        obtain ⟨e, hb⟩ | ⟨backend, -, -, -, -, hb⟩ := Manager.beginLoad_cases m.shared definition host <;> rw [hb] <;>
          rfl
      | unload name =>
        obtain ⟨-, hb⟩ := Option.ite_none_right_eq_some.1 hb
        obtain ⟨rfl, rfl⟩ := Prod.ext_iff.1 (Option.some.inj hb)
        unfold Manager.remove
        split <;> rfl
      | dispatch event order => cases he
    constructor
    · show ((m.calls ++ [p]).drop m.calls.length).filterMap _ = []
      rw [List.drop_left]
      cases p with
      | dispatching => cases hp
      | _ => rfl
    · show (m.calls ++ [p]).countP _ = _
      rw [Threads.countP_append_one, hp]
      rfl
  | act i a =>
    obtain ⟨p, g, q, hi, ha, rfl⟩ := Threads.step_act h
    have hpq : isDispatchCall q = isDispatchCall p := by
      change Manager.act m.shared p a = some (g, q) at ha
      unfold Manager.act at ha
      split at ha
      · cases ha; rfl
      · cases ha; rfl
      · obtain ⟨-, ha⟩ := Option.ite_none_right_eq_some.1 ha
        cases ha; rfl
      all_goals cases ha
      all_goals rfl
    have hc := Threads.countP_set isDispatchCall q hi
    rw [hpq] at hc
    refine ⟨?_, Nat.add_right_cancel hc⟩
    show ((m.calls.set i q).drop m.calls.length).filterMap _ = []
    rw [List.drop_of_length_le (by rw [List.length_set]), List.filterMap_nil]
  | env e => cases e

/-! ## Steps of the relay -/

theorem begun_self (m : Manager.Sys) : begun m m = [] := by
  rw [begun, List.drop_length, List.filterMap_nil]

theorem pending_receiving {s : Relay} (h : s.consumers.relay = .receiving) : s.pending = [] := by
  rw [pending, h]

/-- What is to do about one more event. -/
theorem flatMap_take {events : List ProtocolEvent} {n : Nat} {event : ProtocolEvent} (h : events[n]? = some event) :
    (events.take (n + 1)).flatMap actions = (events.take n).flatMap actions ++ actions event := by
  rw [List.take_add_one, h, List.flatMap_append]
  simp

/-- The relay publishes the event in hand. -/
theorem seen_publish {s : Relay} {e : Event} {c : Consumers} {event : ProtocolEvent}
    (hstep : relays s.consumers c e = c.bus.drop s.consumers.bus.length) (hbus : c.bus = s.consumers.bus ++ [event]) :
    seen s e { s with consumers := c } = [.publish event] := by
  show (begun s.manager s.manager).map Action.dispatch ++ (relays s.consumers c e).map Action.publish = _
  rw [begun_self, hstep, hbus, List.drop_left]
  rfl

/-- An event that goes straight to the bus. -/
theorem Inv.relayed {done : List Action} {requested : List ProtocolEvent} {s : Relay} {event : ProtocolEvent}
    {order : List (String × Nat)} (h : Inv done requested s) (hpc : s.consumers.relay = .receiving)
    (hev : s.consumers.protocolEvents[s.consumers.relayNext]? = some event) (hact : actions event = [.publish event])
    {c : Consumers} (hc : c = { s.consumers with relayNext := s.consumers.relayNext + 1 }.relayPublish event) :
    Inv (done ++ seen s (.recv order) { s with consumers := c }) requested { s with consumers := c } := by
  subst hc
  have hsoFar := h.soFar
  rw [pending_receiving hpc, List.append_nil] at hsoFar
  rw [seen_publish rfl rfl]
  refine ⟨(List.getElem?_eq_some_iff.1 hev).1, ?_, fun hl => (by cases hl), ?_, ?_⟩
  · show (done ++ [.publish event]) ++ [] =
      (s.consumers.protocolEvents.take (s.consumers.relayNext + 1)).flatMap actions
    rw [flatMap_take hev, hact, ← hsoFar, List.append_nil]
  · rw [List.filterMap_append]
    exact h.bus.left event
  · rw [List.filterMap_append]
    exact h.calls.trans (congrArg List.length (List.append_nil _).symm)

/-- A message goes to the plugins first. -/
theorem Inv.dispatched {done : List Action} {requested : List ProtocolEvent} {s s' : Relay} {m : Message}
    {order : List (String × Nat)} {manager : Manager.Sys} (h : Inv done requested s)
    (hpc : s.consumers.relay = .receiving)
    (hev : s.consumers.protocolEvents[s.consumers.relayNext]? = some (.messageReceived m))
    (hm : Manager.step s.manager (.start (.dispatch (pluginEvent m) order)) = some manager)
    (hs : s' = ⟨s.consumers.relayTake (.messageReceived m), manager, s.manager.calls.length⟩) :
    Inv (done ++ seen s (.recv order) s') requested s' := by
  have hsoFar := h.soFar
  rw [pending_receiving hpc, List.append_nil] at hsoFar
  obtain ⟨g, p, hb, rfl⟩ := Threads.step_start hm
  obtain ⟨-, hb⟩ := Option.ite_none_right_eq_some.1 hb
  cases hb
  subst hs
  have hseen : seen s (.recv order) ⟨s.consumers.relayTake (.messageReceived m),
      ⟨{ s.manager.shared with readers := s.manager.shared.readers + 1 },
        s.manager.calls ++ [.dispatching (pluginEvent m) order []]⟩, s.manager.calls.length⟩ =
      [.dispatch (.message m.toJson.canon (some "protocol"))] := by
    show (((s.manager.calls ++ [_]).drop s.manager.calls.length).filterMap _).map Action.dispatch ++
      (s.consumers.bus.drop s.consumers.bus.length).map Action.publish = _
    rw [List.drop_left, List.drop_length]
    rfl
  rw [hseen]
  refine ⟨(List.getElem?_eq_some_iff.1 hev).1, ?_, fun hl => (by cases hl), ?_, ?_⟩
  · show (done ++ [_]) ++ [.publish (.messageReceived m)] =
      (s.consumers.protocolEvents.take (s.consumers.relayNext + 1)).flatMap actions
    rw [flatMap_take hev, ← hsoFar, List.append_assoc]
    rfl
  · rw [List.filterMap_append]
    exact (List.append_nil _).symm ▸ h.bus
  · show (s.manager.calls ++ [_]).countP isDispatchCall = _
    rw [Threads.countP_append_one, List.filterMap_append, List.length_append, h.calls]
    rfl

theorem Inv.take {done : List Action} {requested : List ProtocolEvent} {s s' : Relay} {order : List (String × Nat)}
    {event : ProtocolEvent} (h : Inv done requested s) (hpc : s.consumers.relay = .receiving)
    (hev : s.consumers.protocolEvents[s.consumers.relayNext]? = some event) (hs : s.take order event = some s') :
    Inv (done ++ seen s (.recv order) s') requested s' := by
  cases event with
  | messageReceived m =>
    obtain ⟨manager, hm, hs⟩ := Option.map_eq_some_iff.1 hs
    exact h.dispatched hpc hev hm hs.symm
  | connected endpoint => cases hs; exact h.relayed hpc hev rfl rfl
  | disconnected => cases hs; exact h.relayed hpc hev rfl rfl
  | warning text => cases hs; exact h.relayed hpc hev rfl rfl

theorem Inv.recv {done : List Action} {requested : List ProtocolEvent} {s s' : Relay} {order : List (String × Nat)}
    (h : Inv done requested s) (hc : Paced s (.recv order)) (hs : s.recv order = some s') :
    Inv (done ++ seen s (.recv order) s') requested s' := by
  unfold Relay.recv at hs
  split at hs
  · rename_i hpc
    have hl : s.consumers.relay.live = true := by rw [hpc]; rfl
    have hsoFar := h.soFar
    rw [pending_receiving hpc] at hsoFar
    split at hs
    · rename_i event n hv
      exact h.take hpc (Broadcast.recv_value hv).1 hs
    · -- a lag needs a backlog above the capacity
      rename_i k n hv
      have := Broadcast.recv_lagged hv
      have := hc hl
      omega
    · rename_i n hv
      cases hs
      have hseen : seen s (.recv order) { s with consumers := { s.consumers with relay := .exited } } = [] := by
        show (begun s.manager s.manager).map Action.dispatch ++
          (s.consumers.bus.drop s.consumers.bus.length).map Action.publish = []
        rw [begun_self, List.drop_length]
        rfl
      rw [hseen, List.append_nil]
      exact ⟨h.le, hsoFar, fun _ => ⟨Broadcast.recv_closed hv, Broadcast.recv_closed_le hv⟩, h.bus, h.calls⟩
    · cases hs
  · cases hs

theorem Inv.returned {done : List Action} {requested : List ProtocolEvent} {s s' : Relay} (h : Inv done requested s)
    (hs : s.returned = some s') : Inv (done ++ seen s .returned s') requested s' := by
  unfold Relay.returned at hs
  split at hs
  · rename_i event r hpc hr
    cases hs
    have hsoFar := h.soFar
    rw [pending, hpc] at hsoFar
    rw [seen_publish rfl rfl]
    refine ⟨h.le, ?_, fun hl => (by cases hl), ?_, ?_⟩
    · show (done ++ [.publish event]) ++ [] = (s.consumers.protocolEvents.take s.consumers.relayNext).flatMap actions
      rw [List.append_nil]
      exact hsoFar
    · rw [List.filterMap_append]
      exact h.bus.left event
    · rw [List.filterMap_append]
      exact h.calls.trans (congrArg List.length (List.append_nil _).symm)
  · cases hs

theorem step_inv {done : List Action} {requested : List ProtocolEvent} {s s' : Relay} {e : Event}
    (h : Inv done requested s) (hc : Paced s e) (hs : step s e = some s') :
    Inv (done ++ seen s e s') (requested ++ requests e) s' := by
  cases e with
  | channel e =>
    obtain ⟨he, hs⟩ := Option.ite_none_left_eq_some.1 hs
    obtain ⟨c, hstep, rfl⟩ := Option.map_eq_some_iff.1 hs
    have hseen : seen s (.channel e) { s with consumers := c } = [] := by
      show (begun s.manager s.manager).map Action.dispatch ++ [] = []
      rw [begun_self]
      rfl
    rw [hseen, List.append_nil]
    exact h.elsewhere (elsewhere_of_step (Bool.eq_false_iff.2 he) hstep)
  | manager e =>
    obtain ⟨he, hs⟩ := Option.ite_none_left_eq_some.1 hs
    obtain ⟨m, hstep, rfl⟩ := Option.map_eq_some_iff.1 hs
    obtain ⟨hbegun, hcalls⟩ := begun_manager (Bool.eq_false_iff.2 he) hstep
    have hseen : seen s (.manager e) { s with manager := m } = [] := by
      show (begun s.manager m).map Action.dispatch ++ [] = []
      rw [hbegun]
      rfl
    rw [hseen, List.append_nil]
    exact ⟨h.le, h.soFar, h.ended, (List.append_nil requested).symm ▸ h.bus, hcalls.trans h.calls⟩
  | recv order => exact (List.append_nil requested).symm ▸ h.recv hc hs
  | returned => exact (List.append_nil requested).symm ▸ h.returned hs

theorem Inv.init : Inv [] [] {} :=
  ⟨Nat.le_refl _, rfl, fun hl => (by cases hl), .nil, rfl⟩

/-- The channel holds what the labels of the run send. -/
theorem step_sends (s : Relay) (e : Event) (s' : Relay) (hs : step s e = some s') :
    s'.consumers.protocolEvents = s.consumers.protocolEvents ++ sends e := by
  cases e with
  | channel e =>
    obtain ⟨he, hs⟩ := Option.ite_none_left_eq_some.1 hs
    obtain ⟨c, hstep, rfl⟩ := Option.map_eq_some_iff.1 hs
    exact (elsewhere_of_step (Bool.eq_false_iff.2 he) hstep).events
  | manager e =>
    obtain ⟨-, hs⟩ := Option.ite_none_left_eq_some.1 hs
    obtain ⟨m, -, rfl⟩ := Option.map_eq_some_iff.1 hs
    exact (List.append_nil _).symm
  | recv order =>
    refine Eq.trans ?_ (List.append_nil _).symm
    simp only [step, recv] at hs
    split at hs
    · split at hs
      · rename_i event n hv
        cases event with
        | messageReceived m => obtain ⟨manager, -, rfl⟩ := Option.map_eq_some_iff.1 hs; rfl
        | connected _ | disconnected | warning _ => cases hs; rfl
      · cases hs; rfl
      · cases hs; rfl
      · cases hs
    · cases hs
  | returned =>
    refine Eq.trans ?_ (List.append_nil _).symm
    simp only [step, returned] at hs
    split at hs
    · cases hs; rfl
    · cases hs

theorem run_inv {es : List Event} {s : Relay} (hc : Run.Along step Paced {} es)
    (hs : Run.exec step {} es = some s) : Inv (done es) (es.flatMap requests) s := by
  refine Run.exec_history (I := fun es => Inv (done es) (es.flatMap requests)) Inv.init ?_ es s hc hs
  intro es s e s' hs h hc hstep
  rw [done, Run.trace_snoc hstep es _ hs, List.flatMap_append]
  exact List.flatMap_singleton .. ▸ step_inv h hc hstep

/-- In every run in which the relay is never more than the capacity behind, what it has done is what
was to do about the events it received, and once it is idle about all events sent. -/
theorem relay_faithful {es : List Event} {s : Relay} (hc : Run.Along step Paced {} es)
    (hs : Run.exec step {} es = some s) : Faithful es s := by
  have h : Inv (done es) (es.flatMap requests) s := run_inv hc hs
  have hsent : s.consumers.protocolEvents = es.flatMap sends := Run.exec_log step_sends es _ _ hs
  refine ⟨?_, fun hidle => ?_, fun hidle => ?_, h.bus, fun hidle => ?_, h.calls⟩
  · rw [← hsent]
    exact h.soFar
  · rw [← hsent]
    exact h.idle hidle
  · rw [h.idle hidle, published_actions, hsent]
  · rw [h.idle hidle, dispatched_actions, hsent]

/-- A message whose one plugin fails, and a warning after it. -/
def sampleMessage : Message := ⟨"1", "u", .group "g", [.text "hi"]⟩

def failingPlugin : List Event :=
  [.manager (.start (.load ⟨⟨"p", "1", none, none⟩, .http "http://p" 200, true⟩
      ⟨fun path => .ok path, fun _ => .ok ⟨true, 0⟩, fun text => .ok ⟨"http", text⟩⟩)),
    .manager (.act 0 (.hook (.ok none))), .manager (.act 0 .go), .channel (.send (.messageReceived sampleMessage)),
    .channel (.send (.warning "w")), .recv [("p", 0)], .manager (.act 1 (.hook (.error (.timeout 200)))), .returned,
    .recv []]

theorem relay_faithful_failingPlugin : ∃ s, Run.exec step {} failingPlugin = some s ∧ Faithful failingPlugin s := by
  have h : (Run.exec step {} failingPlugin).isSome := by decide +kernel
  obtain ⟨s, hs⟩ := Option.isSome_iff_exists.1 h
  exact ⟨s, hs, relay_faithful (by decide +kernel) hs⟩

end Relay

end NapCat.Api
