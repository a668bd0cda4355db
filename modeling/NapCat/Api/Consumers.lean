/-
The two consumers of broadcast channels in the API: the relay task of `ApiState::with_protocol`,
from the protocol event channel through the plugins to the event bus, and the `ws_handler` of each
WebSocket, from the event bus to its socket. Both loop with `while let Ok(..)`.
-/
import NapCat.Api.Listen
import NapCat.Lib.Threads

namespace NapCat.Api

/-- Where the relay task is. -/
inductive RelayPc
  | receiving
  | dispatching (event : ProtocolEvent)
  | exited

/-- Where a WebSocket handler is. -/
inductive WsPc
  | receiving
  | sending (text : String)
  | exited

/-- A WebSocket: its type filter, its position on the bus, and whether its socket accepts writes. -/
structure Ws where
  types : Option (List String)
  next : Nat
  accepting : Bool
  pc : WsPc

/-- The channels, whether they still have senders, and their consumers. `dispatched` are the message
payloads given to the plugins. -/
structure Consumers where
  protocolEvents : List ProtocolEvent := []
  protocolOpen : Bool := true
  relay : RelayPc := .receiving
  relayNext : Nat := 0
  dispatched : List Json := []
  bus : List ProtocolEvent := []
  busOpen : Bool := true
  sockets : List Ws := []

def RelayPc.live : RelayPc → Bool
  | .exited => false
  | _ => true

def WsPc.live : WsPc → Bool
  | .exited => false
  | _ => true

namespace Consumers

inductive Event
  | send (event : ProtocolEvent)
  | dropProtocolSenders
  | relayRecv
  | relayDispatched
  | publish (event : ProtocolEvent)
  | dropBusSenders
  | wsOpen (types : Option (List String))
  | wsRecv (i : Nat) (time : Option UInt64)
  | wsSent (i : Nat) (ok : Bool)
  | wsBroken (i : Nat)

/-- The relay publishes an event on the bus and receives again. -/
def relayPublish (s : Consumers) (event : ProtocolEvent) : Consumers :=
  { s with bus := s.bus ++ [event], relay := .receiving }

/-- The relay has received an event: a message goes to the plugins first. -/
def relayTake (s : Consumers) (event : ProtocolEvent) : Consumers :=
  match event with
  | .messageReceived m =>
    { s with relayNext := s.relayNext + 1, relay := .dispatching event, dispatched := s.dispatched ++ [m.toJson.canon] }
  | _ => { s with relayNext := s.relayNext + 1 }.relayPublish event

/-- A handler has received an event: filter, render, send. -/
def Ws.take (w : Ws) (event : ProtocolEvent) (time : Option UInt64) : Ws :=
  let w := { w with next := w.next + 1 }
  if accepts w.types event then
    match onebotEventPayload time event with
    | .ok text => { w with pc := .sending text }
    -- an event that cannot be rendered is skipped
    | .error _ => w
  else w

/-- One receive of a handler. -/
def Ws.recv (w : Ws) (bus : List ProtocolEvent) (busOpen : Bool) (time : Option UInt64) : Option Ws :=
  match w.pc with
  | .receiving =>
    match Broadcast.recv eventBroadcastCapacity bus busOpen w.next with
    | (.value event, _) => some (Ws.take w event time)
    | (.lagged _, _) | (.closed, _) => some { w with pc := .exited }
    | (.pending, _) => none
  | _ => none

/-- One write of a handler; it fails only on a socket that accepts no more writes. -/
def Ws.sent (w : Ws) (ok : Bool) : Option Ws :=
  match w.pc with
  | .sending _ =>
    if ok then some { w with pc := .receiving }
    else if w.accepting then none
    else some { w with pc := .exited }
  | _ => none

def step (s : Consumers) : Event → Option Consumers
  | .send event => if s.protocolOpen then some { s with protocolEvents := s.protocolEvents ++ [event] } else none
  | .dropProtocolSenders => some { s with protocolOpen := false }
  | .relayRecv =>
    match s.relay with
    | .receiving =>
      match Broadcast.recv eventBroadcastCapacity s.protocolEvents s.protocolOpen s.relayNext with
      | (.value event, _) => some (s.relayTake event)
      | (.lagged _, _) | (.closed, _) => some { s with relay := .exited }
      | (.pending, _) => none
    | _ => none
  | .relayDispatched =>
    match s.relay with
    | .dispatching event => some (s.relayPublish event)
    | _ => none
  | .publish event => if s.busOpen then some { s with bus := s.bus ++ [event] } else none
  -- the relay and every handler hold a sender of the bus
  | .dropBusSenders =>
    if s.relay.live = false ∧ s.sockets.all (fun w => !w.pc.live) then some { s with busOpen := false } else none
  | .wsOpen types => some { s with sockets := s.sockets ++ [⟨types, s.bus.length, true, .receiving⟩] }
  | .wsRecv i time => s.sockets[i]?.bind fun w =>
      (Ws.recv w s.bus s.busOpen time).map fun w' => { s with sockets := s.sockets.set i w' }
  | .wsSent i ok => s.sockets[i]?.bind fun w => (Ws.sent w ok).map fun w' => { s with sockets := s.sockets.set i w' }
  | .wsBroken i => s.sockets[i]?.map fun w => { s with sockets := s.sockets.set i { w with accepting := false } }

/-! ## Survival -/

/-- The relay is alive while the protocol channel has a sender, and a handler is alive while its
socket accepts writes and the bus has a sender. -/
structure Alive (s : Consumers) : Prop where
  relay : s.relay.live = false → s.protocolOpen = false
  sockets : ∀ w ∈ s.sockets, w.pc.live = false → w.accepting = false ∨ s.busOpen = false

/-- Another event fits into the bus without any live handler lagging. -/
def BusReady (s : Consumers) : Prop :=
  ∀ w ∈ s.sockets, w.pc.live = true → Broadcast.backlog s.bus w.next < eventBroadcastCapacity

/-- The event that the relay receives next goes straight to the bus. -/
def nextToBus (s : Consumers) : Bool :=
  s.protocolEvents[s.relayNext]?.any fun
    | .messageReceived _ => false
    | _ => true

/-- No burst outruns a consumer: an event is sent or published only while every live consumer of the
channel is less than the capacity behind. -/
def Paced (s : Consumers) : Event → Prop
  | .send _ => s.relay.live = true → Broadcast.backlog s.protocolEvents s.relayNext < eventBroadcastCapacity
  | .relayRecv => s.nextToBus = true → BusReady s
  | .relayDispatched | .publish _ => BusReady s
  | _ => True

instance (s : Consumers) : Decidable (BusReady s) := inferInstanceAs (Decidable (∀ w ∈ s.sockets, _ → _))

instance (s : Consumers) (e : Event) : Decidable (Paced s e) := by
  cases e <;> unfold Paced <;> infer_instance

/-- What is kept for one handler. -/
structure WsOk (bus : List ProtocolEvent) (busOpen : Bool) (w : Ws) : Prop where
  le : w.next ≤ bus.length
  near : w.pc.live = true → Broadcast.backlog bus w.next ≤ eventBroadcastCapacity
  alive : w.pc.live = false → w.accepting = false ∨ busOpen = false

structure Inv (s : Consumers) : Prop where
  le : s.relayNext ≤ s.protocolEvents.length
  near : s.relay.live = true → Broadcast.backlog s.protocolEvents s.relayNext ≤ eventBroadcastCapacity
  alive : s.relay.live = false → s.protocolOpen = false
  sockets : ∀ w ∈ s.sockets, WsOk s.bus s.busOpen w

/-- The handlers after one more event on a bus that was ready for it. -/
theorem WsOk.publish {s : Consumers} (hr : BusReady s) (event : ProtocolEvent)
    (h : ∀ w ∈ s.sockets, WsOk s.bus s.busOpen w) :
    ∀ w ∈ s.sockets, WsOk (s.bus ++ [event]) s.busOpen w := by
  intro w hw
  obtain ⟨hle, -, hal⟩ := h w hw
  refine ⟨?_, fun hl => ?_, hal⟩
  · rw [List.length_append]; omega
  · have := hr w hw hl
    rw [Broadcast.backlog_append _ _ hle]; omega

theorem WsOk.take {bus : List ProtocolEvent} {busOpen : Bool} {w : Ws} {event : ProtocolEvent} {time : Option UInt64}
    (h : WsOk bus busOpen w) (hl : w.pc.live = true) (hlt : w.next < bus.length) :
    WsOk bus busOpen (Ws.take w event time) := by
  have hn : (Ws.take w event time).next = w.next + 1 := by
    unfold Ws.take; dsimp only; split
    · split <;> rfl
    · rfl
  have hp : (Ws.take w event time).pc.live = true := by
    unfold Ws.take; dsimp only; split
    · split
      · rfl
      · exact hl
    · exact hl
  refine ⟨by rw [hn]; omega, fun _ => ?_, fun hd => by rw [hp] at hd; cases hd⟩
  have := h.near hl
  rw [hn]
  simp only [Broadcast.backlog] at this ⊢
  omega

/-- A receive within the capacity ends a handler only on a bus without senders. -/
theorem WsOk.recv {bus : List ProtocolEvent} {busOpen : Bool} {w w' : Ws} {time : Option UInt64}
    (h : WsOk bus busOpen w) (hr : Ws.recv w bus busOpen time = some w') : WsOk bus busOpen w' := by
  unfold Ws.recv at hr
  split at hr
  · rename_i hpc
    have hl : w.pc.live = true := by rw [hpc]; rfl
    split at hr
    · rename_i event n hv
      cases hr
      exact h.take hl (Broadcast.recv_value hv).2.2
    · -- a lag needs a backlog above the capacity
      rename_i k n hv
      have := Broadcast.recv_lagged hv
      have := h.near hl
      omega
    · rename_i n hv
      cases hr
      exact ⟨h.le, fun hl' => (by cases hl'), fun _ => .inr (Broadcast.recv_closed hv)⟩
    · cases hr
  · cases hr

theorem WsOk.sent {bus : List ProtocolEvent} {busOpen : Bool} {w w' : Ws} {ok : Bool}
    (h : WsOk bus busOpen w) (hs : Ws.sent w ok = some w') : WsOk bus busOpen w' := by
  unfold Ws.sent at hs
  split at hs
  · rename_i text hpc
    have hl : w.pc.live = true := by rw [hpc]; rfl
    split at hs
    · cases hs
      exact ⟨h.le, fun _ => h.near hl, fun hd => by cases hd⟩
    · split at hs
      · cases hs
      · rename_i hacc
        cases hs
        exact ⟨h.le, fun hl' => (by cases hl'), fun _ => .inl (Bool.eq_false_iff.2 hacc)⟩
  · cases hs

/-- The relay receives: an event, within the capacity, or the end of a channel without senders. -/
theorem Inv.relayRecv {s s' : Consumers} (h : Inv s) (hready : s.nextToBus = true → BusReady s)
    (hs : step s .relayRecv = some s') : Inv s' := by
  cases hpc : s.relay with
  | dispatching event => simp [step, hpc] at hs
  | exited => simp [step, hpc] at hs
  | receiving =>
    have hl : s.relay.live = true := by rw [hpc]; rfl
    have hnear := h.near hl
    simp only [step, hpc] at hs
    split at hs
    · rename_i event n hv
      obtain ⟨hget, -, hlt⟩ := Broadcast.recv_value hv
      rw [nextToBus, hget] at hready
      have hb : Broadcast.backlog s.protocolEvents (s.relayNext + 1) ≤ eventBroadcastCapacity := by
        simp only [Broadcast.backlog] at hnear ⊢; omega
      cases hs
      cases event with
      | messageReceived m => exact ⟨hlt, fun _ => hb, fun hd => (by cases hd), h.sockets⟩
      | connected e => exact ⟨hlt, fun _ => hb, fun hd => (by cases hd), WsOk.publish (hready rfl) _ h.sockets⟩
      | disconnected => exact ⟨hlt, fun _ => hb, fun hd => (by cases hd), WsOk.publish (hready rfl) _ h.sockets⟩
      | warning t => exact ⟨hlt, fun _ => hb, fun hd => (by cases hd), WsOk.publish (hready rfl) _ h.sockets⟩
    · rename_i k n hv
      have := Broadcast.recv_lagged hv
      omega
    · rename_i n hv
      cases hs
      exact ⟨h.le, fun hl' => (by cases hl'), fun _ => Broadcast.recv_closed hv, h.sockets⟩
    · cases hs

theorem step_inv (s : Consumers) (e : Event) (s' : Consumers) (h : Inv s) (hc : Paced s e) (hs : step s e = some s') :
    Inv s' := by
  cases e with
  | send event =>
    simp only [step, Option.ite_none_right_eq_some, Option.some.injEq] at hs
    obtain ⟨-, rfl⟩ := hs
    refine ⟨?_, fun hl => ?_, h.alive, h.sockets⟩
    · have := h.le
      simp only [List.length_append, List.length_singleton]; omega
    · have := hc hl
      rw [Broadcast.backlog_append _ _ h.le]; omega
  | dropProtocolSenders => cases hs; exact ⟨h.le, h.near, fun _ => rfl, h.sockets⟩
  | relayRecv => exact h.relayRecv hc hs
  | relayDispatched =>
    cases hpc : s.relay with
    | receiving => simp [step, hpc] at hs
    | exited => simp [step, hpc] at hs
    | dispatching event =>
      simp only [step, hpc, Option.some.injEq] at hs
      subst hs
      exact ⟨h.le, fun _ => h.near (by rw [hpc]; rfl), fun hd => (by cases hd), WsOk.publish hc _ h.sockets⟩
  | publish event =>
    simp only [step, Option.ite_none_right_eq_some, Option.some.injEq] at hs
    obtain ⟨-, rfl⟩ := hs
    exact ⟨h.le, h.near, h.alive, WsOk.publish hc _ h.sockets⟩
  | dropBusSenders =>
    simp only [step, Option.ite_none_right_eq_some, Option.some.injEq] at hs
    obtain ⟨-, rfl⟩ := hs
    exact ⟨h.le, h.near, h.alive, fun w hw => ⟨(h.sockets w hw).le, (h.sockets w hw).near, fun _ => .inr rfl⟩⟩
  | wsOpen types =>
    cases hs
    refine ⟨h.le, h.near, h.alive, Threads.forall_append h.sockets ⟨le_rfl, fun _ => ?_, fun hd => by cases hd⟩⟩
    simp only [Broadcast.backlog]; omega
  | wsRecv i time =>
    obtain ⟨w, hw, hs⟩ := Option.bind_eq_some_iff.1 hs
    obtain ⟨w', hr, rfl⟩ := Option.map_eq_some_iff.1 hs
    exact ⟨h.le, h.near, h.alive, Threads.forall_set h.sockets ((h.sockets w (Threads.mem_of_get hw)).recv hr)⟩
  | wsSent i ok =>
    obtain ⟨w, hw, hs⟩ := Option.bind_eq_some_iff.1 hs
    obtain ⟨w', hr, rfl⟩ := Option.map_eq_some_iff.1 hs
    exact ⟨h.le, h.near, h.alive, Threads.forall_set h.sockets ((h.sockets w (Threads.mem_of_get hw)).sent hr)⟩
  | wsBroken i =>
    obtain ⟨w, hw, rfl⟩ := Option.map_eq_some_iff.1 hs
    obtain ⟨hle, hn, -⟩ := h.sockets w (Threads.mem_of_get hw)
    exact ⟨h.le, h.near, h.alive, Threads.forall_set h.sockets ⟨hle, hn, fun _ => .inl rfl⟩⟩

theorem Inv.init : Inv {} where
  le := le_rfl
  near _ := by decide
  alive h := by cases h
  sockets w hw := by cases hw

/-- In every paced run the consumers survive. -/
theorem consumers_survive {es : List Event} {s : Consumers} (hc : Run.Along step Paced {} es)
    (hs : Run.exec step {} es = some s) : Alive s := by
  have h : Inv s := Run.exec_inv step_inv es _ _ Inv.init hc hs
  exact ⟨h.alive, fun w hw => (h.sockets w hw).alive⟩

/-- A warning relayed to a WebSocket, whose write then fails. -/
def brokenSocket : List Event :=
  [.wsOpen none, .send (.warning "w"), .relayRecv, .wsRecv 0 (some 7), .wsBroken 0, .wsSent 0 false]

theorem consumers_survive_brokenSocket : ∃ s, Run.exec step {} brokenSocket = some s ∧ Alive s := by
  have h : (Run.exec step {} brokenSocket).isSome := by decide +kernel
  obtain ⟨s, hs⟩ := Option.isSome_iff_exists.1 h
  exact ⟨s, hs, consumers_survive (by decide +kernel) hs⟩

/-- One event more than the capacity, sent before the relay receives any. -/
def burst : List Event := List.replicate 129 (.send .disconnected) ++ [.relayRecv]

/-- The relay lags, exits, and leaves an open channel behind. -/
theorem burst_ends_relay : ∃ s, Run.exec step {} burst = some s ∧ ¬ Alive s := by
  have hk : (Run.exec step {} burst).map (fun s => (s.relay.live, s.protocolOpen)) = some (false, true) := by
    decide +kernel
  obtain ⟨s, hs, hk⟩ := Option.map_eq_some_iff.1 hk
  rw [Prod.mk.injEq] at hk
  refine ⟨s, hs, fun ha => ?_⟩
  rw [ha.relay hk.1] at hk
  cases hk.2

end Consumers

end NapCat.Api
