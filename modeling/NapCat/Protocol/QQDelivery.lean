/-
What one listener of the QQ client backend delivers, while packets arrive and it stays connected with
a receiver on the notify channel: every receive in its place, whatever comes of it, and no end.
-/
import NapCat.Protocol.QQListener
import NapCat.QQClient.Mock

namespace NapCat

open QQClient (Packet QQClientError packetOf)

/-- `MockQQClient::inject_packet`. -/
def QQClient.Mock.injectPacket (m : QQClient.Mock) (packet : Packet) : QQClient.Mock :=
  { m with inboundPackets := m.inboundPackets ++ [packet] }

namespace QQBackend

/-- What a receive returns. -/
abbrev Received := Except QQClientError (Option Packet)

/-- The backend, and the packets that have arrived and not been received. -/
structure Feed where
  backend : Shared
  inbound : List Packet

namespace Feed

/-- A packet arrives; the listener is polled; or its receive returns. -/
inductive Event
  | inject (packet : Packet)
  | poll
  | receive (r : Received)

/-- The packets left by a receive: it takes the first one, or finds none for now, or fails. -/
def take (inbound : List Packet) : Received → Option (List Packet)
  | .ok (some packet) => if inbound.head? = some packet then some inbound.tail else none
  | .ok none | .error _ => some inbound

/-- Listener `t` runs while notify has a receiver. -/
def step (t : Nat) (s : Feed) : Event → Option Feed
  | .inject packet => some { s with inbound := s.inbound ++ [packet] }
  | .poll => (env s.backend (.listener t .go)).map fun backend => { s with backend }
  | .receive r => (take s.inbound r).bind fun inbound =>
      (env s.backend (.listener t (.received r true))).map fun backend => { backend, inbound }

/-- The mock client injects and receives like this. -/
theorem take_mock (m : QQClient.Mock) (packet : Packet) :
    (m.injectPacket packet).inboundPackets = m.inboundPackets ++ [packet] ∧
    m.receivePacket.2 = .ok (.packet m.inboundPackets.head?) ∧
    take m.inboundPackets (.ok m.inboundPackets.head?) = some m.receivePacket.1.inboundPackets := by
  refine ⟨rfl, rfl, ?_⟩
  rw [QQClient.Mock.receivePacket]
  cases m.inboundPackets with
  | nil => rfl
  | cons p rest => exact if_pos rfl

/-! ## What is expected -/

/-- The event of a packet, or the warning that it is malformed. -/
def expectedOf (packet : Packet) : List ProtocolEvent :=
  if packet.route = "message.received" then
    match decodeJson packet.payload with
    | .ok message => [.messageReceived message]
    | .error e => [.warning ("failed to parse inbound packet: " ++ (ProtocolError.serialization e.text).text)]
  else if packet.route = "client.connected" ∨ packet.route = "client.session" then [.connected packet.payload]
  else if packet.route = "system.error" then [.warning packet.payload]
  else []

def expected : Received → List ProtocolEvent
  | .ok (some packet) => expectedOf packet
  | .ok none => []
  | .error e => [.warning ("receive packet failed: " ++ e.text)]

/-- The message of a well-formed `message.received` packet. -/
def messageOf (packet : Packet) : Option Message :=
  if packet.route = "message.received" then (decodeJson packet.payload).toOption else none

def received : Event → Option Received
  | .receive r => some r
  | _ => none

def injected : Event → Option Packet
  | .inject packet => some packet
  | _ => none

/-- The packet a step takes. -/
def taken (e : Event) : Option Packet := (received e).bind packetOf

def messageIn : ProtocolEvent → Option Message
  | .messageReceived message => some message
  | _ => none

/-- The listener is in its loop, and the loop goes on. -/
structure Looping (t : Nat) (g : Shared) : Prop where
  goesOn : g.goesOn = true
  inLoop : ∃ l, g.listeners[t]? = some l ∧ l.inLoop = true

/-- A `message.received` packet is decoded, and of the others each route has its event or none. -/
theorem decodeInboundPacket_cases (packet : Packet) :
    (packet.route = "message.received" ∧ decodeInboundPacket packet = (match decodeJson packet.payload with
      | .ok message => .ok (some (.messageReceived message))
      | .error e => .error (.serialization e.text))) ∨
    (packet.route ≠ "message.received" ∧ ((expectedOf packet = [] ∧ decodeInboundPacket packet = .ok none) ∨
      ∃ event, expectedOf packet = [event] ∧ decodeInboundPacket packet = .ok (some event) ∧
        messageIn event = none)) := by
  by_cases hm : packet.route = "message.received"
  · left
    refine ⟨hm, ?_⟩
    cases hd : decodeJson packet.payload <;> simp only [decodeInboundPacket, hm, hd]
  · refine .inr ⟨hm, ?_⟩
    by_cases hc : packet.route = "client.connected" ∨ packet.route = "client.session"
    · refine .inr ⟨.connected packet.payload, by rw [expectedOf, if_neg hm, if_pos hc], ?_, rfl⟩
      rcases hc with hc | hc <;> simp only [decodeInboundPacket, hc]
    · by_cases he : packet.route = "system.error"
      · refine .inr ⟨.warning packet.payload, by rw [expectedOf, if_neg hm, if_neg hc, if_pos he], ?_, rfl⟩
        simp only [decodeInboundPacket, he]
      · refine .inl ⟨by rw [expectedOf, if_neg hm, if_neg hc, if_neg he], ?_⟩
        obtain ⟨hc, hs⟩ := not_or.1 hc
        unfold decodeInboundPacket
        split <;> first | contradiction | rfl

/-- A receive sends what is expected, and does not end the loop. -/
theorem handleReceived_expected (r : Received) :
    (handleReceived true r).1 = expected r ∧ (handleReceived true r).2 ≠ .leave := by
  rcases r with e | _ | packet
  · exact ⟨rfl, Iteration.noConfusion⟩
  · exact ⟨rfl, Iteration.noConfusion⟩
  · rcases decodeInboundPacket_cases packet with ⟨hr, hd⟩ | ⟨-, ⟨he, hd⟩ | ⟨event, he, hd, -⟩⟩
    · rw [handleReceived, hd, expected, expectedOf, if_pos hr]
      cases decodeJson packet.payload with
      | ok message => exact ⟨rfl, Iteration.noConfusion⟩
      | error e => exact ⟨rfl, Iteration.noConfusion⟩
    · rw [handleReceived, hd, expected, he]
      exact ⟨rfl, Iteration.noConfusion⟩
    · rw [handleReceived, hd, expected, he]
      exact ⟨rfl, Iteration.noConfusion⟩

/-- The messages among what is expected are those of the well-formed packets. -/
theorem messages_expected (r : Received) :
    (expected r).filterMap messageIn = (packetOf r).toList.filterMap messageOf := by
  rcases r with e | _ | packet
  · rfl
  · rfl
  · show (expectedOf packet).filterMap messageIn = [packet].filterMap messageOf
    rcases decodeInboundPacket_cases packet with ⟨hr, -⟩ | ⟨hr, ⟨he, -⟩ | ⟨event, he, -, hn⟩⟩
    · rw [expectedOf, if_pos hr, List.filterMap_cons, messageOf, if_pos hr]
      cases decodeJson packet.payload <;> rfl
    · rw [he, List.filterMap_cons, messageOf, if_neg hr]
      rfl
    · rw [he, List.filterMap_cons, hn, List.filterMap_cons, messageOf, if_neg hr]
      rfl

/-! ## One step -/

/-- A listener whose loop goes on and that does not leave it is in it after its step. -/
theorem Looping.listener {t : Nat} {g g' : Shared} {a : ListenerAct} (h : Looping t g)
    (he : env g (.listener t a) = some g') (hl : ∀ l r, Listener.iteration l a = some r → r.2 ≠ .leave) :
    Looping t g' ∧ ∃ l r, Listener.iteration l a = some r ∧ g'.notified = g.notified ++ r.1.map (t, ·) := by
  obtain ⟨l, g₁, l', hlt, hs, rfl⟩ := env_listener he
  obtain ⟨⟨events, i⟩, hi, hs⟩ := Option.map_eq_some_iff.1 hs
  obtain ⟨pos, hn⟩ : ∃ pos, l.next g i = some pos := by
    cases i with
    | leave => exact absurd rfl (hl l _ hi)
    | again => exact ⟨_, if_pos h.goesOn⟩
    | sleep =>
      rw [Listener.next, if_pos h.goesOn]
      split <;> exact ⟨_, rfl⟩
  simp only [hn, Prod.mk.injEq] at hs
  obtain ⟨rfl, rfl⟩ := hs
  refine ⟨⟨h.goesOn, { l with pos }, ?_, next_inLoop hn⟩, l, _, hi, rfl⟩
  exact List.getElem?_set_self (List.getElem?_eq_some_iff.1 hlt).1

theorem iteration_received {l : Listener} {r : Received} {x : List ProtocolEvent × Iteration}
    (h : l.iteration (.received r true) = some x) : x = handleReceived true r := by
  unfold Listener.iteration at h
  dsimp only at h
  split at h
  · exact (Option.some.inj h).symm
  · cases h

theorem iteration_go {l : Listener} {x : List ProtocolEvent × Iteration} (h : l.iteration .go = some x) :
    x = ([], .again) := by
  unfold Listener.iteration at h
  dsimp only at h
  split at h
  · exact (Option.some.inj h).symm
  · exact (Option.some.inj h).symm
  · cases h

/-- What one step notifies, and which packets it moves. -/
theorem Looping.step {t : Nat} {s s' : Feed} {e : Event} (h : Looping t s.backend) (hs : step t s e = some s') :
    Looping t s'.backend ∧
    s'.backend.notified = s.backend.notified ++ ((received e).toList.flatMap expected).map (t, ·) ∧
    (taken e).toList ++ s'.inbound = s.inbound ++ (injected e).toList := by
  cases e with
  | inject packet =>
    cases hs
    exact ⟨h, (List.append_nil _).symm, rfl⟩
  | poll =>
    obtain ⟨g, he, rfl⟩ := Option.map_eq_some_iff.1 hs
    obtain ⟨hl, l, x, hi, hn⟩ := h.listener he fun l r hi => by
      rw [iteration_go hi]; exact Iteration.noConfusion
    rw [iteration_go hi] at hn
    exact ⟨hl, hn, (List.append_nil _).symm⟩
  | receive r =>
    obtain ⟨inbound, ht, hs⟩ := Option.bind_eq_some_iff.1 hs
    obtain ⟨g, he, rfl⟩ := Option.map_eq_some_iff.1 hs
    obtain ⟨hl, l, x, hi, hn⟩ := h.listener he fun l x hi => by
      rw [iteration_received hi]; exact (handleReceived_expected r).2
    rw [iteration_received hi, (handleReceived_expected r).1] at hn
    refine ⟨hl, ?_, ?_⟩
    · rw [received, Option.toList_some, List.flatMap_singleton]
      exact hn
    · rcases r with e | _ | packet
      · cases ht
        exact (List.append_nil _).symm
      · cases ht
        exact (List.append_nil _).symm
      · unfold take at ht
        dsimp only at ht
        split_ifs at ht with hp
        cases ht
        obtain ⟨rest, hrest⟩ : ∃ rest, s.inbound = packet :: rest := List.head?_eq_some_iff.1 hp
        rw [hrest]
        exact (List.append_nil _).symm

/-! ## Runs -/

/-- What a run of the listener from `s` to `s'` delivers: the notified events are the expected ones of
its receives, in their order; the messages among them are those of the well-formed packets it took; the
packets it took and those that are left are those that were there and those that arrived; and it loops. -/
structure Delivered (t : Nat) (s s' : Feed) (es : List Event) : Prop where
  notified : s'.backend.notified = s.backend.notified ++ ((es.filterMap received).flatMap expected).map (t, ·)
  messages : ((es.filterMap received).flatMap expected).filterMap messageIn = (es.filterMap taken).filterMap messageOf
  arrival : es.filterMap taken ++ s'.inbound = s.inbound ++ es.filterMap injected
  looping : Looping t s'.backend

theorem messages_taken (es : List Event) :
    ((es.filterMap received).flatMap expected).filterMap messageIn = (es.filterMap taken).filterMap messageOf := by
  have ht : es.filterMap taken = (es.filterMap received).filterMap packetOf := List.filterMap_filterMap.symm
  rw [ht, List.filterMap_flatMap, List.filterMap_eq_flatMap_toList packetOf, List.filterMap_flatMap]
  exact congrArg (fun f => (es.filterMap received).flatMap f) (funext messages_expected)

theorem filterMap_cons_toList {α β : Type} (f : α → Option β) (a : α) (l : List α) :
    (a :: l).filterMap f = (f a).toList ++ l.filterMap f := by
  rw [List.filterMap_cons]
  cases f a <;> rfl

theorem Looping.run {t : Nat} : ∀ {es : List Event} {s s' : Feed}, Looping t s.backend →
    Run.exec (Feed.step t) s es = some s' → Looping t s'.backend ∧
      s'.backend.notified = s.backend.notified ++ ((es.filterMap received).flatMap expected).map (t, ·) ∧
      es.filterMap taken ++ s'.inbound = s.inbound ++ es.filterMap injected
  | [], s, s', h, hs => by
    cases hs
    exact ⟨h, (List.append_nil _).symm, (List.append_nil _).symm⟩
  | e :: es, s, s', h, hs => by
    obtain ⟨m, hm, hs⟩ := Option.bind_eq_some_iff.1 hs
    obtain ⟨hl, hn, ha⟩ := h.step hm
    obtain ⟨hl', hn', ha'⟩ := Looping.run hl hs
    refine ⟨hl', ?_, ?_⟩
    · rw [hn', hn, filterMap_cons_toList, List.flatMap_append, List.map_append, List.append_assoc]
    · rw [filterMap_cons_toList taken, filterMap_cons_toList injected, List.append_assoc, ha', ← List.append_assoc, ha,
        List.append_assoc]

/-- Of every run of a listener that is in its loop, while it stays connected and has a receiver. -/
theorem qq_listener_delivers {t : Nat} {es : List Event} {s s' : Feed} (h : Looping t s.backend)
    (hs : Run.exec (Feed.step t) s es = some s') : Delivered t s s' es := by
  obtain ⟨hl, hn, ha⟩ := h.run hs
  exact ⟨hn, messages_taken es, ha, hl⟩

/-- The loop does not get stuck: a poll is due, or whatever the receive returns is handled. -/
theorem Looping.goes {t : Nat} {s : Feed} (h : Looping t s.backend) :
    (∃ s', Feed.step t s .poll = some s') ∨
    ∀ r inbound, take s.inbound r = some inbound → ∃ s', Feed.step t s (.receive r) = some s' := by
  obtain ⟨l, hl, hin⟩ := h.inLoop
  cases hp : l.pos with
  | spawned | sleeping =>
    left
    simp only [Feed.step, env, hl, Option.bind_some, Listener.step, Listener.iteration, hp, Option.map_some,
      Option.some.injEq, exists_eq']
  | receiving =>
    right
    intro r inbound ht
    simp only [Feed.step, ht, env, hl, Option.bind_some, Listener.step, Listener.iteration, hp, Option.map_some,
      Option.some.injEq, exists_eq']
  | aborted | ended =>
    rw [Listener.inLoop, hp] at hin
    cases hin

/-- A backend that has just begun to listen. -/
def listening : Shared where
  config := { endpoint := "mock://localhost" }
  client := .connected
  connected := true
  listening := true
  listenTask := some 0
  listeners := [{ pollMs := 150 }]

/-- A message, a malformed one and a packet of an unknown route arrive around the receives, of which one
finds nothing and one fails. -/
def mixed : List Event :=
  [.inject ⟨"message.received", encodeJson (.ofText "m1" "alice" (.group "g1") "hi")⟩, .poll,
    .receive (.ok (some ⟨"message.received", encodeJson (.ofText "m1" "alice" (.group "g1") "hi")⟩)),
    .inject ⟨"message.received", "hi"⟩, .inject ⟨"friend.added", "bob"⟩, .receive (.error (.timeout "receive timeout")),
    .poll, .receive (.ok (some ⟨"message.received", "hi"⟩)), .receive (.ok (some ⟨"friend.added", "bob"⟩)),
    .receive (.ok none)]

theorem qq_listener_delivers_mixed : ∃ s', Run.exec (Feed.step 0) ⟨listening, []⟩ mixed = some s' ∧
    Delivered 0 ⟨listening, []⟩ s' mixed := by
  have h : (Run.exec (Feed.step 0) ⟨listening, []⟩ mixed).isSome := by decide +kernel
  obtain ⟨s', hs⟩ := Option.isSome_iff_exists.1 h
  exact ⟨s', hs, qq_listener_delivers ⟨rfl, _, rfl, rfl⟩ hs⟩

end Feed

end QQBackend

end NapCat
