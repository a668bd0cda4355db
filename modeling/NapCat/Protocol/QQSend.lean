/-
`QQClientBackend::send_message` over a `TcpQQClient`. A message becomes one packet, and a packet one line. Whatever
the client does besides, and wherever lines are cut, the messages that the peer reads are messages that were sent, each
call's once and unaltered; and whether the peer reads the message of a call that has succeeded is told exactly.
-/
import NapCat.Protocol.QQBackend
import NapCat.Protocol.RoundTrip
import NapCat.QQClient.Origin

namespace NapCat

open QQClient (Packet QQClientError)
open QQClient.Tcp (Op)
open QQClient.Outbound (Conn Sent codec peerPackets IsControl Answered Owned step_answered step_owned)

/-- Derive a send packet for outgoing message delivery. -/
def messageToPacket (message : Message) : Packet where
  route := match message.recipient with
    | .privateUser _ => "message.private"
    | .group _ => "message.group"
  payload := encodeJson message

namespace QQBackend

/-- `send_message` up to its call of the client. -/
def sendMessage (connected : Bool) (message : Message) : Except ProtocolError Packet :=
  if connected then .ok (messageToPacket message) else .error (.transport "protocol is not connected")

/-- What `send_message` makes of the result of that call. -/
def sendResult (r : Except QQClientError Unit) : Except ProtocolError Unit := r.mapError fun e => .transport e.text

end QQBackend

/-- The backend's `connected` flag, its client with the connections, and the messages whose packets the client was
called with, each with the number of its call. -/
structure Messenger where
  connected : Bool := false
  wire : QQClient.Outbound.Sys := {}
  said : List (Nat × Message) := []

namespace Messenger

/-- The flag is written; a message, of value trees, is sent; or the client does something else. -/
inductive Event
  | connected (b : Bool)
  | sendMessage (message : Message) (values : message.Values)
  | client (e : QQClient.Outbound.Event)

def sendsPacket : QQClient.Outbound.Event → Bool
  | .start (.sendPacket _) => true
  | _ => false

/-- Packets are sent by `send_message` only. -/
def step (s : Messenger) : Event → Option Messenger
  | .connected b => some { s with connected := b }
  | .sendMessage message _ =>
    match QQBackend.sendMessage s.connected message with
    | .error _ => some s
    | .ok packet => (QQClient.Outbound.step s.wire (.start (.sendPacket packet))).map fun wire =>
        { s with wire := wire, said := s.said ++ [(s.wire.ops.length, message)] }
  | .client e =>
    if sendsPacket e then none
    else (QQClient.Outbound.step s.wire e).map fun wire => { s with wire := wire }

/-! ## What the peer makes of packets -/

/-- The message of a packet that carries one. -/
def messageOfPacket (p : Packet) : Option Message :=
  if p.route = "message.private" ∨ p.route = "message.group" then (decodeJson p.payload).toOption else none

def peerMessages (bytes : List UInt8) : List Message := (peerPackets bytes).filterMap messageOfPacket

theorem route_messageToPacket (message : Message) :
    (messageToPacket message).route = "message.private" ∨ (messageToPacket message).route = "message.group" := by
  unfold messageToPacket
  dsimp only
  split
  · exact .inl rfl
  · exact .inr rfl

/-- The peer gets the message back if it does not nest too deeply. -/
theorem messageOfPacket_messageToPacket {message : Message} (h : message.Values) :
    messageOfPacket (messageToPacket message) =
      if message.toJson.depth < Json.recursionLimit then some message else none := by
  rw [messageOfPacket, if_pos (route_messageToPacket message)]
  show (decodeJson (encodeJson message)).toOption = _
  rw [decodeJson_encodeJson h]
  split_ifs <;> rfl

/-- The client's own packets carry none. -/
theorem messageOfPacket_control {p : Packet} (h : IsControl p) : messageOfPacket p = none := by
  refine if_neg fun hr => ?_
  rcases h with h | h <;> rcases hr with hr | hr <;> exact absurd (h.symm.trans hr) (by decide)

/-! ## Along a run -/

/-- What a call of `send_message` that has reached the client has been answered with. -/
def outcome (s : Messenger) (i : Nat) : Option (Except ProtocolError Unit) :=
  match s.wire.client.calls[i]? with
  | some (.done r) => some (QQBackend.sendResult (r.map fun _ => ()))
  | _ => none

/-- The messages are those of the calls of `send_packet`, one each. -/
structure Inv (s : Messenger) : Prop where
  wire : QQClient.Outbound.Inv s.wire
  answered : Answered s.wire
  owned : Owned s.wire
  keys : (s.said.map Prod.fst).Nodup
  values : ∀ x ∈ s.said, x.2.Values
  called : ∀ x ∈ s.said, s.wire.ops[x.1]? = some (.sendPacket (messageToPacket x.2))
  said : ∀ i p, s.wire.ops[i]? = some (.sendPacket p) → ∃ m, (i, m) ∈ s.said ∧ p = messageToPacket m

theorem Inv.init : Inv {} where
  wire := .init
  answered := ⟨rfl, fun i p hi => by cases hi⟩
  owned := .init
  keys := List.nodup_nil
  values x hx := by cases hx
  called x hx := by cases hx
  said i p hi := by cases hi

/-- A step of the client adds at most the call that begins in it. -/
theorem ops_step {s s' : QQClient.Outbound.Sys} {e : QQClient.Outbound.Event}
    (hs : QQClient.Outbound.step s e = some s') :
    s'.ops = s.ops ∨ ∃ op, e = .start op ∧ s'.ops = s.ops ++ [op] := by
  cases e with
  | start op =>
    obtain ⟨client, -, rfl⟩ := Option.map_eq_some_iff.1 hs
    exact .inr ⟨op, rfl, rfl⟩
  | act i a =>
    obtain ⟨q, -, hs⟩ := Option.bind_eq_some_iff.1 hs
    obtain ⟨conns, -, hs⟩ := Option.bind_eq_some_iff.1 hs
    obtain ⟨client, -, rfl⟩ := Option.map_eq_some_iff.1 hs
    exact .inl rfl
  | feed i n =>
    simp only [QQClient.Outbound.step] at hs
    split at hs
    · split_ifs at hs
      cases hs
      exact .inl rfl
    · cases hs
  | drop i =>
    simp only [QQClient.Outbound.step] at hs
    split at hs
    · cases hs
    · split_ifs at hs
      · split at hs <;> cases hs
        exact .inl rfl
      · cases hs
        exact .inl rfl

/-- Another call begins: those before it keep their numbers. -/
theorem Inv.grow {s : Messenger} {wire : QQClient.Outbound.Sys} {op : Op} (h : Inv s)
    (hops : wire.ops = s.wire.ops ++ [op]) :
    ∀ x ∈ s.said, wire.ops[x.1]? = some (.sendPacket (messageToPacket x.2)) := by
  intro x hx
  have hx := h.called x hx
  rw [hops]
  exact (List.getElem?_append_left (List.getElem?_eq_some_iff.1 hx).1).trans hx

theorem step_inv (s : Messenger) (e : Event) (s' : Messenger) (h : Inv s) (hs : step s e = some s') : Inv s' := by
  cases e with
  | connected b =>
    cases hs
    exact ⟨h.wire, h.answered, h.owned, h.keys, h.values, h.called, h.said⟩
  | sendMessage message values =>
    simp only [step] at hs
    split at hs
    · cases hs
      exact h
    · rename_i packet hp
      obtain ⟨wire, hw, rfl⟩ := Option.map_eq_some_iff.1 hs
      have hpacket : packet = messageToPacket message := by
        unfold QQBackend.sendMessage at hp
        split_ifs at hp
        cases hp
        rfl
      subst hpacket
      obtain hops : wire.ops = s.wire.ops ++ [.sendPacket (messageToPacket message)] := by
        obtain ⟨client, -, rfl⟩ := Option.map_eq_some_iff.1 hw
        rfl
      have hfresh : ∀ x ∈ s.said, x.1 < s.wire.ops.length := fun x hx =>
        (List.getElem?_eq_some_iff.1 (h.called x hx)).1
      refine ⟨QQClient.Outbound.step_inv _ _ _ h.wire hw, step_answered h.wire h.answered hw,
        step_owned _ _ _ h.owned hw, ?_, ?_, ?_, fun i p hi => ?_⟩
      · rw [List.map_append]
        refine h.keys.append (List.nodup_singleton _) fun i hi hi' => ?_
        obtain ⟨x, hx, rfl⟩ := List.mem_map.1 hi
        exact absurd (hfresh x hx) (by rw [List.mem_singleton.1 hi']; exact lt_irrefl _)
      · exact Threads.forall_append h.values values
      · refine Threads.forall_append (h.grow hops) ?_
        rw [hops]
        exact List.getElem?_concat_length
      · rw [hops] at hi
        rcases Threads.get_append hi with ⟨rfl, he⟩ | hi
        · cases he
          exact ⟨message, List.mem_append_right _ List.mem_cons_self, rfl⟩
        · obtain ⟨m, hm, hp⟩ := h.said i p hi
          exact ⟨m, List.mem_append_left _ hm, hp⟩
  | client e =>
    obtain ⟨he, hs⟩ := Option.ite_none_left_eq_some.1 hs
    obtain ⟨wire, hw, rfl⟩ := Option.map_eq_some_iff.1 hs
    refine ⟨QQClient.Outbound.step_inv _ _ _ h.wire hw, step_answered h.wire h.answered hw,
      step_owned _ _ _ h.owned hw, h.keys, h.values, ?_, ?_⟩
    · rcases ops_step hw with hops | ⟨op, -, hops⟩
      · intro x hx
        rw [hops]
        exact h.called x hx
      · exact h.grow hops
    · intro i p hi
      rcases ops_step hw with hops | ⟨op, rfl, hops⟩
      · rw [hops] at hi
        exact h.said i p hi
      · rw [hops] at hi
        rcases Threads.get_append hi with ⟨-, rfl⟩ | hi
        · exact absurd rfl he
        · exact h.said i p hi

theorem run_inv {es : List Event} {s : Messenger} (hs : Run.exec step {} es = some s) : Inv s :=
  Run.exec_inv_always step_inv es _ _ .init hs

/-- The calls whose messages the peer reads from a connection, in their order there. -/
def heardCalls (c : Conn) : List Nat :=
  ((codec.readable false c.written).filter fun k => (messageOfPacket k.packet).isSome).map Sent.call

/-- The message that a line of a call gives the peer, and its call: the peer reads what the call was made with. -/
theorem Inv.message {s : Messenger} (h : Inv s) {c : Conn} (hc : c ∈ s.wire.conns) {k : Sent}
    (hk : k ∈ codec.readable false c.written) {m : Message} (hm : messageOfPacket k.packet = some m) :
    (k.call, m) ∈ s.said := by
  obtain ⟨x, hx, rfl⟩ := List.mem_map.1 ((codec.readable_sublist c.written false).subset hk)
  rcases h.owned.lines c hc x (List.mem_filter.1 hx).1 with hop | hcontrol
  · obtain ⟨m', hm', hp⟩ := h.said _ _ hop
    rw [hp, messageOfPacket_messageToPacket (h.values _ hm')] at hm
    split_ifs at hm
    cases hm
    exact hm'
  · rw [messageOfPacket_control hcontrol] at hm
    cases hm

theorem nodup_heardCalls {s : Messenger} (h : Inv s) {c : Conn} (hc : c ∈ s.wire.conns) : (heardCalls c).Nodup := by
  have hread := (codec.readable_sublist c.written false).map Sent.call
  rw [List.map_map] at hread
  have hwhole : ((c.written.filter codec.whole).map fun k => k.frame.call).Sublist
      (c.written.map fun k => k.frame.call) := List.filter_sublist.map _
  exact (h.wire.conns c hc).calls.sublist ((List.filter_sublist.map Sent.call).trans (hread.trans hwhole))

theorem peerMessages_eq {s : Messenger} (h : Inv s) {c : Conn} (hc : c ∈ s.wire.conns) :
    peerMessages c.bytes = (codec.readable false c.written).filterMap fun k => messageOfPacket k.packet := by
  rw [peerMessages, peerPackets, (h.wire.conns c hc).bytes, codec.read_stream, List.filterMap_map]
  rfl

theorem values_ofText (id sender : String) (recipient : MessageRecipient) (text : String) :
    (Message.ofText id sender recipient text).Values := by
  intro p hp
  cases List.mem_singleton.1 hp

def logsIn : List QQClient.Outbound.Event :=
  [.start (.connect { endpoint := "127.0.0.1:9000" }), .act 0 (.io .ok), .act 0 .go, .act 0 .go, .act 0 .go, .act 0 .go,
    .start (.login "a" "b"), .act 1 .go, .act 1 .go, .feed 1 74, .act 1 (.io .ok), .act 1 .go, .act 1 .go,
    .act 1 (.convert none), .act 1 (.read (.line (QQClient.wireBytes ⟨"auth.ok", "\x7b\x7d"⟩))), .act 1 .go, .act 1 .go]

/-- A login, and a message. -/
def oneMessage : List Event :=
  .connected true :: logsIn.map .client ++
    .sendMessage (.ofText "1" "b" (.group "g") "a") (values_ofText _ _ _ _) ::
    [.act 2 .go, .act 2 .go, .feed 2 170, .act 2 (.io .ok)].map .client

theorem oneMessage_run : ∃ s, Run.exec step {} oneMessage = some s ∧ s.wire.conns.length = 1 ∧
    s.said.map Prod.fst = [2] ∧ s.outcome 2 = some (.ok ()) := by
  have hk : (Run.exec step {} oneMessage).map (fun s =>
      (s.wire.conns.length, s.said.map Prod.fst, (s.outcome 2).map Except.isOk)) = some (1, [2], some true) := by
    decide +kernel
  obtain ⟨s, hs, hk⟩ := Option.map_eq_some_iff.1 hk
  simp only [Prod.mk.injEq] at hk
  obtain ⟨hlen, hsaid, hok⟩ := hk
  obtain ⟨r, hr, hok⟩ := Option.map_eq_some_iff.1 hok
  cases r with
  | error e => cases hok
  | ok u => exact ⟨s, hs, hlen, hsaid, hr⟩

/-- The messages that the peer reads from a connection are, in the order of its lines, messages of different calls of
`send_message`, each as its call was given it. -/
theorem peer_hears {es : List Event} {s : Messenger} (hs : Run.exec step {} es = some s) {c : Conn}
    (hc : c ∈ s.wire.conns) : (s.said.map Prod.fst).Nodup ∧ (heardCalls c).Nodup ∧
      List.Forall₂ (fun i m => (i, m) ∈ s.said) (heardCalls c) (peerMessages c.bytes) := by
  have h := run_inv hs
  refine ⟨h.keys, nodup_heardCalls h hc, ?_⟩
  rw [peerMessages_eq h hc, heardCalls]
  have hmem : ∀ k ∈ codec.readable false c.written, ∀ m, messageOfPacket k.packet = some m → (k.call, m) ∈ s.said :=
    fun k hk m hm => h.message hc hk hm
  generalize codec.readable false c.written = frames at hmem
  induction frames with
  | nil => exact .nil
  | cons k frames ih =>
    obtain ⟨hk, hrest⟩ := List.forall_mem_cons.1 hmem
    rw [List.filter_cons, List.filterMap_cons]
    cases hm : messageOfPacket k.packet with
    | none => exact ih hrest
    | some m => exact .cons (hk m hm) (ih hrest)

theorem peer_hears_oneMessage : ∃ s, Run.exec step {} oneMessage = some s ∧ ∃ c ∈ s.wire.conns,
    List.Forall₂ (fun i m => (i, m) ∈ s.said) (heardCalls c) (peerMessages c.bytes) := by
  obtain ⟨s, hs, hlen, -⟩ := oneMessage_run
  obtain ⟨c, hc⟩ := List.length_pos_iff_exists_mem.1 (by rw [hlen]; decide)
  exact ⟨s, hs, c, hc, (peer_hears hs hc).2.2⟩

/-- A call of `send_message` that has returned `Ok(())` has its line on a connection, and the peer reads the message
there exactly if it does not nest too deeply and the line before it was not cut. -/
theorem answered_heard_iff {es : List Event} {s : Messenger} (hs : Run.exec step {} es = some s) {i : Nat} {m : Message}
    (hm : (i, m) ∈ s.said) (hok : s.outcome i = some (.ok ())) :
    ∃ c ∈ s.wire.conns, ∃ before k rest, c.written = before ++ k :: rest ∧ k.frame.call = i ∧
      (i ∈ heardCalls c ↔ m.toJson.depth < Json.recursionLimit ∧ ∀ t ∈ before.getLast?, codec.torn t = false) := by
  have h := run_inv hs
  have hop := h.called _ hm
  have hdone : s.wire.client.calls[i]? = some (.done (.ok .unit)) := by
    obtain ⟨q, hq, hat⟩ := h.answered.sends i _ hop
    rw [outcome, hq] at hok
    cases hat with
    | writing w => cases hok
    | refused e => cases hok
    | dropped => cases hok
    | answered c k hc hk hf => exact hq
  obtain ⟨c, hc, before, k, rest, hsplit, hframe, hwhole, hread⟩ :=
    QQClient.Outbound.sent_line h.wire h.answered hop hdone
  refine ⟨c, hc, before, k, rest, hsplit, by rw [hframe], ?_⟩
  have hpacket : (messageOfPacket (messageToPacket m)).isSome = true ↔ m.toJson.depth < Json.recursionLimit := by
    rw [messageOfPacket_messageToPacket (h.values _ hm)]
    split_ifs with hd <;> simp [hd]
  rw [← hread, ← hpacket, heardCalls, List.mem_map]
  constructor
  · rintro ⟨x, hx, hcall⟩
    obtain ⟨hx, hsome⟩ := List.mem_filter.1 hx
    -- the call has one line on the connection
    obtain ⟨y, hy, rfl⟩ := List.mem_map.1 ((codec.readable_sublist c.written false).subset hx)
    have hy := (List.mem_filter.1 hy).1
    have hk : k ∈ c.written := by
      rw [hsplit]
      exact List.mem_append_right _ List.mem_cons_self
    obtain rfl : y = k := List.inj_on_of_nodup_map (h.wire.conns c hc).calls hy hk (hcall.trans (by rw [hframe]))
    rw [hframe] at hx hsome
    exact ⟨hsome, hx⟩
  · rintro ⟨hsome, hx⟩
    exact ⟨_, List.mem_filter.2 ⟨hx, hsome⟩, rfl⟩

theorem answered_heard_iff_oneMessage : ∃ s m, Run.exec step {} oneMessage = some s ∧ (2, m) ∈ s.said ∧
    ∃ c ∈ s.wire.conns, ∃ before k rest, c.written = before ++ k :: rest ∧ k.frame.call = 2 ∧
      (2 ∈ heardCalls c ↔ m.toJson.depth < Json.recursionLimit ∧ ∀ t ∈ before.getLast?, codec.torn t = false) := by
  obtain ⟨s, hs, -, hsaid, hok⟩ := oneMessage_run
  have hmem : 2 ∈ s.said.map Prod.fst := by
    rw [hsaid]
    exact List.mem_cons_self
  obtain ⟨⟨i, m⟩, hm, rfl⟩ := List.mem_map.1 hmem
  exact ⟨s, m, hs, hm, answered_heard_iff hs hm hok⟩

end Messenger

end NapCat
