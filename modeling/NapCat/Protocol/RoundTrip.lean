/-
The JSON of messages and protocol events is read back as what was written: the three tagging schemes
one by one, then the element list, the message and the event. The nesting limit of a text is the only
thing in the way of a message whose payloads are value trees.
-/
import NapCat.Lib.Json.Value
import NapCat.Protocol.Event

namespace NapCat

open Json

/-- The embedded payloads are value trees. -/
def Message.Values (m : Message) : Prop := ∀ p, .json p ∈ m.elements → IsValue p

/-- The message of an event, if it carries one, is made of value trees. -/
def ProtocolEvent.Values : ProtocolEvent → Prop
  | .messageReceived m => m.Values
  | _ => True

/-! ## Recipients and elements -/

theorem MessageRecipient.decode_toJson (place : Place) (r : MessageRecipient) : decode place r.toJson = .ok r := by
  cases place <;> cases r <;> rfl

/-- An optional number is read back, whatever is made of it. -/
theorem return_asOption_u64 {α : Type} (f : Option UInt64 → α) (size : Option UInt64) :
    (do return f (← asOption asU64 (optionJson (fun n => ofNat n.toNat) size))) = Except.ok (f size) := by
  cases size with
  | none => rfl
  | some n =>
    show (do return f (← asOption asU64 (ofNat n.toNat))) = _
    rw [asOption_ofNat]
    rfl

/-- The numbers of an element are those of its payload, and integers. -/
theorem MessageElement.inRange_toJson (e : MessageElement) (h : ∀ p, e = .json p → IsValue p) :
    e.toJson.inRange = true := by
  have hn : ∀ size : Option UInt64, (optionJson (fun n => ofNat n.toNat) size).inRange = true := by
    intro size
    cases size with
    | none => rfl
    | some n => exact ofNat_inRange n
  cases e with
  | image p size | video p size => simp [toJson, Json.inRange, inRangeFields, hn]
  | json p => simp [toJson, Json.inRange, inRangeFields, (h p rfl).inRange]
  | file p md5 => cases md5 <;> rfl
  | _ => rfl

theorem MessageElement.decode_toJson (place : Place) (e : MessageElement) (h : ∀ p, e = .json p → IsValue p) :
    decode place e.toJson = if place.admits e.toJson then .ok e else .error .malformed := by
  have hr := e.inRange_toJson h
  cases ha : place.admits e.toJson with
  | false => exact if_neg fun hf => Bool.false_ne_true (ha.symm.trans hf.1)
  | true =>
    rw [decode, buffered_eq _ ha hr, if_pos rfl]
    cases e with
    | text t => rfl
    | image p size => exact return_asOption_u64 (image p) size
    | video p d => exact return_asOption_u64 (video p) d
    | file p md5 => cases md5 <;> rfl
    | atUser u => rfl
    | reply m => rfl
    | json p =>
      show (asValue p).bind (fun p => .ok (MessageElement.json p)) = _
      rw [asValue_eq (h p rfl)]
      rfl

/-! ## Messages and events -/

/-- A message is read back from where its elements are within the nesting limit. -/
theorem Message.decode_toJson (place : Place) {m : Message} (h : m.Values) : decode place m.toJson =
    if m.elements.all fun e => (place.inside 2).admits e.toJson then .ok m else .error .malformed := by
  have he : asVec (MessageElement.decode (place.inside 2)) (.arr (m.elements.map MessageElement.toJson)) =
      if m.elements.all fun e => (place.inside 2).admits e.toJson then .ok m.elements else .error .malformed :=
    asVec_map fun e hm => e.decode_toJson _ fun p hp => h p (hp ▸ hm)
  show (do
    let recipient ← MessageRecipient.decode place m.recipient.toJson
    let elements ← asVec (MessageElement.decode (place.inside 2)) (.arr (m.elements.map MessageElement.toJson))
    return Message.mk m.id m.senderId recipient elements) = _
  rw [m.recipient.decode_toJson, he]
  split_ifs <;> rfl

theorem Message.depth_toJson (m : Message) :
    m.toJson.depth = max 2 (depthItems (m.elements.map MessageElement.toJson) + 1) + 1 := by
  have hr : m.recipient.toJson.depth = 2 := by cases m.recipient <;> rfl
  simp only [toJson, depth, depthFields, hr]
  omega

/-- What nests in a message are its elements. -/
theorem Message.all_admits_iff (m : Message) {levels : Nat} (hl : levels + 3 < recursionLimit) :
    (m.elements.all fun e => ((Place.text levels).inside 2).admits e.toJson) = true ↔
      levels + m.toJson.depth < recursionLimit := by
  rw [List.all_eq_true, m.depth_toJson]
  constructor
  · intro h
    have hitems : depthItems (m.elements.map MessageElement.toJson) ≤ recursionLimit - (levels + 3) := by
      refine depthItems_le fun x hx => ?_
      obtain ⟨e, he, rfl⟩ := List.mem_map.1 hx
      have hadmits : levels + 2 + e.toJson.depth < recursionLimit := of_decide_eq_true (h e he)
      omega
    omega
  · intro h e he
    have hitem : e.toJson.depth ≤ depthItems (m.elements.map MessageElement.toJson) :=
      depth_le_depthItems (List.mem_map_of_mem he)
    have hadmits : levels + 2 + e.toJson.depth < recursionLimit := by omega
    exact decide_eq_true hadmits

/-- A message is read back from a text where it is within the nesting limit. -/
theorem Message.decode_text_toJson {m : Message} (h : m.Values) {levels : Nat} (hl : levels + 3 < recursionLimit) :
    decode (.text levels) m.toJson =
      if levels + m.toJson.depth < recursionLimit then .ok m else .error .malformed := by
  rw [Message.decode_toJson _ h]
  exact if_congr (m.all_admits_iff hl) rfl rfl

theorem Message.ofJson_toJson {m : Message} (h : m.Values) :
    ofJson m.toJson = if m.toJson.depth < recursionLimit then .ok m else .error .malformed := by
  rw [ofJson, Message.decode_text_toJson h (by decide), Nat.zero_add]

theorem ProtocolEvent.ofJson_toJson {e : ProtocolEvent} (h : e.Values) :
    ofJson e.toJson = if e.toJson.depth < recursionLimit then .ok e else .error .malformed := by
  cases e with
  | connected endpoint | warning t => rfl
  | disconnected => rfl
  | messageReceived m =>
    have hd : (messageReceived m).toJson.depth = 2 + m.toJson.depth := by
      show max (max m.toJson.depth 0 + 1) 0 + 1 = _
      omega
    show (do return ProtocolEvent.messageReceived (← Message.decode (.text 2) m.toJson)) = _
    rw [Message.decode_text_toJson h (by decide), hd]
    split_ifs <;> rfl

/-! ## Through `Value` -/

theorem MessageElement.depth_toJson_le {e : MessageElement} {d : Nat} (h : ∀ p, e = .json p → p.depth ≤ d) :
    e.toJson.depth ≤ d + 1 := by
  have hn : ∀ size : Option UInt64, (optionJson (fun n => ofNat n.toNat) size).depth = 0 := by
    intro size
    cases size <;> rfl
  cases e with
  | image p size => simp [toJson, depth, depthFields, hn]
  | video p size => simp [toJson, depth, depthFields, hn]
  | file p md5 => cases md5 <;> simp [toJson, depth, depthFields, optionJson]
  | json p =>
    have := h p rfl
    simp [toJson, depth, depthFields, this]
  | _ => simp [toJson, depth, depthFields]

/-- A payload stands under the message, its element list and its element. -/
theorem Message.depth_toJson_le {m : Message} {d : Nat} (h : ∀ p, .json p ∈ m.elements → p.depth ≤ d) :
    m.toJson.depth ≤ d + 3 := by
  have he : depthItems (m.elements.map MessageElement.toJson) ≤ d + 1 := by
    refine depthItems_le fun x hx => ?_
    obtain ⟨e, hm, rfl⟩ := List.mem_map.1 hx
    exact e.depth_toJson_le fun p hp => h p (hp ▸ hm)
  rw [m.depth_toJson]
  omega

/-- An event puts its message two levels deeper, so payloads of 122 levels still fit. -/
theorem ProtocolEvent.depth_lt_recursionLimit {m : Message} (h : ∀ p, .json p ∈ m.elements → p.depth ≤ 122) :
    m.toJson.depth < recursionLimit ∧ (messageReceived m).toJson.depth < recursionLimit := by
  have hm := m.depth_toJson_le h
  have he : (messageReceived m).toJson.depth = m.toJson.depth + 2 := by simp [toJson, depth, depthFields]
  unfold recursionLimit
  constructor <;> omega

/-! ## Texts -/

theorem decodeJson_encodeJson {m : Message} (h : m.Values) : decodeJson (encodeJson m) =
    if m.toJson.depth < recursionLimit then .ok m else .error (.serialization .malformed) := by
  rw [decodeJson, encodeJson, fromText_toText, Message.ofJson_toJson h]
  split_ifs <;> rfl

theorem deserializeEvent_serializeEvent {e : ProtocolEvent} (h : e.Values) : deserializeEvent (serializeEvent e) =
    if e.toJson.depth < recursionLimit then .ok e else .error (.serialization Error.malformed.text) := by
  rw [deserializeEvent, serializeEvent, fromText_toText, ProtocolEvent.ofJson_toJson h]
  split_ifs <;> rfl

/-- Every message and every event within the nesting limit of a text round-trips. -/
theorem json_round_trip :
    (∀ m : Message, m.Values → m.toJson.depth < recursionLimit → decodeJson (encodeJson m) = .ok m) ∧
      ∀ e : ProtocolEvent, e.Values → e.toJson.depth < recursionLimit → deserializeEvent (serializeEvent e) = .ok e :=
  ⟨fun _ h hd => (decodeJson_encodeJson h).trans (if_pos hd),
    fun _ h hd => (deserializeEvent_serializeEvent h).trans (if_pos hd)⟩

/-- A group message with an image and a nested payload. -/
def cardMessage : Message where
  id := "m1"
  senderId := "alice"
  recipient := .group "g1"
  elements := [.image "/tmp/x.png" (some 1024), .json (.obj [("k", .arr [ofInt (-1), .null])])]

theorem cardMessage_payload {p : Json} (hp : .json p ∈ cardMessage.elements) :
    p = .obj [("k", .arr [ofInt (-1), .null])] := by simpa [cardMessage] using hp

theorem cardMessage_values : cardMessage.Values := by
  intro p hp
  rw [cardMessage_payload hp]
  refine .obj (List.pairwise_singleton _ _) ?_
  intro f hf
  obtain rfl := List.mem_singleton.1 hf
  refine .arr fun x hx => ?_
  rcases List.mem_pair.1 hx with rfl | rfl
  · exact .int _ (by decide) (by decide)
  · exact .null

theorem json_round_trip_card : decodeJson (encodeJson cardMessage) = .ok cardMessage ∧
    deserializeEvent (serializeEvent (.messageReceived cardMessage)) = .ok (.messageReceived cardMessage) := by
  have hpayload : ∀ p, .json p ∈ cardMessage.elements → p.depth ≤ 122 := by
    intro p hp
    rw [cardMessage_payload hp]
    decide
  obtain ⟨hm, he⟩ := ProtocolEvent.depth_lt_recursionLimit hpayload
  exact ⟨json_round_trip.1 _ cardMessage_values hm, json_round_trip.2 _ cardMessage_values he⟩

end NapCat
