/-
The two ends of `/message/listen` put together: the body the route answers with, read by the
listener of another instance. The route renders events as OneBot objects and the listener expects
the derived form, so no item decodes.
-/
import NapCat.Api.Payload
import NapCat.Lib.Json.Value
import NapCat.Protocol.ListenEnvelope

namespace NapCat.Api

open Json

theorem canonItems_str (rs : List String) : canonItems (rs.map .str) = rs.map .str := by
  rw [canonItems_eq_map, List.map_map]
  rfl

theorem depthItems_str (rs : List String) : depthItems (rs.map .str) = 0 := by
  induction rs with
  | nil => rfl
  | cons r rs ih => rw [List.map_cons, depthItems, ih]; rfl

theorem inRangeItems_str (rs : List String) : inRangeItems (rs.map .str) = true := by
  rw [inRangeItems_eq_all, List.all_map]
  exact List.all_eq_true.2 fun r _ => rfl

/-- The listener finds the records in the body, as strings. -/
theorem fromJson_listenBody (rs : List String) :
    (ofText (listenBody rs)).map (fun raw => (OneBotListenEnvelope.fromJson raw).data) = .ok (rs.map .str) := by
  have hd : (envelopeJson "ok" 0 (.arr (rs.map .str)) none).depth < recursionLimit := by
    show max 0 (max 0 (max (depthItems (rs.map .str) + 1) (max 0 0))) + 1 < recursionLimit
    rw [depthItems_str]; decide
  have hr : (envelopeJson "ok" 0 (.arr (rs.map .str)) none).inRange = true := by
    have hzero : (ofInt 0).inRange = true := ofInt_inRange (by decide) (by decide)
    simp [envelopeJson, optionJson, inRange, inRangeFields, inRangeItems_str, hzero]
  have hc : (envelopeJson "ok" 0 (.arr (rs.map .str)) none).canon =
      .obj [("data", .arr (rs.map .str)), ("message", .null), ("retcode", ofInt 0), ("status", .str "ok")] := by
    simp only [envelopeJson, canon, canonFields, canonItems_str, sortFields, List.foldl_cons, List.foldl_nil]
    rfl
  rw [listenBody, ofText_toText, if_pos ⟨hd, hr⟩, hc]
  rfl

/-! ## No item decodes -/

/-- An object with two different keys is no externally tagged value. -/
theorem variant_of_two_keys {fs : List (String × Json)} {k l : String} (hk : k ∈ fs.map Prod.fst)
    (hl : l ∈ fs.map Prod.fst) (hne : k ≠ l) : variant (.obj fs) = .error .invalidType := by
  match fs with
  | [] => cases hk
  | [(m, v)] =>
    rw [List.map_singleton, List.mem_singleton] at hk hl
    exact absurd (hk.trans hl.symm) hne
  | _ :: _ :: _ => rfl

theorem payload_keys (time : UInt64) (event : ProtocolEvent) :
    "post_type" ∈ (payloadFields time event).map Prod.fst ∧ "time" ∈ (payloadFields time event).map Prod.fst := by
  cases event <;> simp [payloadFields]

/-- The derived decoder rejects every payload of the route. -/
theorem ofJson_payload (time : UInt64) (event : ProtocolEvent) :
    ProtocolEvent.ofJson (payloadJson time event) = .error .invalidType := by
  obtain ⟨h1, h2⟩ := payload_keys time event
  have hv : variant (payloadJson time event) = .error .invalidType := by
    refine variant_of_two_keys (k := "post_type") (l := "time") ?_ ?_ (by decide) <;>
      rw [mem_sortFields, canonFields_keys] <;> assumption
  rw [ProtocolEvent.ofJson, ProtocolEvent.decode, hv]
  rfl

theorem decodeItem_payload (time : UInt64) (event : ProtocolEvent) :
    ∃ e, decodeItem (.str (payloadJson time event).toText) = .error e := by
  show ∃ e, deserializeEvent (payloadJson time event).toText = .error e
  rw [deserializeEvent, fromText_toText, ofJson_payload]
  exact ⟨_, rfl⟩

theorem decodeItem_record {events : List (Option UInt64 × ProtocolEvent)} {r : String} (h : r ∈ records events) :
    ∃ e, decodeItem (.str r) = .error e := by
  obtain ⟨⟨time, event⟩, -, hp⟩ := List.mem_filterMap.1 h
  cases time with
  | none => cases hp
  | some t => cases hp; exact decodeItem_payload t event

/-! ## The round trip -/

/-- The items the listener finds in the response for these events. -/
def polledItems (events : List (Option UInt64 × ProtocolEvent)) : List Json :=
  match ofText (listenBody (records events)) with
  | .ok raw => (OneBotListenEnvelope.fromJson raw).data
  | .error _ => []

theorem polledItems_eq (events : List (Option UInt64 × ProtocolEvent)) :
    polledItems events = (records events).map .str := by
  have h := fromJson_listenBody (records events)
  unfold polledItems
  cases ho : ofText (listenBody (records events)) with
  | error e => rw [ho] at h; cases h
  | ok raw => rw [ho] at h; exact Except.ok.inj h

/-- The listener notifies exactly the events, in order, and every item decodes. -/
def SameFormat (events : List (Option UInt64 × ProtocolEvent)) : Prop :=
  notifyItems true (polledItems events) = events.map Prod.snd ∧ ∀ raw ∈ polledItems events, ∃ e, decodeItem raw = .ok e

theorem records_eq_nil_of_decode {events : List (Option UInt64 × ProtocolEvent)}
    (h : ∀ raw ∈ polledItems events, ∃ e, decodeItem raw = .ok e) : records events = [] := by
  refine List.eq_nil_iff_forall_not_mem.2 fun r hr => ?_
  obtain ⟨e, he⟩ := h (.str r) (by rw [polledItems_eq]; exact List.mem_map_of_mem hr)
  obtain ⟨e', he'⟩ := decodeItem_record hr
  rw [he] at he'; cases he'

/-- Server and listener agree on no events at all and on nothing else, whatever the clock reads. -/
theorem same_format_iff (events : List (Option UInt64 × ProtocolEvent)) : SameFormat events ↔ events = [] := by
  constructor
  · rintro ⟨hn, hd⟩
    rw [polledItems_eq, records_eq_nil_of_decode hd] at hn
    exact List.map_eq_nil_iff.1 hn.symm
  · rintro rfl
    have : polledItems [] = [] := polledItems_eq []
    exact ⟨by rw [this]; rfl, fun raw hr => by rw [this] at hr; cases hr⟩

/-- A disconnect at second 7 arrives as one warning. -/
theorem disconnected_not_same_format : ¬ SameFormat [(some 7, .disconnected)] := by
  rintro ⟨-, hd⟩
  have h : records [(some 7, .disconnected)] = [] := records_eq_nil_of_decode hd
  cases h

end NapCat.Api
