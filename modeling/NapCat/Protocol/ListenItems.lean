/-
The two forms of an event in a `/message/listen` response, as a text and as a JSON value. The loop
tells them apart by the JSON type of the item, and one event has a string for its value.
-/
import NapCat.Protocol.OneBotHttp
import NapCat.Protocol.RoundTrip
import Mathlib.Data.List.Forall2

namespace NapCat

open Json

/-- An item of a listen response: an event in one of its forms, or something else. -/
inductive ListenItem
  | text (event : ProtocolEvent)
  | raw (event : ProtocolEvent)
  | other (j : Json)

namespace ListenItem

def json : ListenItem → Json
  | .text event => .str (serializeEvent event)
  | .raw event => event.toJson
  | .other j => j

/-- Events are made of value trees, and what is no event is not decoded as one. -/
def WellFormed : ListenItem → Prop
  | .text event | .raw event => event.Values
  | .other j => (decodeItem j.canon).isOk = false

end ListenItem

/-- The body of a response, with the items in its `data` array. -/
structure ListenBody where
  items : List ListenItem
  others : List (String × Json) := []
  wellFormed : ∀ i ∈ items, i.WellFormed
  key : ∀ f ∈ others, f.1 ≠ "data" := by simp
  shallow : ∀ f ∈ others, f.2.depth + 1 < recursionLimit := by simp
  inRange : ∀ f ∈ others, f.2.inRange = true := by simp

def ListenBody.toJson (b : ListenBody) : Json := .obj (("data", .arr (b.items.map ListenItem.json)) :: b.others)

/-- The body is within the parser's nesting limit and its numbers are in range. -/
def ListenBody.Readable (b : ListenBody) : Prop := b.toJson.depth < recursionLimit ∧ b.toJson.inRange = true

instance (b : ListenBody) : Decidable b.Readable := inferInstanceAs (Decidable (_ ∧ _))

/-- `resp.json::<Value>()` of a response with a success status. -/
def HttpResponse.ofBody (text : String) : HttpResponse :=
  match Json.ofText text with
  | .ok raw => .body raw
  | .error e => .badBody e.text

theorem ListenBody.data (b : ListenBody) :
    (OneBotListenEnvelope.fromJson b.toJson.canon).data = b.items.map fun i => i.json.canon := by
  have hget : b.toJson.canon.get "data" = some (Json.arr (b.items.map ListenItem.json)).canon :=
    get_canon List.mem_cons_self fun f hf hk => (List.mem_cons.1 hf).elim (fun he => he ▸ rfl)
      fun hf => absurd hk (b.key f hf)
  rw [OneBotListenEnvelope.fromJson, hget, canon, canonItems_eq_map, List.map_map]
  rfl

/-- An item that nests little and has its numbers in range. -/
def ListenItem.Small (i : ListenItem) : Prop := i.json.depth + 2 < recursionLimit ∧ i.json.inRange = true

/-- What makes a body unreadable comes from the items. -/
theorem ListenBody.readable {b : ListenBody} (h : ∀ i ∈ b.items, i.Small) : b.Readable := by
  constructor
  · have hitems : depthItems (b.items.map ListenItem.json) ≤ recursionLimit - 3 := by
      refine depthItems_le fun x hx => ?_
      obtain ⟨i, hi, rfl⟩ := List.mem_map.1 hx
      have := (h i hi).1
      omega
    have hothers : depthFields b.others ≤ recursionLimit - 2 := by
      refine depthFields_le fun f hf => ?_
      have := b.shallow f hf
      omega
    have hlim : recursionLimit = 128 := rfl
    rw [ListenBody.toJson, depth, depthFields, depth]
    omega
  · have hitems : inRangeItems (b.items.map ListenItem.json) = true := by
      rw [inRangeItems_eq_all, List.all_map, List.all_eq_true]
      exact fun i hi => (h i hi).2
    have hothers : inRangeFields b.others = true := by
      rw [inRangeFields_eq_all, List.all_eq_true]
      exact b.inRange
    rw [ListenBody.toJson, Json.inRange, inRangeFields, Json.inRange, hitems, hothers]
    rfl

namespace OneBotHttp

end OneBotHttp

end NapCat
