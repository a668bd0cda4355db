/-
How the API renders a protocol event for `/message/listen` and `/ws`: a OneBot v11 event object, as
text. The clock reading is missing when the clock is before the epoch.
-/
import NapCat.Protocol.Event

namespace NapCat.Api

open Json

def onebotEventPostType : ProtocolEvent → String
  | .messageReceived _ => "message"
  | .connected _ | .disconnected | .warning _ => "meta_event"

/-- The `group_id` of a message event: null for a private message. -/
def groupIdJson : MessageRecipient → Json
  | .group g => .str g
  | .privateUser _ => .null

/-- `message_type`, `sub_type` and `target_id`. -/
def recipientFields : MessageRecipient → String × String × String
  | .privateUser u => ("private", "friend", u)
  | .group g => ("group", "normal", g)

/-- The fields of the payload, in the order of the source. -/
def payloadFields (time : UInt64) : ProtocolEvent → List (String × Json)
  | .messageReceived m =>
    let (messageType, subType, targetId) := recipientFields m.recipient
    [("post_type", .str "message"), ("time", ofNat time.toNat), ("self_id", .str "napcat-bot"),
      ("message_type", .str messageType), ("sub_type", .str subType), ("message_id", .str m.id),
      ("group_id", groupIdJson m.recipient), ("user_id", .str m.senderId),
      ("sender", .obj [("user_id", .str m.senderId)]), ("target_id", .str targetId),
      ("message", .arr (m.elements.map MessageElement.toJson))]
  | .connected endpoint =>
    [("post_type", .str "meta_event"), ("time", ofNat time.toNat), ("self_id", .str "napcat-bot"),
      ("meta_event_type", .str "lifecycle"), ("sub_type", .str "connected"), ("endpoint", .str endpoint),
      ("status", .str "ok")]
  | .disconnected =>
    [("post_type", .str "meta_event"), ("time", ofNat time.toNat), ("self_id", .str "napcat-bot"),
      ("meta_event_type", .str "lifecycle"), ("sub_type", .str "disconnected"), ("status", .str "close")]
  | .warning message =>
    [("post_type", .str "meta_event"), ("time", ofNat time.toNat), ("self_id", .str "napcat-bot"),
      ("meta_event_type", .str "warning"), ("sub_type", .str "protocol_warning"), ("message", .str message),
      ("status", .str "warn")]

/-- The payload as `json!` builds it. -/
def payloadJson (time : UInt64) (event : ProtocolEvent) : Json := (Json.obj (payloadFields time event)).canon

def onebotEventPayload (time : Option UInt64) (event : ProtocolEvent) : Except ProtocolError String :=
  match time with
  | none => .error (.transport "second time provided was later than self")
  | some t => .ok (payloadJson t event).toText

/-- The records of a list of events, each rendered at its clock reading; an event that cannot be
rendered is left out. -/
def records (events : List (Option UInt64 × ProtocolEvent)) : List String :=
  events.filterMap fun p => (onebotEventPayload p.1 p.2).toOption

/-- `ApiEnvelope`, as the body of a response. -/
def envelopeJson (status : String) (retcode : Int) (data : Json) (message : Option String) : Json :=
  .obj [("status", .str status), ("retcode", ofInt retcode), ("data", data), ("message", optionJson .str message)]

/-- The body of a `/message/listen` response. -/
def listenBody (records : List String) : String := (envelopeJson "ok" 0 (.arr (records.map .str)) none).toText

end NapCat.Api
