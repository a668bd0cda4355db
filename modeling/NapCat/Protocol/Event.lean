/-
Protocol events and errors of `napcat-protocol`, and the JSON of events: the default externally
tagged form the derive asks for.
-/
import NapCat.Message.Basic

namespace NapCat

open Json

/-- Protocol-level events. -/
inductive ProtocolEvent
  | connected (endpoint : String)
  | disconnected
  | messageReceived (message : Message)
  | warning (message : String)

/-- Protocol errors. -/
inductive ProtocolError
  | transport (text : String)
  | serialization (text : String)
  deriving DecidableEq, Repr

def ProtocolError.text : ProtocolError → String
  | .transport t => "transport failure: " ++ t
  | .serialization t => "message serialization failure: " ++ t

namespace ProtocolEvent

def toJson : ProtocolEvent → Json
  | connected e => .obj [("Connected", .obj [("endpoint", .str e)])]
  | disconnected => .str "Disconnected"
  | messageReceived m => .obj [("MessageReceived", .obj [("message", m.toJson)])]
  | warning t => .obj [("Warning", .obj [("message", .str t)])]

def decode (place : Place) (j : Json) : Except Json.Error ProtocolEvent := do
  match ← variant j with
  | ("Connected", some c) => oneString "endpoint" connected (← place.content c)
  | ("Disconnected", none) | ("Disconnected", some .null) => return disconnected
  | ("MessageReceived", some c) =>
    match ← structFields ["message"] (← place.content c) with
    | [m] => return messageReceived (← required "message" (Message.decode (place.inside 2)) m)
    | _ => .error .invalidLength
  | ("Warning", some c) => oneString "message" warning (← place.content c)
  | ("Connected", none) | ("Disconnected", some _) | ("MessageReceived", none) | ("Warning", none) =>
    .error .invalidType
  | (v, _) => .error (.unknownVariant v)

/-- A text that is an event. -/
def ofJson : Json → Except Json.Error ProtocolEvent := decode (.text 0)

/-- `from_value`. -/
def fromValue : Json → Except Json.Error ProtocolEvent := decode .value

end ProtocolEvent

def serializeEvent (event : ProtocolEvent) : String := event.toJson.toText

def deserializeEvent (payload : String) : Except ProtocolError ProtocolEvent :=
  (fromText ProtocolEvent.ofJson payload).mapError fun e => .serialization e.text

end NapCat
