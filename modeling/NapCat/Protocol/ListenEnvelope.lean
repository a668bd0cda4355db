/-
What `OneBotHttpBackend::listen` makes of the body of one `/message/listen` response: the items of
its `data` array, decoded one by one and sent on the notify channel.
-/
import NapCat.Protocol.Event

namespace NapCat

open Json

/-- Payload of a listen response. -/
structure OneBotListenEnvelope where
  data : List Json

/-- The `data` array of the body, or nothing. -/
def OneBotListenEnvelope.fromJson (raw : Json) : OneBotListenEnvelope :=
  ⟨((raw.get "data").bind asArray).getD []⟩

/-- An item is the text of an event or the event as an object. -/
inductive ListenPayload
  | text (s : String)
  | object (j : Json)

def ListenPayload.ofItem (raw : Json) : ListenPayload :=
  match raw.asStr with
  | some s => .text s
  | none => .object raw

def ListenPayload.decode : ListenPayload → Except ProtocolError ProtocolEvent
  | .text s => deserializeEvent s
  | .object j => (ProtocolEvent.fromValue j).mapError fun e => .serialization e.text

def decodeItem (raw : Json) : Except ProtocolError ProtocolEvent := (ListenPayload.ofItem raw).decode

def decodeWarning (e : ProtocolError) : ProtocolEvent := .warning ("failed to decode protocol event: " ++ e.text)

/-- What the loop over the items sends. `subscribed` says whether notify has a receiver: without one
the first decoded event ends the loop. -/
def notifyItems (subscribed : Bool) : List Json → List ProtocolEvent
  | [] => []
  | raw :: rest =>
    match decodeItem raw with
    -- a send without a receiver fails and breaks the loop over the items
    | .ok event => event :: if subscribed then notifyItems subscribed rest else []
    | .error e => decodeWarning e :: notifyItems subscribed rest

/-- Whether the loop over the items decodes an event. -/
def delivers (items : List Json) : Bool := items.any fun raw => (decodeItem raw).isOk

end NapCat
