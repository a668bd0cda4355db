/-
The four send routes of the API: their request bodies, the checks each makes, and `push_send_event`,
which hands the message to the protocol backend and then to the event dispatch queue.
-/
import NapCat.Protocol.Event
import NapCat.Lib.Text

namespace NapCat.Api

open Json

/-- API-level error. -/
inductive ApiError
  | invalidRequest (retcode : Int) (message : String)
  | eventDispatch (message : String)
  | protocolSend (message : String)
  deriving DecidableEq

def invalidRequestRetcode : Int := -1

/-- `ApiError::invalid_request`, returned. -/
def refuse {α : Type} (message : String) : Except ApiError α :=
  .error (.invalidRequest invalidRequestRetcode message)

/-- API response envelope for public interfaces. -/
structure ApiEnvelope (α : Type) where
  status : String
  retcode : Int
  data : α
  message : Option String

/-- Message send response. -/
structure SendResponse where
  accepted : Bool
  messageId : String

/-! ## Request bodies -/

/-- Message route payload kind. -/
inductive MessageType
  | privateUser
  | group
  deriving DecidableEq

instance : Inhabited MessageType := ⟨.privateUser⟩

def MessageType.ofJson (j : Json) : Except Json.Error MessageType := do
  match ← variant j with
  | ("private", none) | ("private", some .null) => return .privateUser
  | ("group", none) | ("group", some .null) => return .group
  | ("private", some _) | ("group", some _) => .error .invalidType
  | (v, _) => .error (.unknownVariant v)

/-- Generic message send request. -/
structure SendRequest where
  message : Message

/-- OneBot-compatible send request. -/
structure CompatSendRequest where
  messageType : MessageType
  userId : Option String
  groupId : Option String
  message : String

/-- OneBot-compatible private send request. -/
structure SendPrivateRequest where
  userId : String
  message : String

/-- OneBot-compatible group send request. -/
structure SendGroupRequest where
  groupId : String
  message : String

def SendRequest.ofJson (j : Json) : Except Json.Error SendRequest := do
  match ← structFields ["message"] j with
  | [m] => return ⟨← required "message" (Message.decode (.text 1)) m⟩
  | _ => .error .invalidLength

/-- The message type is the default one where it is absent. -/
def CompatSendRequest.ofJson (j : Json) : Except Json.Error CompatSendRequest := do
  match ← structFields ["message_type", "user_id", "group_id", "message"] j with
  | [t, u, g, m] =>
    return {
      messageType := ← (t.map MessageType.ofJson).getD (.ok default)
      userId := ← optional asString u
      groupId := ← optional asString g
      message := ← required "message" asString m }
  | _ => .error .invalidLength

/-- A body of a recipient id and a text. -/
def idAndMessage {α : Type} (name : String) (f : String → String → α) (j : Json) : Except Json.Error α := do
  match ← structFields [name, "message"] j with
  | [i, m] => return f (← required name asString i) (← required "message" asString m)
  | _ => .error .invalidLength

def SendPrivateRequest.ofJson : Json → Except Json.Error SendPrivateRequest := idAndMessage "user_id" .mk

def SendGroupRequest.ofJson : Json → Except Json.Error SendGroupRequest := idAndMessage "group_id" .mk

/-! ## Checks -/

def validateMessage (message : Message) : Except ApiError Unit :=
  match message.recipient with
  | .privateUser userId => if Text.isBlank userId then refuse "private user_id cannot be empty" else .ok ()
  | .group groupId => if Text.isBlank groupId then refuse "group_id cannot be empty" else .ok ()

def validateMessagePayload (message : Message) : Except ApiError Unit :=
  if Text.isBlank message.id then refuse "message id cannot be empty"
  else if Text.isBlank message.senderId then refuse "sender_id cannot be empty"
  else if message.elements.isEmpty then refuse "message payload cannot be empty"
  else .ok ()

/-- The check of the text that every compatible route begins with, and makes again when it builds the
message. -/
def requireText (message : String) : Except ApiError Unit :=
  if Text.isBlank message then refuse "message cannot be empty" else .ok ()

def messageIdFromText (message : String) : String := "api-" ++ toString message.utf8ByteSize

/-- The recipient of a compatible request: the id its message type asks for, trimmed. -/
def CompatSendRequest.recipient (r : CompatSendRequest) : Except ApiError MessageRecipient :=
  match r.messageType with
  | .privateUser =>
    let userId := Text.trim (r.userId.getD "")
    if userId.isEmpty then refuse "user_id is required for private messages" else .ok (.privateUser userId)
  | .group =>
    let groupId := Text.trim (r.groupId.getD "")
    if groupId.isEmpty then refuse "group_id is required for group messages" else .ok (.group groupId)

def CompatSendRequest.intoNapcatMessage (r : CompatSendRequest) : Except ApiError Message := do
  requireText r.message
  let recipient ← r.recipient
  return Message.ofText (messageIdFromText r.message) "api" recipient r.message

/-! ## Sending -/

/-- What becomes of an event given to the dispatch queue. -/
inductive Dispatch
  | accepted
  | closed
  | timedOut
  deriving DecidableEq

/-- What the backend, if there is one, answers to a send, and what becomes of the event. -/
structure Surroundings where
  protocol : Option (Except ProtocolError Unit)
  queue : Dispatch

/-- What a handler has done: the messages given to the backend, the events enqueued, and its answer. -/
structure Outcome where
  sent : List Message
  enqueued : List ProtocolEvent
  answer : Except ApiError (ApiEnvelope SendResponse)

/-- `ApiState::emit_event`: the events enqueued. -/
def emitEvent (queue : Dispatch) (event : ProtocolEvent) : Except ApiError (List ProtocolEvent) :=
  match queue with
  | .accepted => .ok [event]
  | .closed => .error (.eventDispatch "dispatch channel closed: channel closed")
  | .timedOut => .error (.eventDispatch "event dispatch timed out")

def pushSendEvent (env : Surroundings) (message : Message) : Outcome :=
  let sent := if env.protocol.isSome then [message] else []
  match env.protocol with
  | some (.error e) => ⟨sent, [], .error (.protocolSend ("protocol send failed: " ++ e.text))⟩
  | some (.ok ()) | none =>
    match emitEvent env.queue (.messageReceived message) with
    | .error e => ⟨sent, [], .error e⟩
    | .ok events => ⟨sent, events, .ok ⟨"ok", 0, ⟨true, message.id⟩, none⟩⟩

/-- A handler pushes the message its checks give, or returns their refusal. -/
def pushChecked (env : Surroundings) : Except ApiError Message → Outcome
  | .ok message => pushSendEvent env message
  | .error e => ⟨[], [], .error e⟩

/-! ## Handlers -/

def trimRecipient : MessageRecipient → MessageRecipient
  | .privateUser userId => .privateUser (Text.trim userId)
  | .group groupId => .group (Text.trim groupId)

/-- The checks of `send_message`. -/
def SendRequest.check (payload : SendRequest) : Except ApiError Message := do
  let message := { payload.message with
    id := Text.trim payload.message.id
    senderId := Text.trim payload.message.senderId
    recipient := trimRecipient payload.message.recipient }
  validateMessagePayload message
  validateMessage message
  return message

/-- The checks of `send_msg_compat`. -/
def CompatSendRequest.check (payload : CompatSendRequest) : Except ApiError Message := do
  requireText payload.message
  payload.intoNapcatMessage

/-- The checks of `send_private_msg`. -/
def SendPrivateRequest.check (payload : SendPrivateRequest) : Except ApiError Message := do
  requireText payload.message
  CompatSendRequest.intoNapcatMessage
    { messageType := .privateUser, userId := some payload.userId, groupId := none, message := payload.message }

/-- The checks of `send_group_msg`. -/
def SendGroupRequest.check (payload : SendGroupRequest) : Except ApiError Message := do
  requireText payload.message
  CompatSendRequest.intoNapcatMessage
    { messageType := .group, userId := none, groupId := some payload.groupId, message := payload.message }

def sendMessage (env : Surroundings) (payload : SendRequest) : Outcome := pushChecked env payload.check

def sendMsgCompat (env : Surroundings) (payload : CompatSendRequest) : Outcome := pushChecked env payload.check

def sendPrivateMsg (env : Surroundings) (payload : SendPrivateRequest) : Outcome := pushChecked env payload.check

def sendGroupMsg (env : Surroundings) (payload : SendGroupRequest) : Outcome := pushChecked env payload.check

/-- The routes that send a message. -/
inductive SendRoute
  | messageSend
  | sendMsg
  | sendPrivateMsg
  | sendGroupMsg

/-- A body that is no request of its route does not reach the handler. -/
def handleSend (env : Surroundings) (route : SendRoute) (body : String) : Except Json.Error Outcome :=
  match route with
  | .messageSend => (fromText SendRequest.ofJson body).map (sendMessage env)
  | .sendMsg => (fromText CompatSendRequest.ofJson body).map (sendMsgCompat env)
  | .sendPrivateMsg => (fromText SendPrivateRequest.ofJson body).map (sendPrivateMsg env)
  | .sendGroupMsg => (fromText SendGroupRequest.ofJson body).map (sendGroupMsg env)

end NapCat.Api
