/-
The send routes against each other. A compatible route and `/message/send` come to the same checks of
the same message, so they have the same effect. What the effects of a push and its answer have to do
with each other is in the second half: a push that fails after the backend has accepted its message.
-/
import NapCat.Api.SendGuards

namespace NapCat.Api

/-! ## Answers to a client -/

/-- The HTTP status codes of errors. -/
inductive StatusCode
  | badRequest
  | serviceUnavailable
  | badGateway
  deriving DecidableEq

/-- `ApiError::into_response`: the status code and the envelope, whose data is empty. -/
def ApiError.intoResponse (e : ApiError) : StatusCode × ApiEnvelope Unit :=
  let (code, retcode, message) := match e with
    | .invalidRequest retcode message => (StatusCode.badRequest, retcode, message)
    | .eventDispatch message => (.serviceUnavailable, -1, message)
    | .protocolSend message => (.badGateway, -1, message)
  (code, ⟨"failed", retcode, (), some message⟩)

/-- The code that a client reads in the answer. -/
def ApiError.retcode (e : ApiError) : Int := e.intoResponse.2.retcode

/-- Errors of one variant. -/
inductive SameVariant : ApiError → ApiError → Prop
  | invalidRequest (r r' : Int) (m m' : String) : SameVariant (.invalidRequest r m) (.invalidRequest r' m')
  | eventDispatch (m m' : String) : SameVariant (.eventDispatch m) (.eventDispatch m')
  | protocolSend (m m' : String) : SameVariant (.protocolSend m) (.protocolSend m')

/-- The same response, or errors that differ in no more than their text. -/
inductive SameAnswer : Except ApiError (ApiEnvelope SendResponse) → Except ApiError (ApiEnvelope SendResponse) → Prop
  | ok (r : ApiEnvelope SendResponse) : SameAnswer (.ok r) (.ok r)
  | error {e e' : ApiError} (hv : SameVariant e e') (hr : e.retcode = e'.retcode) : SameAnswer (.error e) (.error e')

structure SameEffect (o o' : Outcome) : Prop where
  sent : o.sent = o'.sent
  enqueued : o.enqueued = o'.enqueued
  answer : SameAnswer o.answer o'.answer

theorem SameVariant.refl (e : ApiError) : SameVariant e e := by
  cases e <;> constructor

theorem SameEffect.refl (o : Outcome) : SameEffect o o := by
  refine ⟨rfl, rfl, ?_⟩
  cases o.answer with
  | error e => exact .error (.refl e) rfl
  | ok r => exact .ok r

/-! ## One message, four routes -/

/-- The checks that all routes come to for a text to a recipient: the recipient's id is not blank. -/
inductive TextChecked (text : String) (recipient : MessageRecipient) : Except ApiError Message → Prop
  | refused (message : String) (hblank : Text.isBlank (recipientId recipient) = true) :
      TextChecked text recipient (refuse message)
  | passed (hid : Text.isBlank (recipientId recipient) = false) :
      TextChecked text recipient (.ok (Message.ofText (messageIdFromText text) "api" (trimRecipient recipient) text))

/-- Requests that come to the same checks have the same effect, whatever the surroundings do. -/
theorem TextChecked.sameEffect {text : String} {recipient : MessageRecipient} {r r' : Except ApiError Message}
    (h : TextChecked text recipient r) (h' : TextChecked text recipient r') (env : Surroundings) :
    SameEffect (pushChecked env r) (pushChecked env r') := by
  cases h with
  | refused message hblank =>
    cases h' with
    | refused message' => exact ⟨rfl, rfl, .error (.invalidRequest ..) rfl⟩
    | passed hid => rw [hblank] at hid; cases hid
  | passed hid =>
    cases h' with
    | refused message hblank => rw [hblank] at hid; cases hid
    | passed => exact .refl _

theorem requireText_ok {text : String} (h : Text.isBlank text = false) : requireText text = .ok () := by
  rw [requireText, h]
  rfl

/-- The compatible request that asks for a recipient: the id its message type does not ask for is
ignored. -/
inductive Asks : CompatSendRequest → MessageRecipient → Prop
  | privateUser (userId : String) (groupId : Option String) (text : String) :
      Asks ⟨.privateUser, some userId, groupId, text⟩ (.privateUser userId)
  | group (userId : Option String) (groupId : String) (text : String) :
      Asks ⟨.group, userId, some groupId, text⟩ (.group groupId)

theorem Asks.recipient {r : CompatSendRequest} {recipient : MessageRecipient} (h : Asks r recipient) :
    (∃ message, r.recipient = refuse message ∧ Text.isBlank (recipientId recipient) = true) ∨
      (r.recipient = .ok (trimRecipient recipient) ∧ Text.isBlank (recipientId recipient) = false) := by
  cases h with
  | privateUser userId groupId text | group userId groupId text =>
    simp only [CompatSendRequest.recipient, Option.getD_some]
    split_ifs with hempty
    · exact .inl ⟨_, rfl, hempty⟩
    · exact .inr ⟨rfl, Bool.eq_false_iff.2 hempty⟩

theorem Asks.check {r : CompatSendRequest} {recipient : MessageRecipient} (h : Asks r recipient)
    (htext : Text.isBlank r.message = false) : TextChecked r.message recipient r.check := by
  unfold CompatSendRequest.check CompatSendRequest.intoNapcatMessage
  rw [requireText_ok htext]
  rcases h.recipient with ⟨message, hr, hblank⟩ | ⟨hr, hid⟩
  · rw [hr]
    exact .refused message hblank
  · rw [hr]
    exact .passed hid

theorem sendMessage_check (recipient : MessageRecipient) (text : String) :
    TextChecked text recipient
      (SendRequest.check ⟨Message.ofText (messageIdFromText text) "api" recipient text⟩) := by
  -- The id and the sender are clean, so trimming them changes nothing and they pass.
  obtain ⟨hid, htrim⟩ := clean_messageId text
  obtain ⟨hsender, hsendertrim⟩ := clean_api
  have hpayload : validateMessagePayload (Message.ofText (messageIdFromText text) "api" (trimRecipient recipient) text)
      = .ok () := by
    simp [validateMessagePayload, Message.ofText, hid, hsender]
  simp only [SendRequest.check, Message.ofText, htrim, hsendertrim] at hpayload ⊢
  rw [hpayload]
  cases recipient with
  | privateUser id | group id =>
    simp only [trimRecipient, validateMessage, isBlank_trim]
    split_ifs with hempty
    · exact .refused _ hempty
    · exact .passed (Bool.eq_false_iff.2 hempty)

/-- The route of its own for a kind of recipient, `/send_msg` with that message type and
`/message/send` of the text's message have the same effect, blank and padded ids included. -/
theorem send_routes_agree (env : Surroundings) (text : String) (htext : Text.isBlank text = false) :
    (∀ userId groupId,
      SameEffect (sendPrivateMsg env ⟨userId, text⟩) (sendMsgCompat env ⟨.privateUser, some userId, groupId, text⟩) ∧
      SameEffect (sendPrivateMsg env ⟨userId, text⟩)
        (sendMessage env ⟨Message.ofText (messageIdFromText text) "api" (.privateUser userId) text⟩)) ∧
    (∀ userId groupId,
      SameEffect (sendGroupMsg env ⟨groupId, text⟩) (sendMsgCompat env ⟨.group, userId, some groupId, text⟩) ∧
      SameEffect (sendGroupMsg env ⟨groupId, text⟩)
        (sendMessage env ⟨Message.ofText (messageIdFromText text) "api" (.group groupId) text⟩)) := by
  constructor
  · intro userId groupId
    have hprivate := (Asks.privateUser userId none text).check htext
    exact ⟨hprivate.sameEffect ((Asks.privateUser userId groupId text).check htext) env,
      hprivate.sameEffect (sendMessage_check _ text) env⟩
  · intro userId groupId
    have hgroup := (Asks.group none groupId text).check htext
    exact ⟨hgroup.sameEffect ((Asks.group userId groupId text).check htext) env,
      hgroup.sameEffect (sendMessage_check _ text) env⟩

/-- A padded user id, and a queue that stays full. -/
theorem send_routes_agree_padded :
    SameEffect (sendPrivateMsg ⟨some (.ok ()), .timedOut⟩ ⟨" 42 ", "hi"⟩)
      (sendMessage ⟨some (.ok ()), .timedOut⟩
        ⟨Message.ofText (messageIdFromText "hi") "api" (.privateUser " 42 ") "hi"⟩) :=
  ((send_routes_agree ⟨some (.ok ()), .timedOut⟩ "hi" (by decide)).1 " 42 " none).2

/-! ## What a failed push has done -/

/-- The messages that the backend has accepted: those handed to it, where it answered `Ok`. -/
def accepted (env : Surroundings) (o : Outcome) : List Message :=
  match env.protocol with
  | some (.ok ()) => o.sent
  | some (.error _) | none => []

/-- A failed push leaves nothing with the backend, so that its client may try again. -/
def Retriable (env : Surroundings) (message : Message) : Prop :=
  (pushSendEvent env message).answer.isOk = false → accepted env (pushSendEvent env message) = []

/-- A client that pushes a message until a push succeeds: what the backend has accepted in the end. -/
def attempts (message : Message) : List Surroundings → List Message
  | [] => []
  | env :: envs =>
    let o := pushSendEvent env message
    accepted env o ++ if o.answer.isOk then [] else attempts message envs

theorem accepted_length (env : Surroundings) (message : Message) :
    (accepted env (pushSendEvent env message)).length ≤ 1 := by
  obtain ⟨protocol, queue⟩ := env
  rcases protocol with _ | ⟨e | _⟩ <;> cases queue <;> simp [accepted, pushSendEvent, emitEvent]

/-- Where every failed attempt has left nothing behind, the message is sent once at most. -/
theorem attempts_length (message : Message) :
    ∀ envs : List Surroundings, (∀ env ∈ envs, Retriable env message) → (attempts message envs).length ≤ 1
  | [], _ => Nat.zero_le 1
  | env :: envs, h => by
    obtain ⟨henv, hrest⟩ := List.forall_mem_cons.1 h
    rw [attempts, List.length_append]
    have hone := accepted_length env message
    split_ifs with hok
    · exact hone
    · have hnone := henv (Bool.eq_false_iff.2 hok)
      have ih := attempts_length message envs hrest
      rw [hnone]
      simpa using ih

/-- A push may be tried again exactly where the backend accepted nothing or the queue took the event:
the `?` after `emit_event` reports a failure of the queue when the message is with the backend already. -/
theorem retriable_iff (env : Surroundings) (message : Message) :
    Retriable env message ↔ ¬ (env.protocol = some (.ok ()) ∧ env.queue ≠ .accepted) := by
  obtain ⟨protocol, queue⟩ := env
  rcases protocol with _ | ⟨e | _⟩ <;> cases queue <;>
    simp [Retriable, accepted, pushSendEvent, emitEvent, Except.isOk, Except.toBool]

/-- A backend that accepts and a queue that stays full. -/
theorem failed_send_was_sent :
    ¬ Retriable ⟨some (.ok ()), .timedOut⟩ (Message.ofText "1" "api" (.group "42") "hi") := by
  intro h
  cases h rfl

end NapCat.Api
