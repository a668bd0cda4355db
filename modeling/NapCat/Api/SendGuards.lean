/-
Validation guards every send route: a request that is refused has no effect, and whatever any other
request hands to the backend and to the event queue is one message that passes every check.
-/
import NapCat.Api.Send
import NapCat.Lib.Fallible

namespace NapCat.Api

open Json

/-- Non-blank and without white space at its ends. -/
def Clean (s : String) : Prop := Text.isBlank s = false ∧ Text.trim s = s

def recipientId : MessageRecipient → String
  | .privateUser userId => userId
  | .group groupId => groupId

def recipientType : MessageRecipient → MessageType
  | .privateUser _ => .privateUser
  | .group _ => .group

/-- A message that a backend can rely on. -/
structure Deliverable (message : Message) : Prop where
  id : Clean message.id
  senderId : Clean message.senderId
  recipient : Clean (recipientId message.recipient)
  elements : message.elements ≠ []

def ApiError.isInvalidRequest : ApiError → Bool
  | .invalidRequest _ _ => true
  | _ => false

def Outcome.isRefused (o : Outcome) : Bool :=
  match o.answer with
  | .error e => e.isInvalidRequest
  | .ok _ => false

/-- The recipient kind a request asks for: by its route, its message type, or the recipient it gives. -/
def SendRoute.asks (route : SendRoute) (body : String) : Except Json.Error MessageType :=
  match route with
  | .messageSend => (fromText SendRequest.ofJson body).map fun r => recipientType r.message.recipient
  | .sendMsg => (fromText CompatSendRequest.ofJson body).map CompatSendRequest.messageType
  | .sendPrivateMsg => .ok .privateUser
  | .sendGroupMsg => .ok .group

/-- The one message that a handler gave to the backend, if there is one, and enqueued as an event, if
it answered that it did. -/
structure Delivered (env : Surroundings) (o : Outcome) (message : Message) : Prop where
  sent : o.sent = if env.protocol.isSome then [message] else []
  enqueued : o.enqueued = if o.answer.isOk then [.messageReceived message] else []

/-! ## Checks -/

theorem clean_trim {s : String} (h : Text.isBlank (Text.trim s) = false) : Clean (Text.trim s) := ⟨h, Text.trim_trim s⟩

theorem isBlank_trim (s : String) : Text.isBlank (Text.trim s) = (Text.trim s).isEmpty := by
  rw [Text.isBlank, Text.trim_trim]

theorem isWhitespace_of_isDigit {c : Char} (h : c.isDigit = true) : Text.isWhitespace c = false := by
  simp only [Char.isDigit, Bool.and_eq_true, decide_eq_true_eq, UInt32.le_iff_toNat_le] at h
  obtain ⟨h0, h9⟩ := h
  have hn : 48 ≤ c.toNat ∧ c.toNat ≤ 57 := ⟨h0, h9⟩
  simp only [Text.isWhitespace, Bool.or_eq_false_iff, Bool.and_eq_false_iff, decide_eq_false_iff_not,
    beq_eq_false_iff_ne]
  omega

/-- The generated id of a text has no white space and is not blank. -/
theorem clean_messageId (text : String) : Clean (messageIdFromText text) := by
  have hchars : ∀ c ∈ (messageIdFromText text).toList, Text.isWhitespace c = false := by
    intro c hc
    rw [messageIdFromText, String.toList_append, List.mem_append] at hc
    rcases hc with hc | hc
    · have hprefix : "api-".toList.all (fun c => !Text.isWhitespace c) = true := by decide
      simpa using List.all_eq_true.1 hprefix c hc
    · exact isWhitespace_of_isDigit (toDigits_isDigit _ c (by simpa [Nat.repr] using hc))
  have htrim := Text.trim_of_forall hchars
  refine ⟨?_, htrim⟩
  rw [Text.isBlank, htrim, ← Bool.not_eq_true, String.isEmpty_iff]
  intro he
  have := congrArg String.toList he
  rw [messageIdFromText, String.toList_append] at this
  cases this

/-- What the checks of a request for a recipient of this kind give: a refusal or a message to rely on. -/
inductive Checked (kind : MessageType) : Except ApiError Message → Prop
  | refused {e : ApiError} (he : e.isInvalidRequest = true) : Checked kind (.error e)
  | passed {message : Message} (hm : Deliverable message) (hk : recipientType message.recipient = kind) :
      Checked kind (.ok message)

theorem recipient_checked (r : CompatSendRequest) :
    (∃ e, r.recipient = .error e ∧ e.isInvalidRequest = true) ∨
      ∃ recipient, r.recipient = .ok recipient ∧ Clean (recipientId recipient) ∧
        recipientType recipient = r.messageType := by
  have key : ∀ x : Option String, (Text.trim (x.getD "")).isEmpty = false → Clean (Text.trim (x.getD "")) := by
    intro x hx
    exact clean_trim ((isBlank_trim _).trans hx)
  unfold CompatSendRequest.recipient
  split
  · rename_i ht
    dsimp only
    split_ifs with hempty
    · exact .inl ⟨_, rfl, rfl⟩
    · exact .inr ⟨_, rfl, key _ (Bool.eq_false_iff.2 hempty), ht.symm⟩
  · rename_i ht
    dsimp only
    split_ifs with hempty
    · exact .inl ⟨_, rfl, rfl⟩
    · exact .inr ⟨_, rfl, key _ (Bool.eq_false_iff.2 hempty), ht.symm⟩

theorem clean_api : Clean "api" := ⟨by decide, by decide⟩

/-- A request whose text is checked first. -/
theorem requireText_checked {kind : MessageType} {r : Except ApiError Message} (text : String) (h : Checked kind r) :
    Checked kind (requireText text >>= fun _ => r) := by
  unfold requireText
  split
  · exact .refused rfl
  · exact h

theorem intoNapcatMessage_checked (r : CompatSendRequest) : Checked r.messageType r.intoNapcatMessage := by
  refine requireText_checked r.message ?_
  rcases recipient_checked r with ⟨e, hr, he⟩ | ⟨recipient, hr, hclean, hkind⟩
  · rw [hr]
    exact .refused he
  · rw [hr]
    exact .passed ⟨clean_messageId _, clean_api, hclean, List.cons_ne_nil _ _⟩ hkind

theorem validateMessagePayload_cases (message : Message) :
    (∃ e, validateMessagePayload message = .error e ∧ e.isInvalidRequest = true) ∨
      (validateMessagePayload message = .ok () ∧ Text.isBlank message.id = false ∧
        Text.isBlank message.senderId = false ∧ message.elements ≠ []) := by
  unfold validateMessagePayload
  split_ifs with hid hsender helems
  · exact .inl ⟨_, rfl, rfl⟩
  · exact .inl ⟨_, rfl, rfl⟩
  · exact .inl ⟨_, rfl, rfl⟩
  · exact .inr ⟨rfl, Bool.eq_false_iff.2 hid, Bool.eq_false_iff.2 hsender, fun he => helems (by rw [he]; rfl)⟩

theorem validateMessage_cases (message : Message) :
    (∃ e, validateMessage message = .error e ∧ e.isInvalidRequest = true) ∨
      (validateMessage message = .ok () ∧ Text.isBlank (recipientId message.recipient) = false) := by
  unfold validateMessage
  split
  · rename_i userId hr
    rw [hr]
    split_ifs with hblank
    · exact .inl ⟨_, rfl, rfl⟩
    · exact .inr ⟨rfl, Bool.eq_false_iff.2 hblank⟩
  · rename_i groupId hr
    rw [hr]
    split_ifs with hblank
    · exact .inl ⟨_, rfl, rfl⟩
    · exact .inr ⟨rfl, Bool.eq_false_iff.2 hblank⟩

theorem recipientId_trim (r : MessageRecipient) : recipientId (trimRecipient r) = Text.trim (recipientId r) := by
  cases r <;> rfl

theorem recipientType_trim (r : MessageRecipient) : recipientType (trimRecipient r) = recipientType r := by
  cases r <;> rfl

theorem SendRequest.check_checked (payload : SendRequest) :
    Checked (recipientType payload.message.recipient) payload.check := by
  unfold SendRequest.check
  dsimp only
  generalize hm : ({ payload.message with
    id := Text.trim payload.message.id
    senderId := Text.trim payload.message.senderId
    recipient := trimRecipient payload.message.recipient } : Message) = message
  rcases validateMessagePayload_cases message with ⟨e, hp, he⟩ | ⟨hp, hid, hsender, helems⟩
  · rw [hp]
    exact .refused he
  rcases validateMessage_cases message with ⟨e, hv, he⟩ | ⟨hv, hrec⟩
  · rw [hp, hv]
    exact .refused he
  rw [hp, hv]
  subst hm
  refine .passed ⟨clean_trim hid, clean_trim hsender, ?_, helems⟩ (recipientType_trim _)
  rw [recipientId_trim] at hrec ⊢
  exact clean_trim hrec

theorem CompatSendRequest.check_checked (payload : CompatSendRequest) : Checked payload.messageType payload.check :=
  requireText_checked _ (intoNapcatMessage_checked payload)

theorem SendPrivateRequest.check_checked (payload : SendPrivateRequest) : Checked .privateUser payload.check :=
  requireText_checked _ (intoNapcatMessage_checked ⟨.privateUser, some payload.userId, none, payload.message⟩)

theorem SendGroupRequest.check_checked (payload : SendGroupRequest) : Checked .group payload.check :=
  requireText_checked _ (intoNapcatMessage_checked ⟨.group, none, some payload.groupId, payload.message⟩)

/-! ## Handlers -/

/-- A message that passed the checks is the only one a handler sends and enqueues. -/
theorem pushSendEvent_delivers (env : Surroundings) (message : Message) :
    (pushSendEvent env message).isRefused = false ∧ Delivered env (pushSendEvent env message) message := by
  obtain ⟨protocol, queue⟩ := env
  unfold pushSendEvent
  rcases protocol with _ | ⟨e | _⟩ <;> cases queue <;> exact ⟨rfl, rfl, rfl⟩

theorem pushChecked_guarded {kind : MessageType} {r : Except ApiError Message} (env : Surroundings)
    (h : Checked kind r) :
    ((pushChecked env r).isRefused = true → (pushChecked env r).sent = [] ∧ (pushChecked env r).enqueued = []) ∧
      ((pushChecked env r).isRefused = false → ∃ message, Delivered env (pushChecked env r) message ∧
        Deliverable message ∧ recipientType message.recipient = kind) := by
  cases h with
  | @refused e he =>
    refine ⟨fun _ => ⟨rfl, rfl⟩, fun hf => ?_⟩
    rw [show (pushChecked env (.error e)).isRefused = true from he] at hf
    cases hf
  | @passed message hm hk =>
    obtain ⟨hf, hd⟩ := pushSendEvent_delivers env message
    refine ⟨fun ht => ?_, fun _ => ⟨message, hd, hm, hk⟩⟩
    rw [show (pushChecked env (.ok message)).isRefused = false from hf] at ht
    cases ht

/-- What reaches a handler: checks for the kind of recipient that the request asks for. -/
theorem handleSend_checked {env : Surroundings} {route : SendRoute} {body : String} {o : Outcome}
    (h : handleSend env route body = .ok o) :
    ∃ kind r, route.asks body = .ok kind ∧ Checked kind r ∧ o = pushChecked env r := by
  cases route <;> simp only [handleSend] at h <;> obtain ⟨payload, hp, ho⟩ := Fallible.map_ok h
  case messageSend =>
    refine ⟨_, _, ?_, payload.check_checked, ho⟩
    simp only [SendRoute.asks, hp, Except.map]
  case sendMsg =>
    refine ⟨_, _, ?_, payload.check_checked, ho⟩
    simp only [SendRoute.asks, hp, Except.map]
  case sendPrivateMsg => exact ⟨_, _, rfl, payload.check_checked, ho⟩
  case sendGroupMsg => exact ⟨_, _, rfl, payload.check_checked, ho⟩

/-- A request that reaches its handler and is answered `InvalidRequest` has sent and enqueued nothing.
For every other one there is one message that is all the handler gave to the backend and enqueued; it
passes every check and its recipient is of the kind that was asked for. -/
theorem send_guarded {env : Surroundings} {route : SendRoute} {body : String} {o : Outcome}
    (h : handleSend env route body = .ok o) :
    (o.isRefused = true → o.sent = [] ∧ o.enqueued = []) ∧
      (o.isRefused = false → ∃ message, Delivered env o message ∧ Deliverable message ∧
        route.asks body = .ok (recipientType message.recipient)) := by
  obtain ⟨kind, r, hasks, hc, rfl⟩ := handleSend_checked h
  obtain ⟨hrefused, hpushed⟩ := pushChecked_guarded env hc
  refine ⟨hrefused, fun hf => ?_⟩
  obtain ⟨message, hd, hm, hk⟩ := hpushed hf
  exact ⟨message, hd, hm, hasks.trans (congrArg _ hk.symm)⟩

/-- A group message whose recipient id stands between blanks. -/
def paddedBody : String := "\x7b\"message_type\":\"group\",\"group_id\":\" 42 \",\"message\":\" hi\"\x7d"

theorem send_guarded_padded : ∃ o, handleSend ⟨some (.ok ()), .accepted⟩ .sendMsg paddedBody = .ok o ∧
    o.isRefused = false ∧ ∃ message, Delivered ⟨some (.ok ()), .accepted⟩ o message ∧ Deliverable message := by
  have hk : ((handleSend ⟨some (.ok ()), .accepted⟩ .sendMsg paddedBody).toOption.map Outcome.isRefused)
      = some false := by
    decide +kernel
  obtain ⟨o, ho, hf⟩ := Option.map_eq_some_iff.1 hk
  have ho : handleSend ⟨some (.ok ()), .accepted⟩ .sendMsg paddedBody = .ok o := by
    cases hr : handleSend ⟨some (.ok ()), .accepted⟩ .sendMsg paddedBody with
    | error e => rw [hr] at ho; cases ho
    | ok o' => rw [hr] at ho; exact congrArg _ (Option.some.inj ho)
  obtain ⟨message, hd, hm, -⟩ := (send_guarded ho).2 hf
  exact ⟨o, ho, hf, message, hd, hm⟩

end NapCat.Api
