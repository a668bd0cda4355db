/-
An instance whose backend is the OneBot HTTP client of another instance, and chains of such instances:
what a message pushed at the first of them makes every one of them publish, and what the first client
is told of it.
-/
import NapCat.Api.Payload
import NapCat.Api.SendRoutes
import NapCat.Protocol.ListenItems
import NapCat.Protocol.OneBotRequests
import Mathlib.Data.List.Flatten

namespace NapCat.Api

open Json

/-- A status code as a client prints it. -/
def StatusCode.text : StatusCode → String
  | .badRequest => "400 Bad Request"
  | .serviceUnavailable => "503 Service Unavailable"
  | .badGateway => "502 Bad Gateway"

/-- The message that a handler would push, or the refusal of its checks. -/
def SendRoute.check (route : SendRoute) (body : String) : Except Json.Error (Except ApiError Message) :=
  match route with
  | .messageSend => (fromText SendRequest.ofJson body).map SendRequest.check
  | .sendMsg => (fromText CompatSendRequest.ofJson body).map CompatSendRequest.check
  | .sendPrivateMsg => (fromText SendPrivateRequest.ofJson body).map SendPrivateRequest.check
  | .sendGroupMsg => (fromText SendGroupRequest.ofJson body).map SendGroupRequest.check

/-- Every send route checks a message and pushes it. -/
theorem handleSend_eq (env : Surroundings) (route : SendRoute) (body : String) :
    handleSend env route body = (route.check body).map (pushChecked env) := by
  have key {α : Type} (x : Except Json.Error α) (f : α → Except ApiError Message) :
      x.map (fun a => pushChecked env (f a)) = (x.map f).map (pushChecked env) := by cases x <;> rfl
  cases route <;> exact key _ _

/-- Runtime login status payload. -/
structure LoginStatusData where
  online : Bool
  message : String

def loginStatusData (online : Bool) : LoginStatusData :=
  ⟨online, if online then "runtime running" else "runtime not logged in"⟩

def loginStatusJson (d : LoginStatusData) : Json := .obj [("online", .bool d.online), ("message", .str d.message)]

def getStatusCompat (online : Bool) : ApiEnvelope LoginStatusData :=
  ⟨if online then "ok" else "failed", if online then 0 else 1201, loginStatusData online,
    if online then none else some "runtime not logged in"⟩

namespace Federation

/-- The routes that the client posts to. -/
def routeOf (path : String) : Option SendRoute :=
  if path = "/send_private_msg" then some .sendPrivateMsg
  else if path = "/send_group_msg" then some .sendGroupMsg
  else none

/-- The body limit of the server's JSON extractor, which is 2 MB where none is configured. -/
def bodyLimit : Nat := 2097152

/-- The text of a request's body. -/
def bodyText (r : OneBotHttp.Request) : String := (r.body.map Json.toText).getD ""

/-- What the client of a body that is no request of its route is told. -/
def rejectionText : Json.Error → String
  | .malformed => "400 Bad Request"
  | _ => "422 Unprocessable Entity"

/-- What an instance makes of a request up to its push: the message, or the status of its answer. -/
def receive (r : OneBotHttp.Request) : Except String Message :=
  match routeOf r.path with
  | none => .error "404 Not Found"
  | some route =>
    if bodyLimit < (bodyText r).utf8ByteSize then .error "413 Payload Too Large"
    else
      match route.check (bodyText r) with
      | .error e => .error (rejectionText e)
      | .ok (.error e) => .error e.intoResponse.1.text
      | .ok (.ok message) => .ok message

def sendResponseJson (r : SendResponse) : Json :=
  .obj [("accepted", .bool r.accepted), ("message_id", .str r.messageId)]

/-- The answer of a handler, as its client gets it. -/
def response (o : Outcome) : HttpResponse :=
  match o.answer with
  | .ok a => .body (envelopeJson a.status a.retcode (sendResponseJson a.data) a.message).canon
  | .error e => .nonSuccess e.intoResponse.1.text

/-- What becomes of a request and of its answer between two instances. -/
inductive Net
  | delivers
  | losesRequest (error : String)
  | losesAnswer (error : String)
  deriving DecidableEq

/-- An instance that has another one for its backend: its client, the way between the two, and what
becomes of the event it emits. -/
structure Relay where
  config : OneBotBackendConfig
  client : OneBotHttp.Shared
  net : Net
  queue : Dispatch

/-- A message pushed at the first instance of a chain: the outcome there, and those of the instances after
it that the message has reached. The last instance has surroundings of its own. -/
def push (last : Message → Surroundings) : List Relay → Message → Outcome × List Outcome
  | [], message => (pushSendEvent (last message) message, [])
  | relay :: rest, message =>
    match OneBotHttp.sendMessage relay.config relay.client message with
    | .error e => (pushSendEvent ⟨some (.error e), relay.queue⟩ message, [])
    | .ok r =>
      match relay.net, receive r with
      | .losesRequest e, _ => (pushSendEvent ⟨some (.error (.transport e)), relay.queue⟩ message, [])
      | .losesAnswer e, .error _ => (pushSendEvent ⟨some (.error (.transport e)), relay.queue⟩ message, [])
      | .delivers, .error status =>
        (pushSendEvent ⟨some (OneBotHttp.sendResult (.nonSuccess status)), relay.queue⟩ message, [])
      | .losesAnswer e, .ok received =>
        let down := push last rest received
        (pushSendEvent ⟨some (.error (.transport e)), relay.queue⟩ message, down.1 :: down.2)
      | .delivers, .ok received =>
        let down := push last rest received
        (pushSendEvent ⟨some (OneBotHttp.sendResult (response down.1)), relay.queue⟩ message, down.1 :: down.2)

/-- The messages that instance `i` of a chain publishes for one pushed at the first. -/
def published (last : Message → Surroundings) (relays : List Relay) (message : Message) (i : Nat) :
    List ProtocolEvent :=
  let (first, others) := push last relays message
  ((first :: others)[i]?.map Outcome.enqueued).getD []

/-- A message as the next instance gets it. -/
def relayed (message : Message) : Message :=
  let text := messageToPlainText message
  Message.ofText (messageIdFromText text) "api" (trimRecipient message.recipient) text

/-- The answer of `/get_status`, as its client gets it: the status code is that of success in either state. -/
def statusResponse (online : Bool) : HttpResponse :=
  let a := getStatusCompat online
  .ofBody (envelopeJson a.status a.retcode (loginStatusJson a.data) a.message).toText

/-- A connected client of an instance is logged in exactly while the runtime of that instance runs. -/
theorem loggedInResult_peer {config : OneBotBackendConfig} {g : OneBotHttp.Shared} (online : Bool)
    (hc : g.connected = true) (hb : Text.isBlank config.baseUrl = false) :
    OneBotHttp.loggedInResult config g (statusResponse online) = .ok online := by
  have hstatus : OneBotHttp.statusResult (statusResponse online) = .ok online := by
    cases online <;> decide +kernel
  simp only [OneBotHttp.loggedInResult, OneBotHttp.isLoggedIn, OneBotHttp.getStatus, hc, hb, hstatus]
  rfl

/-- The client sends the message and the server of the next instance takes it. -/
structure Relayable (message : Message) : Prop where
  text : Text.isBlank (messageToPlainText message) = false
  recipient : Text.isBlank (recipientId message.recipient) = false
  size : (OneBotHttp.sendBody message.recipient (messageToPlainText message)).2.toText.utf8ByteSize ≤ bodyLimit

/-! ## One hop -/

theorem messageToPlainText_ne (message : Message) : messageToPlainText message ≠ "" := by
  unfold messageToPlainText
  dsimp only
  split_ifs with he
  · intro h
    have := congrArg String.toList h
    simp at this
  · exact fun h => he (String.isEmpty_iff.2 h)

theorem messageToPlainText_relayed (message : Message) :
    messageToPlainText (relayed message) = messageToPlainText message := by
  have hne : (messageToPlainText message).isEmpty = false :=
    Bool.eq_false_iff.2 fun h => messageToPlainText_ne message (String.isEmpty_iff.1 h)
  generalize ht : messageToPlainText message = text at hne
  have hj : String.join [text] = text := by simp [String.join]
  simp only [relayed, ht, Message.ofText]
  rw [messageToPlainText]
  simp only [List.map_cons, List.map_nil, MessageElement.plainText, hj, hne]
  rfl

theorem trimRecipient_trim (r : MessageRecipient) : trimRecipient (trimRecipient r) = trimRecipient r := by
  cases r <;> rw [trimRecipient, trimRecipient, Text.trim_trim]

/-- A second hop changes nothing. -/
theorem relayed_relayed (message : Message) : relayed (relayed message) = relayed message := by
  conv_lhs => rw [relayed]
  rw [messageToPlainText_relayed]
  simp only [relayed, Message.ofText, trimRecipient_trim]

theorem trim_sublist (s : String) : (Text.trim s).toList.Sublist s.toList := by
  rw [Text.trim, String.toList_ofList]
  exact (List.rdropWhile_prefix _ _).sublist.trans (List.dropWhile_sublist _)

theorem quote_sublist {s t : List Char} (h : s.Sublist t) : (quote s).Sublist (quote t) :=
  (((h.flatMap escapeChar).append (List.Sublist.refl _))).cons_cons _

/-- The body of a hop is no longer than that of the hop before. -/
theorem sendBody_trim_size (r : MessageRecipient) (text : String) :
    (OneBotHttp.sendBody (trimRecipient r) text).2.toText.utf8ByteSize ≤
      (OneBotHttp.sendBody r text).2.toText.utf8ByteSize := by
  cases r <;>
  · rw [Json.toText, Json.toText, String.utf8ByteSize_ofList, String.utf8ByteSize_ofList]
    refine String.utf8Len_le_of_sublist (List.Sublist.cons_cons _ ?_)
    refine (List.Sublist.refl _).append (List.Sublist.cons_cons _ ?_)
    exact (quote_sublist (trim_sublist _)).append (List.Sublist.refl _)

theorem Relayable.relayed {message : Message} (h : Relayable message) : Relayable (relayed message) := by
  refine ⟨?_, ?_, ?_⟩
  · rw [messageToPlainText_relayed]
    exact h.text
  · rw [show (Federation.relayed message).recipient = trimRecipient message.recipient from rfl, recipientId_trim,
      Text.isBlank, Text.trim_trim]
    exact h.recipient
  · rw [messageToPlainText_relayed]
    exact (sendBody_trim_size _ _).trans h.size

/-- A text to a recipient, as the client posts it, comes to the checks of that text. -/
theorem receive_sendBody (config : OneBotBackendConfig) (recipient : MessageRecipient) {text : String}
    (htext : Text.isBlank text = false) :
    receive (.post config (OneBotHttp.sendBody recipient text).1 (OneBotHttp.sendBody recipient text).2) =
      if bodyLimit < (OneBotHttp.sendBody recipient text).2.toText.utf8ByteSize then .error "413 Payload Too Large"
      else if Text.isBlank (recipientId recipient) then .error "400 Bad Request"
      else .ok (Message.ofText (messageIdFromText text) "api" (trimRecipient recipient) text) := by
  have hchecked : ∃ route r, routeOf (OneBotHttp.sendBody recipient text).1 = some route ∧
      route.check (OneBotHttp.sendBody recipient text).2.toText = .ok r ∧ TextChecked text recipient r := by
    cases recipient with
    | privateUser userId =>
      refine ⟨.sendPrivateMsg, _, rfl, ?_, (Asks.privateUser userId none text).check htext⟩
      rw [SendRoute.check, fromText_toText]
      rfl
    | group groupId =>
      refine ⟨.sendGroupMsg, _, rfl, ?_, (Asks.group none groupId text).check htext⟩
      rw [SendRoute.check, fromText_toText]
      rfl
  obtain ⟨route, r, hroute, hr, ht⟩ := hchecked
  simp only [receive, OneBotHttp.Request.post, hroute, bodyText, Option.map_some, Option.getD_some, hr]
  cases ht with
  | refused m hblank => simp only [hblank]; rfl
  | passed hid => simp only [hid]; rfl

/-- What arrives at the next instance is the message as it is relayed, exactly where it can be. -/
theorem receive_sendMessage {config : OneBotBackendConfig} {g : OneBotHttp.Shared} {message : Message}
    {r : OneBotHttp.Request} (h : OneBotHttp.sendMessage config g message = .ok r) :
    (Relayable message ∧ receive r = .ok (relayed message)) ∨
      (¬ Relayable message ∧ ∃ status, receive r = .error status) := by
  unfold OneBotHttp.sendMessage at h
  dsimp only at h
  split_ifs at h with hc ht
  cases h
  have ht := Bool.eq_false_iff.2 ht
  rw [receive_sendBody config _ ht]
  split_ifs with hsize hid
  · exact .inr ⟨fun hr => absurd hr.size (Nat.not_le.2 hsize), _, rfl⟩
  · exact .inr ⟨fun hr => absurd hid (Bool.eq_false_iff.1 hr.recipient), _, rfl⟩
  · exact .inl ⟨⟨ht, Bool.eq_false_iff.2 hid, Nat.not_lt.1 hsize⟩, rfl⟩

theorem sendMessage_isOk {config : OneBotBackendConfig} {g : OneBotHttp.Shared} {message : Message}
    (hc : g.connected = true) (h : Relayable message) : ∃ r, OneBotHttp.sendMessage config g message = .ok r := by
  unfold OneBotHttp.sendMessage
  simp only [hc, h.text]
  exact ⟨_, rfl⟩

/-! ## Pushes -/

theorem pushSendEvent_isOk (answer : Except ProtocolError Unit) (queue : Dispatch) (message : Message) :
    (pushSendEvent ⟨some answer, queue⟩ message).answer.isOk = true ↔ answer.isOk = true ∧ queue = .accepted := by
  rcases answer with e | u <;> cases queue <;> simp [pushSendEvent, emitEvent, Except.isOk, Except.toBool]

/-- What a message does at an instance with another one behind it: it does not arrive there, or it arrives
as it is relayed, and the client learns no more than the truth of it. -/
inductive Hop (last : Message → Surroundings) (rest : List Relay) (relay : Relay) (message : Message) :
    Outcome × List Outcome → Prop
  | stopped (e : ProtocolError)
      (hno : ¬ (relay.client.connected = true ∧ relay.net = .delivers ∧ Relayable message)) :
      Hop last rest relay message (pushSendEvent ⟨some (.error e), relay.queue⟩ message, [])
  | passed (answer : Except ProtocolError Unit) (hconnected : relay.client.connected = true)
      (hr : Relayable message)
      (hanswer : answer.isOk = true ↔ relay.net = .delivers ∧ (push last rest (relayed message)).1.answer.isOk = true) :
      Hop last rest relay message (pushSendEvent ⟨some answer, relay.queue⟩ message,
        (push last rest (relayed message)).1 :: (push last rest (relayed message)).2)

theorem sendResult_response (o : Outcome) : (OneBotHttp.sendResult (response o)).isOk = o.answer.isOk := by
  obtain ⟨sent, enqueued, e | a⟩ := o <;> rfl

theorem push_hop (last : Message → Surroundings) (rest : List Relay) (relay : Relay) (message : Message) :
    Hop last rest relay message (push last (relay :: rest) message) := by
  rw [push]
  cases hs : OneBotHttp.sendMessage relay.config relay.client message with
  | error e =>
    refine .stopped e fun ⟨hc, _, hr⟩ => ?_
    obtain ⟨r, hr⟩ := sendMessage_isOk hc hr
    rw [hs] at hr
    cases hr
  | ok r =>
    have hc : relay.client.connected = true := by
      by_contra hc
      rw [OneBotHttp.sendMessage, if_pos (Bool.eq_false_iff.2 hc)] at hs
      cases hs
    dsimp only
    rcases receive_sendMessage hs with ⟨hr, hreceive⟩ | ⟨hr, status, hreceive⟩
    · rw [hreceive]
      cases hnet : relay.net with
      | delivers => exact .passed _ hc hr (by rw [sendResult_response, hnet]; simp)
      | losesRequest e => exact .stopped _ fun h => by rw [hnet] at h; cases h.2.1
      | losesAnswer e => exact .passed _ hc hr (by rw [hnet]; simp [Except.isOk, Except.toBool])
    · rw [hreceive]
      cases hnet : relay.net with
      | delivers => exact .stopped _ fun h => hr h.2.2
      | losesRequest e => exact .stopped _ fun h => hr h.2.2
      | losesAnswer e => exact .stopped _ fun h => hr h.2.2

/-! ## Chains -/

/-- The message as instance `i` has it. -/
def messageAt (message : Message) : Nat → Message
  | 0 => message
  | _ + 1 => relayed message

/-- An instance hands on what it is given, answer and all. -/
def Relay.IsOpen (relay : Relay) : Prop :=
  relay.client.connected = true ∧ relay.net = .delivers ∧ relay.queue = .accepted

theorem published_zero (last : Message → Surroundings) (relays : List Relay) (message : Message) :
    published last relays message 0 = (push last relays message).1.enqueued := rfl

theorem pushSendEvent_enqueued (env : Surroundings) (message : Message) :
    (pushSendEvent env message).enqueued =
      if (pushSendEvent env message).answer.isOk then [.messageReceived message] else [] :=
  (pushSendEvent_delivers env message).2.enqueued

/-- Of the instances of a chain those from one on publish a message, once each, whatever fails; the first
client is told that it is sent exactly where all do. -/
theorem published_tail (last : Message → Surroundings) (relays : List Relay) (message : Message) :
    ∃ k, (∀ i ≤ relays.length, published last relays message i =
        if k ≤ i then [.messageReceived (messageAt message i)] else []) ∧
      ((push last relays message).1.answer.isOk = true ↔ k = 0) := by
  induction relays generalizing message with
  | nil =>
    have hone : ∀ i ≤ ([] : List Relay).length, published last [] message i =
        if (pushSendEvent (last message) message).answer.isOk then [.messageReceived message] else [] := by
      intro i hi
      rw [Nat.le_zero.1 hi, published_zero, push, pushSendEvent_enqueued]
    by_cases h : (pushSendEvent (last message) message).answer.isOk = true
    · refine ⟨0, fun i hi => ?_, by simp [push, h]⟩
      rw [hone i hi, if_pos h, if_pos (Nat.zero_le i), Nat.le_zero.1 hi]
      rfl
    · refine ⟨1, fun i hi => ?_, by simp [push, h]⟩
      rw [hone i hi, if_neg h, if_neg (by simp [Nat.le_zero.1 hi])]
  | cons relay rest ih =>
    have hhop := push_hop last rest relay message
    generalize hp : push last (relay :: rest) message = p at hhop
    cases hhop with
    | stopped e hno =>
      refine ⟨rest.length + 2, fun i hi => ?_, ?_⟩
      · have hi : i ≤ rest.length + 1 := hi
        rw [if_neg (by omega), published, hp]
        cases i <;> rfl
      · simp [pushSendEvent, Except.isOk, Except.toBool]
    | passed answer hconnected hr hanswer =>
      obtain ⟨k, hpub, hok⟩ := ih (relayed message)
      have hsucc (i : Nat) :
          published last (relay :: rest) message (i + 1) = published last rest (relayed message) i := by
        rw [published, published, hp]
        rfl
      have hat (i : Nat) : messageAt (relayed message) i = messageAt message (i + 1) := by
        cases i with
        | zero => rfl
        | succ i => exact relayed_relayed message
      have hfirst : published last (relay :: rest) message 0 =
          if (pushSendEvent ⟨some answer, relay.queue⟩ message).answer.isOk then [.messageReceived message]
          else [] := by
        rw [published_zero, hp, pushSendEvent_enqueued]
      by_cases h : (pushSendEvent ⟨some answer, relay.queue⟩ message).answer.isOk = true
      · -- the client has seen the answer of an instance behind which all have published
        have hk : k = 0 := hok.1 (hanswer.1 ((pushSendEvent_isOk ..).1 h).1).2
        refine ⟨0, fun i hi => ?_, by simp [h]⟩
        cases i with
        | zero => rw [hfirst, if_pos h]; rfl
        | succ i =>
          rw [hsucc, hpub i (Nat.le_of_succ_le_succ hi), hat, hk]
          simp
      · refine ⟨k + 1, fun i hi => ?_, by simp [h]⟩
        cases i with
        | zero => rw [hfirst, if_neg h]; rfl
        | succ i =>
          rw [hsucc, hpub i (Nat.le_of_succ_le_succ hi), hat]
          simp

/-- A push at the first instance of a chain is answered with success exactly where the message can be
relayed, every instance hands it on, and the last one would answer so. -/
theorem push_isOk_iff (last : Message → Surroundings) (relays : List Relay) (message : Message) :
    (push last relays message).1.answer.isOk = true ↔
      (∀ relay ∈ relays, relay.IsOpen) ∧ (relays ≠ [] → Relayable message) ∧
        (pushSendEvent (last (messageAt message relays.length))
          (messageAt message relays.length)).answer.isOk = true := by
  induction relays generalizing message with
  | nil => simp [push, messageAt]
  | cons relay rest ih =>
    have hhop := push_hop last rest relay message
    generalize push last (relay :: rest) message = p at hhop
    cases hhop with
    | stopped e hno =>
      refine ⟨fun h => ?_, fun ⟨hopen, hr, _⟩ => absurd ?_ hno⟩
      · cases ((pushSendEvent_isOk ..).1 h).1
      · obtain ⟨hc, hn, _⟩ := hopen relay List.mem_cons_self
        exact ⟨hc, hn, hr (List.cons_ne_nil _ _)⟩
    | passed answer hconnected hr hanswer =>
      have hat : messageAt (relayed message) rest.length = messageAt message (rest.length + 1) := by
        cases rest with
        | nil => rfl
        | cons relay' rest => exact relayed_relayed message
      rw [pushSendEvent_isOk, hanswer, ih, hat, List.forall_mem_cons, List.length_cons, Relay.IsOpen]
      simp only [hconnected, hr, hr.relayed]
      tauto

/-! ## Many pushes -/

/-- A push, and the state that it finds the chain in. -/
structure Attempt where
  last : Message → Surroundings
  relays : List Relay
  message : Message

/-- What instance `i` publishes in a run of pushes, one after the other. -/
def log (attempts : List Attempt) (i : Nat) : List ProtocolEvent :=
  attempts.flatMap fun a => published a.last a.relays a.message i

def relayedEvent : ProtocolEvent → ProtocolEvent
  | .messageReceived message => .messageReceived (relayed message)
  | event => event

/-- In every run of pushes, whatever fails in which of them, an instance has published, in order, all that
the one before it has, and as many pushes are answered with success as the first one has published. -/
theorem log_sublist {attempts : List Attempt} {n : Nat} (h : ∀ a ∈ attempts, a.relays.length = n) :
    (∀ i < n, ((log attempts i).map relayedEvent).Sublist (log attempts (i + 1))) ∧
      attempts.countP (fun a => (push a.last a.relays a.message).1.answer.isOk) = (log attempts 0).length := by
  induction attempts with
  | nil => exact ⟨fun i _ => List.Sublist.refl _, rfl⟩
  | cons a attempts ih =>
    obtain ⟨ha, hrest⟩ := List.forall_mem_cons.1 h
    obtain ⟨hsub, hcount⟩ := ih hrest
    obtain ⟨k, hpub, hok⟩ := published_tail a.last a.relays a.message
    have hlog (i : Nat) : log (a :: attempts) i = published a.last a.relays a.message i ++ log attempts i := rfl
    refine ⟨fun i hi => ?_, ?_⟩
    · rw [hlog, hlog, List.map_append, hpub i (by omega), hpub (i + 1) (by omega)]
      refine List.Sublist.append ?_ (hsub i hi)
      split_ifs with hk hk'
      · cases i with
        | zero => exact List.Sublist.refl _
        | succ i =>
          simp only [List.map_cons, relayedEvent, messageAt, relayed_relayed]
          exact List.Sublist.refl _
      · omega
      · exact List.nil_sublist _
      · exact List.nil_sublist _
    · rw [hlog, List.length_append, List.countP_cons, hcount, hpub 0 (Nat.zero_le _), Nat.add_comm]
      simp only [hok, Nat.le_zero]
      split_ifs <;> rfl

/-- A chain of two, whose way loses the answer of a first push and nothing of a second. -/
def secondTry : List Attempt :=
  let relay (net : Net) : Relay := ⟨⟨"http://b", none, 600, 8⟩, { connected := true }, net, .accepted⟩
  let message := Message.ofText "1" "a" (.group " 42 ") "hi"
  [⟨fun _ => ⟨none, .accepted⟩, [relay (.losesAnswer "reset")], message⟩,
    ⟨fun _ => ⟨none, .accepted⟩, [relay .delivers], message⟩]

/-- The second instance has published the message of the first push too. -/
theorem log_sublist_secondTry :
    (log secondTry 0).length = 1 ∧ (log secondTry 1).length = 2 ∧
      ((log secondTry 0).map relayedEvent).Sublist (log secondTry 1) :=
  ⟨by decide +kernel, by decide +kernel, (log_sublist (n := 1) (by decide)).1 0 (by decide)⟩

end Federation

end NapCat.Api
