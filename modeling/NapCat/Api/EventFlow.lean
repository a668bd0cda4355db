/-
The events of the requests: handlers that run concurrently, each at its await points, the bounded dispatch channel they
emit into, and the task of `ApiState::with_protocol` that takes the events off it and publishes them on the bus beside
the protocol relay. A handler may be answered by an error of its backend, time out in the channel, or be dropped with
its connection.
-/
import NapCat.Api.SendGuards
import NapCat.Api.Subscribers
import NapCat.Lib.BoundedQueue

namespace NapCat.Api

def eventDispatchCapacity : Nat := 64

/-- Delete message request payload. -/
structure DeleteMsgRequest where
  messageId : String

/-- Delete message response payload. -/
structure DeleteMsgResponse where
  messageId : String

/-- What a handler does once its checks have passed. -/
inductive Work
  | push (message : Message)
  | delete (messageId : String)

/-- The checks of `delete_msg`. -/
def DeleteMsgRequest.check (payload : DeleteMsgRequest) : Except ApiError Work :=
  let messageId := Text.trim payload.messageId
  if messageId.isEmpty then refuse "message_id is required" else .ok (.delete messageId)

/-- The requests whose handlers emit an event. -/
inductive Request
  | messageSend (payload : SendRequest)
  | sendMsg (payload : CompatSendRequest)
  | sendPrivateMsg (payload : SendPrivateRequest)
  | sendGroupMsg (payload : SendGroupRequest)
  | deleteMsg (payload : DeleteMsgRequest)

def Request.check : Request → Except ApiError Work
  | .messageSend payload => payload.check.map .push
  | .sendMsg payload => payload.check.map .push
  | .sendPrivateMsg payload => payload.check.map .push
  | .sendGroupMsg payload => payload.check.map .push
  | .deleteMsg payload => payload.check

/-- The event that the handler emits. -/
def Work.event : Work → ProtocolEvent
  | .push message => .messageReceived message
  | .delete messageId => .warning ("delete message requested: " ++ messageId)

/-- A message goes to the backend first, if there is one. -/
def Work.asksBackend : Work → Bool
  | .push _ => true
  | .delete _ => false

inductive WorkResponse
  | send (response : SendResponse)
  | delete (response : DeleteMsgResponse)

def Work.response : Work → ApiEnvelope WorkResponse
  | .push message => ⟨"ok", 0, .send ⟨true, message.id⟩, none⟩
  | .delete messageId => ⟨"ok", 0, .delete ⟨messageId⟩, none⟩

/-- Where a handler is: waiting for the backend, or for its send number `n` of the dispatch channel; answered, or
dropped. -/
inductive HandlerPc
  | sending (work : Work)
  | emitting (work : Work) (n : Nat)
  | accepted (work : Work) (n : Nat)
  | failed (error : ApiError)
  | dropped

def HandlerPc.answer : HandlerPc → Option (Except ApiError (ApiEnvelope WorkResponse))
  | .accepted work _ => some (.ok work.response)
  | .failed error => some (.error error)
  | _ => none

def HandlerPc.unfinished : HandlerPc → Bool
  | .sending _ | .emitting _ _ => true
  | _ => false

/-- An event on the bus, with the task it comes from. -/
structure EventEnvelope where
  source : String
  kind : String
  payload : ProtocolEvent

def EventEnvelope.ofDispatch (event : ProtocolEvent) : EventEnvelope := ⟨"api", "protocol-event", event⟩

def EventEnvelope.ofProtocol (event : ProtocolEvent) : EventEnvelope := ⟨"protocol", "event", event⟩

/-- `held` says that the server still holds the state; every unfinished handler holds it too, and with it a sender of
the dispatch channel. A value in the channel carries the number of its handler. -/
structure EventFlow where
  backend : Bool
  held : Bool := true
  relayAlive : Bool := true
  dispatch : BoundedQueue.Chan (Nat × ProtocolEvent) := BoundedQueue.init eventDispatchCapacity
  handlers : List HandlerPc := []
  envelopes : List EventEnvelope := []
  subscribers : Subscribers := {}

namespace EventFlow

open Run BoundedQueue

inductive Event
  | request (r : Request)
  | backend (k : Nat) (answer : Except ProtocolError Unit)
  | put (k : Nat)
  | timeout (k : Nat)
  | drop (k : Nat)
  | relay
  | release
  | channel (e : Consumers.Event)

def closedError : ApiError := .eventDispatch "dispatch channel closed: channel closed"

def timedOutError : ApiError := .eventDispatch "event dispatch timed out"

def senders (s : EventFlow) : Bool := s.held || s.handlers.any HandlerPc.unfinished

/-- `emit_event` of handler `k`, up to where it waits: with a permit to take, the event is in and the handler
answers. -/
def emit (s : EventFlow) (k : Nat) (work : Work) : EventFlow :=
  if s.relayAlive then
    let n := s.dispatch.sends.length
    { s with
      dispatch := start s.dispatch (k, work.event)
      handlers := s.handlers.set k (if 0 < s.dispatch.permits then .accepted work n else .emitting work n) }
  else { s with handlers := s.handlers.set k (.failed closedError) }

/-- A handler that waits in the channel gives up. -/
def giveUp (s : EventFlow) (k n : Nat) (pc : HandlerPc) : Option EventFlow :=
  (BoundedQueue.step s.dispatch (.giveUp n)).map fun dispatch =>
    { s with dispatch := dispatch, handlers := s.handlers.set k pc }

/-- The steps of the other parties: they do not publish, and the bus keeps a sender as long as the state or the dispatch
task does. -/
def mayStep (s : EventFlow) : Consumers.Event → Bool
  | .publish _ => false
  | .dropBusSenders => !s.held && !s.relayAlive
  | _ => true

def step (s : EventFlow) : Event → Option EventFlow
  | .request r =>
    if s.held then
      match r.check with
      | .error e => some { s with handlers := s.handlers ++ [.failed e] }
      | .ok work =>
        let s' := { s with handlers := s.handlers ++ [.sending work] }
        if s.backend && work.asksBackend then some s' else some (s'.emit s.handlers.length work)
    else none
  | .backend k answer =>
    match s.handlers[k]? with
    | some (.sending work) =>
      match answer with
      | .ok () => some (s.emit k work)
      | .error e =>
        let failed := HandlerPc.failed (.protocolSend ("protocol send failed: " ++ e.text))
        some { s with handlers := s.handlers.set k failed }
    | _ => none
  | .put k =>
    match s.handlers[k]? with
    | some (.emitting work n) => (BoundedQueue.step s.dispatch (.put n)).map fun dispatch =>
        { s with dispatch := dispatch, handlers := s.handlers.set k (.accepted work n) }
    | _ => none
  | .timeout k =>
    match s.handlers[k]? with
    | some (.emitting _ n) => s.giveUp k n (.failed timedOutError)
    | _ => none
  | .drop k =>
    match s.handlers[k]? with
    | some (.sending _) => some { s with handlers := s.handlers.set k .dropped }
    | some (.emitting _ n) => s.giveUp k n .dropped
    | _ => none
  | .relay =>
    if s.relayAlive then
      match s.dispatch.queue with
      | (_, _, event) :: _ => (BoundedQueue.step s.dispatch .recv).bind fun dispatch =>
          (Subscribers.step s.subscribers (.publish event)).map fun subscribers =>
            { s with
              dispatch := dispatch
              envelopes := s.envelopes ++ [.ofDispatch event]
              subscribers := subscribers }
      | [] => if s.senders then none else some { s with relayAlive := false }
    else none
  | .release => some { s with held := false }
  | .channel e =>
    if s.mayStep e then
      (Subscribers.step s.subscribers e).map fun subscribers =>
        let published := subscribers.consumers.bus.drop s.subscribers.consumers.bus.length
        { s with envelopes := s.envelopes ++ published.map .ofProtocol, subscribers := subscribers }
    else none

/-! ## Handlers and their sends -/

/-- The send that a handler stands by: its number, what for, and what has become of it. -/
def claim : HandlerPc → Option (Nat × Work × Stage)
  | .emitting work n => some (n, work, .pending)
  | .accepted work n => some (n, work, .entered)
  | _ => none

/-- A handler that waits or has been answered is the one of its send, and a send that is not given up has its
handler. -/
structure Linked (handlers : List HandlerPc) (sends : List ((Nat × ProtocolEvent) × Stage)) : Prop where
  send : ∀ k p n work t, handlers[k]? = some p → claim p = some (n, work, t) → sends[n]? = some ((k, work.event), t)
  handler : ∀ n k event t, sends[n]? = some ((k, event), t) → t ≠ .gone →
    ∃ p work, handlers[k]? = some p ∧ claim p = some (n, work, t) ∧ work.event = event

variable {handlers : List HandlerPc} {sends : List ((Nat × ProtocolEvent) × Stage)}

theorem Linked.nil : Linked [] [] := ⟨fun k p n work t hk => (by cases hk), fun n k event t hn => (by cases hn)⟩

/-- A handler that has no send yet. -/
theorem Linked.append (h : Linked handlers sends) {p : HandlerPc} (hp : claim p = none) :
    Linked (handlers ++ [p]) sends := by
  refine ⟨fun k q n work t hk hq => ?_, fun n k event t hn ht => ?_⟩
  · rcases Threads.get_append hk with ⟨-, rfl⟩ | hk
    · rw [hp] at hq; cases hq
    · exact h.send k q n work t hk hq
  · obtain ⟨q, work, hk, hq⟩ := h.handler n k event t hn ht
    exact ⟨q, work, (List.getElem?_append_left (List.getElem?_eq_some_iff.1 hk).1).trans hk, hq⟩

/-- A handler ends without a send. -/
theorem Linked.settle (h : Linked handlers sends) {k : Nat} {p p' : HandlerPc} (hk : handlers[k]? = some p)
    (hp : claim p = none) (hp' : claim p' = none) : Linked (handlers.set k p') sends := by
  refine ⟨fun j q n work t hj hq => ?_, fun n j event t hn ht => ?_⟩
  · rcases Threads.get_set hj with ⟨-, rfl⟩ | ⟨-, hj⟩
    · rw [hp'] at hq; cases hq
    · exact h.send j q n work t hj hq
  · obtain ⟨q, work, hj, hq, he⟩ := h.handler n j event t hn ht
    refine ⟨q, work, ?_, hq, he⟩
    rw [List.getElem?_set_ne]
    · exact hj
    · rintro rfl
      obtain rfl : p = q := Option.some.inj (hk.symm.trans hj)
      rw [hp] at hq; cases hq

/-- A handler begins its send. -/
theorem Linked.start (h : Linked handlers sends) {k : Nat} {p p' : HandlerPc} (hk : handlers[k]? = some p)
    (hp : claim p = none) {work : Work} {t : Stage} (hp' : claim p' = some (sends.length, work, t)) :
    Linked (handlers.set k p') (sends ++ [((k, work.event), t)]) := by
  have hlt : k < handlers.length := (List.getElem?_eq_some_iff.1 hk).1
  refine ⟨fun j q n work' t' hj hq => ?_, fun n j event t' hn ht => ?_⟩
  · rcases Threads.get_set hj with ⟨rfl, rfl⟩ | ⟨-, hj⟩
    · cases hp'.symm.trans hq
      exact List.getElem?_concat_length
    · have hn := h.send j q n work' t' hj hq
      exact (List.getElem?_append_left (List.getElem?_eq_some_iff.1 hn).1).trans hn
  · rcases Threads.get_append hn with ⟨rfl, he⟩ | hn
    · cases he
      exact ⟨p', work, List.getElem?_set_self hlt, hp', rfl⟩
    · obtain ⟨q, work', hj, hq, he⟩ := h.handler n j event t' hn ht
      refine ⟨q, work', ?_, hq, he⟩
      rw [List.getElem?_set_ne]
      · exact hj
      · rintro rfl
        obtain rfl : p = q := Option.some.inj (hk.symm.trans hj)
        rw [hp] at hq; cases hq

/-- A send comes to its end, and its handler with it. -/
theorem Linked.finish (h : Linked handlers sends) {k n : Nat} {p p' : HandlerPc} (hk : handlers[k]? = some p)
    {work : Work} {t t' : Stage} (hp : claim p = some (n, work, t))
    (hp' : claim p' = some (n, work, t') ∨ (t' = .gone ∧ claim p' = none)) :
    Linked (handlers.set k p') (sends.set n ((k, work.event), t')) := by
  have hn := h.send k p n work t hk hp
  have hklt : k < handlers.length := (List.getElem?_eq_some_iff.1 hk).1
  have hnlt : n < sends.length := (List.getElem?_eq_some_iff.1 hn).1
  refine ⟨fun j q m work' u hj hq => ?_, fun m j event u hm hu => ?_⟩
  · rcases Threads.get_set hj with ⟨rfl, rfl⟩ | ⟨hne, hj⟩
    · rcases hp' with hp' | ⟨-, hp'⟩
      · cases hp'.symm.trans hq
        exact List.getElem?_set_self hnlt
      · cases hp'.symm.trans hq
    · have hm := h.send j q m work' u hj hq
      rw [List.getElem?_set_ne]
      · exact hm
      · rintro rfl
        have hkj : k = j := by simpa using congrArg (Option.map fun v => v.1.1) (hn.symm.trans hm)
        exact hne hkj.symm
  · rcases Threads.get_set hm with ⟨rfl, he⟩ | ⟨hne, hm⟩
    · cases he
      rcases hp' with hp' | ⟨rfl, -⟩
      · exact ⟨p', work, List.getElem?_set_self hklt, hp', rfl⟩
      · exact absurd rfl hu
    · obtain ⟨q, work', hj, hq, he⟩ := h.handler m j event u hm hu
      refine ⟨q, work', ?_, hq, he⟩
      rw [List.getElem?_set_ne]
      · exact hj
      · rintro rfl
        obtain rfl : p = q := Option.some.inj (hk.symm.trans hj)
        cases hp.symm.trans hq
        exact hne rfl

/-! ## What every state keeps -/

/-- Work that has passed the checks: its message can be relied on, its message id is clean. -/
def Sound : Work → Prop
  | .push message => Deliverable message
  | .delete messageId => Clean messageId

/-- A handler works on what has passed the checks, and has not found the dispatch channel closed. -/
def HandlerOk : HandlerPc → Prop
  | .sending work | .emitting work _ | .accepted work _ => Sound work
  | .failed error => error ≠ closedError
  | .dropped => True

theorem checked_push {kind : MessageType} {r : Except ApiError Message} (h : Checked kind r) :
    (∃ e, r.map Work.push = .error e ∧ e.isInvalidRequest = true) ∨
      ∃ work, r.map Work.push = .ok work ∧ Sound work := by
  cases h with
  | @refused e he => exact .inl ⟨e, rfl, he⟩
  | @passed message hm hk => exact .inr ⟨.push message, rfl, hm⟩

/-- A request is refused or gives sound work. -/
theorem check_cases (r : Request) :
    (∃ e, r.check = .error e ∧ e.isInvalidRequest = true) ∨ ∃ work, r.check = .ok work ∧ Sound work := by
  cases r <;> simp only [Request.check]
  case messageSend payload => exact checked_push payload.check_checked
  case sendMsg payload => exact checked_push payload.check_checked
  case sendPrivateMsg payload => exact checked_push payload.check_checked
  case sendGroupMsg payload => exact checked_push payload.check_checked
  case deleteMsg payload =>
    simp only [DeleteMsgRequest.check]
    split_ifs with hempty
    · exact .inl ⟨_, rfl, rfl⟩
    · exact .inr ⟨_, rfl, clean_trim ((isBlank_trim _).trans (Bool.eq_false_iff.2 hempty))⟩

def fromApi (e : EventEnvelope) : Bool := e.source = "api"

structure Inv (s : EventFlow) : Prop where
  dispatch : BoundedQueue.Inv eventDispatchCapacity 0 s.dispatch
  linked : Linked s.handlers (views s.dispatch)
  relayed : (s.envelopes.filter fromApi).map EventEnvelope.payload = s.dispatch.received.map fun v => v.2.2
  bus : s.envelopes.map EventEnvelope.payload = s.subscribers.consumers.bus
  alive : s.senders = true → s.relayAlive = true
  drained : s.relayAlive = false → s.dispatch.queue = []
  busOpen : s.relayAlive = true → s.subscribers.consumers.busOpen = true
  handlers : ∀ p ∈ s.handlers, HandlerOk p
  subscribers : Subscribers.Inv s.subscribers

theorem views_length (c : Chan (Nat × ProtocolEvent)) : (views c).length = c.sends.length := List.length_map ..

theorem senders_of_unfinished {s : EventFlow} {k : Nat} {p : HandlerPc} (hk : s.handlers[k]? = some p)
    (hp : p.unfinished = true) : s.senders = true := by
  unfold senders
  rw [Bool.or_eq_true, List.any_eq_true]
  exact .inr ⟨p, Threads.mem_of_get hk, hp⟩

/-- With the dispatch task alive, a handler emits. -/
theorem Inv.emit {s : EventFlow} (h : Inv s) (hrelay : s.relayAlive = true) {k : Nat} {work : Work}
    (hk : s.handlers[k]? = some (.sending work)) : Inv (s.emit k work) := by
  unfold EventFlow.emit
  rw [if_pos hrelay]
  refine ⟨h.dispatch.start _, ?_, ?_, h.bus, fun _ => hrelay, fun hdead => absurd (hrelay.symm.trans hdead) nofun,
    h.busOpen, ?_, h.subscribers⟩
  · rcases start_effect s.dispatch (k, work.event) with ⟨hfree, hviews, -⟩ | ⟨hfull, hviews, -⟩
    · dsimp only
      rw [hviews, if_pos hfree]
      exact h.linked.start hk rfl (by rw [views_length]; rfl)
    · dsimp only
      rw [hviews, if_neg (by omega)]
      exact h.linked.start hk rfl (by rw [views_length]; rfl)
  · dsimp only
    rw [start_received]
    exact h.relayed
  · have hwork : HandlerOk (.sending work) := h.handlers _ (Threads.mem_of_get hk)
    refine Threads.forall_set h.handlers ?_
    split <;> exact hwork

/-- A handler ends without a send of its own. -/
theorem Inv.settle {s : EventFlow} (h : Inv s) {k : Nat} {work : Work} (hk : s.handlers[k]? = some (.sending work))
    {p : HandlerPc} (hp : claim p = none) (hok : HandlerOk p) :
    Inv { s with handlers := s.handlers.set k p } where
  dispatch := h.dispatch
  linked := h.linked.settle hk rfl hp
  relayed := h.relayed
  bus := h.bus
  alive _ := h.alive (senders_of_unfinished hk rfl)
  drained := h.drained
  busOpen := h.busOpen
  handlers := Threads.forall_set h.handlers hok
  subscribers := h.subscribers

theorem Inv.giveUp {s s' : EventFlow} (h : Inv s) {k n : Nat} {work : Work}
    (hk : s.handlers[k]? = some (.emitting work n)) {p : HandlerPc} (hp : claim p = none)
    (hok : HandlerOk p) (hs : s.giveUp k n p = some s') : Inv s' := by
  obtain ⟨c, hc, rfl⟩ := Option.map_eq_some_iff.1 hs
  obtain ⟨v, hv, hviews, -, hreceived⟩ := h.dispatch.giveUp_effect hc
  obtain rfl : (k, work.event) = v := by
    have := h.linked.send k _ n work .pending hk rfl
    rw [hv] at this
    exact (Prod.mk.inj (Option.some.inj this)).1.symm
  have hrelay : s.relayAlive = true := h.alive (senders_of_unfinished hk rfl)
  refine ⟨BoundedQueue.step_inv _ _ _ h.dispatch hc, ?_, ?_, h.bus, fun _ => hrelay,
    fun hdead => absurd (hrelay.symm.trans hdead) nofun, h.busOpen, Threads.forall_set h.handlers hok, h.subscribers⟩
  · dsimp only
    rw [hviews]
    exact h.linked.finish hk rfl (.inr ⟨rfl, hp⟩)
  · dsimp only
    rw [hreceived]
    exact h.relayed

theorem Inv.append {s : EventFlow} (h : Inv s) (hheld : s.held = true) {p : HandlerPc} (hp : claim p = none)
    (hok : HandlerOk p) : Inv { s with handlers := s.handlers ++ [p] } where
  dispatch := h.dispatch
  linked := h.linked.append hp
  relayed := h.relayed
  bus := h.bus
  alive _ := h.alive (by simp [senders, hheld])
  drained := h.drained
  busOpen := h.busOpen
  handlers := Threads.forall_append h.handlers hok
  subscribers := h.subscribers

theorem Inv.relay {s s' : EventFlow} (h : Inv s) (hs : step s .relay = some s') : Inv s' := by
  simp only [step] at hs
  split at hs
  · rename_i hrelay
    split at hs
    · rename_i n k event rest hq
      obtain ⟨c, hc, hs⟩ := Option.bind_eq_some_iff.1 hs
      obtain ⟨subscribers, hsub, rfl⟩ := Option.map_eq_some_iff.1 hs
      obtain ⟨e, rest', hq', hviews, -, hreceived⟩ := h.dispatch.recv_effect hc
      cases hq.symm.trans hq'
      obtain ⟨consumers, hcons, rfl⟩ := Option.map_eq_some_iff.1 hsub
      simp only [Consumers.step, Option.ite_none_right_eq_some, Option.some.injEq] at hcons
      obtain ⟨hopen, rfl⟩ := hcons
      refine ⟨BoundedQueue.step_inv _ _ _ h.dispatch hc, hviews ▸ h.linked, ?_, ?_, h.alive,
        fun hdead => (by rw [hrelay] at hdead; cases hdead), h.busOpen, h.handlers,
        Subscribers.step_inv _ _ _ h.subscribers hsub⟩
      · dsimp only
        rw [hreceived, List.filter_append, List.map_append, List.map_append, h.relayed]
        rfl
      · dsimp only
        rw [List.map_append, h.bus]
        rfl
    · rename_i hq
      split at hs
      · cases hs
      · rename_i hsenders
        cases hs
        exact ⟨h.dispatch, h.linked, h.relayed, h.bus, fun hsend => absurd hsend hsenders, fun _ => hq,
          fun hlive => (by cases hlive), h.handlers, h.subscribers⟩
  · cases hs

/-- The other parties publish only what the protocol relay does. -/
theorem Inv.channel {s s' : EventFlow} (h : Inv s) {e : Consumers.Event} (hs : step s (.channel e) = some s') :
    Inv s' := by
  simp only [step, Option.ite_none_right_eq_some] at hs
  obtain ⟨hmay, hs⟩ := hs
  obtain ⟨subscribers, hsub, rfl⟩ := Option.map_eq_some_iff.1 hs
  obtain ⟨consumers, hcons, rfl⟩ := Option.map_eq_some_iff.1 hsub
  obtain ⟨more, hmore⟩ := (Subscribers.step_frame hcons).bus
  refine ⟨h.dispatch, h.linked, ?_, ?_, h.alive, h.drained, ?_, h.handlers,
    Subscribers.step_inv _ _ _ h.subscribers hsub⟩
  · have hnone : ∀ l : List ProtocolEvent, (l.map EventEnvelope.ofProtocol).filter fromApi = [] := by
      intro l
      rw [List.filter_eq_nil_iff]
      intro x hx
      obtain ⟨event, -, rfl⟩ := List.mem_map.1 hx
      exact of_decide_eq_false rfl
    dsimp only
    rw [List.filter_append, hnone, List.append_nil]
    exact h.relayed
  · dsimp only
    rw [List.map_append, h.bus, ← hmore, List.drop_left, List.map_map]
    exact congrArg _ (List.map_id more)
  · intro hrelay
    refine ((Subscribers.step_frame hcons).busOpen ?_).trans (h.busOpen hrelay)
    rintro rfl
    have hrelay : s.relayAlive = true := hrelay
    simp [mayStep, hrelay] at hmay

theorem step_inv (s : EventFlow) (e : Event) (s' : EventFlow) (h : Inv s) (hs : step s e = some s') : Inv s' := by
  cases e with
  | request r =>
    simp only [step, Option.ite_none_right_eq_some] at hs
    obtain ⟨hheld, hs⟩ := hs
    rcases check_cases r with ⟨e, hr, he⟩ | ⟨work, hr, hsound⟩
    · simp only [hr] at hs
      cases hs
      refine h.append hheld rfl fun hclosed => ?_
      rw [hclosed] at he
      cases he
    · simp only [hr] at hs
      have happend : Inv { s with handlers := s.handlers ++ [.sending work] } := h.append hheld rfl hsound
      split at hs
      · cases hs
        exact happend
      · cases hs
        exact happend.emit (h.alive (by simp [senders, hheld])) List.getElem?_concat_length
  | backend k answer =>
    simp only [step] at hs
    split at hs
    · rename_i work hk
      split at hs
      · cases hs
        exact h.emit (h.alive (senders_of_unfinished hk rfl)) hk
      · cases hs
        exact h.settle hk rfl nofun
    · cases hs
  | put k =>
    simp only [step] at hs
    split at hs
    · rename_i work n hk
      obtain ⟨c, hc, rfl⟩ := Option.map_eq_some_iff.1 hs
      obtain ⟨v, hv, hviews, -, hreceived⟩ := put_effect hc
      obtain rfl : (k, work.event) = v := by
        have := h.linked.send k _ n work .pending hk rfl
        rw [hv] at this
        exact (Prod.mk.inj (Option.some.inj this)).1.symm
      have hwork : HandlerOk (.emitting work n) := h.handlers _ (Threads.mem_of_get hk)
      have hrelay : s.relayAlive = true := h.alive (senders_of_unfinished hk rfl)
      refine ⟨BoundedQueue.step_inv _ _ _ h.dispatch hc, ?_, ?_, h.bus, fun _ => hrelay,
        fun hdead => absurd (hrelay.symm.trans hdead) nofun, h.busOpen, Threads.forall_set h.handlers hwork,
        h.subscribers⟩
      · dsimp only
        rw [hviews]
        exact h.linked.finish hk rfl (.inl rfl)
      · dsimp only
        rw [hreceived]
        exact h.relayed
    · cases hs
  | timeout k =>
    simp only [step] at hs
    split at hs
    · rename_i work n hk
      exact h.giveUp (p := .failed timedOutError) hk rfl (show timedOutError ≠ closedError by decide) hs
    · cases hs
  | drop k =>
    simp only [step] at hs
    split at hs
    · rename_i work hk
      cases hs
      exact h.settle hk rfl trivial
    · rename_i work n hk
      exact h.giveUp (p := .dropped) hk rfl trivial hs
    · cases hs
  | relay => exact h.relay hs
  | release =>
    cases hs
    refine ⟨h.dispatch, h.linked, h.relayed, h.bus, fun hsend => h.alive ?_, h.drained, h.busOpen, h.handlers,
      h.subscribers⟩
    simp only [senders, Bool.false_or] at hsend
    simp [senders, hsend]
  | channel e => exact h.channel hs

theorem Inv.init (backend : Bool) : Inv { backend := backend } where
  dispatch := .init _
  linked := .nil
  relayed := rfl
  bus := rfl
  alive _ := rfl
  drained h := nomatch h
  busOpen _ := rfl
  handlers p hp := by cases hp
  subscribers := .init

theorem exec_inv {backend : Bool} {es : List Event} {s : EventFlow}
    (hs : exec step { backend := backend } es = some s) : Inv s :=
  exec_inv_always step_inv es _ _ (.init backend) hs

end EventFlow

end NapCat.Api
