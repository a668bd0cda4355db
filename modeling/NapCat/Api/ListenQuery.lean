/-
One call of `/message/listen`: its query, the filter and the budget that the query asks for, and the
loop over the receives. Every receive costs a round of the budget, a filtered event too; when a poll
still returns the events it was asked for is settled for every query and every delivery.
-/
import NapCat.Api.PollLoop
import NapCat.Api.Send
import NapCat.Lib.Rounds
import NapCat.Lib.Text

namespace NapCat.Api

/-- listen options from query string. -/
structure ListenQuery where
  timeoutMs : Option Nat := none
  timeout : Option Nat := none
  maxEvents : Option Nat := none
  limit : Option Nat := none
  typeFilter : Option String := none
  typesFilter : Option String := none
  postType : Option String := none

def ListenQuery.pollTimeoutMs (query : ListenQuery) : Nat :=
  (query.timeoutMs.or (query.timeout.map fun value => min (value * 1000) (2 ^ 64 - 1))).getD 200

def ListenQuery.budget (query : ListenQuery) : Nat := pollBudget query.maxEvents query.limit

section

-- `str::to_lowercase`, over the Unicode tables
variable (toLowercase : String → String)

/-- The set of types as the list of its insertions. -/
def parseEventTypeList (raw : String) : List String :=
  ((raw.toList.splitOn ',').map fun value => toLowercase (Text.trim (String.ofList value))).filter fun value =>
    !value.isEmpty

/-- A filter that names no type counts as absent. -/
def nonEmptyTypes (raw : Option String) : Option (List String) :=
  raw.bind fun raw =>
    let types := parseEventTypeList toLowercase raw
    if types.isEmpty then none else some types

def parseEventTypes (query : ListenQuery) : Option (List String) :=
  ((nonEmptyTypes toLowercase query.typeFilter).or (nonEmptyTypes toLowercase query.typesFilter)).or
    (nonEmptyTypes toLowercase query.postType)

/-! ## The loop -/

/-- An event that a receive of the poll waits for: how long, and the clock reading its rendering takes. -/
structure Delivery where
  afterMs : Nat
  time : Option UInt64
  event : ProtocolEvent

def Delivery.payload (d : Delivery) : Except ProtocolError String := onebotEventPayload d.time d.event

/-- The rounds that are left, the events still to come and the records so far. -/
def listenLoop (timeoutMs : Nat) (types : Option (List String)) :
    Nat → List Delivery → List String → List String
  | 0, _, records => records
  -- nothing more comes: the receive times out
  | _ + 1, [], records => records
  | rounds + 1, d :: rest, records =>
    if timeoutMs < d.afterMs then records
    else if accepts types d.event = false then listenLoop timeoutMs types rounds rest records
    else match d.payload with
      | .ok serialized => listenLoop timeoutMs types rounds rest (records ++ [serialized])
      | .error _ => listenLoop timeoutMs types rounds rest records

def listenMessages (query : ListenQuery) (deliveries : List Delivery) : ApiEnvelope (List String) :=
  ⟨"ok", 0, listenLoop query.pollTimeoutMs (parseEventTypes toLowercase query) query.budget deliveries [], none⟩

end

/-- The part of the deliveries that the filter accepts. -/
def acceptedOf (types : Option (List String)) (deliveries : List Delivery) : List Delivery :=
  deliveries.filter fun d => accepts types d.event

/-- Within the timeout the loop returns what it can render of the accepted events of its rounds. -/
theorem listenLoop_eq (timeoutMs : Nat) (types : Option (List String)) :
    ∀ (rounds : Nat) (deliveries : List Delivery) (records : List String),
      (∀ d ∈ deliveries, d.afterMs ≤ timeoutMs) →
      listenLoop timeoutMs types rounds deliveries records = records ++
        (acceptedOf types (deliveries.take rounds)).filterMap fun d => d.payload.toOption
  | 0, _, records, _ => by simp [listenLoop, acceptedOf]
  | _ + 1, [], records, _ => by simp [listenLoop, acceptedOf]
  | rounds + 1, d :: rest, records, h => by
    obtain ⟨hd, hrest⟩ := List.forall_mem_cons.1 h
    have ih := fun records => listenLoop_eq timeoutMs types rounds rest records hrest
    rw [listenLoop, if_neg (Nat.not_lt.2 hd), List.take_succ_cons, acceptedOf, List.filter_cons]
    by_cases hacc : accepts types d.event = true
    · rw [if_neg (by simp [hacc]), if_pos hacc, List.filterMap_cons]
      cases hp : d.payload with
      | ok serialized =>
        simp only [Except.toOption]
        rw [ih, List.append_assoc]
        rfl
      | error e =>
        simp only [Except.toOption]
        exact ih records
    · rw [if_pos (by simpa using hacc), if_neg hacc]
      exact ih records

/-! ## The loop and the route on the event bus -/

/-- A delivery on the event bus: the event is published, and the receive of the poll returns it. -/
def Delivery.script (d : Delivery) : List Polling.Event := [.publish d.event, .recv d.time]

/-- One round of a poll that is up to date with the bus. -/
theorem exec_script {s : Polling} {p : Poll} (hp : s.poll = some p) (hnext : p.next = s.bus.length) (d : Delivery)
    (es : List Polling.Event) :
    Run.exec Polling.step s (d.script ++ es) =
      Run.exec Polling.step (Polling.goOn { s with bus := s.bus ++ [d.event] } (p.take d.event d.time)) es := by
  have hrecv : Broadcast.recv eventBroadcastCapacity (s.bus ++ [d.event]) true p.next =
      (.value d.event, p.next + 1) := by
    have hback : ¬ eventBroadcastCapacity < Broadcast.backlog (s.bus ++ [d.event]) p.next := by
      rw [Broadcast.backlog_append _ _ hnext.le, Broadcast.backlog, hnext, eventBroadcastCapacity]
      omega
    rw [Broadcast.recv, if_neg hback, hnext, List.getElem?_concat_length]
  simp only [Delivery.script, List.cons_append, List.nil_append, Run.exec_cons, Polling.step, Option.bind_some, hp,
    hrecv]

/-- The records of a round are those of the loop's round. -/
theorem listenLoop_take (timeoutMs : Nat) (p : Poll) (d : Delivery) (rounds : Nat) (rest : List Delivery)
    (hd : d.afterMs ≤ timeoutMs) :
    listenLoop timeoutMs p.types rounds rest ((p.take d.event d.time).records.map Prod.snd) =
      listenLoop timeoutMs p.types (rounds + 1) (d :: rest) (p.records.map Prod.snd) := by
  rw [listenLoop, if_neg (Nat.not_lt.2 hd)]
  by_cases hacc : accepts p.types d.event = true
  · rw [if_neg (by simp [hacc])]
    simp only [Poll.take, hacc, if_true]
    cases hp : d.payload with
    | ok serialized => simp [show onebotEventPayload d.time d.event = .ok serialized from hp, Except.toOption]
    | error e => simp [show onebotEventPayload d.time d.event = .error e from hp, Except.toOption]
  · rw [if_pos (by simpa using hacc)]
    simp [Poll.take, hacc]

/-- The receives of one poll: its budget of events, or all there are and a receive that times out. -/
def pollScript (rounds : Nat) (deliveries : List Delivery) : List Polling.Event :=
  (deliveries.take rounds).flatMap Delivery.script ++ if deliveries.length < rounds then [.expire] else []

/-- A poll on the bus that gets the deliveries records what the loop returns. -/
theorem exec_pollScript (timeoutMs : Nat) : ∀ (deliveries : List Delivery) (s : Polling) (p : Poll),
    s.poll = some p → p.next = s.bus.length → 0 < p.left → (∀ d ∈ deliveries, d.afterMs ≤ timeoutMs) →
    ∃ s' r, Run.exec Polling.step s (pollScript p.left deliveries) = some s' ∧ s'.results = s.results ++ [r] ∧
      r.records.map Prod.snd = listenLoop timeoutMs p.types p.left deliveries (p.records.map Prod.snd)
  | [], s, p, hp, hnext, hleft, _ => by
    have hrecv : Broadcast.recv eventBroadcastCapacity s.bus true p.next = (.pending, p.next) := by
      have hback : ¬ eventBroadcastCapacity < Broadcast.backlog s.bus p.next := by
        rw [Broadcast.backlog, hnext, eventBroadcastCapacity]
        omega
      rw [Broadcast.recv, if_neg hback, hnext, List.getElem?_eq_none le_rfl]
      rfl
    obtain ⟨n, hn⟩ := Nat.exists_eq_succ_of_ne_zero hleft.ne'
    refine ⟨s.finish p true, ⟨p.start, p.records, true⟩, ?_, rfl, ?_⟩
    · simp only [pollScript, List.take_nil, List.flatMap_nil, List.length_nil, hleft, if_true, List.nil_append,
        Run.exec_cons, Polling.step, hp, hrecv, Option.bind_some, Run.exec]
    · rw [hn, listenLoop]
  | d :: rest, s, p, hp, hnext, hleft, h => by
    obtain ⟨hd, hrest⟩ := List.forall_mem_cons.1 h
    obtain ⟨n, hn⟩ := Nat.exists_eq_succ_of_ne_zero hleft.ne'
    have hscript : pollScript p.left (d :: rest) = d.script ++ pollScript n rest := by
      simp [pollScript, hn]
    rw [hscript, exec_script hp hnext, hn, ← listenLoop_take timeoutMs p d n rest hd]
    have htake : (p.take d.event d.time).left = n := by
      show p.left - 1 = n
      omega
    unfold Polling.goOn
    rw [htake]
    by_cases hzero : n = 0
    · subst hzero
      rw [if_pos rfl]
      refine ⟨Polling.finish { s with bus := s.bus ++ [d.event] } (p.take d.event d.time) false,
        ⟨p.start, (p.take d.event d.time).records, false⟩, ?_, rfl, ?_⟩
      · simp only [pollScript, List.take_zero, List.flatMap_nil, Nat.not_lt_zero, if_false, List.append_nil, Run.exec]
      · rw [listenLoop]
    · rw [if_neg hzero]
      have ih := exec_pollScript timeoutMs rest
        { s with bus := s.bus ++ [d.event], poll := some (p.take d.event d.time) } (p.take d.event d.time) rfl
      rw [htake] at ih
      exact ih (by simp [Poll.take, hnext]) (Nat.pos_of_ne_zero hzero) hrest

/-- A poll with the query's filter and budget, begun at any time, records what the route answers. -/
theorem exec_poll (toLowercase : String → String) (query : ListenQuery) (deliveries : List Delivery)
    (hwithin : ∀ d ∈ deliveries, d.afterMs ≤ query.pollTimeoutMs) {s : Polling} (hs : s.poll = none) :
    ∃ s' r, Run.exec Polling.step s (.subscribe (parseEventTypes toLowercase query) query.maxEvents query.limit ::
        pollScript query.budget deliveries) = some s' ∧ s'.results = s.results ++ [r] ∧
      r.records.map Prod.snd = (listenMessages toLowercase query deliveries).data := by
  let p : Poll := ⟨parseEventTypes toLowercase query, s.bus.length, s.bus.length, query.budget, []⟩
  have hbegin : Polling.step s (.subscribe (parseEventTypes toLowercase query) query.maxEvents query.limit) =
      some { s with poll := some p } := by
    simp [Polling.step, hs, ListenQuery.budget, p]
  rw [Run.exec_cons, hbegin, Option.bind_some]
  exact exec_pollScript query.pollTimeoutMs deliveries { s with poll := some p } p rfl rfl
    (Polling.pollBudget_pos ..) hwithin

/-! ## What the client asked for -/

/-- The events a query asks for: the first that its filter accepts, as many as its budget. -/
def asked (toLowercase : String → String) (query : ListenQuery) (deliveries : List Delivery) : List Delivery :=
  (acceptedOf (parseEventTypes toLowercase query) deliveries).take query.budget

/-- The poll answers with the payloads of the events it was asked for. -/
def AnswersAsked (toLowercase : String → String) (query : ListenQuery) (deliveries : List Delivery) : Prop :=
  (listenMessages toLowercase query deliveries).data.map .ok =
    (asked toLowercase query deliveries).map Delivery.payload

/-- No round of the poll goes to an event that the filter rejects while an accepted one is still to
come, and the clock reads a time for every event that the poll takes. -/
structure NoRoundLost (types : Option (List String)) (rounds : Nat) (deliveries : List Delivery) : Prop where
  filtered : (∀ d ∈ deliveries.take rounds, accepts types d.event = true) ∨
    ∀ d ∈ deliveries.drop rounds, accepts types d.event = false
  clock : ∀ d ∈ acceptedOf types (deliveries.take rounds), d.time.isSome

theorem payload_isOk (d : Delivery) : (∃ text, d.payload = .ok text) ↔ d.time.isSome := by
  obtain ⟨afterMs, time, event⟩ := d
  cases time <;> simp [Delivery.payload, onebotEventPayload]

/-- Rendering loses nothing exactly if every event can be rendered. -/
theorem filterMap_payload_iff (ds : List Delivery) :
    ((ds.filterMap fun d => d.payload.toOption).map (.ok : String → Except ProtocolError String) =
      ds.map Delivery.payload) ↔
      ∀ d ∈ ds, d.time.isSome := by
  induction ds with
  | nil => simp
  | cons d ds ih =>
    rw [List.forall_mem_cons, ← ih, ← payload_isOk d, List.filterMap_cons, List.map_cons]
    cases hp : d.payload with
    | ok text => simp [Except.toOption]
    | error e =>
      have hne : ∀ texts : List String, texts.map (.ok : String → Except ProtocolError String) ≠
          .error e :: ds.map Delivery.payload := by
        rintro (_ | ⟨_, _⟩) h <;> cases h
      simp [Except.toOption, hne]

/-- Of a query's deliveries, each within the poll timeout, the poll returns what it was asked for
exactly if no round is lost: `max_events` counts receives, not collected events. -/
theorem answersAsked_iff (toLowercase : String → String) (query : ListenQuery) (deliveries : List Delivery)
    (hwithin : ∀ d ∈ deliveries, d.afterMs ≤ query.pollTimeoutMs) :
    AnswersAsked toLowercase query deliveries ↔
      NoRoundLost (parseEventTypes toLowercase query) query.budget deliveries := by
  have hloop := listenLoop_eq query.pollTimeoutMs (parseEventTypes toLowercase query) query.budget deliveries [] hwithin
  rw [AnswersAsked, listenMessages, hloop, List.nil_append]
  generalize htypes : parseEventTypes toLowercase query = types
  have hsame := Rounds.filter_take_eq_iff (fun d : Delivery => accepts types d.event) query.budget deliveries
  have hprefix := Rounds.filter_take_prefix_of (fun d : Delivery => accepts types d.event) query.budget deliveries
  rw [asked, htypes]
  constructor
  · intro h
    -- the records are no more than the events of the rounds, and these no more than those asked for
    have hlen : ((acceptedOf types (deliveries.take query.budget)).filterMap fun d => d.payload.toOption).length =
        ((acceptedOf types deliveries).take query.budget).length := by
      simpa using congrArg List.length h
    have heq := hprefix.eq_of_length (Nat.le_antisymm hprefix.length_le
      (hlen ▸ List.length_filterMap_le ..))
    refine ⟨hsame.1 heq, (filterMap_payload_iff _).1 ?_⟩
    rw [h, acceptedOf, acceptedOf, heq]
  · rintro ⟨hfiltered, hclock⟩
    rw [(filterMap_payload_iff _).2 hclock, acceptedOf, hsame.2 hfiltered]
    rfl

/-- One message is asked for, and an event of another type comes before it. -/
def oneMessage : ListenQuery := { maxEvents := some 1, typeFilter := some "message" }

def messageAfterConnect : List Delivery :=
  [⟨0, some 7, .connected "ws"⟩, ⟨0, some 7, .messageReceived (Message.ofText "1" "7" (.group "42") "hi")⟩]

theorem answersAsked_iff_oneMessage : AnswersAsked String.toLower oneMessage messageAfterConnect.tail :=
  (answersAsked_iff String.toLower oneMessage messageAfterConnect.tail (by decide)).2
    ⟨.inr (by decide +kernel), by decide +kernel⟩

/-- The only round goes to the event that the filter rejects. -/
theorem filtered_event_costs_round : ¬ AnswersAsked String.toLower oneMessage messageAfterConnect := by
  intro h
  have hlen := congrArg List.length h
  rw [List.length_map, List.length_map] at hlen
  have hanswered : (listenMessages String.toLower oneMessage messageAfterConnect).data.length = 0 := by decide +kernel
  have hasked : (asked String.toLower oneMessage messageAfterConnect).length = 1 := by decide +kernel
  rw [hanswered, hasked] at hlen
  cases hlen

end NapCat.Api
