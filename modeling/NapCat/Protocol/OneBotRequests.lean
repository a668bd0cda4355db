/-
The requests of `OneBotHttpBackend`, of its calls and its listeners, and the endpoint they go to.
`connect` validates one endpoint, the argument or, where that is blank, the base URL, both trimmed;
every request is built from the base URL as it was configured.
-/
import NapCat.Protocol.OneBotHttp

namespace NapCat

open Json

/-- `OneBotHttpBackend::message_to_plain_text`. -/
def MessageElement.plainText : MessageElement → String
  | .text t => t
  | .image path _ => "[Image:" ++ path ++ "]"
  | .video path _ => "[Video:" ++ path ++ "]"
  | .file path _ => "[File:" ++ path ++ "]"
  | .atUser targetUser => "[@" ++ targetUser ++ "]"
  | .reply messageId => "[Reply:" ++ messageId ++ "]"
  | .json payload => payload.toText

def messageToPlainText (message : Message) : String :=
  let output := String.join (message.elements.map MessageElement.plainText)
  if output.isEmpty then message.senderId ++ ": " ++ message.id else output

namespace OneBotHttp

inductive Method
  | get
  | post
  deriving DecidableEq

/-- A request on a route. -/
structure Request extends HttpRequest where
  method : Method
  path : String
  body : Option Json

def Request.get (path : String) (r : HttpRequest) : Request := { r with method := .get, path, body := none }

def Request.post (config : OneBotBackendConfig) (path : String) (body : Json) : Request where
  url := endpointUrl config path
  bearer := config.accessToken
  query := []
  method := .post
  path := path
  body := some body

/-! ## The calls that read `connected` and issue one request -/

/-- `get_status` up to its request. -/
def getStatus (config : OneBotBackendConfig) : Except ProtocolError Request :=
  if Text.isBlank config.baseUrl then .error (.transport "empty base URL")
  else .ok (.get "/get_status" (statusRequest config))

/-- `is_logged_in` up to its request; without one it returns that it is not. -/
def isLoggedIn (config : OneBotBackendConfig) (g : Shared) : Except ProtocolError (Option Request) :=
  if g.connected = false then .ok none else (getStatus config).map some

/-- What `is_logged_in` returns, once its request, if there is one, has an answer. -/
def loggedInResult (config : OneBotBackendConfig) (g : Shared) (r : HttpResponse) : Except ProtocolError Bool := do
  match ← isLoggedIn config g with
  | none => return false
  | some _ => statusResult r

def sendBody : MessageRecipient → String → String × Json
  | .privateUser userId, message => ("/send_private_msg", .obj [("user_id", .str userId), ("message", .str message)])
  | .group groupId, message => ("/send_group_msg", .obj [("group_id", .str groupId), ("message", .str message)])

/-- `send_message` up to its request. -/
def sendMessage (config : OneBotBackendConfig) (g : Shared) (message : Message) : Except ProtocolError Request :=
  if g.connected = false then .error (.transport "protocol is not connected")
  else
    let payload := messageToPlainText message
    if Text.isBlank payload then .error (.transport "message content is empty")
    else .ok (.post config (sendBody message.recipient payload).1 (sendBody message.recipient payload).2)

/-- What `send_message` makes of its response, whose body it does not read. -/
def sendResult : HttpResponse → Except ProtocolError Unit
  | .failed e => .error (.transport e)
  | .nonSuccess status => .error (.transport ("send request rejected: " ++ status))
  | .badBody _ | .body _ => .ok ()

/-! ## Runs with all calls -/

/-- The steps of the backend, and calls of `is_logged_in` and `send_message`, which change nothing. -/
inductive Visit
  | backend (e : Event)
  | isLoggedIn
  | sendMessage (message : Message)

def visit (config : OneBotBackendConfig) (s : Sys) : Visit → Option Sys
  | .backend e => step config s e
  | .isLoggedIn | .sendMessage _ => some s

/-- The requests that a step issues. -/
def requestsOf (config : OneBotBackendConfig) (s : Sys) : Visit → List Request
  | .backend (.start (.connect endpoint)) =>
    match beginConnect config endpoint with
    | .awaitingStatus r => [.get "/get_status" r]
    | _ => []
  | .backend (.env (.listener t .go)) =>
    if s.shared.listeners[t]? = some .requesting then [.get "/message/listen" (listenRequest config)] else []
  | .backend _ => []
  | .isLoggedIn => ((isLoggedIn config s.shared).toOption.getD none).toList
  | .sendMessage message => (sendMessage config s.shared message).toOption.toList

def Visit.connects : Visit → Bool
  | .backend (.start (.connect _)) => true
  | _ => false

/-- The URL formed from an endpoint: without its trailing slashes, one slash, and the route path. -/
def urlAt (endpoint path : String) : String :=
  Text.trimEndMatches '/' endpoint ++ "/" ++ Text.trimStartMatches '/' path

/-- What a step issues goes to the endpoint that a connect with this argument validates. -/
def GoesTo (config : OneBotBackendConfig) (endpoint : String) (s : Sys) (v : Visit) : Prop :=
  ∀ r ∈ requestsOf config s v, r.url = urlAt (connectUrl config endpoint) r.path

/-- The backend talks to what it has validated: once a connect with this argument has returned `Ok`, its
own request has gone to the endpoint it validated, and every request until another connect goes there. -/
def TalksToValidated (config : OneBotBackendConfig) (endpoint : String) : Prop :=
  ∀ (s s' : Sys) (vs ws : List Visit),
    Run.exec (visit config) s (.backend (.start (.connect endpoint)) :: vs) = some s' →
    s'.calls[s.calls.length]? = some (.done (.ok ())) → (∀ w ∈ ws, w.connects = false) →
    GoesTo config endpoint s (.backend (.start (.connect endpoint))) ∧
      Run.Along (visit config) (GoesTo config endpoint) s' ws

/-- The checks of a connect let the endpoint through. -/
def Validated (config : OneBotBackendConfig) (endpoint : String) : Prop :=
  beginConnect config endpoint = .awaitingStatus (statusRequest config)

theorem beginConnect_cases (config : OneBotBackendConfig) (endpoint : String) :
    Validated config endpoint ∨ ∃ e, beginConnect config endpoint = .done (.error e) := by
  unfold Validated beginConnect
  dsimp only
  split_ifs
  · exact .inr ⟨_, rfl⟩
  · exact .inr ⟨_, rfl⟩
  · exact .inr ⟨_, rfl⟩
  · exact .inl rfl

/-! ## Where requests go -/

theorem getStatus_url {config : OneBotBackendConfig} {r : Request} (h : getStatus config = .ok r) :
    r.url = urlAt config.baseUrl r.path := by
  unfold getStatus at h
  split_ifs at h
  cases h
  rfl

/-- Every request goes to the configured base URL. -/
theorem requestsOf_url {config : OneBotBackendConfig} {s : Sys} {v : Visit} {r : Request}
    (h : r ∈ requestsOf config s v) : r.url = urlAt config.baseUrl r.path := by
  unfold requestsOf at h
  split at h
  · rename_i endpoint
    rcases beginConnect_cases config endpoint with hb | ⟨e, hb⟩
    · rw [hb] at h
      rw [List.mem_singleton.1 h]
      rfl
    · rw [hb] at h
      cases h
  · split_ifs at h
    · rw [List.mem_singleton.1 h]
      rfl
    · cases h
  · cases h
  · unfold isLoggedIn at h
    split_ifs at h
    · cases h
    · cases hg : getStatus config with
      | error e => rw [hg] at h; cases h
      | ok r' =>
        rw [hg] at h
        rw [List.mem_singleton.1 h]
        exact getStatus_url hg
  · unfold sendMessage at h
    dsimp only at h
    split_ifs at h
    · cases h
    · cases h
    · rw [List.mem_singleton.1 h]
      rfl

theorem urlAt_inj {a b path : String} :
    urlAt a path = urlAt b path ↔ Text.trimEndMatches '/' a = Text.trimEndMatches '/' b := by
  simp only [urlAt, String.append_left_inj]

/-- What a listener issues is what its step puts on record. -/
theorem requestsOf_listener {config : OneBotBackendConfig} {s s' : Sys} {t : Nat} {a : ListenerAct}
    (h : step config s (.env (.listener t a)) = some s') :
    s'.shared.requests = s.shared.requests ++
      (requestsOf config s (.backend (.env (.listener t a)))).map fun r => (t, r.toHttpRequest) := by
  obtain ⟨g, he, rfl⟩ := Threads.step_env h
  obtain ⟨l, g₁, q, hl, hr, rfl⟩ := env_listener he
  cases l <;> cases a <;> cases hr <;> simp [requestsOf, hl, Shared.notify, Request.get]

/-- A call that has returned stays so. -/
theorem done_stays {config : OneBotBackendConfig} {i : Nat} {r : Except ProtocolError Unit} :
    ∀ (vs : List Visit) (s s' : Sys), s.calls[i]? = some (.done r) → Run.exec (visit config) s vs = some s' →
      s'.calls[i]? = some (.done r) := by
  refine Run.exec_inv_always fun s v s' h hs => ?_
  cases v with
  | backend e =>
    have hf := Threads.follow_step (Q := fun p => p = .done r) (e := e) (i := i) (fun p a g g' q _ _ hp ha => by
      rw [hp] at ha; cases ha) hs ⟨_, h, rfl⟩
    obtain ⟨p, hp, rfl⟩ := hf
    exact hp
  | isLoggedIn => cases hs; exact h
  | sendMessage m => cases hs; exact h

/-- A connect that returns `Ok` has validated its endpoint. -/
theorem validated_of_ok {config : OneBotBackendConfig} {endpoint : String} {s s' : Sys} {vs : List Visit}
    (hs : Run.exec (visit config) s (.backend (.start (.connect endpoint)) :: vs) = some s')
    (hok : s'.calls[s.calls.length]? = some (.done (.ok ()))) : Validated config endpoint := by
  refine (beginConnect_cases config endpoint).resolve_right ?_
  rintro ⟨e, he⟩
  obtain ⟨m, hm, hs⟩ := Option.bind_eq_some_iff.1 hs
  have hm : step config s (.start (.connect endpoint)) = some m := hm
  obtain ⟨g, p, hb, rfl⟩ := Threads.step_start hm
  cases hb
  have hlast : (s.calls ++ [beginConnect config endpoint])[s.calls.length]? = some (.done (.error e)) := by
    rw [he]; exact List.getElem?_concat_length
  have := done_stays vs _ _ hlast hs
  rw [hok] at this
  cases this

/-- A connect that has an answer and returns. -/
def connected (endpoint : String) : List Visit :=
  (.start (.connect endpoint) :: [.respond (.body .null), .go, .go].map (.act 0)).map .backend

theorem connected_run {config : OneBotBackendConfig} {endpoint : String} (h : Validated config endpoint) :
    Run.exec (visit config) init (connected endpoint) = some ⟨{ connected := true }, [.done (.ok ())]⟩ := by
  have hs : visit config init (.backend (.start (.connect endpoint))) = some ⟨{}, [beginConnect config endpoint]⟩ := by
    simp only [visit, step, Threads.step, program, begin, init, Option.map_some, List.nil_append]
  rw [connected, List.map_cons, Run.exec_cons, hs, h]
  rfl

/-- A backend talks to the endpoint it validated exactly if that is, but for slashes at the end, the base
URL it was configured with. -/
theorem talksToValidated_iff (config : OneBotBackendConfig) (endpoint : String) :
    TalksToValidated config endpoint ↔ (Validated config endpoint →
      Text.trimEndMatches '/' config.baseUrl = Text.trimEndMatches '/' (connectUrl config endpoint)) := by
  constructor
  · intro h hv
    have hgo := (h init _ _ [] (connected_run hv) rfl (fun w hw => by cases hw)).1
    have hmem : Request.get "/get_status" (statusRequest config) ∈
        requestsOf config init (.backend (.start (.connect endpoint))) := by
      simp only [requestsOf]
      rw [hv]
      exact List.mem_singleton_self _
    exact urlAt_inj.1 ((requestsOf_url hmem).symm.trans (hgo _ hmem))
  · intro h s s' vs ws hs hok _
    have he := h (validated_of_ok hs hok)
    have hgo : ∀ (m : Sys) (v : Visit), GoesTo config endpoint m v := fun m v r hr =>
      (requestsOf_url hr).trans (urlAt_inj.2 he)
    exact ⟨hgo s _, Run.along_of_always hgo ws s'⟩

/-- The status of the base URL is asked for where another endpoint was validated. -/
theorem connect_ignores_endpoint :
    Run.exec (visit ⟨"http://a", none, 600, 8⟩) init (connected "http://b") =
      some ⟨{ connected := true }, [.done (.ok ())]⟩ ∧
    (requestsOf ⟨"http://a", none, 600, 8⟩ init (.backend (.start (.connect "http://b")))).map (·.url) =
      ["http://a/get_status"] ∧
    urlAt (connectUrl ⟨"http://a", none, 600, 8⟩ "http://b") "/get_status" = "http://b/get_status" ∧
    ¬ TalksToValidated ⟨"http://a", none, 600, 8⟩ "http://b" := by
  have hrun : Run.exec (visit ⟨"http://a", none, 600, 8⟩) init (connected "http://b") =
    some ⟨{ connected := true }, [.done (.ok ())]⟩ := rfl
  refine ⟨hrun, by decide +kernel, by decide +kernel, fun h => ?_⟩
  have hgo := (h init _ _ [] hrun rfl (fun w hw => by cases hw)).1
    (.get "/get_status" (statusRequest ⟨"http://a", none, 600, 8⟩)) (List.mem_singleton_self _)
  revert hgo
  decide +kernel

end OneBotHttp

end NapCat
