/-
`run_app`: the command line laid over what `load` gives, the backend that the protocol mode asks for,
connected, and the server over it. Where the settings come from is settled for all of them at once, and
what a run leaves of the session it has opened for every run.
-/
import NapCat.Api.Server
import NapCat.Config.Load
import NapCat.Protocol.OneBotRequests

namespace NapCat.Cli

open Config Layers
open QQClient (QQClientConfig QQClientError)

structure Args where
  host : Option String := none
  port : Option UInt16 := none
  debug : Bool := false
  protocolMode : Option String := none
  protocolEndpoint : Option String := none
  protocolAccessToken : Option String := none

/-- The overrides of the command line. -/
def Args.override (args : Args) (config : AppConfig) : AppConfig :=
  { config with
    host := args.host.getD config.host
    port := args.port.getD config.port
    logLevel := if args.debug then "debug" else config.logLevel
    protocolMode := args.protocolMode.getD config.protocolMode
    protocolEndpoint := args.protocolEndpoint.getD config.protocolEndpoint
    protocolAccessToken := (args.protocolAccessToken.map some).getD config.protocolAccessToken }

/-- The command line as a layer. -/
def Args.layer (args : Args) : Layer Setting.Value
  | .host => args.host
  | .port => args.port
  | .logLevel => if args.debug then some "debug" else none
  | .protocolMode => args.protocolMode
  | .protocolEndpoint => args.protocolEndpoint
  | .protocolAccessToken => args.protocolAccessToken.map some
  | _ => none

/-- The configuration of a run. -/
def configure (files : Config.Host) (env : Environment) (args : Args) : Except ConfigError AppConfig :=
  (load files env).map args.override

/-! ## The backend -/

/-- A backend, before it is connected: the QQ client is the TCP client or the mock. -/
inductive Protocol
  | oneBot (config : OneBotBackendConfig)
  | qq (tcp : Bool) (config : QQClientBackendConfig)

/-- The backend that a configuration asks for, or what it lacks. -/
def selectProtocol (config : AppConfig) : Except String (Option Protocol) :=
  if config.protocolMode = "onebot" ∨ config.protocolMode = "onebot-http" ∨ config.protocolMode = "onebot_http" then
    if Text.isBlank config.protocolEndpoint then .error "protocol endpoint is required for onebot mode"
    else .ok (some (.oneBot {
      baseUrl := config.protocolEndpoint
      accessToken := config.protocolAccessToken
      listenTimeoutMs := config.protocolListenTimeoutMs
      listenMaxEvents := config.protocolListenMaxEvents.toNat }))
  else if config.protocolMode = "qq" ∨ config.protocolMode = "qq-client" ∨ config.protocolMode = "qq_client" then
    if Text.isBlank config.protocolEndpoint then .error "protocol endpoint is required for qq mode"
    else
      match config.qqAccount, config.qqPassword with
      | none, _ => .error "qq account is required for qq mode"
      | some _, none => .error "qq password is required for qq mode"
      | some account, some password =>
        let tcp := Text.startsWith (Text.trimStart config.protocolEndpoint) "tcp://"
        .ok (some (.qq tcp {
          endpoint := config.protocolEndpoint
          account := some account
          password := some password
          connectTimeoutMs := 2000
          listenPollMs := config.protocolListenTimeoutMs }))
  else .ok none

/-- What the peers answer while a backend connects. -/
structure Network where
  status : HttpRequest → HttpResponse
  clientConnect : Bool → QQClientConfig → Except QQClientError Unit
  clientLogin : Bool → String → String → Except QQClientError Unit

/-- A backend that is connected. -/
abbrev Session := OneBotHttp.Shared ⊕ QQBackend.Shared

/-- `connect` of a new OneBot backend, to its end. -/
def connectOneBot (network : Network) (config : OneBotBackendConfig) (endpoint : String) :
    Except ProtocolError OneBotHttp.Shared :=
  match OneBotHttp.beginConnect config endpoint with
  | .awaitingStatus r => (OneBotHttp.statusResult (network.status r)).map fun _ => { connected := true }
  | .done (.error e) => .error e
  -- a call begins with its request or a refusal
  | _ => .ok {}

/-- `connect` of a new QQ backend, to its end. -/
def connectQQ (network : Network) (tcp : Bool) (config : QQClientBackendConfig) (endpoint : String) :
    Except ProtocolError QQBackend.Shared := do
  let clientConfig ← QQBackend.buildConnectConfig config endpoint
  if QQBackend.refused clientConfig config.credentials then
    .error (.transport "qq account/password are required for non-mock endpoints")
  else
    (network.clientConnect tcp clientConfig).mapError mapQqError
    match config.credentials with
    | none =>
      return {
        config := { config with endpoint := clientConfig.endpoint }
        client := .connected
        connected := true }
    | some (account, password) =>
      (network.clientLogin tcp account password).mapError mapQqError
      return {
        config := { config with endpoint := clientConfig.endpoint }
        client := .loggedIn
        connected := true
        loggedIn := true }

def Protocol.connect (network : Network) (endpoint : String) : Protocol → Except ProtocolError Session
  | .oneBot config => (connectOneBot network config endpoint).map .inl
  | .qq tcp config => (connectQQ network tcp config endpoint).map .inr

/-! ## The run -/

/-- The server's view of a connected backend of either kind. -/
def sessions : Api.Server.Backend Session where
  active := Sum.elim Api.Server.oneBot.active Api.Server.qq.active
  listen
    | .inl g => ((Api.Server.oneBot.listen g).map .inl id)
    | .inr g => ((Api.Server.qq.listen g).map .inr id)
  disconnect
    | .inl g => ((Api.Server.oneBot.disconnect g).map .inl id)
    | .inr g => ((Api.Server.qq.disconnect g).map .inr id)
  active_of_refused
    | .inl g, e, h => Api.Server.oneBot.active_of_refused g e h
    | .inr g, e, h => Api.Server.qq.active_of_refused g e h
  not_active_disconnect
    | .inl g => Api.Server.oneBot.not_active_disconnect g
    | .inr g => Api.Server.qq.not_active_disconnect g

/-- Why a run returns an error. -/
inductive AppError
  | loadConfig (e : ConfigError)
  | missing (text : String)
  | protocolConnect (e : ProtocolError)
  | apiRuntime (e : ProtocolError)

/-- All that a run meets: its environment and files, the peers, and the server's host. -/
structure World (A : Type) where
  env : Environment
  files : Config.Host
  network : Network
  server : Api.Server.Host Session A

variable {A : Type}

/-- The backend of a configuration, connected. -/
def openProtocol (network : Network) (config : AppConfig) : Except AppError (Option Session) :=
  match selectProtocol config with
  | .error text => .error (.missing text)
  | .ok none => .ok none
  | .ok (some protocol) =>
    match protocol.connect network config.protocolEndpoint with
    | .error e => .error (.protocolConnect e)
    | .ok session => .ok (some session)

def addr (config : AppConfig) : String := config.host ++ ":" ++ toString config.port.toNat

/-- `run_app`: the state of the API that it leaves, where it has got to one, and its result. -/
def runApp (w : World A) (args : Args) : Option (Api.Server.State Session) × Except AppError Unit :=
  match configure w.files w.env args with
  | .error e => (none, .error (.loadConfig e))
  | .ok config =>
    match openProtocol w.network config with
    | .error e => (none, .error e)
    | .ok protocol =>
      let (state, r) := Api.Server.runWithState sessions w.server (addr config) { protocol }
      (some state, r.mapError .apiRuntime)

/-! ## Settings -/

theorem get_override (args : Args) (config : AppConfig) :
    (args.override config).get = overlay config.get args.layer := by
  funext k
  cases k <;> simp only [AppConfig.get, Args.override, overlay, Args.layer] <;> first | rfl | (split <;> rfl)

/-- A run has every setting from the command line, else from the environment, else from the file, else by
default; it has a configuration exactly with a file that can be read and numbers that fit. -/
theorem configure_ok_iff {files : Config.Host} {env : Environment} {args : Args} {c : AppConfig} :
    configure files env args = .ok c ↔ ∃ file, filePatch files env = .ok file ∧ NumbersFit env ∧
      c.get = overlay ({} : AppConfig).get (top (args.layer :: layers file env)) := by
  have hover (file : Option AppConfigPatch) {d : AppConfig}
      (hd : d.get = overlay ({} : AppConfig).get (top (layers file env))) :
      (args.override d).get = overlay ({} : AppConfig).get (top (args.layer :: layers file env)) := by
    rw [get_override, hd, overlay_overlay, top_cons]
  constructor
  · intro h
    obtain ⟨d, hd, rfl⟩ := Fallible.map_ok h
    obtain ⟨file, hfile, hfit, hget⟩ := load_ok_iff.1 hd
    exact ⟨file, hfile, hfit, hover file hget⟩
  · rintro ⟨file, hfile, hfit, hget⟩
    cases hl : load files env with
    | error e =>
      rcases load_error_iff.1 hl with he | ⟨-, k, r, hbad, -⟩
      · rw [hfile] at he
        cases he
      · rw [(firstBad_eq_none_iff env).2 hfit] at hbad
        cases hbad
    | ok d =>
      obtain ⟨file', hfile', -, hd⟩ := load_ok_iff.1 hl
      cases hfile.symm.trans hfile'
      rw [configure, hl]
      exact congrArg Except.ok (AppConfig.get_injective ((hover file hd).trans hget.symm))

/-! ## Connecting -/

/-- The connect of a new OneBot backend, run alone. -/
theorem connectOneBot_run (network : Network) (config : OneBotBackendConfig) (endpoint : String) :
    ∃ as : List OneBotHttp.Act,
      Run.exec (OneBotHttp.step config) OneBotHttp.init (.start (.connect endpoint) :: as.map (.act 0)) =
        some ⟨(connectOneBot network config endpoint).toOption.getD {},
          [.done ((connectOneBot network config endpoint).map fun _ => ())]⟩ := by
  have hs : OneBotHttp.step config OneBotHttp.init (.start (.connect endpoint)) =
      some ⟨{}, [OneBotHttp.beginConnect config endpoint]⟩ := by
    simp only [OneBotHttp.step, Threads.step, OneBotHttp.program, OneBotHttp.begin, OneBotHttp.init, Option.map_some,
      List.nil_append]
  have hrun {g : OneBotHttp.Shared} {p p' : OneBotHttp.Pc} (as : List OneBotHttp.Act)
      (hb : OneBotHttp.beginConnect config endpoint = p)
      (h : Run.exec (Threads.alone (OneBotHttp.program config)) ({}, p) as = some (g, p')) :
      Run.exec (OneBotHttp.step config) OneBotHttp.init (.start (.connect endpoint) :: as.map (.act 0)) =
        some ⟨g, [p']⟩ := by
    rw [Run.exec_cons, hs, hb]
    exact Api.Server.oneBot_run config [] as h
  unfold connectOneBot
  rcases OneBotHttp.beginConnect_cases config endpoint with hv | ⟨e, he⟩
  · have hv : OneBotHttp.beginConnect config endpoint = .awaitingStatus (OneBotHttp.statusRequest config) := hv
    rw [hv]
    dsimp only
    cases hr : OneBotHttp.statusResult (network.status (OneBotHttp.statusRequest config)) with
    | error e =>
      have hact : Threads.alone (OneBotHttp.program config) ({}, .awaitingStatus (OneBotHttp.statusRequest config))
          (.respond (network.status (OneBotHttp.statusRequest config))) = some ({}, .done (.error e)) := by
        simp only [Threads.alone, OneBotHttp.program, OneBotHttp.act, hr]
      refine ⟨[.respond (network.status (OneBotHttp.statusRequest config))], hrun _ hv ?_⟩
      rw [Run.exec_cons, hact]
      rfl
    | ok online =>
      have hact : Threads.alone (OneBotHttp.program config) ({}, .awaitingStatus (OneBotHttp.statusRequest config))
          (.respond (network.status (OneBotHttp.statusRequest config))) = some ({}, .storingConnected) := by
        simp only [Threads.alone, OneBotHttp.program, OneBotHttp.act, hr]
      refine ⟨[.respond (network.status (OneBotHttp.statusRequest config)), .go, .go], hrun _ hv ?_⟩
      rw [Run.exec_cons, hact]
      rfl
  · rw [he]
    exact ⟨[], hrun _ he rfl⟩

/-- A step of the one call in progress. -/
theorem exec_one {g : QQBackend.Shared} {p : QQBackend.Pc} {a : QQBackend.Act} {r : QQBackend.Shared × QQBackend.Next}
    (h : QQBackend.act g p a = some r) (as : List QQBackend.Act) :
    Run.exec QQBackend.step ⟨g, [p], []⟩ ((a :: as).map .act) =
      Run.exec QQBackend.step (Turns.Sys.after [] [] r) (as.map .act) := by
  have hs : QQBackend.step ⟨g, [p], []⟩ (.act a) = some (Turns.Sys.after [] [] r) := by
    simp only [QQBackend.step, Turns.step, QQBackend.program, h, Option.map_some]
  rw [List.map_cons, Run.exec_cons, hs, Option.bind_some]

/-- A connect of a new QQ backend up to its checks. -/
theorem exec_buildConfig (config : QQClientBackendConfig) (endpoint : String) (as : List QQBackend.Act) :
    Run.exec QQBackend.step (QQBackend.init config) (.start (.connect endpoint) :: (.go :: .go :: as).map .act) =
      Run.exec QQBackend.step ⟨{ config }, [.buildConfig endpoint], []⟩ (as.map .act) := by
  have hs : QQBackend.step (QQBackend.init config) (.start (.connect endpoint)) =
      some ⟨{ config }, [.connect endpoint], []⟩ := by
    simp only [QQBackend.step, Turns.step, QQBackend.program, QQBackend.start, QQBackend.init, List.nil_append]
  rw [Run.exec_cons, hs, Option.bind_some, exec_one (r := ({ config }, .call (.connectClosing endpoint))) rfl]
  exact exec_one (r := ({ config }, .call (.buildConfig endpoint))) rfl as

/-- A connect whose endpoint is good up to its calls of the client, if it makes any. -/
theorem exec_storeEndpoint {config : QQClientBackendConfig} {endpoint : String} {clientConfig : QQClientConfig}
    (h : QQBackend.buildConnectConfig config endpoint = .ok clientConfig) (as : List QQBackend.Act) :
    Run.exec QQBackend.step (QQBackend.init config)
        (.start (.connect endpoint) :: (.go :: .go :: .go :: .go :: .go :: as).map .act) =
      Run.exec QQBackend.step (Turns.Sys.after [] [] ({ config := { config with endpoint := clientConfig.endpoint } },
        if QQBackend.refused clientConfig config.credentials then
          QQBackend.fail "qq account/password are required for non-mock endpoints"
        else .call (.clientConnect clientConfig config.credentials))) (as.map .act) := by
  have hbuild : QQBackend.act { config } (.buildConfig endpoint) .go =
      some ({ config }, .call (.readCredentials clientConfig)) := by
    simp only [QQBackend.act, h]
  rw [exec_buildConfig, exec_one hbuild]
  show Run.exec QQBackend.step ⟨_, [.readCredentials clientConfig], []⟩ _ = _
  rw [exec_one rfl]
  show Run.exec QQBackend.step ⟨_, [.storeEndpoint clientConfig config.credentials], []⟩ _ = _
  rw [exec_one rfl]

/-- The connect of a new QQ backend, run alone: it leaves its session, where there is one. -/
theorem connectQQ_run (network : Network) (tcp : Bool) (config : QQClientBackendConfig) (endpoint : String) :
    ∃ (as : List QQBackend.Act) (g : QQBackend.Shared),
      Run.exec QQBackend.step (QQBackend.init config) (.start (.connect endpoint) :: as.map .act) =
        some ⟨g, [], [(connectQQ network tcp config endpoint).map fun _ => ()]⟩ ∧
      ∀ s, connectQQ network tcp config endpoint = .ok s → g = s := by
  unfold connectQQ
  cases hb : QQBackend.buildConnectConfig config endpoint with
  | error e =>
    have hbuild : QQBackend.act { config } (.buildConfig endpoint) .go = some ({ config }, .ret (.error e)) := by
      simp only [QQBackend.act, hb]
    refine ⟨[.go, .go, .go], { config }, ?_, fun s hs => by cases hs⟩
    rw [exec_buildConfig, exec_one hbuild]
    rfl
  | ok clientConfig =>
    have hstore := exec_storeEndpoint hb
    dsimp only [bind, Except.bind]
    split_ifs at hstore ⊢ with href
    · exact ⟨[.go, .go, .go, .go, .go], { config := { config with endpoint := clientConfig.endpoint } }, hstore [],
        fun s hs => by cases hs⟩
    cases hc : network.clientConnect tcp clientConfig with
    | error e =>
      refine ⟨[.go, .go, .go, .go, .go, .client (.error e)],
        { config := { config with endpoint := clientConfig.endpoint } }, ?_, fun s hs => by cases hs⟩
      rw [hstore]
      rfl
    | ok u =>
      cases hcred : config.credentials with
      | none =>
        rw [hcred] at hstore
        refine ⟨[.go, .go, .go, .go, .go, .client (.ok u)], _, ?_, fun s hs => Except.ok.inj hs⟩
        rw [hstore]
        rfl
      | some c =>
        obtain ⟨account, password⟩ := c
        rw [hcred] at hstore
        cases hl : network.clientLogin tcp account password with
        | error e =>
          refine ⟨[.go, .go, .go, .go, .go, .client (.ok u), .client (.error e)],
            { config := { config with endpoint := clientConfig.endpoint }, client := .connected }, ?_,
            fun s hs => by simp only [Except.mapError, hl] at hs; cases hs⟩
          rw [hstore]
          simp only [Except.mapError, hl]
          rfl
        | ok v =>
          refine ⟨[.go, .go, .go, .go, .go, .client (.ok u), .client (.ok v)],
            { config := { config with endpoint := clientConfig.endpoint }, client := .loggedIn, connected := true,
              loggedIn := true }, ?_, fun s hs => by simp only [Except.mapError, hl] at hs; cases hs; rfl⟩
          rw [hstore]
          simp only [Except.mapError, hl]
          rfl

/-! ## What a run leaves -/

/-- A session that has just been opened: the server can listen on it. -/
structure Opened (session : Session) : Prop where
  active : sessions.active session
  listens : (sessions.listen session).2 = .ok ()

theorem connectOneBot_opened {network : Network} {config : OneBotBackendConfig} {endpoint : String}
    {g : OneBotHttp.Shared} (h : connectOneBot network config endpoint = .ok g) : Opened (.inl g) := by
  unfold connectOneBot at h
  rcases OneBotHttp.beginConnect_cases config endpoint with hv | ⟨e, he⟩
  · rw [hv] at h
    obtain ⟨online, -, rfl⟩ := Fallible.map_ok h
    exact ⟨.inl rfl, rfl⟩
  · rw [he] at h
    cases h

theorem connectQQ_opened {network : Network} {tcp : Bool} {config : QQClientBackendConfig} {endpoint : String}
    {g : QQBackend.Shared} (h : connectQQ network tcp config endpoint = .ok g) : Opened (.inr g) := by
  obtain ⟨clientConfig, -, h⟩ := Fallible.bind_ok h
  split_ifs at h
  obtain ⟨u, -, h⟩ := Fallible.bind_ok h
  split at h
  · cases h
    exact ⟨.inl rfl, rfl⟩
  · obtain ⟨v, -, h⟩ := Fallible.bind_ok h
    cases h
    exact ⟨.inl rfl, rfl⟩

theorem openProtocol_opened {network : Network} {config : AppConfig} {session : Session}
    (h : openProtocol network config = .ok (some session)) : Opened session := by
  unfold openProtocol at h
  split at h
  · cases h
  · cases h
  · rename_i protocol _
    split at h
    · cases h
    · rename_i s hs
      cases h
      cases protocol with simp only [Protocol.connect] at hs
      | oneBot config =>
        obtain ⟨g, hg, rfl⟩ := Fallible.map_ok hs
        exact connectOneBot_opened hg
      | qq tcp config =>
        obtain ⟨g, hg, rfl⟩ := Fallible.map_ok hs
        exact connectQQ_opened hg

theorem startListen_opened {protocol : Option Session} (h : ∀ session ∈ protocol, Opened session) (running : Bool) :
    ∃ state, Api.Server.startListen sessions ⟨running, protocol⟩ = (state, .ok ()) := by
  cases protocol with
  | none => exact ⟨_, rfl⟩
  | some session =>
    refine ⟨_, Prod.ext rfl ?_⟩
    show ((sessions.listen session).2.mapError _) = _
    rw [(h session rfl).listens]
    rfl

/-- A server over what has been opened ends well exactly with an address that parses, a socket, and a
server that does. -/
theorem runWithState_ok_iff {server : Api.Server.Host Session A} {text : String} {protocol : Option Session}
    (h : ∀ session ∈ protocol, Opened session) :
    (Api.Server.runWithState sessions server text ⟨false, protocol⟩).2 = .ok () ↔
      ∃ a, server.parse text = .ok a ∧ server.bind a = .ok () ∧ server.serve a = .ok () := by
  obtain ⟨state, hl⟩ := startListen_opened h true
  unfold Api.Server.runWithState
  dsimp only [Api.Server.State.setRuntimeRunning]
  rw [hl]
  cases server.parse text with
  | error e => simp
  | ok a =>
    simp only [Except.ok.injEq, exists_eq_left']
    cases server.bind a with
    | error e => simp
    | ok u => cases hs : server.serve a <;> simp [Except.mapError]

/-- A run ends well exactly with a configuration, the backend that it asks for connected, and a server at
its address that ends well; no run fails for its listener. -/
theorem runApp_ok_iff (w : World A) (args : Args) :
    (runApp w args).2 = .ok () ↔ ∃ config protocol a, configure w.files w.env args = .ok config ∧
      openProtocol w.network config = .ok protocol ∧ w.server.parse (addr config) = .ok a ∧
        w.server.bind a = .ok () ∧ w.server.serve a = .ok () := by
  unfold runApp
  cases configure w.files w.env args with
  | error e => simp
  | ok config =>
    dsimp only
    cases ho : openProtocol w.network config with
    | error e => simp [ho]
    | ok protocol =>
      have hopened : ∀ session ∈ protocol, Opened session := by
        rintro session rfl
        exact openProtocol_opened ho
      have hmap : ∀ r : Except ProtocolError Unit, r.mapError AppError.apiRuntime = .ok () ↔ r = .ok () := by
        rintro (e | u) <;> simp [Except.mapError]
      rw [hmap, runWithState_ok_iff hopened]
      simp [ho]

/-- A run cleans up exactly if the address parses of every configuration for which it opens a session. -/
theorem runApp_cleanedUp_iff (w : World A) (args : Args) :
    (∀ state, (runApp w args).1 = some state → Api.Server.CleanedUp sessions state) ↔
      ∀ config session, configure w.files w.env args = .ok config →
        openProtocol w.network config = .ok (some session) → ∃ a, w.server.parse (addr config) = .ok a := by
  unfold runApp
  cases hc : configure w.files w.env args with
  | error e =>
    refine ⟨fun _ config session h => ?_, fun _ state h => ?_⟩ <;> cases h
  | ok config =>
    dsimp only
    cases ho : openProtocol w.network config with
    | error e =>
      refine ⟨fun _ c session h hs => ?_, fun _ state h => ?_⟩
      · cases h
        rw [ho] at hs
        cases hs
      · cases h
    | ok protocol =>
      have hclean := Api.Server.cleanedUp_iff sessions w.server (addr config) ⟨false, protocol⟩
      constructor
      · intro h c session hc' hs
        cases hc'
        cases ho.symm.trans hs
        exact (hclean.1 (h _ rfl) session rfl (openProtocol_opened ho).active).1
      · rintro h state ⟨⟩
        refine hclean.2 fun session hs _ => ?_
        obtain rfl : protocol = some session := hs
        exact ⟨h config session rfl ho, (openProtocol_opened ho).listens⟩

end NapCat.Cli
