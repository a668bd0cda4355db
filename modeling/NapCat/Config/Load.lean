/-
`AppConfig::load`: the defaults, the file that `NAPCAT_CONFIG_PATH` names laid over them, and the
environment over that. Which settings come of it, and exactly what makes a load fail with which error.
-/
import NapCat.Config.Patch
import NapCat.Lib.Decimal
import NapCat.Lib.Fallible
import NapCat.Lib.Layers
import NapCat.Lib.Utf8

namespace NapCat.Config

open Json PosixPath Decimal Layers

/-- The variables that `env::var` reads: those that are set, to a text. -/
abbrev Environment := String → Option String

/-- `str::parse` for `u16`, and for `u64` and `usize`. -/
def parseU16 (text : String) : Except ParseIntError UInt16 := (parseUnsigned 65535 text).map UInt16.ofNat

def parseU64 (text : String) : Except ParseIntError UInt64 :=
  (parseUnsigned 18446744073709551615 text).map UInt64.ofNat

/-! ## Settings -/

inductive Setting
  | host
  | port
  | logLevel
  | databaseUrl
  | protocolMode
  | protocolEndpoint
  | protocolAccessToken
  | qqAccount
  | qqPassword
  | protocolListenTimeoutMs
  | protocolListenMaxEvents
  deriving DecidableEq

namespace Setting

abbrev Value : Setting → Type
  | host | logLevel | databaseUrl | protocolMode | protocolEndpoint => String
  | protocolAccessToken | qqAccount | qqPassword => Option String
  | port => UInt16
  | protocolListenTimeoutMs | protocolListenMaxEvents => UInt64

/-- The variable of a setting. -/
def var : Setting → String
  | host => "NAPCAT_HOST"
  | port => "NAPCAT_PORT"
  | logLevel => "NAPCAT_LOG_LEVEL"
  | databaseUrl => "NAPCAT_DATABASE_URL"
  | protocolMode => "NAPCAT_PROTOCOL_MODE"
  | protocolEndpoint => "NAPCAT_PROTOCOL_ENDPOINT"
  | protocolAccessToken => "NAPCAT_PROTOCOL_ACCESS_TOKEN"
  | qqAccount => "NAPCAT_QQ_ACCOUNT"
  | qqPassword => "NAPCAT_QQ_PASSWORD"
  | protocolListenTimeoutMs => "NAPCAT_PROTOCOL_LISTEN_TIMEOUT_MS"
  | protocolListenMaxEvents => "NAPCAT_PROTOCOL_LISTEN_MAX_EVENTS"

/-- How the text of a variable is read. -/
def read : (k : Setting) → String → Except ParseIntError k.Value
  | host | logLevel | databaseUrl | protocolMode | protocolEndpoint => .ok
  | protocolAccessToken | qqAccount | qqPassword => fun text => .ok (some text)
  | port => parseU16
  | protocolListenTimeoutMs | protocolListenMaxEvents => parseU64

end Setting

def AppConfig.get (c : AppConfig) : (k : Setting) → k.Value
  | .host => c.host
  | .port => c.port
  | .logLevel => c.logLevel
  | .databaseUrl => c.databaseUrl
  | .protocolMode => c.protocolMode
  | .protocolEndpoint => c.protocolEndpoint
  | .protocolAccessToken => c.protocolAccessToken
  | .qqAccount => c.qqAccount
  | .qqPassword => c.qqPassword
  | .protocolListenTimeoutMs => c.protocolListenTimeoutMs
  | .protocolListenMaxEvents => c.protocolListenMaxEvents

/-- A patch as a layer. -/
def AppConfigPatch.get (p : AppConfigPatch) : Layer Setting.Value
  | .host => p.host
  | .port => p.port
  | .logLevel => p.logLevel
  | .databaseUrl => p.databaseUrl
  | .protocolMode => p.protocolMode
  | .protocolEndpoint => p.protocolEndpoint
  | .protocolAccessToken => p.protocolAccessToken
  | .qqAccount => p.qqAccount
  | .qqPassword => p.qqPassword
  | .protocolListenTimeoutMs => p.protocolListenTimeoutMs
  | .protocolListenMaxEvents => p.protocolListenMaxEvents

theorem get_applyPatch (c : AppConfig) (p : AppConfigPatch) : (c.applyPatch p).get = overlay c.get p.get := by
  funext k
  cases k <;> rfl

theorem AppConfig.get_injective {c d : AppConfig} (h : c.get = d.get) : c = d := by
  have hk (k : Setting) : c.get k = d.get k := congrFun h k
  cases c
  cases d
  simp only [AppConfig.mk.injEq]
  exact ⟨hk .host, hk .port, hk .logLevel, hk .databaseUrl, hk .protocolMode, hk .protocolEndpoint,
    hk .protocolAccessToken, hk .qqAccount, hk .qqPassword, hk .protocolListenTimeoutMs, hk .protocolListenMaxEvents⟩

/-! ## Loading -/

def envVarOptional (env : Environment) (name : String) : Option String := env name

/-- A number of the environment, where it is set. -/
def envNumber {α : Type} (env : Environment) (key : String) (parse : String → Except ParseIntError α) :
    Except ConfigError (Option α) :=
  match envVarOptional env key with
  | none => .ok none
  | some text => match parse text with
    | .ok parsed => .ok (some parsed)
    | .error error => .error (.envParse key error.text)

def loadEnv (env : Environment) : Except ConfigError AppConfigPatch := do
  let port ← envNumber env "NAPCAT_PORT" parseU16
  let listenTimeoutMs ← envNumber env "NAPCAT_PROTOCOL_LISTEN_TIMEOUT_MS" parseU64
  let listenMaxEvents ← envNumber env "NAPCAT_PROTOCOL_LISTEN_MAX_EVENTS" parseU64
  return {
    host := envVarOptional env "NAPCAT_HOST"
    port := port
    logLevel := envVarOptional env "NAPCAT_LOG_LEVEL"
    databaseUrl := envVarOptional env "NAPCAT_DATABASE_URL"
    protocolMode := envVarOptional env "NAPCAT_PROTOCOL_MODE"
    protocolEndpoint := envVarOptional env "NAPCAT_PROTOCOL_ENDPOINT"
    protocolAccessToken := (envVarOptional env "NAPCAT_PROTOCOL_ACCESS_TOKEN").map some
    qqAccount := (envVarOptional env "NAPCAT_QQ_ACCOUNT").map some
    qqPassword := (envVarOptional env "NAPCAT_QQ_PASSWORD").map some
    protocolListenTimeoutMs := listenTimeoutMs
    protocolListenMaxEvents := listenMaxEvents }

/-- The patch of the file, where one is named. -/
def filePatch (files : Host) (env : Environment) : Except ConfigError (Option AppConfigPatch) :=
  match env "NAPCAT_CONFIG_PATH" with
  | none => .ok none
  | some path => (loadFile files (Text.utf8 path)).map some

def load (files : Host) (env : Environment) : Except ConfigError AppConfig := do
  let config := match ← filePatch files env with
    | none => ({} : AppConfig)
    | some fileConfig => ({} : AppConfig).applyPatch fileConfig
  let envConfig ← loadEnv env
  return config.applyPatch envConfig

/-! ## What the environment sets -/

/-- A variable holds a text that is none for its setting. -/
def Setting.bad (env : Environment) (k : Setting) : Option ParseIntError :=
  (env k.var).bind fun text => Fallible.failure (k.read text)

/-- The environment as a layer. -/
def envLayer (env : Environment) : Layer Setting.Value := fun k =>
  (env k.var).bind fun text => (k.read text).toOption

/-- The settings that are numbers, in the order in which the environment is read. -/
def numbers : List Setting := [.port, .protocolListenTimeoutMs, .protocolListenMaxEvents]

/-- The first variable that holds no number, with its error. -/
def firstBad (env : Environment) : Option (Setting × ParseIntError) :=
  numbers.findSome? fun k => (k.bad env).map (k, ·)

theorem envNumber_eq (env : Environment) (k : Setting) :
    envNumber env k.var k.read = match k.bad env with
      | none => .ok (envLayer env k)
      | some e => .error (.envParse k.var e.text) := by
  unfold envNumber envVarOptional Setting.bad envLayer
  cases env k.var with
  | none => rfl
  | some text =>
    simp only [Option.bind_some]
    cases k.read text <;> rfl

/-- The environment is read as its layer, or the first number that is none is reported. -/
theorem loadEnv_cases (env : Environment) :
    (firstBad env = none ∧ ∃ p, loadEnv env = .ok p ∧ p.get = envLayer env) ∨
      ∃ k e, firstBad env = some (k, e) ∧ loadEnv env = .error (.envParse k.var e.text) := by
  have hport := envNumber_eq env .port
  have htimeout := envNumber_eq env .protocolListenTimeoutMs
  have hmax := envNumber_eq env .protocolListenMaxEvents
  simp only [Setting.var, Setting.read] at hport htimeout hmax
  have hfirst : firstBad env = (((Setting.port.bad env).map (Setting.port, ·)).or
      ((Setting.protocolListenTimeoutMs.bad env).map (Setting.protocolListenTimeoutMs, ·))).or
      ((Setting.protocolListenMaxEvents.bad env).map (Setting.protocolListenMaxEvents, ·)) := by
    simp only [firstBad, numbers, List.findSome?_cons, List.findSome?_nil]
    cases Setting.port.bad env <;> cases Setting.protocolListenTimeoutMs.bad env <;>
      cases Setting.protocolListenMaxEvents.bad env <;> rfl
  rw [hfirst]
  unfold loadEnv
  rw [hport, htimeout, hmax]
  cases hp : Setting.port.bad env with
  | some e => exact .inr ⟨.port, e, rfl, rfl⟩
  | none =>
    cases ht : Setting.protocolListenTimeoutMs.bad env with
    | some e => exact .inr ⟨.protocolListenTimeoutMs, e, rfl, rfl⟩
    | none =>
      cases hm : Setting.protocolListenMaxEvents.bad env with
      | some e => exact .inr ⟨.protocolListenMaxEvents, e, rfl, rfl⟩
      | none =>
        refine .inl ⟨rfl, _, rfl, ?_⟩
        funext k
        cases k <;> simp only [AppConfigPatch.get, envLayer, Setting.var, Setting.read, envVarOptional] <;>
          cases env _ <;> rfl

/-- The largest number of a setting that is one. -/
def Setting.max : Setting → Nat
  | .port => 65535
  | _ => 18446744073709551615

/-- Every number that the environment sets is a numeral within its bound. -/
def NumbersFit (env : Environment) : Prop :=
  ∀ k ∈ numbers, ∀ text, env k.var = some text → ∃ ds, IsNumeral text ds ∧ Nat.ofDigitChars 10 ds 0 ≤ k.max

theorem Setting.bad_eq_none_iff {env : Environment} {k : Setting} (h : k ∈ numbers) : k.bad env = none ↔
    ∀ text, env k.var = some text → ∃ ds, IsNumeral text ds ∧ Nat.ofDigitChars 10 ds 0 ≤ k.max := by
  have hparse (max : Nat) (text : String) : (∃ n, parseUnsigned max text = .ok n) ↔
      ∃ ds, IsNumeral text ds ∧ Nat.ofDigitChars 10 ds 0 ≤ max := by
    simp only [parseUnsigned_ok_iff]
    exact ⟨fun ⟨_, ds, hds, hn, hm⟩ => ⟨ds, hds, hn ▸ hm⟩, fun ⟨ds, hds, hm⟩ => ⟨_, ds, hds, rfl, hm⟩⟩
  have hmap {α : Type} (x : Except ParseIntError Nat) (f : Nat → α) :
      (∃ v, x.map f = .ok v) ↔ ∃ n, x = .ok n := by
    cases x <;> simp [Except.map]
  have hread (text : String) : (∃ v, k.read text = .ok v) ↔ ∃ n, parseUnsigned k.max text = .ok n := by
    simp only [numbers, List.mem_cons, List.not_mem_nil, or_false] at h
    rcases h with rfl | rfl | rfl
    · exact hmap _ UInt16.ofNat
    · exact hmap _ UInt64.ofNat
    · exact hmap _ UInt64.ofNat
  rw [Setting.bad, Option.bind_eq_none_iff]
  refine forall₂_congr fun text _ => ?_
  rw [Fallible.failure_eq_none_iff, hread, hparse]

theorem firstBad_eq_none_iff (env : Environment) : firstBad env = none ↔ NumbersFit env := by
  rw [firstBad, List.findSome?_eq_none_iff]
  refine forall₂_congr fun k hk => ?_
  rw [Option.map_eq_none_iff, Setting.bad_eq_none_iff hk]

/-! ## What a load gives -/

/-- The layers under the command line, the topmost first. -/
def layers (file : Option AppConfigPatch) (env : Environment) : List (Layer Setting.Value) :=
  envLayer env :: (file.map AppConfigPatch.get).toList

/-- A load succeeds exactly with a file that can be read and numbers that fit. It has every setting from
the environment, else from the file, else by default. -/
theorem load_ok_iff {files : Host} {env : Environment} {c : AppConfig} :
    load files env = .ok c ↔ ∃ file, filePatch files env = .ok file ∧ NumbersFit env ∧
      c.get = overlay ({} : AppConfig).get (top (layers file env)) := by
  have happly (file : Option AppConfigPatch) (p : AppConfigPatch) (hp : p.get = envLayer env) :
      ((match file with
        | none => ({} : AppConfig)
        | some fileConfig => ({} : AppConfig).applyPatch fileConfig).applyPatch p).get =
        overlay ({} : AppConfig).get (top (layers file env)) := by
    rw [← foldr_overlay, get_applyPatch, hp]
    cases file with
    | none => rfl
    | some fileConfig => rw [get_applyPatch]; rfl
  rw [← firstBad_eq_none_iff]
  unfold load
  cases hf : filePatch files env with
  | error e =>
    refine ⟨(fun h => by cases h), ?_⟩
    rintro ⟨file, hfile, -⟩
    cases hfile
  | ok file =>
    rcases loadEnv_cases env with ⟨hbad, p, hp, hget⟩ | ⟨k, e, hbad, he⟩
    · rw [hp, hbad]
      constructor
      · rintro h
        cases h
        exact ⟨file, rfl, rfl, happly file p hget⟩
      · rintro ⟨file', hfile, -, hc⟩
        cases hfile
        exact congrArg Except.ok (AppConfig.get_injective ((happly file p hget).trans hc.symm))
    · rw [he, hbad]
      refine ⟨(fun h => by cases h), ?_⟩
      rintro ⟨_, -, hb, -⟩
      cases hb

/-- A load that fails does so for the file, or with a file that can be read for the first variable that
holds no number. -/
theorem load_error_iff {files : Host} {env : Environment} {e : ConfigError} :
    load files env = .error e ↔ filePatch files env = .error e ∨
      (∃ file, filePatch files env = .ok file) ∧ ∃ k r, firstBad env = some (k, r) ∧ e = .envParse k.var r.text := by
  unfold load
  cases hf : filePatch files env with
  | error e' =>
    show Except.error e' = Except.error e ↔ _
    simp only [reduceCtorEq, exists_false, false_and, or_false, Except.error.injEq]
  | ok file =>
    rcases loadEnv_cases env with ⟨hbad, p, hp, -⟩ | ⟨k, r, hbad, he⟩
    · rw [hp, hbad]
      simp only [reduceCtorEq, false_or, exists_false, and_false, false_and, iff_false]
      exact fun h => by cases h
    · rw [he, hbad]
      simp only [reduceCtorEq, false_or, Except.ok.injEq, exists_eq', true_and, Option.some.injEq, Prod.mk.injEq]
      constructor
      · rintro h
        cases h
        exact ⟨k, r, ⟨rfl, rfl⟩, rfl⟩
      · rintro ⟨k', r', ⟨rfl, rfl⟩, rfl⟩
        rfl

end NapCat.Config
