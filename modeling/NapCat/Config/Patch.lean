/-
`napcat-config`: the configuration, the patches laid over it and the file that holds a patch. A patch has
three fields that may be unset, set to nothing or set to a text; a file has one null for the first two.
-/
import NapCat.Lib.Json.Value
import NapCat.Lib.PosixPath
import NapCat.Message.Basic

namespace NapCat.Config

open Json PosixPath

/-- Top-level application config. -/
structure AppConfig where
  host : String := "127.0.0.1"
  port : UInt16 := 3000
  logLevel : String := "info"
  databaseUrl : String := "sqlite://./napcat.db"
  protocolMode : String := "mock"
  protocolEndpoint : String := ""
  protocolAccessToken : Option String := none
  qqAccount : Option String := none
  qqPassword : Option String := none
  protocolListenTimeoutMs : UInt64 := 600
  protocolListenMaxEvents : UInt64 := 8
  deriving DecidableEq

/-- Partial config used for overlay merges. -/
structure AppConfigPatch where
  host : Option String := none
  port : Option UInt16 := none
  logLevel : Option String := none
  databaseUrl : Option String := none
  protocolMode : Option String := none
  protocolEndpoint : Option String := none
  protocolAccessToken : Option (Option String) := none
  qqAccount : Option (Option String) := none
  qqPassword : Option (Option String) := none
  protocolListenTimeoutMs : Option UInt64 := none
  protocolListenMaxEvents : Option UInt64 := none
  deriving DecidableEq

def AppConfig.applyPatch (c : AppConfig) (p : AppConfigPatch) : AppConfig where
  host := p.host.getD c.host
  port := p.port.getD c.port
  logLevel := p.logLevel.getD c.logLevel
  databaseUrl := p.databaseUrl.getD c.databaseUrl
  protocolMode := p.protocolMode.getD c.protocolMode
  protocolEndpoint := p.protocolEndpoint.getD c.protocolEndpoint
  protocolAccessToken := p.protocolAccessToken.getD c.protocolAccessToken
  qqAccount := p.qqAccount.getD c.qqAccount
  qqPassword := p.qqPassword.getD c.qqPassword
  protocolListenTimeoutMs := p.protocolListenTimeoutMs.getD c.protocolListenTimeoutMs
  protocolListenMaxEvents := p.protocolListenMaxEvents.getD c.protocolListenMaxEvents

/-! ## The JSON of a patch -/

def fieldNames : List String :=
  ["host", "port", "log_level", "database_url", "protocol_mode", "protocol_endpoint", "protocol_access_token",
    "qq_account", "qq_password", "protocol_listen_timeout_ms", "protocol_listen_max_events"]

def asU16 (j : Json) : Except Json.Error UInt16 := do
  let n ← asU64 j
  if n.toNat < 2 ^ 16 then return UInt16.ofNat n.toNat else .error .invalidType

/-- The values of the fields, in the order they are declared in. -/
def AppConfigPatch.values (p : AppConfigPatch) : List Json :=
  [optionJson .str p.host, optionJson (fun n => ofNat n.toNat) p.port, optionJson .str p.logLevel,
    optionJson .str p.databaseUrl, optionJson .str p.protocolMode, optionJson .str p.protocolEndpoint,
    optionJson (optionJson .str) p.protocolAccessToken, optionJson (optionJson .str) p.qqAccount,
    optionJson (optionJson .str) p.qqPassword, optionJson (fun n => ofNat n.toNat) p.protocolListenTimeoutMs,
    optionJson (fun n => ofNat n.toNat) p.protocolListenMaxEvents]

def AppConfigPatch.toJson (p : AppConfigPatch) : Json := .obj (fieldNames.zip p.values)

/-- A patch from its fields, each of which may be missing. -/
def AppConfigPatch.ofFields : List (Option Json) → Except Json.Error AppConfigPatch
  | [host, port, logLevel, databaseUrl, protocolMode, protocolEndpoint, accessToken, qqAccount, qqPassword,
      listenTimeoutMs, listenMaxEvents] => do
    return {
      host := ← optional asString host
      port := ← optional asU16 port
      logLevel := ← optional asString logLevel
      databaseUrl := ← optional asString databaseUrl
      protocolMode := ← optional asString protocolMode
      protocolEndpoint := ← optional asString protocolEndpoint
      protocolAccessToken := ← optional (asOption asString) accessToken
      qqAccount := ← optional (asOption asString) qqAccount
      qqPassword := ← optional (asOption asString) qqPassword
      protocolListenTimeoutMs := ← optional asU64 listenTimeoutMs
      protocolListenMaxEvents := ← optional asU64 listenMaxEvents }
  | _ => .error .invalidLength

def AppConfigPatch.ofJson (j : Json) : Except Json.Error AppConfigPatch := do
  ofFields (← structFields fieldNames j)

/-! ## The file -/

/-- Configuration related errors, with the error below them. -/
inductive ConfigError
  | fileRead (path : Path) (source : String)
  | fileParse (path : Path) (source : Json.Error)
  | envParse (key details : String)
  | invalidPath (path : Path) (details : String)

/-- The files of the host. -/
structure Host where
  canonicalize : Path → Except String Path
  isFile : Path → Bool
  readToString : Path → Except String String

def validateConfigPath (host : Host) (path : Path) : Except ConfigError Path := do
  let canonical ← (host.canonicalize path).mapError fun e => .invalidPath path e
  if host.isFile canonical then return canonical
  else .error (.invalidPath canonical "target is not a regular file")

def loadFile (host : Host) (path : Path) : Except ConfigError AppConfigPatch := do
  let safePath ← validateConfigPath host path
  let content ← (host.readToString safePath).mapError fun e => .fileRead safePath e
  (fromText AppConfigPatch.ofJson content).mapError fun e => .fileParse safePath e

/-! ## What a file keeps of a patch -/

/-- A patch as its file holds it: a field set to nothing is not set. -/
def AppConfigPatch.kept (p : AppConfigPatch) : AppConfigPatch :=
  { p with
    protocolAccessToken := p.protocolAccessToken.filter Option.isSome
    qqAccount := p.qqAccount.filter Option.isSome
    qqPassword := p.qqPassword.filter Option.isSome }

theorem optional_string (o : Option String) : optional asString (some (optionJson .str o)) = .ok o := by
  cases o <;> rfl

theorem optional_u64 (o : Option UInt64) :
    optional asU64 (some (optionJson (fun n => ofNat n.toNat) o)) = .ok o := by
  cases o with
  | none => rfl
  | some n => exact asOption_ofNat n

theorem asU16_ofNat (n : UInt16) : asU16 (ofNat n.toNat) = .ok n := by
  have hn : n.toNat < 2 ^ 16 := n.toNat_lt
  have h64 : asU64 (ofNat n.toNat) = .ok n.toUInt64 := asU64_ofNat n.toUInt64
  rw [asU16, h64]
  show (if n.toNat < 2 ^ 16 then Except.ok (UInt16.ofNat n.toNat) else _) = _
  rw [if_pos hn, UInt16.ofNat_toNat]

theorem optional_u16 (o : Option UInt16) :
    optional asU16 (some (optionJson (fun n => ofNat n.toNat) o)) = .ok o := by
  cases o with
  | none => rfl
  | some n =>
    show (asU16 (ofNat n.toNat)).map some = _
    rw [asU16_ofNat]
    rfl

/-- A null is read as a field that is not set. -/
theorem optional_secret (o : Option (Option String)) :
    optional (asOption asString) (some (optionJson (optionJson .str) o)) = .ok (o.filter Option.isSome) := by
  rcases o with _ | _ | s <;> rfl

theorem AppConfigPatch.ofJson_toJson (p : AppConfigPatch) : ofJson p.toJson = .ok p.kept := by
  rw [ofJson, toJson, structFields_zip (by decide) rfl]
  show ofFields (p.values.map some) = _
  simp only [values, List.map_cons, List.map_nil, ofFields, optional_string, optional_u16, optional_u64,
    optional_secret]
  rfl

theorem AppConfigPatch.fromText_toText (p : AppConfigPatch) : fromText ofJson p.toJson.toText = .ok p.kept := by
  rw [Json.fromText_toText, ofJson_toJson]

/-- The host has the text in a regular file at the path. -/
def Host.Holds (host : Host) (path : Path) (text : String) : Prop :=
  ∃ safe, host.canonicalize path = .ok safe ∧ host.isFile safe = true ∧ host.readToString safe = .ok text

theorem loadFile_toText {host : Host} {path : Path} {p : AppConfigPatch} (h : host.Holds path p.toJson.toText) :
    loadFile host path = .ok p.kept := by
  obtain ⟨safe, hc, hf, hr⟩ := h
  have hv : validateConfigPath host path = .ok safe := by
    rw [validateConfigPath, hc]
    exact if_pos hf
  rw [loadFile, hv]
  show ((host.readToString safe).mapError _ >>= _) = _
  rw [hr]
  show (fromText AppConfigPatch.ofJson p.toJson.toText).mapError _ = _
  rw [p.fromText_toText]
  rfl

/-! ## Laying the patch over -/

theorem getD_filter_iff {α : Type} {o : Option (Option α)} {c : Option α} :
    (o.filter Option.isSome).getD c = o.getD c ↔ (o = some none → c = none) := by
  rcases o with _ | _ | a <;> simp [Option.filter]

/-- A patch survives its file exactly where it sets nothing to nothing that the configuration has. -/
theorem patch_survives_iff (c : AppConfig) (p : AppConfigPatch) (host : Host) (path : Path)
    (h : host.Holds path p.toJson.toText) :
    (∃ q, loadFile host path = .ok q ∧ c.applyPatch q = c.applyPatch p) ↔
      (p.protocolAccessToken = some none → c.protocolAccessToken = none) ∧
        (p.qqAccount = some none → c.qqAccount = none) ∧ (p.qqPassword = some none → c.qqPassword = none) := by
  have happly : c.applyPatch p.kept = c.applyPatch p ↔
      (p.kept.protocolAccessToken.getD c.protocolAccessToken = p.protocolAccessToken.getD c.protocolAccessToken ∧
        p.kept.qqAccount.getD c.qqAccount = p.qqAccount.getD c.qqAccount ∧
          p.kept.qqPassword.getD c.qqPassword = p.qqPassword.getD c.qqPassword) := by
    simp only [AppConfig.applyPatch, AppConfig.mk.injEq, AppConfigPatch.kept, true_and, and_true]
  have hload : (∃ q, loadFile host path = .ok q ∧ c.applyPatch q = c.applyPatch p) ↔
      c.applyPatch p.kept = c.applyPatch p := by
    rw [loadFile_toText h]
    constructor
    · rintro ⟨q, hq, he⟩
      cases hq
      exact he
    · exact fun he => ⟨_, rfl, he⟩
  rw [hload, happly]
  exact and_congr getD_filter_iff (and_congr getD_filter_iff getD_filter_iff)

/-- A host with one text in every file. -/
def fileHost (text : String) : Host := ⟨.ok, fun _ => true, fun _ => .ok text⟩

def portPatch : AppConfigPatch := { port := some 8080 }

theorem patch_survives_port :
    (∃ q, loadFile (fileHost portPatch.toJson.toText) [] = .ok q ∧
      ({} : AppConfig).applyPatch q = ({} : AppConfig).applyPatch portPatch) ↔
      (portPatch.protocolAccessToken = some none → ({} : AppConfig).protocolAccessToken = none) ∧
        (portPatch.qqAccount = some none → ({} : AppConfig).qqAccount = none) ∧
        (portPatch.qqPassword = some none → ({} : AppConfig).qqPassword = none) :=
  patch_survives_iff {} portPatch (fileHost portPatch.toJson.toText) [] ⟨[], rfl, rfl, rfl⟩

theorem cleared_token_comes_back : ¬ ∀ (c : AppConfig) (p : AppConfigPatch) (host : Host) (path : Path),
    host.Holds path p.toJson.toText → ∃ q, loadFile host path = .ok q ∧ c.applyPatch q = c.applyPatch p := by
  intro h
  have hh : (fileHost ({ protocolAccessToken := some none } : AppConfigPatch).toJson.toText).Holds []
      ({ protocolAccessToken := some none } : AppConfigPatch).toJson.toText := ⟨[], rfl, rfl, rfl⟩
  obtain ⟨q, hq, he⟩ := h { protocolAccessToken := some "t" } _ _ _ hh
  rw [loadFile_toText hh] at hq
  cases hq
  revert he
  decide

end NapCat.Config
