/-
`PluginManager` of `napcat-plugin`: a registry of plugin backends behind a lock. A step is what a
call does between two await points: the check of a load, a plugin hook, and the writes to the
registry, which wait until no dispatch reads it.
-/
import NapCat.Lib.Json.Basic
import NapCat.Lib.Text
import NapCat.Lib.Threads
import Mathlib.Data.List.AList

namespace NapCat.Plugin

/-- Plugin metadata. -/
structure PluginMetadata where
  name : String
  version : String
  description : Option String
  author : Option String
  deriving DecidableEq

/-- Plugin lifecycle events handled by backends. -/
inductive PluginEvent
  | load
  | unload
  | message (payload : Json) (source : Option String)
  | healthCheck

/-- Actions that a plugin can emit. -/
inductive PluginAction
  | «continue»
  | emit (payload : Json)
  | stop

/-- Plugin source declaration. -/
inductive PluginSource
  | rust (executable : String) (args : List String) (timeoutMs : UInt64)
  | wasm (module : String) (entrypoint : String) (timeoutMs : UInt64)
  | http (endpoint : String) (timeoutMs : UInt64)
  deriving DecidableEq

/-- Plugin registration item. -/
structure PluginDefinition where
  metadata : PluginMetadata
  source : PluginSource
  enabled : Bool
  deriving DecidableEq

/-- Errors for plugin loading and dispatch. -/
inductive PluginError
  | alreadyLoaded (name : String)
  | emptyName
  | disabled (name : String)
  | io (text : String)
  | serialize (text : String)
  | deserialize (text : String)
  | invalidUtf8 (text : String)
  | runtimeUnavailable (text : String)
  | timeout (timeoutMs : UInt64)
  | notFound (name : String)
  | transport (text : String)
  | invalidSource (text : String)
  deriving DecidableEq

def PluginError.text : PluginError → String
  | .alreadyLoaded name => "plugin already loaded: " ++ name
  | .emptyName => "plugin name cannot be empty"
  | .disabled name => "plugin disabled: " ++ name
  | .io t => "io failure: " ++ t
  | .serialize t => "json failure: " ++ t
  | .deserialize t => "json decode failure: " ++ t
  | .invalidUtf8 t => "invalid utf-8: " ++ t
  | .runtimeUnavailable t => "plugin runtime unavailable: " ++ t
  | .timeout ms => "plugin action timeout after " ++ toString ms.toNat ++ "ms"
  | .notFound name => "plugin not found: " ++ name
  | .transport t => "plugin transport failure: " ++ t
  | .invalidSource t => "invalid plugin source: " ++ t

/-! ## From a definition to a backend -/

structure FileMetadata where
  isFile : Bool
  mode : Nat

structure Url where
  scheme : String
  text : String

/-- The file system and the URL parser, as one load finds them. -/
structure Host where
  canonicalize : String → Except String String
  metadata : String → Except String FileMetadata
  parseUrl : String → Except String Url

def maxPluginTimeoutMs : UInt64 := 60000

def minPluginTimeoutMs : UInt64 := 10

def invalidSource {α : Type} (text : String) : Except PluginError α := .error (.invalidSource text)

def validatePluginPath (host : Host) (path : String) : Except PluginError String :=
  match host.canonicalize path with
  | .error e => invalidSource ("cannot canonicalize plugin path " ++ path ++ ": " ++ e)
  | .ok normalized =>
    match host.metadata normalized with
    | .error e => invalidSource ("cannot stat plugin path " ++ path ++ ": " ++ e)
    | .ok metadata =>
      if metadata.isFile then .ok normalized else invalidSource ("plugin path is not a file: " ++ path)

def validateHttpEndpoint (host : Host) (endpoint : String) : Except PluginError String :=
  match host.parseUrl endpoint with
  | .error e => invalidSource ("invalid plugin endpoint " ++ endpoint ++ ": " ++ e)
  | .ok parsed =>
    if parsed.scheme = "http" ∨ parsed.scheme = "https" then .ok parsed.text
    else invalidSource ("unsupported plugin endpoint scheme `" ++ parsed.scheme ++ "`, expected http/https")

def validateTimeout (timeoutMs : UInt64) : Except PluginError UInt64 :=
  if minPluginTimeoutMs ≤ timeoutMs ∧ timeoutMs ≤ maxPluginTimeoutMs then .ok timeoutMs
  else invalidSource ("plugin timeout must be in range [" ++ toString minPluginTimeoutMs.toNat ++ ", " ++
    toString maxPluginTimeoutMs.toNat ++ "] ms")

/-- `Path::file_name`: the last component, when it is a name. -/
def fileName (path : String) : Option (List Char) :=
  match ((path.toList.splitOn '/').filter fun c => c ≠ [] ∧ c ≠ ['.']).getLast? with
  | some ['.', '.'] | none => none
  | some c => some c

/-- `Path::extension`: what follows the last dot of the file name, unless that dot begins it. -/
def extension (path : String) : Option String :=
  (fileName path).bind fun name =>
    match name.reverse.dropWhile (· ≠ '.') with
    | [] | [_] => none
    | _ => some (String.ofList (name.reverse.takeWhile (· ≠ '.')).reverse)

def RustPlugin.validatePath (host : Host) (path : String) : Except PluginError Unit := do
  let validated ← validatePluginPath host path
  match host.metadata validated with
  | .error e => invalidSource ("rust plugin executable metadata invalid: " ++ e)
  | .ok metadata =>
    if metadata.mode &&& 0o111 = 0 then invalidSource ("rust plugin executable not executable: " ++ validated)
    else return ()

def WasmPlugin.validatePath (host : Host) (path : String) : Except PluginError Unit := do
  let validated ← validatePluginPath host path
  if (host.metadata validated).toOption.any FileMetadata.isFile = false then
    throw (.runtimeUnavailable ("wasm module missing: " ++ path))
  if extension validated ≠ some "wasm" then
    invalidSource ("wasm module must use .wasm extension: " ++ validated)

inductive PluginBackend
  | rust (metadata : PluginMetadata) (executable : String) (args : List String) (timeout : UInt64)
  | wasm (metadata : PluginMetadata) (module entrypoint : String) (timeout : UInt64)
  | http (metadata : PluginMetadata) (endpoint : String) (timeout : UInt64)

/-- Runtime kind for loaded plugin. -/
inductive PluginBackendKind
  | rust
  | wasm
  | http
  deriving DecidableEq

def PluginBackend.metadata : PluginBackend → PluginMetadata
  | .rust m _ _ _ | .wasm m _ _ _ | .http m _ _ => m

def PluginBackend.kind : PluginBackend → PluginBackendKind
  | .rust .. => .rust
  | .wasm .. => .wasm
  | .http .. => .http

def backendFromDefinition (host : Host) (definition : PluginDefinition) : Except PluginError PluginBackend :=
  match definition.source with
  | .rust executable args timeoutMs => do
    let executable ← validatePluginPath host executable
    RustPlugin.validatePath host executable
    let timeout ← validateTimeout timeoutMs
    return .rust definition.metadata executable args timeout
  | .wasm module entrypoint timeoutMs => do
    let module ← validatePluginPath host module
    WasmPlugin.validatePath host module
    let timeout ← validateTimeout timeoutMs
    return .wasm definition.metadata module entrypoint timeout
  | .http endpoint timeoutMs => do
    let endpoint ← validateHttpEndpoint host endpoint
    let timeout ← validateTimeout timeoutMs
    return .http definition.metadata endpoint timeout

/-! ## The manager -/

namespace Manager

/-- The registry, the dispatches that read it, and every backend ever built. A plugin is the index of
its backend. -/
structure Shared where
  plugins : AList (fun _ : String => Nat) := ∅
  readers : Nat := 0
  backends : List PluginBackend := []

/-- `PluginManager::list`. -/
def list (g : Shared) : List String := g.plugins.keys.mergeSort fun a b => decide (a ≤ b)

/-- `PluginManager::kinds`, as the entries of the map it returns. -/
def kinds (g : Shared) : List (String × PluginBackendKind) :=
  g.plugins.entries.filterMap fun e => g.backends[e.2]?.map fun backend => (e.1, backend.kind)

/-- `PluginManager::metadata`. -/
def metadata (g : Shared) (name : String) : Except PluginError PluginMetadata :=
  match (g.plugins.lookup name).bind fun plugin => g.backends[plugin]? with
  | some backend => .ok backend.metadata
  | none => .error (.notFound name)

inductive Op
  | load (definition : PluginDefinition) (host : Host)
  | unload (name : String)
  | dispatch (event : PluginEvent) (order : List (String × Nat))

/-- `loaded` and `unloaded` are a load and an unload that have returned; an unload that has removed a
plugin returns what the hook of the plugin did. -/
inductive Pc
  | loading (name : String) (plugin : Nat)
  | inserting (name : String) (plugin : Nat)
  | loaded (name : String) (plugin : Nat)
  | unloading (name : String) (plugin : Nat)
  | unloaded (name : String) (plugin : Nat) (r : Except PluginError Unit)
  | dispatching (event : PluginEvent) (rest : List (String × Nat)) (actions : List (String × PluginAction))
  | dispatched (r : Except PluginError (List (String × PluginAction)))
  | failed (e : PluginError)

/-- A hook of a plugin ends, or a call goes on by itself. -/
inductive Act
  | hook (r : Except PluginError (Option PluginAction))
  | go

/-- What a load does before the hook of its plugin. -/
def beginLoad (g : Shared) (definition : PluginDefinition) (host : Host) : Shared × Pc :=
  let name := definition.metadata.name
  if Text.isBlank name then (g, .failed .emptyName)
  else if definition.enabled = false then (g, .failed (.disabled name))
  else if name ∈ g.plugins then (g, .failed (.alreadyLoaded name))
  else match backendFromDefinition host definition with
    | .error e => (g, .failed e)
    | .ok backend => ({ g with backends := g.backends ++ [backend] }, .loading name g.backends.length)

/-- A load fails before its hook, or it has passed every check and goes on with the backend it has built. -/
theorem beginLoad_cases (g : Shared) (definition : PluginDefinition) (host : Host) :
    (∃ e, beginLoad g definition host = (g, .failed e)) ∨
    ∃ backend, Text.isBlank definition.metadata.name = false ∧ definition.enabled = true ∧
      definition.metadata.name ∉ g.plugins ∧ backendFromDefinition host definition = .ok backend ∧
      beginLoad g definition host =
        ({ g with backends := g.backends ++ [backend] }, .loading definition.metadata.name g.backends.length) := by
  unfold beginLoad
  dsimp only
  by_cases hblank : Text.isBlank definition.metadata.name = true
  · exact .inl ⟨_, if_pos hblank⟩
  rw [if_neg hblank]
  by_cases henabled : definition.enabled = false
  · exact .inl ⟨_, if_pos henabled⟩
  rw [if_neg henabled]
  by_cases hname : definition.metadata.name ∈ g.plugins
  · exact .inl ⟨_, if_pos hname⟩
  rw [if_neg hname]
  cases hb : backendFromDefinition host definition with
  | error e => exact .inl ⟨e, rfl⟩
  | ok backend =>
    exact .inr ⟨backend, by simpa using hblank, by simpa using henabled, hname, rfl, rfl⟩

/-- The write of a load: whatever stands under the name is replaced. -/
def insert (g : Shared) (name : String) (plugin : Nat) : Shared × Pc :=
  ({ g with plugins := g.plugins.insert name plugin }, .loaded name plugin)

/-- The write of an unload. -/
def remove (g : Shared) (name : String) : Shared × Pc :=
  match g.plugins.lookup name with
  | some plugin => ({ g with plugins := g.plugins.erase name }, .unloading name plugin)
  | none => (g, .failed (.notFound name))

/-- The actions of a dispatch after one more plugin. -/
def collect (actions : List (String × PluginAction)) (name : String) :
    Option PluginAction → List (String × PluginAction)
  | some action => actions ++ [(name, action)]
  | none => actions

/-- A dispatch returns and releases the registry. -/
def release (g : Shared) (r : Except PluginError (List (String × PluginAction))) : Shared × Pc :=
  ({ g with readers := g.readers - 1 }, .dispatched r)

def begin (g : Shared) : Op → Option (Shared × Pc)
  | .load definition host => some (beginLoad g definition host)
  | .unload name => if g.readers = 0 then some (remove g name) else none
  -- a hash map is read in any order
  | .dispatch event order =>
    if order.Perm (g.plugins.entries.map fun e => (e.1, e.2)) then
      some ({ g with readers := g.readers + 1 }, .dispatching event order [])
    else none

def act (g : Shared) : Pc → Act → Option (Shared × Pc)
  | .loading name plugin, .hook (.ok _) => some (g, .inserting name plugin)
  | .loading _ _, .hook (.error e) => some (g, .failed e)
  | .inserting name plugin, .go => if g.readers = 0 then some (insert g name plugin) else none
  | .unloading name plugin, .hook r => some (g, .unloaded name plugin (r.map fun _ => ()))
  | .dispatching event ((name, _) :: rest) actions, .hook (.ok action) =>
    some (g, .dispatching event rest (collect actions name action))
  -- the first plugin that fails ends the dispatch
  | .dispatching _ (_ :: _) _, .hook (.error e) => some (release g (.error e))
  | .dispatching _ [] actions, .go => some (release g (.ok actions))
  | _, _ => none

abbrev Sys := Threads.Sys Shared Pc

abbrev Event := Threads.Event Op Act Empty

def program : Threads.Program Shared Pc Op Act Empty := ⟨begin, act, fun _ e => nomatch e⟩

def step : Sys → Event → Option Sys := Threads.step program

/-- A new manager. -/
def init : Sys := ⟨{}, []⟩

end Manager

end NapCat.Plugin
