/-
What stands in the registry. Whatever the hooks did and however loads overlap, every entry is a
backend that a load of the run built from a definition it accepted, under the name of that
definition; and the three views of the registry have its names.
-/
import NapCat.Lib.Fallible
import NapCat.Plugin.Registry
import Mathlib.Data.List.Sort

namespace NapCat.Plugin

/-- The kind of backend that a source asks for. -/
def PluginSource.kind : PluginSource → PluginBackendKind
  | .rust .. => .rust
  | .wasm .. => .wasm
  | .http .. => .http

def PluginBackend.timeout : PluginBackend → UInt64
  | .rust _ _ _ t | .wasm _ _ _ t | .http _ _ t => t

def PluginBackend.endpoint : PluginBackend → Option String
  | .http _ endpoint _ => some endpoint
  | .rust .. | .wasm .. => none

/-- An endpoint is a URL of a scheme that HTTP plugins may have. -/
def HttpScheme (parseUrl : String → Except String Url) (endpoint : String) : Prop :=
  ∃ url, parseUrl endpoint = .ok url ∧ (url.scheme = "http" ∨ url.scheme = "https")

/-- `Url::to_string` renders a URL of the same scheme. -/
def SchemeKept (parseUrl : String → Except String Url) : Prop :=
  ∀ text url, parseUrl text = .ok url → ∃ url', parseUrl url.text = .ok url' ∧ url'.scheme = url.scheme

/-- The facts that a load checks before it builds a backend. -/
structure Sound (parseUrl : String → Except String Url) (definition : PluginDefinition) (backend : PluginBackend) :
    Prop where
  metadata : backend.metadata = definition.metadata
  kind : backend.kind = definition.source.kind
  timeout : minPluginTimeoutMs ≤ backend.timeout ∧ backend.timeout ≤ maxPluginTimeoutMs
  endpoint : ∀ endpoint, backend.endpoint = some endpoint → HttpScheme parseUrl endpoint

/-! ## Backends -/

theorem validateTimeout_ok {timeoutMs timeout : UInt64} (h : validateTimeout timeoutMs = .ok timeout) :
    minPluginTimeoutMs ≤ timeout ∧ timeout ≤ maxPluginTimeoutMs := by
  unfold validateTimeout invalidSource at h
  split at h
  · rename_i hrange
    cases h
    exact hrange
  · cases h

theorem validateHttpEndpoint_ok {host : Host} (hkept : SchemeKept host.parseUrl) {endpoint text : String}
    (h : validateHttpEndpoint host endpoint = .ok text) : HttpScheme host.parseUrl text := by
  unfold validateHttpEndpoint invalidSource at h
  split at h
  · cases h
  · rename_i parsed hparsed
    split at h
    · rename_i hscheme
      cases h
      obtain ⟨url, hurl, heq⟩ := hkept _ _ hparsed
      exact ⟨url, hurl, heq ▸ hscheme⟩
    · cases h

/-- Each branch checks the timeout, and the HTTP one the endpoint. -/
theorem backendFromDefinition_sound {host : Host} (hkept : SchemeKept host.parseUrl) {definition : PluginDefinition}
    {backend : PluginBackend} (h : backendFromDefinition host definition = .ok backend) :
    Sound host.parseUrl definition backend := by
  unfold backendFromDefinition at h
  split at h
  · rename_i executable args timeoutMs hsource
    obtain ⟨path, -, h⟩ := Fallible.bind_ok h
    obtain ⟨-, -, h⟩ := Fallible.bind_ok h
    obtain ⟨timeout, ht, h⟩ := Fallible.bind_ok h
    cases h
    exact ⟨rfl, by rw [hsource]; rfl, validateTimeout_ok ht, fun _ he => (by cases he)⟩
  · rename_i module entrypoint timeoutMs hsource
    obtain ⟨path, -, h⟩ := Fallible.bind_ok h
    obtain ⟨-, -, h⟩ := Fallible.bind_ok h
    obtain ⟨timeout, ht, h⟩ := Fallible.bind_ok h
    cases h
    exact ⟨rfl, by rw [hsource]; rfl, validateTimeout_ok ht, fun _ he => (by cases he)⟩
  · rename_i endpoint timeoutMs hsource
    obtain ⟨text, he, h⟩ := Fallible.bind_ok h
    obtain ⟨timeout, ht, h⟩ := Fallible.bind_ok h
    cases h
    refine ⟨rfl, by rw [hsource]; rfl, validateTimeout_ok ht, fun _ htext => ?_⟩
    cases htext
    exact validateHttpEndpoint_ok hkept he

namespace Manager

open Threads

/-- A plugin whose backend a load of the run built from its definition, under the definition's name. -/
structure Built (parseUrl : String → Except String Url) (es : List Event) (g : Shared) (name : String) (plugin : Nat) :
    Prop where
  notBlank : Text.isBlank name = false
  backend : ∃ definition host backend, .start (.load definition host) ∈ es ∧
    backendFromDefinition host definition = .ok backend ∧ g.backends[plugin]? = some backend ∧
    definition.metadata.name = name ∧ Sound parseUrl definition backend

/-- The registry and its views, after a run of the events `es`. -/
structure Contents (parseUrl : String → Except String Url) (es : List Event) (g : Shared) : Prop where
  entries : ∀ name plugin, g.plugins.lookup name = some plugin → Built parseUrl es g name plugin
  list : (list g).Pairwise (· < ·) ∧ ∀ name, name ∈ list g ↔ name ∈ g.plugins
  kinds : (kinds g).map Prod.fst = g.plugins.keys
  metadata : ∀ name, (∃ m, metadata g name = .ok m ∧ m.name = name) ↔ name ∈ g.plugins
  /-- outside the registry `metadata` has nothing to return -/
  notFound : ∀ name, Manager.metadata g name = .error (.notFound name) ↔ name ∉ g.plugins

/-- The plugin that a load in progress is going to write to the registry. -/
def Pc.pending : Pc → Option (String × Nat)
  | .loading name plugin | .inserting name plugin => some (name, plugin)
  | _ => none

structure AllBuilt (parseUrl : String → Except String Url) (es : List Event) (s : Sys) : Prop where
  entries : ∀ name plugin, s.shared.plugins.lookup name = some plugin → Built parseUrl es s.shared name plugin
  pending : ∀ c ∈ s.calls, ∀ name plugin, c.pending = some (name, plugin) → Built parseUrl es s.shared name plugin

section

variable {parseUrl : String → Except String Url} {es : List Event} {s : Sys}

/-- Backends are only added. -/
theorem Built.mono {g g' : Shared} {name : String} {plugin : Nat} (h : Built parseUrl es g name plugin)
    (hb : g.backends <+: g'.backends) : Built parseUrl es g' name plugin := by
  obtain ⟨definition, host, backend, hmem, hbuilt, hget, hname, hsound⟩ := h.backend
  obtain ⟨t, ht⟩ := hb
  refine ⟨h.notBlank, definition, host, backend, hmem, hbuilt, ?_, hname, hsound⟩
  rw [← ht, List.getElem?_append_left (List.getElem?_eq_some_iff.1 hget).1]
  exact hget

/-- A call that joins with nothing pending. -/
theorem AllBuilt.append {g : Shared} {c : Pc} (h : AllBuilt parseUrl es s) (hb : g.backends = s.shared.backends)
    (hentries : ∀ name plugin, g.plugins.lookup name = some plugin → s.shared.plugins.lookup name = some plugin)
    (hc : c.pending = none) : AllBuilt parseUrl es ⟨g, s.calls ++ [c]⟩ := by
  have hmono : s.shared.backends <+: g.backends := hb ▸ List.prefix_rfl
  constructor
  · intro name plugin hlook
    exact (h.entries name plugin (hentries name plugin hlook)).mono hmono
  · refine forall_append (fun d hd name plugin hp => (h.pending d hd name plugin hp).mono hmono) ?_
    intro name plugin hp
    rw [hc] at hp
    cases hp

/-- A call that goes on with no more than it had pending, and leaves the registry alone. -/
theorem AllBuilt.set {g : Shared} {i : Nat} {c d : Pc} (h : AllBuilt parseUrl es s) (hi : s.calls[i]? = some c)
    (hb : g.backends = s.shared.backends) (hpl : g.plugins = s.shared.plugins)
    (hd : d.pending = none ∨ d.pending = c.pending) : AllBuilt parseUrl es ⟨g, s.calls.set i d⟩ := by
  have hmono : s.shared.backends <+: g.backends := hb ▸ List.prefix_rfl
  constructor
  · intro name plugin hlook
    have hlook : g.plugins.lookup name = some plugin := hlook
    rw [hpl] at hlook
    exact (h.entries name plugin hlook).mono hmono
  · refine forall_set (fun d hd name plugin hp => (h.pending d hd name plugin hp).mono hmono) ?_
    intro name plugin hp
    rcases hd with hnone | hsame
    · rw [hnone] at hp
      cases hp
    · exact (h.pending c (mem_of_get hi) name plugin (hsame ▸ hp)).mono hmono

theorem AllBuilt.beginLoad {definition : PluginDefinition} {host : Host} (h : AllBuilt parseUrl es s)
    (hkept : SchemeKept host.parseUrl) (hparse : host.parseUrl = parseUrl)
    (hmem : .start (.load definition host) ∈ es) :
    AllBuilt parseUrl es
      ⟨(beginLoad s.shared definition host).1, s.calls ++ [(beginLoad s.shared definition host).2]⟩ := by
  obtain ⟨e, hb⟩ | ⟨backend, hblank, -, -, hbackend, hb⟩ := beginLoad_cases s.shared definition host <;> rw [hb]
  · exact h.append rfl (fun _ _ => id) rfl
  · have hmono : s.shared.backends <+: s.shared.backends ++ [backend] := List.prefix_append ..
    refine ⟨fun name plugin hlook => (h.entries name plugin hlook).mono hmono,
      forall_append (fun c hc name plugin hp => (h.pending c hc name plugin hp).mono hmono) ?_⟩
    rintro name plugin ⟨⟩
    refine ⟨hblank, definition, host, backend, hmem, hbackend, ?_, rfl, ?_⟩
    · exact List.getElem?_concat_length
    · exact hparse ▸ backendFromDefinition_sound hkept hbackend

theorem AllBuilt.remove (h : AllBuilt parseUrl es s) (name : String) :
    AllBuilt parseUrl es ⟨(remove s.shared name).1, s.calls ++ [(remove s.shared name).2]⟩ := by
  unfold Manager.remove
  split
  · refine h.append rfl (fun name' plugin hlook => ?_) rfl
    by_cases hname : name' = name
    · subst hname
      rw [AList.lookup_erase] at hlook
      cases hlook
    · rwa [AList.lookup_erase_ne hname] at hlook
  · exact h.append rfl (fun _ _ => id) rfl

theorem AllBuilt.insert {i : Nat} {name : String} {plugin : Nat} (h : AllBuilt parseUrl es s)
    (hi : s.calls[i]? = some (.inserting name plugin)) :
    AllBuilt parseUrl es ⟨(insert s.shared name plugin).1, s.calls.set i (insert s.shared name plugin).2⟩ := by
  constructor
  · intro name' plugin' hlook
    by_cases hname : name' = name
    · subst hname
      obtain rfl : plugin = plugin' := Option.some.inj ((AList.lookup_insert _).symm.trans hlook)
      exact (h.pending _ (mem_of_get hi) name' plugin rfl).mono List.prefix_rfl
    · have hlook : (s.shared.plugins.insert name plugin).lookup name' = some plugin' := hlook
      rw [AList.lookup_insert_ne hname] at hlook
      exact (h.entries name' plugin' hlook).mono List.prefix_rfl
  · refine forall_set (fun c hc name' plugin' hp => (h.pending c hc name' plugin' hp).mono List.prefix_rfl) ?_
    intro name' plugin' hp
    cases hp

theorem AllBuilt.act {i : Nat} {a : Act} {c d : Pc} {g : Shared} (h : AllBuilt parseUrl es s)
    (hi : s.calls[i]? = some c) (hs : act s.shared c a = some (g, d)) : AllBuilt parseUrl es ⟨g, s.calls.set i d⟩ := by
  unfold Manager.act at hs
  split at hs
  case h_3 =>
    obtain ⟨-, hs⟩ := Option.ite_none_right_eq_some.1 hs
    cases hs
    exact h.insert hi
  case h_1 =>
    cases hs
    exact h.set hi rfl rfl (.inr rfl)
  case h_8 => cases hs
  all_goals
    cases hs
    exact h.set hi rfl rfl (.inl rfl)

theorem allBuilt_step (hkept : SchemeKept parseUrl)
    (hparse : ∀ definition host, .start (.load definition host) ∈ es → host.parseUrl = parseUrl)
    (s : Sys) (e : Event) (s' : Sys) (h : AllBuilt parseUrl es s) (he : e ∈ es) (hs : step s e = some s') :
    AllBuilt parseUrl es s' := by
  cases e with
  | start op =>
    obtain ⟨g, c, hb, rfl⟩ := step_start hs
    cases op with
    | load definition host =>
      obtain ⟨rfl, rfl⟩ := Prod.ext_iff.1 (Option.some.inj hb)
      have hhost := hparse definition host he
      exact h.beginLoad (hhost ▸ hkept) hhost he
    | unload name =>
      obtain ⟨-, hb⟩ := Option.ite_none_right_eq_some.1 hb
      obtain ⟨rfl, rfl⟩ := Prod.ext_iff.1 (Option.some.inj hb)
      exact h.remove name
    | dispatch event order =>
      obtain ⟨-, hb⟩ := Option.ite_none_right_eq_some.1 hb
      cases hb
      exact h.append rfl (fun _ _ => id) rfl
  | act i a =>
    obtain ⟨c, g, d, hi, ha, rfl⟩ := step_act hs
    exact h.act hi ha
  | env e => cases e

end

/-! ## The views of the registry -/

theorem mem_list (g : Shared) (name : String) : name ∈ list g ↔ name ∈ g.plugins := by
  rw [list, List.mem_mergeSort, AList.mem_keys]

theorem list_ascending (g : Shared) : (list g).Pairwise (· < ·) := by
  have hsorted : (list g).Pairwise (· ≤ ·) := by
    simpa [list] using List.pairwise_mergeSort' (· ≤ ·) g.plugins.keys
  have hnodup : (list g).Nodup := (List.mergeSort_perm ..).nodup_iff.2 g.plugins.keys_nodup
  exact (hsorted.and hnodup).imp fun h => lt_of_le_of_ne h.1 h.2

/-- Where every entry has a backend, the kinds have the names of the registry. -/
theorem kinds_names {g : Shared} (h : ∀ name plugin, g.plugins.lookup name = some plugin →
    ∃ backend, g.backends[plugin]? = some backend) : (kinds g).map Prod.fst = g.plugins.keys := by
  have hentry : ∀ e ∈ g.plugins.entries, ∃ backend, g.backends[e.2]? = some backend := by
    intro e he
    exact h e.1 e.2 (AList.mem_lookup_iff.2 he)
  show _ = g.plugins.entries.map Sigma.fst
  rw [kinds, List.map_filterMap]
  generalize g.plugins.entries = entries at hentry
  induction entries with
  | nil => rfl
  | cons e entries ih =>
    obtain ⟨⟨backend, hbackend⟩, hrest⟩ := List.forall_mem_cons.1 hentry
    rw [List.filterMap_cons, hbackend, List.map_cons, ← ih hrest]
    rfl

/-- Where the entry of a name has its backend, `metadata` gives the metadata of that backend. -/
theorem AllBuilt.metadata {parseUrl : String → Except String Url} {es : List Event} {s : Sys}
    (h : AllBuilt parseUrl es s) {name : String} (hname : name ∈ s.shared.plugins) :
    ∃ m, metadata s.shared name = .ok m ∧ m.name = name := by
  obtain ⟨plugin, hlook⟩ := Option.isSome_iff_exists.1 (AList.lookup_isSome.2 hname)
  obtain ⟨definition, _, backend, -, -, hget, hname, hsound⟩ := (h.entries name plugin hlook).backend
  unfold Manager.metadata
  rw [hlook, Option.bind_some, hget]
  exact ⟨_, rfl, by rw [hsound.metadata, hname]⟩

theorem metadata_notFound {g : Shared} {name : String} (hname : name ∉ g.plugins) :
    metadata g name = .error (.notFound name) := by
  have hlook : g.plugins.lookup name = none := AList.lookup_eq_none.2 hname
  unfold Manager.metadata
  rw [hlook, Option.bind_none]

theorem AllBuilt.contents {parseUrl : String → Except String Url} {es : List Event} {s : Sys}
    (h : AllBuilt parseUrl es s) : Contents parseUrl es s.shared where
  entries := h.entries
  list := ⟨list_ascending _, mem_list _⟩
  kinds := by
    refine kinds_names fun name plugin hlook => ?_
    obtain ⟨_, _, backend, -, -, hget, -⟩ := (h.entries name plugin hlook).backend
    exact ⟨backend, hget⟩
  metadata name := by
    refine ⟨fun ⟨m, hm, _⟩ => ?_, h.metadata⟩
    by_contra hname
    rw [metadata_notFound hname] at hm
    cases hm
  notFound name := by
    refine ⟨fun hn hname => ?_, metadata_notFound⟩
    obtain ⟨m, hm, -⟩ := h.metadata hname
    rw [hn] at hm
    cases hm

/-- After every run, the registry holds backends that the loads of the run built, and its views have
its names. -/
theorem registry_contents {parseUrl : String → Except String Url} (hkept : SchemeKept parseUrl) {es : List Event}
    (hparse : ∀ definition host, .start (.load definition host) ∈ es → host.parseUrl = parseUrl) {s : Sys}
    (hs : Run.exec step init es = some s) : Contents parseUrl es s.shared := by
  have hinit : AllBuilt parseUrl es init := ⟨fun _ _ hlook => (by cases hlook), fun _ hc => (by cases hc)⟩
  exact (Run.exec_inv (allBuilt_step hkept hparse) es _ _ hinit
    (Run.along_of_forall es _ fun _ he => he) hs).contents

def httpDefinition : PluginDefinition :=
  ⟨⟨"web", "0.1.0", none, none⟩, .http "http://localhost/" 200, true⟩

/-- Two loads whose hooks overlap. -/
def twoLoads : List Event :=
  [.start (.load sampleDefinition sampleHost), .start (.load httpDefinition sampleHost), .act 1 (.hook (.ok none)),
    .act 0 (.hook (.ok none)), .act 1 .go, .act 0 .go]

theorem registry_contents_twoLoads : ∃ s, Run.exec step init twoLoads = some s ∧
    Contents sampleHost.parseUrl twoLoads s.shared := by
  have h : (Run.exec step init twoLoads).isSome := by decide +kernel
  obtain ⟨s, hs⟩ := Option.isSome_iff_exists.1 h
  have hkept : SchemeKept sampleHost.parseUrl := by
    rintro text url ⟨⟩
    exact ⟨_, rfl, rfl⟩
  refine ⟨s, hs, registry_contents hkept (fun definition host hmem => ?_) hs⟩
  simp only [twoLoads, List.mem_cons, Threads.Event.start.injEq, Op.load.injEq, reduceCtorEq, List.not_mem_nil,
    or_false] at hmem
  rcases hmem with ⟨-, rfl⟩ | ⟨-, rfl⟩ <;> rfl

end Manager

end NapCat.Plugin
