/-
`HttpPlugin` of `napcat-plugin`: a plugin behind an HTTP endpoint. Load, unload and event each post the
event to a target that is resolved against the endpoint, which replaces what follows its last `/`.
-/
import NapCat.Plugin.RunPlugin

namespace NapCat.Plugin

/-! ## URLs -/

/-- A parsed URL: scheme, authority, path, query and fragment. An http path starts with `/`. -/
structure ParsedUrl where
  scheme : String
  authority : String
  path : String
  query : Option String := none
  fragment : Option String := none
  rooted : scheme = "http" ∨ scheme = "https" → Text.startsWith path "/" = true
  deriving DecidableEq

def ParsedUrl.IsHttp (u : ParsedUrl) : Prop := u.scheme = "http" ∨ u.scheme = "https"

/-- A path up to its last `/`. -/
def directory (path : String) : String := String.ofList (path.toList.rdropWhile (· ≠ '/'))

theorem directory_rooted {path : String} (h : Text.startsWith path "/" = true) (ref : String) :
    Text.startsWith (directory path ++ ref) "/" = true := by
  obtain ⟨rest, rfl⟩ := Text.startsWith_iff.1 h
  refine Text.startsWith_iff.2 ⟨String.ofList (rest.toList.rdropWhile (· ≠ '/')) ++ ref, ?_⟩
  have hd : directory ("/" ++ rest) = "/" ++ String.ofList (rest.toList.rdropWhile (· ≠ '/')) := by
    rw [directory, String.toList_append, Text.rdropWhile_append_of_last (by simp), String.ofList_append,
      String.ofList_toList]
  rw [hd, String.append_assoc]

/-- A relative reference of one segment, resolved. -/
def ParsedUrl.resolve (base : ParsedUrl) (segment : String) : ParsedUrl where
  scheme := base.scheme
  authority := base.authority
  path := directory base.path ++ segment
  rooted h := directory_rooted (base.rooted h) segment

@[simp] theorem ParsedUrl.resolve_scheme (base : ParsedUrl) (segment : String) :
    (base.resolve segment).scheme = base.scheme := rfl

@[simp] theorem ParsedUrl.resolve_authority (base : ParsedUrl) (segment : String) :
    (base.resolve segment).authority = base.authority := rfl

@[simp] theorem ParsedUrl.resolve_path (base : ParsedUrl) (segment : String) :
    (base.resolve segment).path = directory base.path ++ segment := rfl

/-- The functions of the url crate that are used. -/
structure UrlCrate where
  parse : String → Except String ParsedUrl
  asStr : ParsedUrl → String
  join : ParsedUrl → String → Except String ParsedUrl

/-- What is documented of them: a URL that was parsed is parsed again from its text, and a segment of letters is
joined as a relative reference. -/
structure UrlCrate.Documented (url : UrlCrate) : Prop where
  reparse : ∀ s u, url.parse s = .ok u → url.parse (url.asStr u) = .ok u
  join : ∀ base segment, base.IsHttp → segment ≠ "" → (∀ c ∈ segment.toList, c.isAlpha = true) →
    url.join base segment = .ok (base.resolve segment)

/-- The host of a manager, with the URL parser of the crate. -/
def Host.withUrls (host : Host) (url : UrlCrate) : Host :=
  { host with parseUrl := fun s => (url.parse s).map fun u => ⟨u.scheme, url.asStr u⟩ }

/-! ## The plugin -/

structure HttpPlugin where
  metadata : PluginMetadata
  endpoint : String
  timeout : UInt64

/-- What a request posts, and where. -/
structure PostRequest where
  target : ParsedUrl
  timeout : UInt64
  body : List UInt8

/-- What comes of a post: no response, or one with its status and its body, if that can be read. -/
inductive PostOutcome
  | failed (error : String)
  | response (success : Bool) (status : String) (body : Except String (List UInt8))

/-- The HTTP client: whether one can be built, and what its posts come to. -/
structure HttpClient where
  build : UInt64 → Except String Unit
  send : PostRequest → PostOutcome

/-- The three paths a plugin is asked at. -/
inductive Phase
  | load
  | unload
  | event
  deriving DecidableEq

def Phase.path : Phase → String
  | .load => "load"
  | .unload => "unload"
  | .event => "event"

namespace HttpPlugin

/-- `HttpPluginRequest`. -/
def requestBody (event : PluginEvent) : List UInt8 := Text.utf8 (Json.obj [("event", event.toJson)]).toText

/-- The request, up to where it is sent. -/
def prepare (url : UrlCrate) (plugin : HttpPlugin) (path : String) (event : PluginEvent) :
    Except PluginError PostRequest := do
  let base ← (url.parse plugin.endpoint).mapError fun e =>
    .invalidSource ("invalid plugin endpoint " ++ plugin.endpoint ++ ": " ++ e)
  let target ← (url.join base path).mapError fun e => .transport ("http plugin endpoint join failed: " ++ e)
  return { target, timeout := plugin.timeout, body := requestBody event }

/-- What is made of a response. -/
def finish : PostOutcome → Except PluginError (Option PluginAction)
  | .failed e => .error (.transport e)
  | .response false status _ => .error (.transport ("http plugin status " ++ status))
  | .response true _ (.error e) => .error (.transport e)
  | .response true _ (.ok body) => PluginAction.fromStdoutBytes body

def request (url : UrlCrate) (client : HttpClient) (plugin : HttpPlugin) (path : String) (event : PluginEvent) :
    Except PluginError (Option PluginAction) := do
  let r ← plugin.prepare url path event
  (client.build plugin.timeout).mapError .transport
  finish (client.send r)

def load (url : UrlCrate) (client : HttpClient) (plugin : HttpPlugin) : Except PluginError Unit := do
  let _ ← plugin.request url client Phase.load.path .load

def unload (url : UrlCrate) (client : HttpClient) (plugin : HttpPlugin) : Except PluginError Unit := do
  let _ ← plugin.request url client Phase.unload.path .unload

def dispatch (url : UrlCrate) (client : HttpClient) (plugin : HttpPlugin) (event : PluginEvent) :
    Except PluginError (Option PluginAction) :=
  plugin.request url client Phase.event.path event

/-! ## Where the requests go -/

/-- A path without a `/` at its end. -/
def withoutSlash (path : String) : String :=
  String.ofList (if path.toList.getLast? = some '/' then path.toList.dropLast else path.toList)

def EndsInSlash (path : String) : Prop := path.toList.getLast? = some '/'

theorem phase_letters (phase : Phase) : phase.path ≠ "" ∧ ∀ c ∈ phase.path.toList, c.isAlpha = true := by
  cases phase <;> exact ⟨by decide, List.all_eq_true.1 (by decide)⟩

theorem directory_of_endsInSlash {path : String} (h : EndsInSlash path) : directory path = path := by
  obtain ⟨front, hf⟩ := List.getLast?_eq_some_iff.1 h
  rw [directory, hf, List.rdropWhile_concat_neg _ _ _ (by simp), ← hf, String.ofList_toList]

theorem withoutSlash_append {path : String} (h : EndsInSlash path) : withoutSlash path ++ "/" = path := by
  obtain ⟨front, hf⟩ := List.getLast?_eq_some_iff.1 h
  have hd : withoutSlash path = String.ofList path.toList.dropLast := congrArg String.ofList (if_pos h)
  rw [hd, ← String.toList_inj, hf, List.dropLast_concat]
  simp

theorem withoutSlash_of_not {path : String} (h : ¬ EndsInSlash path) : withoutSlash path = path :=
  (congrArg String.ofList (if_neg h)).trans String.ofList_toList

/-- The directory of a path is the path itself, plus a `/`, only where the `/` is there. -/
theorem directory_append_iff {path segment : String} :
    directory path ++ segment = withoutSlash path ++ "/" ++ segment ↔ EndsInSlash path := by
  rw [String.append_left_inj]
  constructor
  · intro h
    by_contra hn
    have hle := (List.rdropWhile_prefix (· ≠ '/') (l := path.toList)).length_le
    rw [withoutSlash_of_not hn, ← String.toList_inj, directory, String.toList_ofList, String.toList_append] at h
    rw [h, List.length_append] at hle
    exact absurd hle (by simp)
  · intro h
    rw [directory_of_endsInSlash h, withoutSlash_append h]

/-- Two paths that end in `/` and lead to one target are the same path. -/
theorem eq_of_directory_append {p q a b : String} (hp : EndsInSlash p) (hq : EndsInSlash q)
    (ha : '/' ∉ a.toList) (hb : '/' ∉ b.toList) (h : directory p ++ a = directory q ++ b) : p = q := by
  have hdir : ∀ {d s : String}, EndsInSlash d → '/' ∉ s.toList → directory (d ++ s) = d := by
    intro d s hd hs
    have hpos : ∀ c ∈ s.toList, decide (c ≠ '/') = true := fun c hc => by
      rw [decide_eq_true_iff]
      rintro rfl
      exact hs hc
    rw [directory, String.toList_append, Text.rdropWhile_append_of_pos hpos]
    exact directory_of_endsInSlash hd
  rw [directory_of_endsInSlash hp, directory_of_endsInSlash hq] at h
  rw [← hdir hp ha, h, hdir hq hb]

/-- What is validated is the text of an http URL, which is parsed again at each request. -/
theorem validateHttpEndpoint_ok {url : UrlCrate} (hdoc : url.Documented) {host : Host} {raw endpoint : String}
    (h : validateHttpEndpoint (host.withUrls url) raw = .ok endpoint) :
    ∃ u, url.parse endpoint = .ok u ∧ u.IsHttp := by
  unfold validateHttpEndpoint at h
  cases hp : url.parse raw with
  | error e => simp [Host.withUrls, hp, Except.map, invalidSource] at h
  | ok u =>
    simp only [Host.withUrls, hp, Except.map] at h
    split at h
    · rename_i hs
      cases h
      exact ⟨u, hdoc.reparse raw u hp, hs⟩
    · cases h

/-- A phase is posted to the endpoint's directory. -/
theorem prepare_eq {url : UrlCrate} (hdoc : url.Documented) {plugin : HttpPlugin} {u : ParsedUrl}
    (hp : url.parse plugin.endpoint = .ok u) (hu : u.IsHttp) (phase : Phase) (event : PluginEvent) :
    plugin.prepare url phase.path event = .ok ⟨u.resolve phase.path, plugin.timeout, requestBody event⟩ := by
  have hj := hdoc.join u phase.path hu (phase_letters phase).1 (phase_letters phase).2
  rw [prepare, hp]
  show ((url.join u phase.path).mapError _ >>= _) = _
  rw [hj]
  rfl

/-- The requests of every phase go to the endpoint's origin, and to its path with the phase behind it. -/
def StaysUnder (url : UrlCrate) (plugin : HttpPlugin) (u : ParsedUrl) : Prop :=
  ∀ (phase : Phase) (event : PluginEvent), ∃ r, plugin.prepare url phase.path event = .ok r ∧
    r.target.scheme = u.scheme ∧ r.target.authority = u.authority ∧
      r.target.path = withoutSlash u.path ++ "/" ++ phase.path

/-- Two requests of the plugins go to one target. -/
def ShareTarget (url : UrlCrate) (p q : HttpPlugin) : Prop :=
  ∃ (phase phase' : Phase) (event event' : PluginEvent) (r r' : PostRequest),
    p.prepare url phase.path event = .ok r ∧ q.prepare url phase'.path event' = .ok r' ∧ r.target = r'.target

/-- The endpoints differ in origin, or in path up to a `/` at the end. -/
def Apart (u v : ParsedUrl) : Prop :=
  u.scheme ≠ v.scheme ∨ u.authority ≠ v.authority ∨ withoutSlash u.path ≠ withoutSlash v.path

theorem staysUnder_iff {url : UrlCrate} (hdoc : url.Documented) {plugin : HttpPlugin} {u : ParsedUrl}
    (hp : url.parse plugin.endpoint = .ok u) (hu : u.IsHttp) :
    StaysUnder url plugin u ↔ EndsInSlash u.path := by
  constructor
  · intro h
    obtain ⟨r, hr, -, -, hpath⟩ := h .load .load
    rw [prepare_eq hdoc hp hu] at hr
    cases hr
    rw [ParsedUrl.resolve_path] at hpath
    exact directory_append_iff.1 hpath
  · intro h phase event
    refine ⟨_, prepare_eq hdoc hp hu phase event, u.resolve_scheme _, u.resolve_authority _, ?_⟩
    rw [ParsedUrl.resolve_path]
    exact directory_append_iff.2 h

/-- Where both endpoints end in `/`, one target is one endpoint. -/
theorem not_shareTarget {url : UrlCrate} (hdoc : url.Documented) {p q : HttpPlugin} {u v : ParsedUrl}
    (hp : url.parse p.endpoint = .ok u) (hu : u.IsHttp) (hq : url.parse q.endpoint = .ok v) (hv : v.IsHttp)
    (hus : EndsInSlash u.path) (hvs : EndsInSlash v.path) (hapart : Apart u v) : ¬ ShareTarget url p q := by
  rintro ⟨phase, phase', event, event', r, r', hr, hr', htarget⟩
  rw [prepare_eq hdoc hp hu] at hr
  rw [prepare_eq hdoc hq hv] at hr'
  cases hr
  cases hr'
  have hscheme := congrArg ParsedUrl.scheme htarget
  have hauthority := congrArg ParsedUrl.authority htarget
  have hpath := congrArg ParsedUrl.path htarget
  rw [ParsedUrl.resolve_scheme, ParsedUrl.resolve_scheme] at hscheme
  rw [ParsedUrl.resolve_authority, ParsedUrl.resolve_authority] at hauthority
  rw [ParsedUrl.resolve_path, ParsedUrl.resolve_path] at hpath
  have hsame : u.path = v.path :=
    eq_of_directory_append hus hvs (by cases phase <;> decide) (by cases phase' <;> decide) hpath
  rcases hapart with h | h | h
  · exact h hscheme
  · exact h hauthority
  · exact h (congrArg withoutSlash hsame)

/-- The requests of two plugins stay under their endpoints, and apart if these are, exactly where the paths end
in `/`. -/
theorem stays_under_iff (url : UrlCrate) (hdoc : url.Documented) (host : Host) (p q : HttpPlugin) (raw raw' : String)
    (hp : validateHttpEndpoint (host.withUrls url) raw = .ok p.endpoint)
    (hq : validateHttpEndpoint (host.withUrls url) raw' = .ok q.endpoint) :
    ∃ u v, url.parse p.endpoint = .ok u ∧ url.parse q.endpoint = .ok v ∧
      ((StaysUnder url p u ∧ StaysUnder url q v ∧ (Apart u v → ¬ ShareTarget url p q)) ↔
        EndsInSlash u.path ∧ EndsInSlash v.path) := by
  obtain ⟨u, hpu, hu⟩ := validateHttpEndpoint_ok hdoc hp
  obtain ⟨v, hqv, hv⟩ := validateHttpEndpoint_ok hdoc hq
  refine ⟨u, v, hpu, hqv, ?_⟩
  rw [staysUnder_iff hdoc hpu hu, staysUnder_iff hdoc hqv hv]
  constructor
  · rintro ⟨h, h', -⟩
    exact ⟨h, h'⟩
  · rintro ⟨h, h'⟩
    exact ⟨h, h', not_shareTarget hdoc hpu hu hqv hv h h'⟩

/-- The url crate on the URLs of two plugins of one host. -/
def hostUrl (path : String) (h : Text.startsWith path "/" = true) : ParsedUrl where
  scheme := "http"
  authority := "h"
  path := path
  rooted _ := h

def urlsOf (path path' : String) (h : Text.startsWith path "/" = true) (h' : Text.startsWith path' "/" = true) :
    UrlCrate where
  parse s :=
    if s = "http://h" ++ path then .ok (hostUrl path h)
    else if s = "http://h" ++ path' then .ok (hostUrl path' h')
    else .error "relative URL without a base"
  asStr u := "http://h" ++ u.path
  join base segment := .ok (base.resolve segment)

theorem urlsOf_documented {path path' : String} (h : Text.startsWith path "/" = true)
    (h' : Text.startsWith path' "/" = true) : (urlsOf path path' h h').Documented where
  reparse s u hs := by
    have hu : u = hostUrl path h ∨ u = hostUrl path' h' := by
      unfold urlsOf at hs
      dsimp only at hs
      split at hs
      · cases hs; exact .inl rfl
      · split at hs
        · cases hs; exact .inr rfl
        · cases hs
    show (if "http://h" ++ u.path = "http://h" ++ path then _ else _) = _
    rcases hu with rfl | rfl
    · exact if_pos rfl
    · split
      · rename_i he
        have hpath : path' = path := (String.append_right_inj "http://h").1 he
        subst hpath
        rfl
      · exact if_pos rfl
  join base segment _ _ _ := rfl

def noFiles : Host := ⟨fun _ => .error "not found", fun _ => .error "not found", fun _ => .error "not parsed"⟩

def pluginAt (endpoint : String) : HttpPlugin := ⟨⟨"p", "0.1.0", none, none⟩, endpoint, 200⟩

theorem stays_under_slashed :
    ∃ u v, (urlsOf "/a/" "/b/" (by decide) (by decide)).parse "http://h/a/" = .ok u ∧
      (urlsOf "/a/" "/b/" (by decide) (by decide)).parse "http://h/b/" = .ok v ∧
      ((StaysUnder (urlsOf "/a/" "/b/" (by decide) (by decide)) (pluginAt "http://h/a/") u ∧
        StaysUnder (urlsOf "/a/" "/b/" (by decide) (by decide)) (pluginAt "http://h/b/") v ∧
        (Apart u v → ¬ ShareTarget (urlsOf "/a/" "/b/" (by decide) (by decide)) (pluginAt "http://h/a/")
          (pluginAt "http://h/b/"))) ↔ EndsInSlash u.path ∧ EndsInSlash v.path) :=
  stays_under_iff _ (urlsOf_documented _ _) noFiles (pluginAt "http://h/a/") (pluginAt "http://h/b/") "http://h/a/"
    "http://h/b/" (by decide +kernel) (by decide +kernel)

theorem plugins_share_target : ¬ ∀ (url : UrlCrate), url.Documented → ∀ (host : Host) (p q : HttpPlugin)
    (raw raw' : String), validateHttpEndpoint (host.withUrls url) raw = .ok p.endpoint →
      validateHttpEndpoint (host.withUrls url) raw' = .ok q.endpoint →
        ∃ u v, url.parse p.endpoint = .ok u ∧ url.parse q.endpoint = .ok v ∧
          StaysUnder url p u ∧ StaysUnder url q v ∧ (Apart u v → ¬ ShareTarget url p q) := by
  intro h
  obtain ⟨u, v, hu, hv, -, -, hshare⟩ := h (urlsOf "/a" "/b" (by decide) (by decide)) (urlsOf_documented _ _) noFiles
    (pluginAt "http://h/a") (pluginAt "http://h/b") "http://h/a" "http://h/b" (by decide +kernel) (by decide +kernel)
  cases hu
  cases hv
  exact hshare (.inr (.inr (by decide))) ⟨.load, .load, .load, .load, _, _, rfl, rfl, by decide +kernel⟩

end HttpPlugin

end NapCat.Plugin
