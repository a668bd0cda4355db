/-
Where `SqliteStore` keeps its database: the path `resolve_sqlite_path` makes of a database path or URL,
the URL `storage_url_from_path` makes of it, and the database that the URL is read as.
-/
import NapCat.Storage.Basic
import NapCat.Lib.PosixPath
import NapCat.Lib.Percent
import NapCat.Lib.Utf8

namespace NapCat.Storage

open PosixPath

/-! ## The path -/

/-- What is asked of the operating system. A directory is known by its components. -/
structure Host where
  currentDir : Except String AbsPath
  createDirAll : Components → Except String Unit

def memoryPath : Path := Text.utf8 ":memory:"

/-- The path without the scheme of a URL. -/
def normalized (raw : String) : String :=
  if raw = "sqlite::memory:" then ":memory:"
  else if Text.startsWith raw "sqlite://" then
    let path := Text.trimStartText "sqlite://" raw
    (Text.stripPrefix "/" path).getD path
  else raw

def Host.absolute (host : Host) (name : Path) : Except StorageError Path :=
  if isAbsolute name then .ok name
  else match host.currentDir with
    | .ok cwd => .ok (join cwd.path name)
    | .error e => .error (.io e)

def Host.createParent (host : Host) (p : Path) : Except StorageError Unit :=
  match (components p).parent with
  | none => .ok ()
  | some dir => (host.createDirAll dir).mapError .io

/-- The absolute path of a name, its directory created. -/
def Host.place (host : Host) (name : Path) : Except StorageError Path := do
  let absolute ← host.absolute name
  host.createParent absolute
  return absolute

def resolveSqlitePath (host : Host) (raw : String) : Except StorageError Path :=
  if Text.isBlank raw then .error (.validation "sqlite path cannot be empty")
  else if raw = ":memory:" ∨ raw = "sqlite::memory:" then .ok memoryPath
  else
    let name := Text.utf8 (normalized raw)
    if name = [] then .error (.validation "sqlite path cannot be empty after normalization")
    else if name = memoryPath then .ok name
    else host.place name

/-! ## Placing a name -/

/-- The host has no current directory for a relative name, or does not create the directory. -/
inductive Host.Refuses (host : Host) (name : Path) : Prop
  | noDirectory (e : String) (hr : isAbsolute name = false) (hd : host.currentDir = .error e)
  | notCreated (p : Path) (dir : Components) (e : String) (ha : host.absolute name = .ok p)
      (hp : (components p).parent = some dir) (hc : host.createDirAll dir = .error e)

theorem Host.createParent_error_iff {host : Host} {p : Path} : (∃ e, host.createParent p = .error e) ↔
    ∃ dir e, (components p).parent = some dir ∧ host.createDirAll dir = .error e := by
  unfold createParent
  cases hp : (components p).parent with
  | none =>
    constructor
    · rintro ⟨e, he⟩; cases he
    · rintro ⟨dir, e, hd, -⟩; cases hd
  | some dir =>
    cases hc : host.createDirAll dir with
    | ok u =>
      constructor
      · rintro ⟨e, he⟩; simp [Except.mapError, hc] at he
      · rintro ⟨dir', e, hd, he⟩
        cases hd
        rw [hc] at he
        cases he
    | error e =>
      refine iff_of_true ⟨.io e, ?_⟩ ⟨dir, e, rfl, hc⟩
      simp [Except.mapError, hc]

theorem Host.place_error_iff {host : Host} {name : Path} :
    (∃ e, host.place name = .error e) ↔ host.Refuses name := by
  unfold place
  cases ha : host.absolute name with
  | error e =>
    refine iff_of_true ⟨e, rfl⟩ ?_
    unfold absolute at ha
    split at ha
    · cases ha
    · rename_i hr
      split at ha
      · cases ha
      · rename_i d hd
        exact .noDirectory d (by simpa using hr) hd
  | ok p =>
    have hb : (∃ e, (do let absolute ← Except.ok p; host.createParent absolute; return absolute) = Except.error e) ↔
        ∃ e, host.createParent p = .error e := by
      show (∃ e, (host.createParent p >>= fun _ => Except.ok p) = Except.error e) ↔ _
      cases host.createParent p with
      | ok u => exact iff_of_false (by rintro ⟨e, he⟩; cases he) (by rintro ⟨e, he⟩; cases he)
      | error e => exact iff_of_true ⟨e, rfl⟩ ⟨e, rfl⟩
    refine hb.trans (createParent_error_iff.trans ⟨?_, ?_⟩)
    · rintro ⟨dir, e, hp, hc⟩
      exact .notCreated p dir e ha hp hc
    · rintro (⟨e, hr, hd⟩ | ⟨p', dir, e, ha', hp, hc⟩)
      · rw [absolute, if_neg (Bool.eq_false_iff.1 hr), hd] at ha
        cases ha
      · rw [ha] at ha'
        cases ha'
        exact ⟨dir, e, hp, hc⟩

/-! ## The same result -/

/-- Two paths with the same components, or two errors. -/
inductive SameResult : Except StorageError Path → Except StorageError Path → Prop
  | path {p q : Path} (h : components p = components q) : SameResult (.ok p) (.ok q)
  | error {d e : StorageError} : SameResult (.error d) (.error e)

instance : ∀ a b : Except StorageError Path, Decidable (SameResult a b)
  | .ok _, .ok _ => decidable_of_iff (components _ = components _) ⟨.path, fun h => by cases h; assumption⟩
  | .error _, .error _ => isTrue .error
  | .ok _, .error _ | .error _, .ok _ => isFalse fun h => by cases h

theorem SameResult.refl : ∀ r : Except StorageError Path, SameResult r r
  | .ok _ => .path rfl
  | .error _ => .error

theorem sameResult_error_iff {d : StorageError} {r : Except StorageError Path} :
    SameResult r (.error d) ↔ ∃ e, r = .error e := by
  constructor
  · rintro ⟨⟩
    exact ⟨_, rfl⟩
  · rintro ⟨e, rfl⟩
    exact .error

theorem error_sameResult_iff {d : StorageError} {r : Except StorageError Path} :
    SameResult (.error d) r ↔ ∃ e, r = .error e := by
  constructor
  · rintro ⟨⟩
    exact ⟨_, rfl⟩
  · rintro ⟨e, rfl⟩
    exact .error

/-- Two names are placed alike where their absolute paths are the same or the host refuses both. -/
theorem Host.place_same_iff {host : Host} {a b p q : Path} (ha : host.absolute a = .ok p)
    (hb : host.absolute b = .ok q) :
    SameResult (host.place a) (host.place b) ↔ components p = components q ∨ host.Refuses a ∧ host.Refuses b := by
  have hpa : host.place a = host.createParent p >>= fun _ => .ok p := by rw [place, ha]; rfl
  have hpb : host.place b = host.createParent q >>= fun _ => .ok q := by rw [place, hb]; rfl
  rw [← place_error_iff, ← place_error_iff]
  constructor
  · intro h
    generalize host.place a = x at *
    generalize host.place b = y at *
    cases h with
    | path h =>
      left
      cases hx : host.createParent p <;> rw [hx] at hpa <;> cases hpa
      cases hy : host.createParent q <;> rw [hy] at hpb <;> cases hpb
      exact h
    | error => exact .inr ⟨⟨_, rfl⟩, _, rfl⟩
  · rintro (h | ⟨⟨d, hd⟩, e, he⟩)
    · have hc : host.createParent p = host.createParent q := by rw [createParent, createParent, h]
      rw [hpa, hpb, hc]
      cases host.createParent q with
      | ok u => exact .path h
      | error e => exact .error
    · rw [hd, he]
      exact .error

/-! ## Path and URL -/

theorem utf8_slash (q : String) : Text.utf8 ("/" ++ q) = sep :: Text.utf8 q := by
  rw [Text.utf8_append]
  rfl

/-- A path is absolute when its text starts with `/`. -/
theorem isAbsolute_utf8 {p : String} : isAbsolute (Text.utf8 p) = true ↔ ∃ q, p = "/" ++ q := by
  constructor
  · intro h
    obtain ⟨bs, hbs⟩ := isAbsolute_iff.1 h
    cases hp : p.toList with
    | nil =>
      rw [Text.utf8, hp] at hbs
      cases hbs
    | cons c cs =>
      refine ⟨String.ofList cs, ?_⟩
      have hc : c.toNat = 0x2F := by
        refine Text.mem_utf8EncodeChar (by decide) (show sep ∈ _ from ?_)
        rw [Text.utf8, hp, List.flatMap_cons] at hbs
        obtain ⟨b, bs', hb⟩ := List.exists_cons_of_ne_nil (String.utf8EncodeChar_ne_nil (c := c))
        rw [hb, List.cons_append] at hbs
        rw [hb, (List.cons.inj hbs).1]
        exact List.mem_cons_self
      have hs : c = '/' := by rw [← Char.ofNat_toNat c, hc]
      rw [← String.toList_inj, hp, hs]
      simp
  · rintro ⟨q, rfl⟩
    rw [utf8_slash]
    rfl

theorem utf8_eq_nil {s : String} : Text.utf8 s = [] ↔ s = "" :=
  ⟨fun h => Text.utf8_injective h, fun h => by rw [h]; rfl⟩

theorem utf8_eq_memoryPath {s : String} : Text.utf8 s = memoryPath ↔ s = ":memory:" :=
  ⟨Text.utf8_injective, congrArg Text.utf8⟩

/-- What becomes of a name that no scheme stands in front of. -/
def Host.resolveName (host : Host) (name : String) : Except StorageError Path :=
  if name = "" then .error (.validation "sqlite path cannot be empty after normalization")
  else if name = ":memory:" then .ok memoryPath
  else host.place (Text.utf8 name)

/-- The name in a URL after `sqlite://`: one `/` in front does not count. -/
def urlName (p : String) : String := (Text.stripPrefix "/" p).getD p

theorem not_url {p : String} (hp : Text.startsWith p "sqlite:" = false) : Text.startsWith p "sqlite://" = false := by
  rw [Text.startsWith_eq_false_iff] at hp ⊢
  intro rest hr
  exact hp ("//" ++ rest) (by rw [hr, ← String.append_assoc]; rfl)

theorem resolveSqlitePath_path (host : Host) {p : String} (hp : Text.startsWith p "sqlite:" = false) :
    resolveSqlitePath host p =
      if Text.isBlank p then .error (.validation "sqlite path cannot be empty") else host.resolveName p := by
  have hmem : p ≠ "sqlite::memory:" := by
    rintro rfl
    exact absurd hp (by decide +kernel)
  have hn : normalized p = p := by
    rw [normalized, if_neg hmem, if_neg (Bool.eq_false_iff.1 (not_url hp))]
  unfold resolveSqlitePath Host.resolveName
  simp only [hmem, or_false, hn, utf8_eq_nil, utf8_eq_memoryPath]
  split
  · rfl
  · rename_i hb
    have hne : p ≠ "" := by
      rintro rfl
      exact hb (by decide)
    rw [if_neg hne, if_neg hne]
    split
    · rfl
    · rfl

theorem resolveSqlitePath_url (host : Host) {p : String} (hp : Text.startsWith p "sqlite:" = false) :
    resolveSqlitePath host ("sqlite://" ++ p) = host.resolveName (urlName p) := by
  have hb : Text.isBlank ("sqlite://" ++ p) = false := Text.isBlank_eq_false (c := 's') (by simp) (by decide)
  have hfirst : ∀ t : String, t.toList.take 9 ≠ "sqlite://".toList → "sqlite://" ++ p ≠ t := by
    rintro _ ht rfl
    rw [String.toList_append] at ht
    exact ht (List.take_left' (by decide))
  have hmem : "sqlite://" ++ p ≠ ":memory:" := hfirst _ (by decide)
  have hscheme : "sqlite://" ++ p ≠ "sqlite::memory:" := hfirst _ (by decide)
  have hn : normalized ("sqlite://" ++ p) = urlName p := by
    rw [normalized, if_neg hscheme, if_pos (Text.startsWith_iff.2 ⟨p, rfl⟩),
      Text.trimStartText_append (by decide) (not_url hp)]
    rfl
  unfold resolveSqlitePath Host.resolveName
  rw [if_neg (Bool.eq_false_iff.1 hb), if_neg (not_or.2 ⟨hmem, hscheme⟩)]
  simp only [hn, utf8_eq_nil, utf8_eq_memoryPath]
  split
  · rfl
  · split
    · rename_i h
      rw [h]
      rfl
    · rfl

/-- Where the path `p` and the URL of `p` are the same: nothing at all, a name without a `/` in front that is not
blank, two `/` in front; white space that the host refuses; or one `/` in front of a name that is read from the
root, or refused, with and without it. -/
def FormsAgree (host : Host) (p : String) : Prop :=
  p = "" ∨ (Text.isBlank p = false ∧ Text.startsWith p "/" = false) ∨ Text.startsWith p "//" = true ∨
    (Text.isBlank p = true ∧ host.Refuses (Text.utf8 p)) ∨
    ∃ q, p = "/" ++ q ∧ q ≠ "" ∧ q ≠ ":memory:" ∧
      ((∃ cwd, host.currentDir = .ok cwd ∧ names cwd.path = []) ∨
        host.Refuses (Text.utf8 q) ∧ host.Refuses (Text.utf8 p))

theorem Host.absolute_slash (host : Host) (q : String) :
    host.absolute (Text.utf8 ("/" ++ q)) = .ok (sep :: Text.utf8 q) := by
  rw [absolute, if_pos (isAbsolute_utf8.2 ⟨q, rfl⟩), utf8_slash]

theorem components_sep_cons (p : Path) : components (sep :: p) = ⟨true, false, names p⟩ := by
  rw [components_of_isAbsolute (isAbsolute_iff.2 ⟨p, rfl⟩), names_sep_cons]

/-- A name is read from the root with a `/` in front, and from the current directory without. -/
theorem Host.relative_agree_iff (host : Host) {q : String} (hq : Text.startsWith q "/" = false) :
    SameResult (host.place (Text.utf8 q)) (host.place (Text.utf8 ("/" ++ q))) ↔
      (∃ cwd, host.currentDir = .ok cwd ∧ names cwd.path = []) ∨
        host.Refuses (Text.utf8 q) ∧ host.Refuses (Text.utf8 ("/" ++ q)) := by
  have hrel : isAbsolute (Text.utf8 q) = false := by
    rw [Bool.eq_false_iff] at hq ⊢
    exact fun h => hq (Text.startsWith_iff.2 (isAbsolute_utf8.1 h))
  cases hd : host.currentDir with
  | error e =>
    have hr : host.Refuses (Text.utf8 q) := .noDirectory e hrel hd
    obtain ⟨d, hplace⟩ := Host.place_error_iff.2 hr
    rw [hplace, error_sameResult_iff, Host.place_error_iff]
    constructor
    · exact fun h => .inr ⟨hr, h⟩
    · rintro (⟨cwd, hcwd, -⟩ | ⟨-, h⟩)
      · cases hcwd
      · exact h
  | ok cwd =>
    have ha : host.absolute (Text.utf8 q) = .ok (join cwd.path (Text.utf8 q)) := by
      rw [absolute, if_neg (Bool.eq_false_iff.1 hrel), hd]
    rw [Host.place_same_iff ha (host.absolute_slash q), components_of_isAbsolute (isAbsolute_join cwd _),
      components_sep_cons, names_join cwd hrel]
    refine or_congr_left ?_
    rw [Components.mk.injEq, List.append_left_eq_self]
    constructor
    · exact fun h => ⟨cwd, rfl, h.2.2⟩
    · rintro ⟨cwd', hcwd, h⟩
      cases hcwd
      exact ⟨rfl, rfl, h⟩

/-- The root has no directory to create. -/
theorem Host.not_refuses_root (host : Host) : ¬ host.Refuses (Text.utf8 ("/" ++ "")) := by
  rintro (⟨e, hr, -⟩ | ⟨p, dir, e, ha, hp, -⟩)
  · rw [isAbsolute_utf8.2 ⟨"", rfl⟩] at hr
    cases hr
  · rw [host.absolute_slash] at ha
    cases ha
    rw [components_sep_cons] at hp
    cases hp

theorem Host.place_ok {host : Host} {name p : Path} (h : host.place name = .ok p) : host.absolute name = .ok p := by
  unfold place at h
  cases ha : host.absolute name with
  | error e =>
    rw [ha] at h
    cases h
  | ok q =>
    rw [ha] at h
    change (host.createParent q >>= fun _ => Except.ok q) = _ at h
    cases hc : host.createParent q with
    | error e =>
      rw [hc] at h
      cases h
    | ok u =>
      rw [hc] at h
      cases h
      rfl

/-- A `/` is stripped off the URL of an absolute path. -/
theorem Host.slash_agree_iff (host : Host) (q : String) :
    SameResult (host.resolveName q) (host.place (Text.utf8 ("/" ++ q))) ↔
      Text.startsWith q "/" = true ∨ q ≠ "" ∧ q ≠ ":memory:" ∧
        ((∃ cwd, host.currentDir = .ok cwd ∧ names cwd.path = []) ∨
          host.Refuses (Text.utf8 q) ∧ host.Refuses (Text.utf8 ("/" ++ q))) := by
  unfold resolveName
  split
  · rename_i he
    subst he
    rw [error_sameResult_iff, Host.place_error_iff]
    refine iff_of_false host.not_refuses_root ?_
    rintro (h | ⟨h, -⟩)
    · exact absurd h (by decide)
    · exact h rfl
  · rename_i he
    split
    · rename_i hm
      subst hm
      refine iff_of_false ?_ ?_
      · intro h
        -- a path from the root is not the marker
        generalize hr : host.place (Text.utf8 ("/" ++ ":memory:")) = r at h
        cases h with
        | path h =>
          have ha := Host.place_ok hr
          rw [host.absolute_slash] at ha
          cases ha
          rw [components_sep_cons] at h
          exact absurd (congrArg Components.root h) (by decide)
      · rintro (h | ⟨-, h, -⟩)
        · exact absurd h (by decide)
        · exact h rfl
    · rename_i hm
      by_cases hs : Text.startsWith q "/" = true
      · obtain ⟨r, hr⟩ := Text.startsWith_iff.1 hs
        have ha := host.absolute_slash r
        rw [← hr] at ha
        rw [Host.place_same_iff ha (host.absolute_slash q)]
        refine iff_of_true (.inl ?_) (.inl hs)
        rw [components_sep_cons, components_sep_cons, hr, utf8_slash, names_sep_cons]
      · rw [host.relative_agree_iff (by simpa using hs)]
        constructor
        · exact fun h => .inr ⟨he, hm, h⟩
        · exact fun h => (h.resolve_left hs).2.2

/-- What starts with a `/` is nothing that starts otherwise. -/
theorem slash_append_ne {s : String} (hs : s.toList.head? ≠ some '/') (q : String) : "/" ++ q ≠ s := by
  rintro rfl
  exact hs (by simp)

theorem slash_not_blank (q : String) : Text.isBlank ("/" ++ q) = false :=
  Text.isBlank_eq_false (c := '/') (by simp) (by decide)

theorem formsAgree_slash_iff (host : Host) (q : String) :
    FormsAgree host ("/" ++ q) ↔ Text.startsWith q "/" = true ∨ q ≠ "" ∧ q ≠ ":memory:" ∧
      ((∃ cwd, host.currentDir = .ok cwd ∧ names cwd.path = []) ∨
        host.Refuses (Text.utf8 q) ∧ host.Refuses (Text.utf8 ("/" ++ q))) := by
  have hcancel : ∀ {r : String}, "/" ++ q = "/" ++ r ↔ q = r := String.append_right_inj "/"
  have hstart : Text.startsWith ("/" ++ q) "/" = true := Text.startsWith_iff.2 ⟨q, rfl⟩
  have htwo : Text.startsWith ("/" ++ q) "//" = true ↔ Text.startsWith q "/" = true := by
    rw [Text.startsWith_iff, Text.startsWith_iff]
    refine exists_congr fun r => ?_
    rw [show "//" ++ r = "/" ++ ("/" ++ r) from by rw [← String.append_assoc]; rfl]
    exact hcancel
  unfold FormsAgree
  rw [htwo, hstart, slash_not_blank]
  constructor
  · rintro (h | ⟨-, h⟩ | h | ⟨h, -⟩ | ⟨r, hr, h⟩)
    · exact absurd h (slash_append_ne (by decide) q)
    · cases h
    · exact .inl h
    · cases h
    · rw [hcancel.1 hr] at h ⊢
      exact .inr h
  · rintro (h | h)
    · exact .inr (.inr (.inl h))
    · exact .inr (.inr (.inr (.inr ⟨q, rfl, h⟩)))

theorem formsAgree_blank_iff (host : Host) {p : String} (hb : Text.isBlank p = true) :
    FormsAgree host p ↔ p = "" ∨ host.Refuses (Text.utf8 p) := by
  have hslash : ∀ {q : String}, p ≠ "/" ++ q := fun {q} h => by
    rw [h, slash_not_blank] at hb
    cases hb
  constructor
  · rintro (h | ⟨h, -⟩ | h | ⟨-, h⟩ | ⟨q, h, -⟩)
    · exact .inl h
    · rw [hb] at h
      cases h
    · obtain ⟨r, hr⟩ := Text.startsWith_iff.1 h
      exact absurd (hr.trans (show "//" ++ r = "/" ++ ("/" ++ r) from by rw [← String.append_assoc]; rfl)) hslash
    · exact .inr h
    · exact absurd h hslash
  · rintro (h | h)
    · exact .inl h
    · exact .inr (.inr (.inr (.inl ⟨hb, h⟩)))

/-- The path `p` and the URL of `p` are resolved alike where `FormsAgree` says so. -/
theorem forms_agree_iff (host : Host) (p : String) (hp : Text.startsWith p "sqlite:" = false) :
    SameResult (resolveSqlitePath host ("sqlite://" ++ p)) (resolveSqlitePath host p) ↔ FormsAgree host p := by
  rw [resolveSqlitePath_url host hp, resolveSqlitePath_path host hp]
  cases hb : Text.isBlank p with
  | true =>
    have hs : Text.stripPrefix "/" p = none := by
      refine Text.stripPrefix_eq_none ?_
      rw [Text.startsWith_eq_false_iff]
      rintro q rfl
      rw [slash_not_blank] at hb
      cases hb
    have hm : p ≠ ":memory:" := by
      rintro rfl
      exact absurd hb (by decide)
    rw [urlName, hs, Option.getD_none, if_pos rfl, sameResult_error_iff, formsAgree_blank_iff host hb,
      Host.resolveName, if_neg hm, ← Host.place_error_iff]
    split
    · rename_i he
      exact iff_of_true ⟨_, rfl⟩ (.inl he)
    · rename_i he
      exact (or_iff_right he).symm
  | false =>
    rw [if_neg Bool.false_ne_true]
    by_cases hs : Text.startsWith p "/" = true
    · obtain ⟨q, rfl⟩ := Text.startsWith_iff.1 hs
      have hname : host.resolveName ("/" ++ q) = host.place (Text.utf8 ("/" ++ q)) := by
        rw [Host.resolveName, if_neg (slash_append_ne (by decide) q), if_neg (slash_append_ne (by decide) q)]
      rw [urlName, Text.stripPrefix_append, Option.getD_some, hname, host.slash_agree_iff, formsAgree_slash_iff]
    · rw [Bool.not_eq_true] at hs
      rw [urlName, Text.stripPrefix_eq_none hs, Option.getD_none]
      exact iff_of_true (SameResult.refl _) (.inr (.inl ⟨hb, hs⟩))

/-- A host with a home directory that creates every directory. -/
def homeHost : Host := ⟨.ok ⟨Text.utf8 "/home/u", by decide⟩, fun _ => .ok ()⟩

theorem forms_agree_name :
    SameResult (resolveSqlitePath homeHost ("sqlite://" ++ "x.db")) (resolveSqlitePath homeHost "x.db") :=
  (forms_agree_iff homeHost "x.db" (by decide)).2 (.inr (.inl ⟨by decide, by decide⟩))

theorem forms_disagree : ¬ ∀ (host : Host) (p : String), Text.startsWith p "sqlite:" = false →
    SameResult (resolveSqlitePath host ("sqlite://" ++ p)) (resolveSqlitePath host p) := by
  intro h
  have := h homeHost "/data/x.db" (by decide)
  revert this
  decide +kernel

end NapCat.Storage
