/-
The URL that `storage_url_from_path` makes of a resolved path, and the database it is read as. The path
stands in the URL as it is, so a `?`, an escape or a second `/` in front is not read as part of it.
-/
import NapCat.Storage.Paths

namespace NapCat.Storage

open PosixPath

def storageUrlFromPath (path : Path) : Except StorageError String :=
  if path = memoryPath then .ok "sqlite::memory:"
  else match Text.ofUtf8 path with
    | none => .error (.validation "database path contains non-utf8 characters")
    | some text =>
      if isAbsolute path then .ok ("sqlite:" ++ text ++ "?mode=rwc") else .ok ("sqlite://" ++ text ++ "?mode=rwc")

inductive Database
  | memory
  | file (name : Path)
  deriving DecidableEq

/-- The database at a resolved path. -/
def databaseAt (path : Path) : Database := if path = memoryPath then .memory else .file path

/-! ## Reading the URL -/

/-- A URL without its scheme. -/
def withoutUrlScheme (url : String) : String :=
  (Text.stripPrefix "sqlite://" url).getD ((Text.stripPrefix "sqlite:" url).getD url)

/-- The database of a URL: what stands before the first `?` is the file name, percent-decoded. -/
def databaseOfUrl (url : String) : Database :=
  let name := Text.firstPart '?' (withoutUrlScheme url)
  if name = ":memory:" then .memory else .file (Percent.decode (Text.utf8 name))

/-- A path that a URL holds as it is. -/
def PlainPath (path : Path) : Prop :=
  (∃ text, path = Text.utf8 text ∧ '?' ∉ text.toList) ∧ ¬ [sep, sep] <+: path ∧ ¬ Percent.HasEscape path

/-- What is resolved is the marker or an absolute path. -/
theorem resolveSqlitePath_ok {host : Host} {raw : String} {path : Path} (h : resolveSqlitePath host raw = .ok path) :
    path = memoryPath ∨ isAbsolute path = true := by
  unfold resolveSqlitePath at h
  dsimp only at h
  split at h
  · cases h
  · split at h
    · cases h
      exact .inl rfl
    · split at h
      · cases h
      · split at h
        · rename_i hm
          cases h
          exact .inl hm
        · have ha := Host.place_ok h
          right
          unfold Host.absolute at ha
          split at ha
          · rename_i hr
            cases ha
            exact hr
          · split at ha
            · cases ha
              exact isAbsolute_join _ _
            · cases ha

/-! ## An absolute path in its URL -/

/-- What the first part leaves over is nothing only where there is no separator. -/
theorem exists_rest (sep : Char) (s : String) :
    ∃ rest, s = Text.firstPart sep s ++ rest ∧ (rest = "" → sep ∉ s.toList) := by
  refine ⟨String.ofList (s.toList.dropWhile (· ≠ sep)), ?_, ?_⟩
  · rw [Text.firstPart, ← String.ofList_append, List.takeWhile_append_dropWhile, String.ofList_toList]
  · intro h hm
    rw [String.ofList_eq_empty_iff, List.dropWhile_eq_nil_iff] at h
    simpa using h sep hm

theorem length_utf8_firstPart_le (sep : Char) (s : String) :
    (Text.utf8 (Text.firstPart sep s)).length ≤ (Text.utf8 s).length := by
  obtain ⟨rest, hs, -⟩ := exists_rest sep s
  conv_rhs => rw [hs, Text.utf8_append, List.length_append]
  exact Nat.le_add_right _ _

/-- A separator leaves a first part that is smaller. -/
theorem length_utf8_firstPart_lt {sep : Char} {s : String} (h : sep ∈ s.toList) :
    (Text.utf8 (Text.firstPart sep s)).length < (Text.utf8 s).length := by
  obtain ⟨rest, hs, hrest⟩ := exists_rest sep s
  have hne : Text.utf8 rest ≠ [] := fun hn => hrest (utf8_eq_nil.1 hn) h
  conv_rhs => rw [hs, Text.utf8_append, List.length_append]
  exact Nat.lt_add_of_pos_right (List.length_pos_iff.2 hne)

theorem ne_of_length {a b : Path} (h : a.length < b.length) : Database.file a ≠ Database.file b :=
  fun he => absurd (congrArg List.length (Database.file.inj he)) (Nat.ne_of_lt h)

/-- The second `/` is read as the end of the scheme. -/
theorem databaseOfUrl_twoSlashes (r : String) :
    databaseOfUrl ("sqlite:" ++ ("//" ++ r) ++ "?mode=rwc") ≠ .file (Text.utf8 ("//" ++ r)) := by
  have hu : "sqlite:" ++ ("//" ++ r) ++ "?mode=rwc" = "sqlite://" ++ (r ++ "?mode=rwc") := by
    rw [← String.toList_inj]
    simp
  have hname : Text.firstPart '?' (withoutUrlScheme ("sqlite:" ++ ("//" ++ r) ++ "?mode=rwc")) =
      Text.firstPart '?' r := by
    rw [hu, withoutUrlScheme, Text.stripPrefix_append, Option.getD_some]
    exact Text.firstPart_append_sep '?' r "mode=rwc"
  unfold databaseOfUrl
  rw [hname]
  dsimp only
  split
  · rintro ⟨⟩
  · refine ne_of_length ?_
    have h1 := Percent.length_decode_le (Text.utf8 (Text.firstPart '?' r))
    have h2 := length_utf8_firstPart_le '?' r
    rw [Text.utf8_append, List.length_append, show (Text.utf8 "//").length = 2 from rfl]
    omega

/-- Behind one `/`, the path is read up to its first `?`, and its escapes are decoded. -/
theorem databaseOfUrl_oneSlash {q : String} (hq : Text.startsWith q "/" = false) :
    databaseOfUrl ("sqlite:" ++ ("/" ++ q) ++ "?mode=rwc") =
      .file (Percent.decode (Text.utf8 (Text.firstPart '?' ("/" ++ q)))) := by
  have hscheme : Text.startsWith ("sqlite:" ++ (("/" ++ q) ++ "?mode=rwc")) "sqlite://" = false := by
    rw [Text.startsWith_eq_false_iff] at hq ⊢
    intro rest hr
    rw [show "sqlite://" = "sqlite:" ++ ("/" ++ "/") from rfl] at hr
    simp only [String.append_assoc, String.append_right_inj] at hr
    -- what follows the first `/` starts with the second, so it is not the parameters
    cases hl : q.toList with
    | nil =>
      have := congrArg (fun s => s.toList.head?) hr
      simp [hl] at this
    | cons c cs =>
      have := congrArg (fun s => s.toList.head?) hr
      simp only [String.toList_append, hl] at this
      refine hq (String.ofList cs) ?_
      rw [← String.toList_inj, hl]
      simpa using this
  have hname : Text.firstPart '?' (withoutUrlScheme ("sqlite:" ++ ("/" ++ q) ++ "?mode=rwc")) =
      Text.firstPart '?' ("/" ++ q) := by
    rw [withoutUrlScheme, String.append_assoc, Text.stripPrefix_eq_none hscheme, Option.getD_none,
      Text.stripPrefix_append, Option.getD_some]
    exact Text.firstPart_append_sep '?' ("/" ++ q) "mode=rwc"
  have hne : Text.firstPart '?' ("/" ++ q) ≠ ":memory:" := by
    rw [Text.firstPart_append (by decide)]
    exact slash_append_ne (by decide) _
  unfold databaseOfUrl
  rw [hname]
  exact if_neg hne

theorem plainPath_utf8_iff {text : String} :
    PlainPath (Text.utf8 text) ↔
      '?' ∉ text.toList ∧ ¬ [sep, sep] <+: Text.utf8 text ∧ ¬ Percent.HasEscape (Text.utf8 text) := by
  refine and_congr_left' ⟨?_, fun h => ⟨text, rfl, h⟩⟩
  rintro ⟨text', he, h⟩
  rwa [Text.utf8_injective he]

theorem twoSlashes_utf8_iff {q : String} :
    [sep, sep] <+: Text.utf8 ("/" ++ q) ↔ Text.startsWith q "/" = true := by
  rw [utf8_slash, List.cons_prefix_cons, and_iff_right rfl, Text.startsWith_iff, ← isAbsolute_utf8, isAbsolute_iff]
  exact ⟨fun ⟨l, hl⟩ => ⟨l, hl.symm⟩, fun ⟨l, hl⟩ => ⟨l, hl.symm⟩⟩

/-- The URL of an absolute path is read as that path where it holds the path as it is. -/
theorem absolute_reads_back_iff (q : String) :
    databaseOfUrl ("sqlite:" ++ ("/" ++ q) ++ "?mode=rwc") = .file (Text.utf8 ("/" ++ q)) ↔
      PlainPath (Text.utf8 ("/" ++ q)) := by
  rw [plainPath_utf8_iff, twoSlashes_utf8_iff]
  by_cases hq : Text.startsWith q "/" = true
  · refine iff_of_false ?_ fun h => h.2.1 hq
    obtain ⟨r, rfl⟩ := Text.startsWith_iff.1 hq
    rw [← String.append_assoc]
    exact databaseOfUrl_twoSlashes r
  · rw [databaseOfUrl_oneSlash (by simpa using hq)]
    by_cases hm : '?' ∈ ("/" ++ q).toList
    · refine iff_of_false (ne_of_length ?_) fun h => h.1 hm
      exact lt_of_le_of_lt (Percent.length_decode_le _) (length_utf8_firstPart_lt hm)
    · rw [Text.firstPart_of_not_mem hm, Database.file.injEq, Percent.decode_eq_self_iff]
      exact ⟨fun h => ⟨hm, hq, h⟩, fun h => h.2.2⟩

theorem storageUrlFromPath_slash (q : String) :
    storageUrlFromPath (Text.utf8 ("/" ++ q)) = .ok ("sqlite:" ++ ("/" ++ q) ++ "?mode=rwc") := by
  have hm : Text.utf8 ("/" ++ q) ≠ memoryPath := by
    rw [utf8_slash]
    intro h
    exact absurd (List.cons.inj h).1 (by decide)
  rw [storageUrlFromPath, if_neg hm, Text.ofUtf8_utf8]
  exact if_pos (isAbsolute_utf8.2 ⟨q, rfl⟩)

/-- The database opened is the one at the path resolved, exactly where the URL holds the path as it is. -/
theorem reads_back_iff (openUrl : String → Database) (hopen : ∀ url, openUrl url = databaseOfUrl url) (host : Host)
    (raw : String) (path : Path) (h : resolveSqlitePath host raw = .ok path) :
    (∃ url, storageUrlFromPath path = .ok url ∧ openUrl url = databaseAt path) ↔
      path = memoryPath ∨ PlainPath path := by
  rcases resolveSqlitePath_ok h with rfl | habs
  · exact iff_of_true ⟨"sqlite::memory:", rfl, (hopen _).trans (by decide +kernel)⟩ (.inl rfl)
  · have hm : path ≠ memoryPath := by
      rintro rfl
      exact absurd habs (by decide)
    rw [or_iff_right hm]
    cases ht : Text.ofUtf8 path with
    | none =>
      refine iff_of_false ?_ ?_
      · rintro ⟨url, hu, -⟩
        rw [storageUrlFromPath, if_neg hm, ht] at hu
        cases hu
      · rintro ⟨⟨text, rfl, -⟩, -⟩
        rw [Text.ofUtf8_utf8] at ht
        cases ht
    | some text =>
      have hp := Text.ofUtf8_eq_some ht
      subst hp
      obtain ⟨q, rfl⟩ := isAbsolute_utf8.1 habs
      rw [storageUrlFromPath_slash, databaseAt, if_neg hm, ← absolute_reads_back_iff, ← hopen]
      constructor
      · rintro ⟨url, hu, ho⟩
        cases hu
        exact ho
      · exact fun ho => ⟨_, rfl, ho⟩

theorem reads_back_name : (∃ url, storageUrlFromPath (Text.utf8 "/home/u/x.db") = .ok url ∧
    databaseOfUrl url = databaseAt (Text.utf8 "/home/u/x.db")) ↔
      Text.utf8 "/home/u/x.db" = memoryPath ∨ PlainPath (Text.utf8 "/home/u/x.db") :=
  reads_back_iff databaseOfUrl (fun _ => rfl) homeHost "x.db" _ (by decide +kernel)

theorem escaped_path_opens_other : ¬ ∀ (host : Host) (raw : String) (path : Path),
    resolveSqlitePath host raw = .ok path →
      ∃ url, storageUrlFromPath path = .ok url ∧ databaseOfUrl url = databaseAt path := by
  intro h
  obtain ⟨url, hu, ho⟩ := h homeHost "/a%41.db" (Text.utf8 "/a%41.db") (by decide +kernel)
  rw [show "/a%41.db" = "/" ++ "a%41.db" from rfl, storageUrlFromPath_slash] at hu
  cases hu
  revert ho
  decide +kernel

end NapCat.Storage
