/-
What is read from the end of a text. A parser leaves an end of the text it is given. The end of the text of an object
of strings starts outside of its one brace: it is no value, or one that is neither an array nor an object.
-/
import NapCat.Lib.Json.Torn
import NapCat.Lib.Ends

namespace Json

/-! ## What a parser leaves -/

theorem skipSpace_suffix (cs : List Char) : skipSpace cs <:+ cs := List.dropWhile_suffix _

theorem unicodeEscape_suffix {cs r : List Char} {c : Char} (h : unicodeEscape cs = some (c, r)) : r <:+ cs := by
  unfold unicodeEscape at h
  split at h
  · rename_i a b c' d r'
    have hr : r' <:+ a :: b :: c' :: d :: r' := ⟨[a, b, c', d], rfl⟩
    split at h
    · cases h
    · split_ifs at h
      · split at h
        · rename_i a' b' c'' d' r''
          obtain ⟨x, -, hx⟩ := Option.map_eq_some_iff.1 h
          cases hx
          exact List.IsSuffix.trans ⟨['\\', 'u', a', b', c'', d'], rfl⟩ hr
        · cases h
      · cases h
        exact hr
  · cases h

theorem strChar_suffix {cs r : List Char} {o : Option Char} (h : strChar cs = some (o, r)) : r <:+ cs := by
  cases cs with
  | nil => cases h
  | cons c cs =>
    simp only [strChar] at h
    split_ifs at h
    · cases h
      exact List.suffix_cons c _
    · cases cs with
      | nil => cases h
      | cons e cs =>
        have hcs : cs <:+ c :: e :: cs := ⟨[c, e], rfl⟩
        simp only at h
        split_ifs at h
        · obtain ⟨p, hp, hx⟩ := Option.map_eq_some_iff.1 h
          cases hx
          exact (unicodeEscape_suffix hp).trans hcs
        · obtain ⟨p, -, hx⟩ := Option.map_eq_some_iff.1 h
          cases hx
          exact hcs
    · cases h
      exact List.suffix_cons c _

theorem parseStr_suffix (fuel : Nat) : ∀ {cs x r : List Char}, parseStr fuel cs = some (x, r) → r <:+ cs := by
  induction fuel with
  | zero =>
    intro cs x r h
    cases h
  | succ fuel ih =>
    intro cs x r h
    rw [parseStr] at h
    split at h
    · cases h
    · rename_i r' hc
      cases h
      exact strChar_suffix hc
    · rename_i c r' hc
      obtain ⟨p, hp, hx⟩ := Option.map_eq_some_iff.1 h
      cases hx
      exact (ih hp).trans (strChar_suffix hc)

theorem keyword_suffix {word cs r : List Char} {v w : Json} (h : keyword word v cs = some (w, r)) : r <:+ cs := by
  unfold keyword at h
  split_ifs at h
  cases h
  exact List.drop_suffix _ _

theorem parseNum_suffix {cs r : List Char} {v : Json} (h : parseNum cs = some (v, r)) : r <:+ cs := by
  unfold parseNum at h
  split_ifs at h
  cases h
  exact List.dropWhile_suffix _

/-- Neither an array nor an object. -/
def isScalar : Json → Bool
  | .arr _ | .obj _ => false
  | _ => true

theorem keyword_scalar {word cs r : List Char} {v w : Json} (hv : v.isScalar = true)
    (h : keyword word v cs = some (w, r)) : w.isScalar = true := by
  unfold keyword at h
  split_ifs at h
  cases h
  exact hv

theorem parseNum_scalar {cs r : List Char} {v : Json} (h : parseNum cs = some (v, r)) : v.isScalar = true := by
  unfold parseNum at h
  split_ifs at h
  cases h
  rfl

/-- How a value is read: a scalar, or an array from its bracket on, or an object from its brace on. -/
theorem parseValue_cases {fuel rem : Nat} {cs r : List Char} {v : Json} (h : parseValue fuel rem cs = some (v, r)) :
    (v.isScalar = true ∧ r <:+ cs) ∨
      (∃ cs', skipSpace cs = '[' :: cs' ∧
        (skipSpace cs' = ']' :: r ∨ ∃ xs, parseItems (fuel - 1) (rem - 1) cs' = some (xs, r))) ∨
      (∃ cs', skipSpace cs = '{' :: cs' ∧
        (skipSpace cs' = '}' :: r ∨ ∃ fs, parseFields (fuel - 1) (rem - 1) cs' = some (fs, r))) := by
  cases fuel with
  | zero => simp only [parseValue, reduceCtorEq] at h
  | succ fuel =>
    have hskip := skipSpace_suffix cs
    rw [parseValue] at h
    split at h
    · cases h
    · rename_i c cs' hc
      rw [hc] at hskip
      have hcs : cs' <:+ cs := (List.suffix_cons c cs').trans hskip
      split_ifs at h with h1 h2 h3 h4 h5 h6 h7 h8 h9 h10
      · exact .inl ⟨keyword_scalar rfl h, (keyword_suffix h).trans hcs⟩
      · exact .inl ⟨keyword_scalar rfl h, (keyword_suffix h).trans hcs⟩
      · exact .inl ⟨keyword_scalar rfl h, (keyword_suffix h).trans hcs⟩
      · obtain ⟨p, hp, hx⟩ := Option.map_eq_some_iff.1 h
        cases hx
        exact .inl ⟨rfl, (parseStr_suffix _ hp).trans hcs⟩
      · cases h
        obtain ⟨t, ht⟩ := List.head?_eq_some_iff.1 h7
        exact .inr (.inl ⟨cs', by rw [hc, h5], .inl (by rw [ht, List.tail_cons])⟩)
      · obtain ⟨p, hp, hx⟩ := Option.map_eq_some_iff.1 h
        cases hx
        exact .inr (.inl ⟨cs', by rw [hc, h5], .inr ⟨p.1, hp⟩⟩)
      · cases h
        obtain ⟨t, ht⟩ := List.head?_eq_some_iff.1 h10
        exact .inr (.inr ⟨cs', by rw [hc, h8], .inl (by rw [ht, List.tail_cons])⟩)
      · obtain ⟨p, hp, hx⟩ := Option.map_eq_some_iff.1 h
        cases hx
        exact .inr (.inr ⟨cs', by rw [hc, h8], .inr ⟨p.1, hp⟩⟩)
      · exact .inl ⟨parseNum_scalar h, (parseNum_suffix h).trans hskip⟩

/-- What a parser leaves is an end of the text, behind the bracket of the items and the brace of the fields. -/
theorem parse_suffix (fuel : Nat) :
    (∀ {rem cs v r}, parseValue fuel rem cs = some (v, r) → r <:+ cs) ∧
      (∀ {rem cs xs r}, parseItems fuel rem cs = some (xs, r) → ']' :: r <:+ cs) ∧
      (∀ {rem cs fs r}, parseFields fuel rem cs = some (fs, r) → '}' :: r <:+ cs) := by
  induction fuel with
  | zero =>
    refine ⟨fun h => ?_, fun h => ?_, fun h => ?_⟩
    · simp only [parseValue, reduceCtorEq] at h
    · simp only [parseItems, reduceCtorEq] at h
    · simp only [parseFields, reduceCtorEq] at h
  | succ fuel ih =>
    obtain ⟨hvalue, hitems, hfields⟩ := ih
    refine ⟨fun {rem cs v r} h => ?_, fun {rem cs xs r} h => ?_, fun {rem cs fs r} h => ?_⟩
    · have hopen : ∀ {c d : Char} {cs' : List Char}, skipSpace cs = c :: cs' → d :: r <:+ cs' → r <:+ cs := by
        intro c d cs' hc hr
        have hcs := skipSpace_suffix cs
        rw [hc] at hcs
        exact (List.suffix_cons d r).trans (hr.trans ((List.suffix_cons c cs').trans hcs))
      rcases parseValue_cases h with ⟨-, hr⟩ | ⟨cs', hc, hr | ⟨xs, hr⟩⟩ | ⟨cs', hc, hr | ⟨fs, hr⟩⟩
      · exact hr
      · exact hopen hc (hr ▸ skipSpace_suffix cs')
      · exact hopen hc (hitems hr)
      · exact hopen hc (hr ▸ skipSpace_suffix cs')
      · exact hopen hc (hfields hr)
    · rw [parseItems] at h
      split at h
      · cases h
      · rename_i x r' hx
        have hr' := (skipSpace_suffix r').trans (hvalue hx)
        split at h
        · rename_i r'' hs
          rw [hs] at hr'
          obtain ⟨p, hp, hy⟩ := Option.map_eq_some_iff.1 h
          cases hy
          exact (hitems hp).trans ((List.suffix_cons _ _).trans hr')
        · rename_i r'' hs
          rw [hs] at hr'
          cases h
          exact hr'
        · cases h
    · rw [parseFields] at h
      split at h
      · rename_i r₁ hs₁
        have hr₁ := skipSpace_suffix cs
        rw [hs₁] at hr₁
        split at h
        · cases h
        · rename_i k r₂ hk
          have hr₂ := (skipSpace_suffix r₂).trans ((parseStr_suffix _ hk).trans ((List.suffix_cons _ _).trans hr₁))
          split at h
          · rename_i r₃ hs₃
            rw [hs₃] at hr₂
            split at h
            · cases h
            · rename_i v r₄ hv
              have hr₄ := (skipSpace_suffix r₄).trans ((hvalue hv).trans ((List.suffix_cons _ _).trans hr₂))
              split at h
              · rename_i r₅ hs₅
                rw [hs₅] at hr₄
                obtain ⟨p, hp, hy⟩ := Option.map_eq_some_iff.1 h
                cases hy
                exact (hfields hp).trans ((List.suffix_cons _ _).trans hr₄)
              · rename_i r₅ hs₅
                rw [hs₅] at hr₄
                cases h
                exact hr₄
              · cases h
          · cases h
      · cases h

/-! ## What is left when it is no object -/

theorem skipSpace_ne_nil {r : List Char} {c : Char} (hc : c ∈ r) (hs : isSpace c = false) : skipSpace r ≠ [] := by
  intro h
  have := List.dropWhile_eq_nil_iff.1 h c hc
  rw [hs] at this
  cases this

/-- No array and no object makes up the whole text. -/
def Fruitless (t : List Char) : Prop :=
  ∀ fuel rem v r, parseValue fuel rem t = some (v, r) → v.isScalar = true ∨ skipSpace r ≠ []

/-- A text that ends in a brace and does not open with one. -/
theorem fruitless_of_closed {t : List Char} (hlast : t.getLast? = some '}') (h : ∀ r, skipSpace t ≠ '{' :: r) :
    Fruitless t := by
  intro fuel rem v r hv
  have harr : ∀ {cs : List Char}, skipSpace t = '[' :: cs → ']' :: r <:+ cs → skipSpace r ≠ [] := by
    intro cs hc hr
    have hcs := skipSpace_suffix t
    rw [hc] at hcs
    have hend := Ends.getLast?_suffix (hr.trans ((List.suffix_cons _ _).trans hcs)) (List.cons_ne_nil _ _)
    rw [hlast] at hend
    cases r with
    | nil => cases hend
    | cons c r =>
      rw [List.getLast?_cons_cons] at hend
      exact skipSpace_ne_nil (List.mem_of_getLast? hend) (by decide)
  rcases parseValue_cases hv with ⟨hs, -⟩ | ⟨cs, hc, hr | ⟨xs, hr⟩⟩ | ⟨cs, hc, -⟩
  · exact .inl hs
  · exact .inr (harr hc (hr ▸ skipSpace_suffix cs))
  · exact .inr (harr hc ((parse_suffix _).2.1 hr))
  · exact absurd hc (h cs)

/-! ## From inside a string on -/

/-- A character that is neither whitespace nor an opening brace. -/
def isInner (c : Char) : Bool := !isSpace c && c != '{'

theorem isInner_of_mem {x : List Char} {d : Char} (h : x.all isInner = true) (hd : d ∈ x) :
    isSpace d = false ∧ d ≠ '{' := by
  have := List.all_eq_true.1 h d hd
  simpa only [isInner, Bool.and_eq_true, Bool.not_eq_true', bne_iff_ne] using this

theorem hexDigit_inner : ∀ n < 32,
    List.all ['u', '0', '0', hexDigit (n / 16), hexDigit (n % 16)] isInner = true := by decide

theorem controlEscape_shape {n : Nat} (hn : n < 32) :
    ∃ x, controlEscape n = '\\' :: x ∧ x.all isInner = true := by
  unfold controlEscape
  split_ifs
  · exact ⟨_, rfl, rfl⟩
  · exact ⟨_, rfl, rfl⟩
  · exact ⟨_, rfl, rfl⟩
  · exact ⟨_, rfl, rfl⟩
  · exact ⟨_, rfl, rfl⟩
  · exact ⟨_, rfl, hexDigit_inner n hn⟩

/-- A character is escaped with a backslash and printable ones, none of them a brace, or is written as itself. -/
theorem escapeChar_shape (c : Char) : (∃ x, escapeChar c = '\\' :: x ∧ x.all isInner = true) ∨
    (escapeChar c = [c] ∧ c ≠ '"' ∧ (isSpace c = true → c = ' ')) := by
  unfold escapeChar
  split_ifs with hq hb hc
  · exact .inl ⟨_, rfl, rfl⟩
  · exact .inl ⟨_, rfl, rfl⟩
  · exact .inl (controlEscape_shape hc)
  · refine .inr ⟨rfl, hq, fun hs => ?_⟩
    simp only [isSpace, Bool.or_eq_true, beq_iff_eq] at hs
    rcases hs with ((hs | rfl) | rfl) | rfl
    · exact hs
    · exact absurd (by decide) hc
    · exact absurd (by decide) hc
    · exact absurd (by decide) hc

/-- Whitespace in a string is taken for whitespace between tokens, up to a character of the string or its end. -/
theorem skipSpace_content (rest s : List Char) : ∃ s' : List Char,
    skipSpace (s.flatMap escapeChar ++ '"' :: rest) = s'.flatMap escapeChar ++ '"' :: rest := by
  induction s with
  | nil => exact ⟨[], skipSpace_cons rest (by decide)⟩
  | cons c s ih =>
    rw [List.flatMap_cons]
    rcases escapeChar_shape c with ⟨x, hx, -⟩ | ⟨hx, -, hc⟩
    · refine ⟨c :: s, ?_⟩
      rw [List.flatMap_cons, hx, List.append_assoc, List.cons_append]
      exact skipSpace_cons _ (by decide)
    · cases hs : isSpace c with
      | true =>
        obtain ⟨s', hs'⟩ := ih
        refine ⟨s', ?_⟩
        rw [hx, ← hs', List.append_assoc, List.singleton_append]
        exact List.dropWhile_cons_of_pos hs
      | false =>
        refine ⟨c :: s, ?_⟩
        rw [List.flatMap_cons, hx, List.append_assoc, List.singleton_append]
        exact skipSpace_cons _ hs

/-- What a string's content and its closing quote start with. -/
theorem content_head {s rest r : List Char} {c : Char} (h : s.flatMap escapeChar ++ '"' :: rest = c :: r) :
    (s = [] ∧ c = '"' ∧ r = rest) ∨ c = '\\' ∨
      (c ≠ '"' ∧ ∃ s', s = c :: s' ∧ r = s'.flatMap escapeChar ++ '"' :: rest) := by
  cases s with
  | nil =>
    obtain ⟨rfl, rfl⟩ := List.cons.inj h
    exact .inl ⟨rfl, rfl, rfl⟩
  | cons d s =>
    rw [List.flatMap_cons, List.append_assoc] at h
    rcases escapeChar_shape d with ⟨x, hx, -⟩ | ⟨hx, hq, -⟩
    · rw [hx] at h
      exact .inr (.inl (List.cons.inj h).1.symm)
    · rw [hx] at h
      obtain ⟨rfl, hr⟩ := List.cons.inj h
      exact .inr (.inr ⟨hq, s, rfl, hr.symm⟩)

/-- A string's content is no field, where its closing quote opens none. -/
theorem parseFields_content {rest : List Char} (hrest : ∀ fuel rem, parseFields (fuel + 1) rem ('"' :: rest) = none)
    {s : List Char} (fuel rem : Nat) : parseFields fuel rem (s.flatMap escapeChar ++ '"' :: rest) = none := by
  cases fuel with
  | zero => simp only [parseFields]
  | succ fuel =>
    obtain ⟨s', hs'⟩ := skipSpace_content rest s
    rw [parseFields]
    split
    · rename_i r hr
      rcases content_head (hs'.symm.trans hr) with ⟨-, -, rfl⟩ | h | ⟨h, -⟩
      · have hnone := hrest fuel rem
        rwa [parseFields, skipSpace_cons _ (by decide)] at hnone
      · cases h
      · exact absurd rfl h
    · rfl

/-- From a character of a string on, where what follows its closing quote is no field: a brace of the string opens an
object that is closed before the string is, or none. -/
theorem fruitless_content {rest : List Char} (hlast : ('"' :: rest).getLast? = some '}')
    (hrest : ∀ fuel rem, parseFields (fuel + 1) rem ('"' :: rest) = none) (s : List Char) :
    Fruitless (s.flatMap escapeChar ++ '"' :: rest) := by
  by_cases hopen : ∃ r, skipSpace (s.flatMap escapeChar ++ '"' :: rest) = '{' :: r
  · obtain ⟨r, hr⟩ := hopen
    obtain ⟨s₁, hs₁⟩ := skipSpace_content rest s
    obtain ⟨s₂, rfl⟩ : ∃ s₂ : List Char, r = s₂.flatMap escapeChar ++ '"' :: rest := by
      rcases content_head (hs₁.symm.trans hr) with ⟨-, h, -⟩ | h | ⟨-, s₂, -, h⟩
      · cases h
      · cases h
      · exact ⟨s₂, h⟩
    obtain ⟨s₃, hs₃⟩ := skipSpace_content rest s₂
    intro fuel rem v r' hv
    rcases parseValue_cases hv with ⟨hs, -⟩ | ⟨cs, hc, -⟩ | ⟨cs, hc, hclose⟩
    · exact .inl hs
    · rw [hr] at hc
      cases hc
    · rw [hr] at hc
      obtain rfl := (List.cons.inj hc).2
      right
      rcases hclose with h | ⟨fs, h⟩
      · -- the closing quote is left behind the empty object
        have hmem : '"' ∈ '}' :: r' := by
          rw [← h, hs₃]
          simp
        rcases List.mem_cons.1 hmem with h' | h'
        · cases h'
        · exact skipSpace_ne_nil h' (by decide)
      · rw [parseFields_content hrest] at h
        cases h
  · refine fruitless_of_closed ?_ fun r hr => hopen ⟨r, hr⟩
    rw [List.getLast?_append_of_ne_nil _ (List.cons_ne_nil _ _), hlast]

/-- The same from inside of an escape on. -/
theorem fruitless_string {rest : List Char} (hlast : ('"' :: rest).getLast? = some '}')
    (hrest : ∀ fuel rem, parseFields (fuel + 1) rem ('"' :: rest) = none) {s u : List Char}
    (hu : u <:+ s.flatMap escapeChar) : Fruitless (u ++ '"' :: rest) := by
  obtain ⟨s', ⟨-, rfl⟩ | ⟨c, x, -, hx, hne, hpart, rfl⟩⟩ := Ends.suffix_flatMap hu
  · exact fruitless_content hlast hrest s'
  · refine fruitless_of_closed ?_ fun r hr => ?_
    · rw [List.getLast?_append_of_ne_nil _ (List.cons_ne_nil _ _), hlast]
    · have hhead : ∀ d x', x = d :: x' → isSpace d = false ∧ d ≠ '{' := by
        rintro d x' rfl
        rcases escapeChar_shape c with ⟨y, hy, hplain⟩ | ⟨hy, -⟩
        · rw [hy] at hx hpart
          have hxy := (List.suffix_cons_iff.1 hx).resolve_left hpart
          exact isInner_of_mem hplain (hxy.subset List.mem_cons_self)
        · rw [hy] at hx hpart
          have hnil := List.suffix_nil.1 ((List.suffix_cons_iff.1 hx).resolve_left hpart)
          cases hnil
      cases x with
      | nil => exact hne rfl
      | cons d x' =>
        obtain ⟨hs, hd⟩ := hhead d x' rfl
        rw [List.append_assoc, List.cons_append, skipSpace_cons _ hs] at hr
        exact hd (List.cons.inj hr).1

/-! ## Ends of an object of strings -/

/-- A key without a brace in it, whose first character starts no token. -/
structure Plain (k : String) : Prop where
  starts : StartsOff k
  closed : '{' ∉ quote k.toList

theorem skipSpace_mem {x y : List Char} {c d : Char} {r : List Char} (hc : isSpace c = false)
    (h : skipSpace (x ++ c :: y) = d :: r) : d ∈ x ∨ d = c := by
  induction x with
  | nil =>
    rw [List.nil_append, skipSpace_cons _ hc] at h
    exact .inr (List.cons.inj h).1.symm
  | cons e x ih =>
    cases he : isSpace e with
    | true =>
      have hskip : skipSpace (e :: x ++ c :: y) = skipSpace (x ++ c :: y) := List.dropWhile_cons_of_pos he
      rw [hskip] at h
      exact (ih h).imp (List.mem_cons_of_mem e) id
    | false =>
      rw [List.cons_append, skipSpace_cons _ he] at h
      exact .inl ((List.cons.inj h).1 ▸ List.mem_cons_self)

theorem flatFields_getLast? (fs : List (String × String)) (k v : String) :
    (flatFields ((k, v) :: fs)).getLast? = some '}' := by
  have h := render_obj_getLast? (((k, v) :: fs).map fun f => (f.1, Json.str f.2))
  rw [show render (.obj (((k, v) :: fs).map fun f => (f.1, Json.str f.2))) = '{' :: flatFields ((k, v) :: fs) from
    render_flat k v fs, flatFields] at h
  rw [flatFields]
  simpa only [quote, List.cons_append, List.getLast?_cons_cons] using h

/-- What stands behind a value in an object of strings. -/
def Behind (rest : List Char) : Prop := rest = ['}'] ∨ ∃ k v fs, Plain k ∧ rest = ',' :: flatFields ((k, v) :: fs)

/-- The closing quote of a value that is followed by a plain key, or by the object's brace, opens no key. -/
theorem parseFields_closing {rest : List Char} (h : Behind rest) (fuel rem : Nat) :
    parseFields (fuel + 1) rem ('"' :: rest) = none := by
  rcases h with rfl | ⟨k, v, fs, hk, rfl⟩
  · rfl
  · obtain ⟨c, cs, hkc, hesc, hspace, hcolon, -⟩ := hk.starts
    obtain ⟨r, hr⟩ := flatFields_open hkc hesc v fs
    have hstr : parseStr (',' :: '"' :: c :: r).length (',' :: '"' :: c :: r) = some ([','], c :: r) := rfl
    rw [hr, parseFields, skipSpace_cons _ (by decide)]
    simp only [hstr, skipSpace_cons r hspace]
    split
    · rename_i h
      exact absurd (List.cons.inj h).1 hcolon
    · rfl

theorem fruitless_nil : Fruitless [] := by
  intro fuel rem v r h
  rcases parseValue_cases h with ⟨hs, -⟩ | ⟨cs, hc, -⟩ | ⟨cs, hc, -⟩
  · exact .inl hs
  · cases hc
  · cases hc

/-- A text that starts with a character that is neither whitespace nor a brace. -/
theorem fruitless_cons {c : Char} {t : List Char} (hlast : (c :: t).getLast? = some '}') (hs : isSpace c = false)
    (hc : c ≠ '{') : Fruitless (c :: t) := by
  apply fruitless_of_closed hlast
  intro r hr
  rw [skipSpace_cons t hs] at hr
  exact hc (List.cons.inj hr).1

theorem Behind.getLast? {rest : List Char} (h : Behind rest) (x : List Char) : (x ++ rest).getLast? = some '}' := by
  rcases h with rfl | ⟨k, v, fs, -, rfl⟩
  · rw [List.getLast?_append_of_ne_nil x (List.cons_ne_nil _ _)]
    rfl
  · have hne : flatFields ((k, v) :: fs) ≠ [] := by
      intro h
      have := flatFields_getLast? fs k v
      rw [h] at this
      cases this
    rw [List.getLast?_append_of_ne_nil x (List.cons_ne_nil _ _), ← List.singleton_append,
      List.getLast?_append_of_ne_nil _ hne, flatFields_getLast?]

/-- An end of one field and of what stands behind it. -/
theorem fruitless_field {k v : String} {rest t : List Char} (hk : Plain k) (hrest : Behind rest)
    (hends : ∀ t, t <:+ rest → Fruitless t) (ht : t <:+ quote k.toList ++ ':' :: (quote v.toList ++ rest)) :
    Fruitless t := by
  have hlast : ∀ x, (x ++ ':' :: (quote v.toList ++ rest)).getLast? = some '}' := by
    intro x
    have := hrest.getLast? (x ++ ':' :: quote v.toList)
    rwa [List.append_assoc, List.cons_append] at this
  rcases Ends.suffix_append_cases ht with ht | ⟨x, hx, -, rfl⟩
  · rcases List.suffix_cons_iff.1 ht with rfl | ht
    · exact fruitless_cons (hlast []) (by decide) (by decide)
    rcases Ends.suffix_append_cases ht with ht | ⟨x, hx, -, rfl⟩
    · exact hends t ht
    -- from inside the value on
    rcases List.suffix_cons_iff.1 hx with rfl | hx
    · exact fruitless_cons (hrest.getLast? (quote v.toList)) (by decide) (by decide)
    rcases List.suffix_concat_iff.1 hx with rfl | ⟨u, rfl, hu⟩
    · exact hends rest List.suffix_rfl
    · rw [List.append_assoc, List.singleton_append]
      exact fruitless_string (hrest.getLast? ['"']) (parseFields_closing hrest) hu
  · -- from inside the key on
    apply fruitless_of_closed (hlast x)
    intro r hr
    rcases skipSpace_mem (by decide) hr with h | h
    · exact hk.closed (hx.subset h)
    · cases h

/-- An end of the fields of an object of strings. -/
theorem fruitless_fields (fs : List (String × String)) : ∀ (k v : String), Plain k → (∀ f ∈ fs, Plain f.1) →
    ∀ t, t <:+ flatFields ((k, v) :: fs) → Fruitless t := by
  induction fs with
  | nil =>
    intro k v hk _ t ht
    refine fruitless_field hk (.inl rfl) (fun t ht => ?_) ht
    rcases List.suffix_cons_iff.1 ht with rfl | ht
    · exact fruitless_cons rfl (by decide) (by decide)
    · rw [List.suffix_nil.1 ht]
      exact fruitless_nil
  | cons f fs ih =>
    intro k v hk hfs t ht
    have hf := hfs f List.mem_cons_self
    have hrest : Behind (',' :: flatFields (f :: fs)) := .inr ⟨f.1, f.2, fs, hf, rfl⟩
    refine fruitless_field hk hrest (fun t ht => ?_) ht
    rcases List.suffix_cons_iff.1 ht with rfl | ht
    · exact fruitless_cons (hrest.getLast? []) (by decide) (by decide)
    · exact ih f.1 f.2 hf (fun g hg => hfs g (List.mem_cons_of_mem f hg)) t ht

/-- A part of the text of an object of strings that lacks the text's beginning is no array and no object. -/
theorem parse_tail {k v : String} {fs : List (String × String)} (hk : Plain k) (hfs : ∀ f ∈ fs, Plain f.1)
    {t : List Char} (ht : t <:+ render (flat ((k, v) :: fs))) (hne : t ≠ render (flat ((k, v) :: fs))) {j : Json}
    (h : parse (String.ofList t) = some j) : j.isScalar = true := by
  rw [render_flat] at ht hne
  have hfields := fruitless_fields fs k v hk hfs t ((List.suffix_cons_iff.1 ht).resolve_left hne)
  unfold parse at h
  rw [String.toList_ofList] at h
  split at h
  · cases h
  · rename_i w r hw
    split_ifs at h with hr
    cases h
    rcases hfields _ _ _ _ hw with hs | hs
    · exact hs
    · exact absurd (List.isEmpty_iff.1 hr) hs

end Json
