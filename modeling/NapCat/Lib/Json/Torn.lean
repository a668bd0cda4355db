/-
Texts torn off inside an object. Where the text of an object of strings stops in its middle and another
such text starts, no value is read from the whole: inside a string the new text's first quote closes it
and a letter follows, and outside of one a brace stands where none may.
-/
import NapCat.Lib.Json.RoundTrip

namespace Json

/-- An object whose fields are strings. -/
def flat (fs : List (String × String)) : Json := .obj (fs.map fun f => (f.1, .str f.2))

/-- A character that goes on nowhere after a string or a value. -/
def Off (c : Char) : Prop := isSpace c = false ∧ c ≠ ':' ∧ c ≠ ',' ∧ c ≠ '}'

theorem off_brace : Off '{' := by unfold Off; decide

/-- The text of a key that starts with such a character, which is written as itself. -/
def StartsOff (k : String) : Prop := ∃ c cs, k.toList = c :: cs ∧ escapeChar c = [c] ∧ Off c

/-- What a text is to one that has been torn off before it: it starts with a brace, it ends a string
badly, and as a value it ends the text or goes on badly. -/
structure Resumes (t : List Char) : Prop where
  head : t.head? = some '{'
  str : ∀ fuel, parseStr fuel t = none ∨ ∃ x c r, parseStr fuel t = some (x, c :: r) ∧ Off c
  value : ∀ fuel rem, parseValue fuel rem t = none ∨
    ∃ v r, parseValue fuel rem t = some (v, r) ∧ ∀ c ∈ r.head?, Off c

/-- A prefix of a list and more ends in the list or goes past it. -/
theorem prefix_append_cases {α : Type} {p a b : List α} (h : p <+: a ++ b) :
    (p <+: a ∧ p ≠ a) ∨ ∃ q, p = a ++ q ∧ q <+: b := by
  rcases List.prefix_or_prefix_of_prefix h (List.prefix_append a b) with hp | ⟨q, rfl⟩
  · by_cases hpa : p = a
    · exact .inr ⟨[], by rw [hpa, List.append_nil], List.nil_prefix⟩
    · exact .inl ⟨hp, hpa⟩
  · exact .inr ⟨q, rfl, (List.prefix_append_right_inj a).1 h⟩

/-! ## Inside a string -/

/-- A brace is no hex digit. -/
theorem hex4_brace (a b c d : Char) (h : a = '{' ∨ b = '{' ∨ c = '{' ∨ d = '{') : hex4 a b c d = none := by
  have hv : hexVal '{' = none := by decide
  unfold hex4
  cases ha : hexVal a with
  | none => rfl
  | some m =>
    cases hb : hexVal b with
    | none => rfl
    | some n =>
      cases hc : hexVal c with
      | none => rfl
      | some k =>
        cases hd : hexVal d with
        | none => rfl
        | some l =>
          rcases h with rfl | rfl | rfl | rfl
          · rw [hv] at ha; cases ha
          · rw [hv] at hb; cases hb
          · rw [hv] at hc; cases hc
          · rw [hv] at hd; cases hd

theorem unicodeEscape_brace {h : List Char} (hl : h.length < 4) (r : List Char) :
    unicodeEscape (h ++ '{' :: r) = none := by
  have hbrace : ∀ {a b c d : Char} {t : List Char}, h ++ '{' :: r = a :: b :: c :: d :: t →
      a = '{' ∨ b = '{' ∨ c = '{' ∨ d = '{' := by
    intro a b c d t he
    rcases h with _ | ⟨x, _ | ⟨y, _ | ⟨z, _ | ⟨w, h⟩⟩⟩⟩
    · exact .inl (List.cons.inj he).1.symm
    · simp only [List.cons_append, List.nil_append, List.cons.injEq] at he
      exact .inr (.inl he.2.1.symm)
    · simp only [List.cons_append, List.nil_append, List.cons.injEq] at he
      exact .inr (.inr (.inl he.2.2.1.symm))
    · simp only [List.cons_append, List.nil_append, List.cons.injEq] at he
      exact .inr (.inr (.inr he.2.2.2.1.symm))
    · simp only [List.length_cons] at hl
      omega
  unfold unicodeEscape
  split
  · rename_i a b c d t he
    rw [hex4_brace a b c d (hbrace he)]
  · rfl

/-- The escapes of more than one character. -/
theorem escapeChar_cases (c : Char) : (escapeChar c).length = 1 ∨ (∃ x, escapeChar c = ['\\', x]) ∨
    ∃ h, escapeChar c = '\\' :: 'u' :: h ∧ h.length = 4 := by
  unfold escapeChar controlEscape
  split_ifs
  · exact .inr (.inl ⟨_, rfl⟩)
  · exact .inr (.inl ⟨_, rfl⟩)
  · exact .inr (.inl ⟨_, rfl⟩)
  · exact .inr (.inl ⟨_, rfl⟩)
  · exact .inr (.inl ⟨_, rfl⟩)
  · exact .inr (.inl ⟨_, rfl⟩)
  · exact .inr (.inl ⟨_, rfl⟩)
  · exact .inr (.inr ⟨_, rfl, rfl⟩)
  · exact .inl rfl

/-- An escape that a brace interrupts is none. -/
theorem strChar_torn {c : Char} {p r : List Char} (hp : p <+: escapeChar c) (hne : p ≠ []) (hpe : p ≠ escapeChar c) :
    strChar (p ++ '{' :: r) = none := by
  have hlen : p.length < (escapeChar c).length :=
    lt_of_le_of_ne hp.length_le fun h => hpe (hp.eq_of_length h)
  have hone : 1 ≤ p.length := List.length_pos_iff.2 hne
  have hback (q : List Char) (hq : p <+: '\\' :: q) : ∃ p', p = '\\' :: p' ∧ p' <+: q :=
    (List.prefix_cons_iff.1 hq).resolve_left hne
  rcases escapeChar_cases c with h | ⟨x, h⟩ | ⟨x, h, hx⟩
  · omega
  · rw [h] at hp hlen
    obtain ⟨p', rfl, -⟩ := hback _ hp
    obtain rfl : p' = [] := List.length_eq_zero_iff.1 (by simp only [List.length_cons, List.length_nil] at hlen; omega)
    rfl
  · rw [h] at hp hlen
    obtain ⟨p', rfl, hp'⟩ := hback _ hp
    rcases List.prefix_cons_iff.1 hp' with rfl | ⟨p'', rfl, -⟩
    · rfl
    · have hnone : unicodeEscape (p'' ++ '{' :: r) = none :=
        unicodeEscape_brace (by simp only [List.length_cons] at hlen; omega) r
      show (unicodeEscape (p'' ++ '{' :: r)).map _ = none
      rw [hnone]
      rfl

/-- A string that is torn off inside ends badly. -/
theorem parseStr_torn {t : List Char} (ht : Resumes t) (s : List Char) : ∀ (p : List Char) (fuel : Nat),
    p <+: s.flatMap escapeChar →
      parseStr fuel (p ++ t) = none ∨ ∃ x c r, parseStr fuel (p ++ t) = some (x, c :: r) ∧ Off c := by
  induction s with
  | nil =>
    intro p fuel hp
    obtain rfl : p = [] := List.prefix_nil.1 hp
    exact ht.str fuel
  | cons c s ih =>
    intro p fuel hp
    rcases prefix_append_cases hp with ⟨hpc, hpe⟩ | ⟨q, rfl, hq⟩
    · by_cases hne : p = []
      · subst hne
        exact ht.str fuel
      · obtain ⟨r, rfl⟩ := List.head?_eq_some_iff.1 ht.head
        cases fuel with
        | zero => exact .inl rfl
        | succ fuel => exact .inl (by rw [parseStr, strChar_torn hpc hne hpe])
    · cases fuel with
      | zero => exact .inl rfl
      | succ fuel =>
        rw [List.append_assoc, parseStr, strChar_escapeChar]
        rcases ih q fuel hq with h | ⟨x, d, r, h, hd⟩
        · exact .inl (by simp only [h, Option.map_none])
        · exact .inr ⟨c :: x, d, r, by simp only [h, Option.map_some], hd⟩

/-- A string that is torn off, from its opening quote on: as a value. -/
theorem parseValue_torn_str {t : List Char} (ht : Resumes t) {s p : List Char} (hp : p <+: quote s) (hne : p ≠ quote s)
    (fuel rem : Nat) : parseValue fuel rem (p ++ t) = none ∨
      ∃ v r, parseValue fuel rem (p ++ t) = some (v, r) ∧ ∀ c ∈ r.head?, Off c := by
  rcases List.prefix_cons_iff.1 hp with rfl | ⟨p, rfl, hq⟩
  · exact ht.value fuel rem
  · have hp : p <+: s.flatMap escapeChar := by
      rcases List.prefix_concat_iff.1 hq with h | h
      · exact absurd (congrArg _ h) hne
      · exact h
    cases fuel with
    | zero => exact .inl rfl
    | succ fuel =>
      rw [List.cons_append, parseValue, skipSpace_cons _ (by decide)]
      simp only [Char.reduceEq, if_false, if_true]
      rcases parseStr_torn ht s p (p ++ t).length hp with h | ⟨x, c, r, h, hc⟩
      · exact .inl (by rw [h, Option.map_none])
      · refine .inr ⟨.str (String.ofList x), c :: r, by rw [h, Option.map_some], fun d hd => ?_⟩
        cases hd
        exact hc

/-! ## Inside an object -/

/-- What stands behind a text that goes on badly is neither a comma nor a brace. -/
theorem parseFields_bad_value {fuel rem : Nat} {k : String} {cs r : List Char} {v : Json}
    (h : parseValue fuel rem cs = some (v, r)) (hr : ∀ c ∈ r.head?, Off c) :
    parseFields (fuel + 1) rem (quote k.toList ++ ':' :: cs) = none := by
  have hskip : skipSpace r = r := by
    cases r with
    | nil => rfl
    | cons c r => exact skipSpace_cons r (hr c rfl).1
  rw [quote_append, parseFields, skipSpace_cons _ (by decide)]
  simp only [parseStr_quote, skipSpace_cons cs (show isSpace ':' = false by decide), h, hskip]
  cases r with
  | nil => rfl
  | cons c r =>
    obtain ⟨-, -, hcomma, hbrace⟩ := hr c rfl
    split
    · rename_i he
      exact absurd (List.cons.inj he).1 hcomma
    · rename_i he
      exact absurd (List.cons.inj he).1 hbrace
    · rfl

/-- A key that is torn off. -/
theorem parseFields_torn_key {t : List Char} (ht : Resumes t) {k p : List Char} (hp : p <+: quote k)
    (fuel rem : Nat) : parseFields fuel rem (p ++ t) = none := by
  obtain ⟨r, rfl⟩ := List.head?_eq_some_iff.1 ht.head
  cases fuel with
  | zero => rfl
  | succ fuel =>
    rcases List.prefix_cons_iff.1 hp with rfl | ⟨p, rfl, hq⟩
    · rw [List.nil_append, parseFields, skipSpace_cons _ (by decide)]
      rfl
    · rw [List.cons_append, parseFields, skipSpace_cons _ (by decide)]
      rcases List.prefix_concat_iff.1 hq with rfl | hp
      · rw [List.append_assoc, List.singleton_append]
        simp only [parseStr_quote, skipSpace_cons r (show isSpace '{' = false by decide)]
        rfl
      · rcases parseStr_torn ht k p (p ++ '{' :: r).length hp with h | ⟨x, c, r', h, hspace, hcolon, -⟩
        · simp only [h]
        · simp only [h, skipSpace_cons r' hspace]
          split
          · rename_i he
            exact absurd (List.cons.inj he).1 hcolon
          · rfl

/-- The fields of an object of strings, after its opening brace. -/
def flatFields : List (String × String) → List Char
  | [] => []
  | (k, v) :: fs => quote k.toList ++ ':' :: (quote v.toList ++ renderFields (fs.map fun f => (f.1, .str f.2)))

/-- Fields that are torn off are no fields, but for those of a whole object. -/
theorem parseFields_torn {t : List Char} (ht : Resumes t) (fs : List (String × String)) :
    ∀ (k v : String) (p : List Char) (fuel rem : Nat), p <+: flatFields ((k, v) :: fs) →
      parseFields fuel rem (p ++ t) = none ∨ ∃ fs', parseFields fuel rem (p ++ t) = some (fs', t) := by
  obtain ⟨t', htail⟩ := List.head?_eq_some_iff.1 ht.head
  have hbrace : ∀ c ∈ t.head?, Off c := by
    rw [ht.head]
    rintro c ⟨⟩
    exact off_brace
  have hkey : ∀ (k v : String) (rest p : List Char) (fuel rem : Nat),
      p <+: quote k.toList ++ ':' :: (quote v.toList ++ rest) →
      parseFields fuel rem (p ++ t) = none ∨
        ∃ q, q <+: rest ∧ q ≠ [] ∧ p = quote k.toList ++ ':' :: (quote v.toList ++ q) := by
    intro k v rest p fuel rem hp
    rcases prefix_append_cases hp with ⟨hp, -⟩ | ⟨q, rfl, hq⟩
    · exact .inl (parseFields_torn_key ht hp fuel rem)
    rcases List.prefix_cons_iff.1 hq with rfl | ⟨q', rfl, hq'⟩
    · rw [List.append_nil]
      exact .inl (parseFields_torn_key ht List.prefix_rfl fuel rem)
    cases fuel with
    | zero => exact .inl rfl
    | succ fuel =>
      rw [List.append_assoc, List.cons_append]
      rcases prefix_append_cases hq' with ⟨hv, hne⟩ | ⟨q, rfl, hrest⟩
      · rcases parseValue_torn_str ht hv hne fuel rem with h | ⟨w, r, h, hr⟩
        · exact .inl (parseFields_none fuel rem k _ h)
        · exact .inl (parseFields_bad_value h hr)
      · by_cases hnil : q = []
        · subst hnil
          rw [List.append_nil]
          cases fuel with
          | zero => exact .inl (parseFields_none 0 rem k _ rfl)
          | succ fuel => exact .inl (parseFields_bad_value (parseValue_str v fuel rem t) hbrace)
        · exact .inr ⟨q, hrest, hnil, rfl⟩
  induction fs with
  | nil =>
    intro k v p fuel rem hp
    rcases hkey k v ['}'] p fuel rem hp with h | ⟨q, hq, hne, rfl⟩
    · exact .inl h
    obtain rfl : q = ['}'] := by
      rcases List.prefix_cons_iff.1 hq with h | ⟨q', rfl, hq'⟩
      · exact absurd h hne
      · rw [List.prefix_nil.1 hq']
    rw [List.append_assoc, List.cons_append, List.append_assoc, List.singleton_append]
    match fuel with
    | 0 => exact .inl rfl
    | 1 => exact .inl (parseFields_none 0 rem k _ rfl)
    | fuel + 2 => exact .inr ⟨_, parseFields_last (fuel + 1) rem k _ (.str v) t (parseValue_str v fuel rem _)⟩
  | cons f fs ih =>
    intro k v p fuel rem hp
    rcases hkey k v (',' :: flatFields (f :: fs)) p fuel rem hp with h | ⟨q, hq, hne, rfl⟩
    · exact .inl h
    obtain ⟨q', rfl, hq'⟩ := (List.prefix_cons_iff.1 hq).resolve_left hne
    rw [List.append_assoc, List.cons_append, List.append_assoc, List.cons_append]
    match fuel with
    | 0 => exact .inl rfl
    | 1 => exact .inl (parseFields_none 0 rem k _ rfl)
    | fuel + 2 =>
      rw [parseFields_cons (fuel + 1) rem k _ (.str v) _ (parseValue_str v fuel rem _)]
      rcases ih f.1 f.2 q' (fuel + 1) rem hq' with h | ⟨fs', h⟩
      · exact .inl (by rw [h, Option.map_none])
      · exact .inr ⟨_, by rw [h, Option.map_some]⟩

/-- The fields of a whole object, whatever stands behind them. -/
theorem parseFields_whole (t : List Char) (fs : List (String × String)) : ∀ (k v : String) (fuel rem : Nat),
    parseFields fuel rem (flatFields ((k, v) :: fs) ++ t) = none ∨
      ∃ fs', parseFields fuel rem (flatFields ((k, v) :: fs) ++ t) = some (fs', t) := by
  induction fs with
  | nil =>
    intro k v fuel rem
    simp only [flatFields, List.map_nil, renderFields, List.append_assoc, List.cons_append, List.nil_append]
    match fuel with
    | 0 => exact .inl rfl
    | 1 => exact .inl (parseFields_none 0 rem k _ rfl)
    | fuel + 2 => exact .inr ⟨_, parseFields_last (fuel + 1) rem k _ (.str v) t (parseValue_str v fuel rem _)⟩
  | cons f fs ih =>
    intro k v fuel rem
    have hcons : flatFields ((k, v) :: f :: fs) ++ t =
        quote k.toList ++ ':' :: (quote v.toList ++ ',' :: (flatFields (f :: fs) ++ t)) := by
      simp only [flatFields, List.map_cons, renderFields, render, List.append_assoc, List.cons_append]
    rw [hcons]
    match fuel with
    | 0 => exact .inl rfl
    | 1 => exact .inl (parseFields_none 0 rem k _ rfl)
    | fuel + 2 =>
      rw [parseFields_cons (fuel + 1) rem k _ (.str v) _ (parseValue_str v fuel rem _)]
      rcases ih f.1 f.2 (fuel + 1) rem with h | ⟨fs', h⟩
      · exact .inl (by rw [h, Option.map_none])
      · exact .inr ⟨_, by rw [h, Option.map_some]⟩

/-! ## Whole objects and torn ones -/

theorem render_flat (k v : String) (fs : List (String × String)) :
    render (flat ((k, v) :: fs)) = '{' :: flatFields ((k, v) :: fs) := by
  simp only [flat, flatFields, List.map_cons, render]

/-- What stands behind a brace makes an object, if it is fields at all. -/
theorem parseValue_brace (fuel rem : Nat) {c : Char} (hs : isSpace c = false) (hc : c ≠ '}') (r : List Char) :
    parseValue (fuel + 1) rem ('{' :: c :: r) =
      if rem ≤ 1 then none else (parseFields fuel (rem - 1) (c :: r)).map fun p => (.obj p.1, p.2) := by
  rw [parseValue, skipSpace_cons _ (by decide)]
  simp only [Char.reduceEq, if_false, if_true, skipSpace_cons r hs, List.head?_cons, Option.some.injEq, hc]

theorem flatFields_open {k : String} {c : Char} {cs : List Char} (hk : k.toList = c :: cs) (hc : escapeChar c = [c])
    (v : String) (fs : List (String × String)) : ∃ r, flatFields ((k, v) :: fs) = '"' :: c :: r := by
  simp only [flatFields, quote, hk, List.flatMap_cons, hc, List.cons_append, List.nil_append]
  exact ⟨_, rfl⟩

/-- The quote of the first key ends a string. -/
theorem parseStr_open {c : Char} (hc : Off c) (fuel : Nat) (r : List Char) :
    parseStr fuel ('{' :: '"' :: c :: r) = none ∨
      ∃ x d r', parseStr fuel ('{' :: '"' :: c :: r) = some (x, d :: r') ∧ Off d := by
  match fuel with
  | 0 => exact .inl rfl
  | 1 => exact .inl rfl
  | fuel + 2 => exact .inr ⟨['{'], c, r, rfl, hc⟩

/-- The text of a whole object at the end. -/
theorem resumes_whole {k : String} (hk : StartsOff k) (v : String) (fs : List (String × String)) :
    Resumes (render (flat ((k, v) :: fs))) := by
  obtain ⟨c, cs, hkc, hesc, hc⟩ := hk
  obtain ⟨r, hr⟩ := flatFields_open hkc hesc v fs
  rw [render_flat]
  refine ⟨rfl, fun fuel => by rw [hr]; exact parseStr_open hc fuel r, fun fuel rem => ?_⟩
  cases fuel with
  | zero => exact .inl rfl
  | succ fuel =>
    have hfields := parseFields_whole [] fs k v fuel (rem - 1)
    rw [List.append_nil] at hfields
    rw [hr, parseValue_brace fuel rem (by decide) (by decide), ← hr]
    split_ifs
    · exact .inl rfl
    · rcases hfields with h | ⟨fs', h⟩
      · exact .inl (by rw [h, Option.map_none])
      · exact .inr ⟨_, [], by rw [h, Option.map_some], fun c hc => by cases hc⟩

/-- What is left of an object that was torn off, with a text behind it. The object is no value unless all of it
is there, and then it is not the whole text. -/
theorem resumes_torn {t : List Char} (ht : Resumes t) {k : String} (hk : StartsOff k) {v : String}
    {fs : List (String × String)} {p : List Char} (hp : p <+: render (flat ((k, v) :: fs))) (hne : p ≠ []) :
    Resumes (p ++ t) ∧ ∀ fuel rem v r, parseValue fuel rem (p ++ t) = some (v, r) → r = t := by
  obtain ⟨c, cs, hkc, hesc, hc⟩ := hk
  rw [render_flat] at hp
  obtain ⟨q, rfl, hq⟩ := (List.prefix_cons_iff.1 hp).resolve_left hne
  have hbrace : ∀ d ∈ t.head?, Off d := by
    rw [ht.head]
    rintro d ⟨⟩
    exact off_brace
  obtain ⟨b, ht'⟩ := List.head?_eq_some_iff.1 ht.head
  obtain ⟨a, hopen⟩ := flatFields_open hkc hesc v fs
  have hquote : q = [] ∨ ∃ q', q = '"' :: q' ∧ (q' = [] ∨ ∃ q'', q' = c :: q'') := by
    rw [hopen] at hq
    rcases List.prefix_cons_iff.1 hq with rfl | ⟨q', rfl, hq'⟩
    · exact .inl rfl
    · refine .inr ⟨q', rfl, ?_⟩
      rcases List.prefix_cons_iff.1 hq' with rfl | ⟨q'', rfl, -⟩
      · exact .inl rfl
      · exact .inr ⟨q'', rfl⟩
  have hvalue : ∀ fuel rem, parseValue fuel rem ('{' :: q ++ t) = none ∨
      ∃ w, parseValue fuel rem ('{' :: q ++ t) = some (w, t) := by
    intro fuel rem
    cases fuel with
    | zero => exact .inl rfl
    | succ fuel =>
      have hfields := parseFields_torn ht fs k v q fuel (rem - 1) hq
      have hobj : parseValue (fuel + 1) rem ('{' :: q ++ t) =
          if rem ≤ 1 then none else (parseFields fuel (rem - 1) (q ++ t)).map fun p => (.obj p.1, p.2) := by
        rcases hquote with rfl | ⟨q', rfl, -⟩
        · rw [ht']
          exact parseValue_brace fuel rem (by decide) (by decide) b
        · exact parseValue_brace fuel rem (by decide) (by decide) (q' ++ t)
      rw [hobj]
      split_ifs
      · exact .inl rfl
      · rcases hfields with h | ⟨fs', h⟩
        · exact .inl (by rw [h, Option.map_none])
        · exact .inr ⟨_, by rw [h, Option.map_some]⟩
  refine ⟨⟨rfl, fun fuel => ?_, fun fuel rem => ?_⟩, fun fuel rem w r h => ?_⟩
  · rcases hquote with rfl | ⟨q', rfl, rfl | ⟨q'', rfl⟩⟩
    · cases fuel with
      | zero => exact .inl rfl
      | succ fuel =>
        rcases ht.str fuel with h | ⟨x, d, r, h, hd⟩
        · exact .inl (by show (parseStr fuel t).map _ = none; rw [h, Option.map_none])
        · exact .inr ⟨'{' :: x, d, r, by show (parseStr fuel t).map _ = _; rw [h, Option.map_some], hd⟩
    · rw [ht']
      exact parseStr_open off_brace fuel b
    · exact parseStr_open hc fuel (q'' ++ t)
  · rcases hvalue fuel rem with h | ⟨w, h⟩
    · exact .inl h
    · exact .inr ⟨w, t, h, hbrace⟩
  · rcases hvalue fuel rem with h' | ⟨w', h'⟩
    · rw [h'] at h
      cases h
    · rw [h'] at h
      cases h
      rfl

/-- The text of a torn object and what stands behind it is no value. -/
theorem parse_torn {t : List Char} (ht : Resumes t) {k : String} (hk : StartsOff k) {v : String}
    {fs : List (String × String)} {p : List Char} (hp : p <+: render (flat ((k, v) :: fs))) (hne : p ≠ []) :
    parse (String.ofList (p ++ t)) = none := by
  obtain ⟨b, hb⟩ := List.head?_eq_some_iff.1 ht.head
  unfold parse
  rw [String.toList_ofList]
  cases h : parseValue ((p ++ t).length + 1) ((p ++ t).length + 1) (p ++ t) with
  | none => rfl
  | some w =>
    have hw : w.2 = t := (resumes_torn ht hk hp hne).2 _ _ w.1 w.2 h
    have hspace : (skipSpace w.2).isEmpty = false := by
      rw [hw, hb, skipSpace_cons b (by decide)]
      rfl
    simp only [hspace]
    rfl

end Json
