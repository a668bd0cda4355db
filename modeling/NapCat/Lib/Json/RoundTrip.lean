/-
The text round trip: a parser gives the value of a printed text back exactly when its nesting is below the limit,
and fails when it is not; a text as a whole has room for its nesting, and is read back as the value it was printed
from.
-/
import NapCat.Lib.Json.Basic
import Mathlib.Tactic.IntervalCases

namespace Json

/-! ## Strings -/

theorem hex4_hexDigit : ∀ n < 32, hex4 '0' '0' (hexDigit (n / 16)) (hexDigit (n % 16)) = some n := by decide

theorem strChar_controlEscape {n : Nat} (hn : n < 32) (r : List Char) :
    strChar (controlEscape n ++ r) = some (some (Char.ofNat n), r) := by
  unfold controlEscape
  split_ifs with h1 h2 h3 h4 h5
  · subst h1; rfl
  · subst h2; rfl
  · subst h3; rfl
  · subst h4; rfl
  · subst h5; rfl
  · simp only [List.cons_append, List.nil_append, strChar, Char.reduceEq, if_false, if_true, unicodeEscape,
      hex4_hexDigit n hn]
    rw [if_neg (by omega), if_neg (by omega), Option.map_some]

/-- The escape of a character is read back as the character. -/
theorem strChar_escapeChar (c : Char) (r : List Char) : strChar (escapeChar c ++ r) = some (some c, r) := by
  unfold escapeChar
  by_cases hq : c = '"'
  · subst hq; rfl
  by_cases hb : c = '\\'
  · subst hb; rfl
  rw [if_neg hq, if_neg hb]
  by_cases hc : c.toNat < 0x20
  · rw [if_pos hc, strChar_controlEscape hc, Char.ofNat_toNat]
  · rw [if_neg hc, List.singleton_append]
    simp only [strChar, hq, hb, hc, if_false]

theorem parseStr_escaped (s r : List Char) :
    ∀ fuel, s.length < fuel → parseStr fuel (s.flatMap escapeChar ++ '"' :: r) = some (s, r) := by
  induction s with
  | nil =>
    intro fuel h
    obtain ⟨f, rfl⟩ : ∃ f, fuel = f + 1 := ⟨fuel - 1, by omega⟩
    rfl
  | cons c s ih =>
    intro fuel h
    obtain ⟨f, rfl⟩ : ∃ f, fuel = f + 1 := ⟨fuel - 1, by omega⟩
    rw [List.flatMap_cons, List.append_assoc, parseStr, strChar_escapeChar]
    simp only [List.length_cons] at h
    simp only [ih f (by omega), Option.map_some]

theorem one_le_length_escapeChar (c : Char) : 1 ≤ (escapeChar c).length := by
  unfold escapeChar controlEscape
  split_ifs <;> simp

theorem length_le_length_escaped (s : List Char) : s.length ≤ (s.flatMap escapeChar).length := by
  induction s with
  | nil => exact Nat.le_refl _
  | cons c s ih =>
    have := one_le_length_escapeChar c
    rw [List.flatMap_cons, List.length_append, List.length_cons]
    omega

/-- A quoted string, past its opening quote, is read back with the text after it. -/
theorem parseStr_quote (s r : List Char) :
    parseStr (s.flatMap escapeChar ++ '"' :: r).length (s.flatMap escapeChar ++ '"' :: r) = some (s, r) := by
  apply parseStr_escaped
  have := length_le_length_escaped s
  simp only [List.length_append, List.length_cons]
  omega

theorem quote_append (s r : List Char) : quote s ++ r = '"' :: (s.flatMap escapeChar ++ '"' :: r) := by
  simp [quote]

/-! ## Numbers -/

/-- A text before which a number literal ends. -/
def NumEnd (r : List Char) : Prop := ∀ c ∈ r.head?, isNumChar c = false

theorem numEnd_nil : NumEnd [] := by simp [NumEnd]

theorem numEnd_cons {c : Char} {r : List Char} (h : isNumChar c = false) : NumEnd (c :: r) := by
  intro d hd
  simp only [List.head?_cons, Option.mem_def, Option.some.injEq] at hd
  exact hd ▸ h

theorem Num.all_numChar (n : Num) : ∀ c ∈ n.lit, isNumChar c = true := by
  have h := n.valid
  simp only [isNumber, Bool.and_eq_true, List.all_eq_true] at h
  exact h.1

theorem Num.exists_cons (n : Num) : ∃ c r, n.lit = c :: r ∧ isNumChar c = true := by
  have hall := n.all_numChar
  have h := n.valid
  cases hl : n.lit with
  | nil => rw [hl] at h; simp [isNumber, unsigned] at h
  | cons c r => exact ⟨c, r, rfl, hall c (by rw [hl]; exact List.mem_cons_self)⟩

theorem dropWhile_numEnd {r : List Char} (hr : NumEnd r) : r.dropWhile isNumChar = r := by
  cases r with
  | nil => rfl
  | cons c r => rw [List.dropWhile_cons_of_neg (by rw [hr c rfl]; simp)]

theorem takeWhile_numEnd {r : List Char} (hr : NumEnd r) : r.takeWhile isNumChar = [] := by
  cases r with
  | nil => rfl
  | cons c r => rw [List.takeWhile_cons_of_neg (by rw [hr c rfl]; simp)]

theorem parseNum_lit (n : Num) {r : List Char} (hr : NumEnd r) : parseNum (n.lit ++ r) = some (.num n, r) := by
  have ht : (n.lit ++ r).takeWhile isNumChar = n.lit := by
    rw [List.takeWhile_append_of_pos n.all_numChar, takeWhile_numEnd hr, List.append_nil]
  have hd : (n.lit ++ r).dropWhile isNumChar = r := by
    rw [List.dropWhile_append_of_pos n.all_numChar, dropWhile_numEnd hr]
  unfold parseNum
  rw [dif_pos (by rw [ht]; exact n.valid)]
  simp only [ht, hd]

/-! ## The first character of a text -/

/-- A character that starts a value. -/
def StartsValue (c : Char) : Prop := isSpace c = false ∧ c ≠ ']' ∧ c ≠ '}'

theorem numChar_ne {c : Char} (h : isNumChar c = true) :
    StartsValue c ∧ c ≠ 'n' ∧ c ≠ 't' ∧ c ≠ 'f' ∧ c ≠ '"' ∧ c ≠ '[' ∧ c ≠ '{' := by
  have hs : isSpace c = false := by
    by_contra hne
    simp only [isSpace, Bool.not_eq_false, Bool.or_eq_true, beq_iff_eq] at hne
    rcases hne with ((rfl | rfl) | rfl) | rfl <;> revert h <;> decide
  refine ⟨⟨hs, ?_, ?_⟩, ?_, ?_, ?_, ?_, ?_, ?_⟩ <;> rintro rfl <;> revert h <;> decide

theorem render_head (j : Json) : ∃ c r, render j = c :: r ∧ StartsValue c := by
  match j with
  | .null => exact ⟨_, _, rfl, by decide, by decide, by decide⟩
  | .bool true => exact ⟨_, _, rfl, by decide, by decide, by decide⟩
  | .bool false => exact ⟨_, _, rfl, by decide, by decide, by decide⟩
  | .num n =>
    obtain ⟨c, r, hl, hc⟩ := n.exists_cons
    exact ⟨c, r, by rw [render, hl], (numChar_ne hc).1⟩
  | .str s => exact ⟨_, _, rfl, by decide, by decide, by decide⟩
  | .arr [] => exact ⟨_, _, rfl, by decide, by decide, by decide⟩
  | .arr (x :: xs) => exact ⟨'[', _, by rw [render], by decide, by decide, by decide⟩
  | .obj [] => exact ⟨_, _, rfl, by decide, by decide, by decide⟩
  | .obj ((k, v) :: fs) => exact ⟨'{', _, by rw [render], by decide, by decide, by decide⟩

theorem one_le_length_render (j : Json) : 1 ≤ (render j).length := by
  obtain ⟨c, r, h, -⟩ := render_head j
  rw [h, List.length_cons]; omega

theorem skipSpace_cons {c : Char} (r : List Char) (h : isSpace c = false) : skipSpace (c :: r) = c :: r :=
  List.dropWhile_cons_of_neg (by rw [h]; simp)

theorem skipSpace_render (j : Json) (r : List Char) : skipSpace (render j ++ r) = render j ++ r := by
  obtain ⟨c, t, h, hc, -⟩ := render_head j
  rw [h, List.cons_append, skipSpace_cons _ hc]

theorem render_head_ne (j : Json) (r : List Char) :
    (render j ++ r).head? ≠ some ']' ∧ (render j ++ r).head? ≠ some '}' := by
  obtain ⟨c, t, h, -, h1, h2⟩ := render_head j
  rw [h]
  simp [h1, h2]

/-! ## One level of the parser -/

theorem parseValue_num (n : Num) (fuel rem : Nat) {r : List Char} (hr : NumEnd r) :
    parseValue (fuel + 1) rem (n.lit ++ r) = some (.num n, r) := by
  obtain ⟨c, t, hl, hc⟩ := n.exists_cons
  obtain ⟨⟨hs, -, -⟩, h1, h2, h3, h4, h5, h6⟩ := numChar_ne hc
  have hp := parseNum_lit n hr
  rw [hl, List.cons_append] at hp ⊢
  rw [parseValue, skipSpace_cons _ hs]
  simp only [h1, h2, h3, h4, h5, h6, if_false]
  exact hp

theorem parseValue_str (s : String) (fuel rem : Nat) (r : List Char) :
    parseValue (fuel + 1) rem (quote s.toList ++ r) = some (.str s, r) := by
  rw [quote_append, parseValue, skipSpace_cons _ (by decide)]
  simp only [Char.reduceEq, if_false, if_true, parseStr_quote, Option.map_some, String.ofList_toList]

theorem parseValue_arr (fuel rem : Nat) (x : Json) (r : List Char) :
    parseValue (fuel + 1) rem ('[' :: (render x ++ r)) =
      if rem ≤ 1 then none
      else (parseItems fuel (rem - 1) (render x ++ r)).map fun p => (.arr p.1, p.2) := by
  rw [parseValue, skipSpace_cons _ (by decide)]
  simp only [Char.reduceEq, if_false, if_true, skipSpace_render, (render_head_ne x r).1]

theorem parseValue_obj (fuel rem : Nat) (k r : List Char) :
    parseValue (fuel + 1) rem ('{' :: (quote k ++ r)) =
      if rem ≤ 1 then none
      else (parseFields fuel (rem - 1) (quote k ++ r)).map fun p => (.obj p.1, p.2) := by
  rw [parseValue, skipSpace_cons _ (by decide)]
  simp only [Char.reduceEq, if_false, if_true]
  rw [quote_append, skipSpace_cons _ (by decide)]
  simp only [List.head?_cons, Option.some.injEq, Char.reduceEq, if_false]

theorem parseItems_cons (fuel rem : Nat) (cs : List Char) (x : Json) (r : List Char)
    (h : parseValue fuel rem cs = some (x, ',' :: r)) :
    parseItems (fuel + 1) rem cs = (parseItems fuel rem r).map fun p => (x :: p.1, p.2) := by
  rw [parseItems, h]
  simp only [skipSpace_cons r (show isSpace ',' = false by decide)]

theorem parseItems_last (fuel rem : Nat) (cs : List Char) (x : Json) (r : List Char)
    (h : parseValue fuel rem cs = some (x, ']' :: r)) :
    parseItems (fuel + 1) rem cs = some ([x], r) := by
  rw [parseItems, h]
  simp only [skipSpace_cons r (show isSpace ']' = false by decide)]

theorem parseItems_none (fuel rem : Nat) (cs : List Char) (h : parseValue fuel rem cs = none) :
    parseItems (fuel + 1) rem cs = none := by
  rw [parseItems, h]

theorem parseFields_cons (fuel rem : Nat) (k : String) (cs : List Char) (v : Json) (r : List Char)
    (h : parseValue fuel rem cs = some (v, ',' :: r)) :
    parseFields (fuel + 1) rem (quote k.toList ++ ':' :: cs) =
      (parseFields fuel rem r).map fun p => ((k, v) :: p.1, p.2) := by
  rw [quote_append, parseFields, skipSpace_cons _ (by decide)]
  simp only [parseStr_quote, skipSpace_cons cs (show isSpace ':' = false by decide), h,
    skipSpace_cons r (show isSpace ',' = false by decide), String.ofList_toList]

theorem parseFields_last (fuel rem : Nat) (k : String) (cs : List Char) (v : Json) (r : List Char)
    (h : parseValue fuel rem cs = some (v, '}' :: r)) :
    parseFields (fuel + 1) rem (quote k.toList ++ ':' :: cs) = some ([(k, v)], r) := by
  rw [quote_append, parseFields, skipSpace_cons _ (by decide)]
  simp only [parseStr_quote, skipSpace_cons cs (show isSpace ':' = false by decide), h,
    skipSpace_cons r (show isSpace '}' = false by decide), String.ofList_toList]

theorem parseFields_none (fuel rem : Nat) (k : String) (cs : List Char) (h : parseValue fuel rem cs = none) :
    parseFields (fuel + 1) rem (quote k.toList ++ ':' :: cs) = none := by
  rw [quote_append, parseFields, skipSpace_cons _ (by decide)]
  simp only [parseStr_quote, skipSpace_cons cs (show isSpace ':' = false by decide), h]

/-! ## The round trip -/

mutual

/-- Reading the text of a value back: the value, if its nesting is below the limit. -/
theorem parseValue_render : ∀ (j : Json) (fuel rem : Nat) (r : List Char),
    (render j).length ≤ fuel → 1 ≤ rem → NumEnd r →
    parseValue fuel rem (render j ++ r) = if depth j < rem then some (j, r) else none
  | j, 0, _, _, h, _, _ => by
    have := one_le_length_render j; omega
  | .null, fuel + 1, rem, r, _, h, _ => by
    rw [if_pos (by simp only [depth]; omega)]; rfl
  | .bool true, fuel + 1, rem, r, _, h, _ => by
    rw [if_pos (by simp only [depth]; omega)]; rfl
  | .bool false, fuel + 1, rem, r, _, h, _ => by
    rw [if_pos (by simp only [depth]; omega)]; rfl
  | .num n, fuel + 1, rem, r, _, h, hr => by
    rw [if_pos (by simp only [depth]; omega), render]
    exact parseValue_num n fuel rem hr
  | .str s, fuel + 1, rem, r, _, h, _ => by
    rw [if_pos (by simp only [depth]; omega), render]
    exact parseValue_str s fuel rem r
  | .arr [], fuel + 1, rem, r, _, h, _ => by
    have : parseValue (fuel + 1) rem (render (.arr []) ++ r) = if rem ≤ 1 then none else some (.arr [], r) := rfl
    rw [this]
    simp only [depth, depthItems, Nat.zero_add]
    split_ifs <;> first | rfl | omega
  | .arr (x :: xs), fuel + 1, rem, r, hf, h, _ => by
    simp only [render, List.length_cons] at hf
    rw [render, List.cons_append, List.append_assoc, parseValue_arr, depth]
    by_cases h1 : rem ≤ 1
    · rw [if_pos h1, if_neg (by omega)]
    · -- one level down, with one level less to go
      rw [if_neg h1, parseItems_render x xs fuel (rem - 1) r (by simpa using hf) (by omega)]
      by_cases hd : depthItems (x :: xs) < rem - 1
      · rw [if_pos hd, if_pos (by omega), Option.map_some]
      · rw [if_neg hd, if_neg (by omega), Option.map_none]
  | .obj [], fuel + 1, rem, r, _, h, _ => by
    have : parseValue (fuel + 1) rem (render (.obj []) ++ r) = if rem ≤ 1 then none else some (.obj [], r) := rfl
    rw [this]
    simp only [depth, depthFields, Nat.zero_add]
    split_ifs <;> first | rfl | omega
  | .obj ((k, v) :: fs), fuel + 1, rem, r, hf, h, _ => by
    simp only [render, List.length_cons, List.length_append] at hf
    rw [render, List.cons_append, List.append_assoc, List.cons_append, List.append_assoc, parseValue_obj, depth]
    by_cases h1 : rem ≤ 1
    · rw [if_pos h1, if_neg (by omega)]
    · rw [if_neg h1, parseFields_render k v fs fuel (rem - 1) r (by omega) (by omega)]
      by_cases hd : depthFields ((k, v) :: fs) < rem - 1
      · rw [if_pos hd, if_pos (by omega), Option.map_some]
      · rw [if_neg hd, if_neg (by omega), Option.map_none]

theorem parseItems_render : ∀ (x : Json) (xs : List Json) (fuel rem : Nat) (r : List Char),
    (render x ++ renderItems xs).length ≤ fuel → 1 ≤ rem →
    parseItems fuel rem (render x ++ (renderItems xs ++ r)) =
      if depthItems (x :: xs) < rem then some (x :: xs, r) else none
  | x, xs, 0, _, _, hf, _ => by
    have := one_le_length_render x
    simp only [List.length_append] at hf; omega
  | x, [], fuel + 1, rem, r, hf, h => by
    simp only [renderItems, List.length_append, List.length_cons, List.length_nil] at hf
    have hx := parseValue_render x fuel rem (']' :: r) (by omega) h (numEnd_cons (by decide))
    simp only [depthItems, Nat.max_zero]
    by_cases hd : depth x < rem
    · rw [if_pos hd] at hx ⊢
      exact parseItems_last fuel rem _ x r hx
    · rw [if_neg hd] at hx ⊢
      exact parseItems_none fuel rem _ hx
  | x, y :: ys, fuel + 1, rem, r, hf, h => by
    simp only [renderItems, List.length_append, List.length_cons] at hf
    have hy := parseItems_render y ys fuel rem r (by rw [List.length_append]; omega) h
    -- a comma ends a number literal, so the first item is read back by itself
    have hx := parseValue_render x fuel rem (',' :: (render y ++ (renderItems ys ++ r))) (by omega) h
      (numEnd_cons (by decide))
    rw [renderItems, List.cons_append, List.append_assoc, depthItems]
    by_cases hd : depth x < rem
    · rw [if_pos hd] at hx
      rw [parseItems_cons fuel rem _ x _ hx, hy]
      by_cases he : depthItems (y :: ys) < rem
      · rw [if_pos he, if_pos (by omega), Option.map_some]
      · rw [if_neg he, if_neg (by omega), Option.map_none]
    · rw [if_neg hd] at hx
      rw [if_neg (by omega)]
      exact parseItems_none fuel rem _ hx

theorem parseFields_render : ∀ (k : String) (v : Json) (fs : List (String × Json)) (fuel rem : Nat) (r : List Char),
    (render v).length + (renderFields fs).length ≤ fuel → 1 ≤ rem →
    parseFields fuel rem (quote k.toList ++ ':' :: (render v ++ (renderFields fs ++ r))) =
      if depthFields ((k, v) :: fs) < rem then some ((k, v) :: fs, r) else none
  | k, v, fs, 0, _, _, hf, _ => by
    have := one_le_length_render v
    omega
  | k, v, [], fuel + 1, rem, r, hf, h => by
    simp only [renderFields, List.length_cons, List.length_nil] at hf
    have hx := parseValue_render v fuel rem ('}' :: r) (by omega) h (numEnd_cons (by decide))
    simp only [depthFields, Nat.max_zero]
    by_cases hd : depth v < rem
    · rw [if_pos hd] at hx ⊢
      exact parseFields_last fuel rem k _ v r hx
    · rw [if_neg hd] at hx ⊢
      exact parseFields_none fuel rem k _ hx
  | k, v, (l, w) :: fs, fuel + 1, rem, r, hf, h => by
    simp only [renderFields, List.length_append, List.length_cons] at hf
    have hy := parseFields_render l w fs fuel rem r (by omega) h
    have hx := parseValue_render v fuel rem
      (',' :: (quote l.toList ++ ':' :: (render w ++ (renderFields fs ++ r)))) (by omega) h (numEnd_cons (by decide))
    rw [renderFields, List.cons_append, List.append_assoc, List.cons_append, List.append_assoc, depthFields]
    by_cases hd : depth v < rem
    · rw [if_pos hd] at hx
      rw [parseFields_cons fuel rem k _ v _ hx, hy]
      by_cases he : depthFields ((l, w) :: fs) < rem
      · rw [if_pos he, if_pos (by omega), Option.map_some]
      · rw [if_neg he, if_neg (by omega), Option.map_none]
    · rw [if_neg hd] at hx
      rw [if_neg (by omega)]
      exact parseFields_none fuel rem k _ hx

end

mutual

/-- A text opens what it nests. -/
theorem depth_le_length_render : ∀ j : Json, depth j ≤ (render j).length
  | .null | .bool _ | .num _ | .str _ => Nat.zero_le _
  | .arr [] | .obj [] => Nat.le_succ _
  | .arr (x :: xs) => by
    have hx := depth_le_length_render x
    have hxs := depthItems_le_length_render xs
    rw [depth, depthItems, render, List.length_cons, List.length_append]
    omega
  | .obj ((k, v) :: fs) => by
    have hv := depth_le_length_render v
    have hfs := depthFields_le_length_render fs
    rw [depth, depthFields, render, List.length_cons, List.length_append, List.length_cons, List.length_append]
    omega

theorem depthItems_le_length_render : ∀ xs : List Json, depthItems xs ≤ (renderItems xs).length
  | [] => Nat.zero_le _
  | x :: xs => by
    have hx := depth_le_length_render x
    have hxs := depthItems_le_length_render xs
    rw [depthItems, renderItems, List.length_cons, List.length_append]
    omega

theorem depthFields_le_length_render : ∀ fs : List (String × Json), depthFields fs ≤ (renderFields fs).length
  | [] => Nat.zero_le _
  | (k, v) :: fs => by
    have hv := depth_le_length_render v
    have hfs := depthFields_le_length_render fs
    rw [depthFields, renderFields, List.length_cons, List.length_append, List.length_cons, List.length_append]
    omega

end

/-- The text of a value is read back as the value. -/
theorem parse_toText (j : Json) : parse j.toText = some j := by
  have hd : j.depth < (render j).length + 1 := Nat.lt_succ_of_le (depth_le_length_render j)
  have h := parseValue_render j ((render j).length + 1) ((render j).length + 1) [] (by omega) (by omega) numEnd_nil
  rw [List.append_nil, if_pos hd] at h
  unfold parse toText
  rw [String.toList_ofList, h]
  rfl

/-! ## The characters of a printed text -/

theorem printable_of_all {cs : List Char} (h : (cs.all fun c => 0x20 ≤ c.toNat) = true) : ∀ c ∈ cs, 0x20 ≤ c.toNat :=
  fun c hc => of_decide_eq_true (List.all_eq_true.1 h c hc)

theorem escapeChar_printable (c : Char) : ∀ d ∈ escapeChar c, 0x20 ≤ d.toNat := by
  unfold escapeChar
  split_ifs with h1 h2 h3
  · exact printable_of_all rfl
  · exact printable_of_all rfl
  · have : ∀ n < 0x20, ((controlEscape n).all fun d => 0x20 ≤ d.toNat) = true := by decide
    exact printable_of_all (this _ h3)
  · intro d hd
    rw [List.mem_singleton.1 hd]
    omega

theorem quote_printable (s : List Char) : ∀ c ∈ quote s, 0x20 ≤ c.toNat := by
  intro c hc
  simp only [quote, List.mem_cons, List.mem_append, List.mem_flatMap, List.not_mem_nil, or_false] at hc
  rcases hc with rfl | ⟨d, -, hd⟩ | rfl
  · decide
  · exact escapeChar_printable d c hd
  · decide

theorem isNumChar_printable {c : Char} (h : isNumChar c = true) : 0x20 ≤ c.toNat := by
  simp only [isNumChar, Bool.or_eq_true, beq_iff_eq, Char.isDigit, Bool.and_eq_true, decide_eq_true_eq] at h
  rcases h with ((((⟨h, -⟩ | rfl) | rfl) | rfl) | rfl) | rfl
  · have : (48 : UInt32).toNat ≤ c.val.toNat := h
    show 0x20 ≤ c.val.toNat
    have h48 : (48 : UInt32).toNat = 48 := rfl
    omega
  all_goals decide

mutual

/-- A printed text has no control characters. -/
theorem render_printable : ∀ (j : Json), ∀ c ∈ render j, 0x20 ≤ c.toNat
  | .null => printable_of_all rfl
  | .bool true => printable_of_all rfl
  | .bool false => printable_of_all rfl
  | .num n => fun c hc => by
    have hv := n.valid
    simp only [isNumber, Bool.and_eq_true, List.all_eq_true] at hv
    exact isNumChar_printable (hv.1 c hc)
  | .str s => quote_printable _
  | .arr [] => printable_of_all rfl
  | .arr (x :: xs) => fun c hc => by
    simp only [render, List.mem_cons, List.mem_append] at hc
    rcases hc with rfl | hc | hc
    · decide
    · exact render_printable x c hc
    · exact renderItems_printable xs c hc
  | .obj [] => printable_of_all rfl
  | .obj ((k, v) :: fs) => fun c hc => by
    simp only [render, List.mem_cons, List.mem_append] at hc
    rcases hc with rfl | hc | rfl | hc | hc
    · decide
    · exact quote_printable _ c hc
    · decide
    · exact render_printable v c hc
    · exact renderFields_printable fs c hc

theorem renderItems_printable : ∀ (xs : List Json), ∀ c ∈ renderItems xs, 0x20 ≤ c.toNat
  | [] => printable_of_all rfl
  | x :: xs => fun c hc => by
    simp only [renderItems, List.mem_cons, List.mem_append] at hc
    rcases hc with rfl | hc | hc
    · decide
    · exact render_printable x c hc
    · exact renderItems_printable xs c hc

theorem renderFields_printable : ∀ (fs : List (String × Json)), ∀ c ∈ renderFields fs, 0x20 ≤ c.toNat
  | [] => printable_of_all rfl
  | (k, v) :: fs => fun c hc => by
    simp only [renderFields, List.mem_cons, List.mem_append] at hc
    rcases hc with rfl | hc | rfl | hc | hc
    · decide
    · exact quote_printable _ c hc
    · decide
    · exact render_printable v c hc
    · exact renderFields_printable fs c hc

end

theorem renderFields_getLast? : ∀ fs : List (String × Json), (renderFields fs).getLast? = some '}'
  | [] => rfl
  | (k, v) :: fs => by
    have h : renderFields ((k, v) :: fs) = (',' :: quote k.toList ++ ':' :: render v) ++ renderFields fs := by
      simp [renderFields]
    rw [h, List.getLast?_append, renderFields_getLast? fs]; rfl

/-- The text of an object ends in its brace. -/
theorem render_obj_getLast? : ∀ fs : List (String × Json), (render (.obj fs)).getLast? = some '}'
  | [] => rfl
  | (k, v) :: fs => by
    have h : render (.obj ((k, v) :: fs)) = ('{' :: quote k.toList ++ ':' :: render v) ++ renderFields fs := by
      simp [render]
    rw [h, List.getLast?_append, renderFields_getLast? fs]; rfl

end Json
