/-
The string operations of Rust's standard library that the program uses: the Unicode whitespace test
and trimming by it, splitting at the first separator, and prefixes.
-/
import Mathlib.Data.List.DropRight
import Mathlib.Data.String.Basic

namespace Text

/-- `char::is_whitespace`: the Unicode property White_Space. -/
def isWhitespace (c : Char) : Bool :=
  let n := c.toNat
  (9 ≤ n && n ≤ 13) || n == 0x20 || n == 0x85 || n == 0xA0 || n == 0x1680 || (0x2000 ≤ n && n ≤ 0x200A) ||
    n == 0x2028 || n == 0x2029 || n == 0x202F || n == 0x205F || n == 0x3000

/-- `str::trim_end`. -/
def trimEnd (s : String) : String := String.ofList (s.toList.rdropWhile isWhitespace)

/-- `str::trim_start`. -/
def trimStart (s : String) : String := String.ofList (s.toList.dropWhile isWhitespace)

/-- `str::trim`. -/
def trim (s : String) : String := String.ofList ((s.toList.dropWhile isWhitespace).rdropWhile isWhitespace)

/-- `s.trim().is_empty()`. -/
def isBlank (s : String) : Bool := (trim s).isEmpty

/-- `str::split_once` on a character. -/
def splitOnce (sep : Char) (s : String) : Option (String × String) :=
  match s.toList.dropWhile (· ≠ sep) with
  | [] => none
  | _ :: b => some (String.ofList (s.toList.takeWhile (· ≠ sep)), String.ofList b)

/-- `str::split_terminator` on a character: what stands before each separator, and what follows the
last one if there is any. -/
def splitTerminator (sep : Char) (s : String) : List String :=
  let pieces := s.toList.splitOn sep
  (if pieces.getLast? = some [] then pieces.dropLast else pieces).map String.ofList

/-- The text before and after the first place where a pattern occurs. -/
def cutAt (pat : List Char) : List Char → Option (List Char × List Char)
  | [] => if pat = [] then some ([], []) else none
  | c :: cs =>
    if pat.isPrefixOf (c :: cs) then some ([], (c :: cs).drop pat.length)
    else (cutAt pat cs).map fun p => (c :: p.1, p.2)

/-- The part of `s.split(sep)` before the first separator. -/
def firstPart (sep : Char) (s : String) : String := String.ofList (s.toList.takeWhile (· ≠ sep))

/-- `str::trim_end_matches` with a character. -/
def trimEndMatches (c : Char) (s : String) : String := String.ofList (s.toList.rdropWhile (· == c))

/-- `str::trim_start_matches` with a character. -/
def trimStartMatches (c : Char) (s : String) : String := String.ofList (s.toList.dropWhile (· == c))

/-- `str::starts_with`. -/
def startsWith (s pre : String) : Bool := pre.toList.isPrefixOf s.toList

/-- `str::strip_prefix`. -/
def stripPrefix (pre s : String) : Option String :=
  if startsWith s pre then some (String.ofList (s.toList.drop pre.toList.length)) else none

/-- What is left of a text when a pattern is taken off its front as often as it stands there. -/
def dropRepeats (pat : List Char) : Nat → List Char → List Char
  | 0, l => l
  | n + 1, l => if pat.isPrefixOf l then dropRepeats pat n (l.drop pat.length) else l

/-- `str::trim_start_matches` with a text that is not empty. -/
def trimStartText (pat s : String) : String := String.ofList (dropRepeats pat.toList s.toList.length s.toList)

/-- Splitting at the first separator takes a text apart again where it was put together. -/
theorem splitOnce_append {sep : Char} {a b : String} (h : sep ∉ a.toList) :
    splitOnce sep (a ++ String.singleton sep ++ b) = some (a, b) := by
  unfold splitOnce
  have hl : (a ++ String.singleton sep ++ b).toList = a.toList ++ sep :: b.toList := by simp
  have hp : ∀ c ∈ a.toList, decide (c ≠ sep) = true := fun c hc => by
    simp only [ne_eq, decide_not, Bool.not_eq_true', decide_eq_false_iff_not]
    rintro rfl; exact h hc
  rw [hl, List.takeWhile_append_of_pos hp, List.dropWhile_append_of_pos hp]
  simp

/-- A blank text is one of white space only. -/
theorem isBlank_iff {s : String} : isBlank s = true ↔ ∀ c ∈ s.toList, isWhitespace c = true := by
  rw [isBlank, trim, String.isEmpty_iff, String.ofList_eq_empty_iff, List.rdropWhile_eq_nil_iff]
  constructor
  · intro h c hc
    rw [← List.takeWhile_append_dropWhile (p := isWhitespace) (l := s.toList), List.mem_append] at hc
    exact hc.elim List.mem_takeWhile_imp (h c)
  · intro h c hc
    exact h c (List.dropWhile_subset _ hc)

/-- One character that is not white space makes a text not blank. -/
theorem isBlank_eq_false {s : String} {c : Char} (hc : c ∈ s.toList) (h : isWhitespace c = false) :
    isBlank s = false :=
  Bool.eq_false_iff.2 fun hb => Bool.eq_false_iff.1 h (isBlank_iff.1 hb c hc)

/-- A text without white space is trimmed. -/
theorem trim_of_forall {s : String} (h : ∀ c ∈ s.toList, isWhitespace c = false) : trim s = s := by
  have hd : s.toList.dropWhile isWhitespace = s.toList := by
    rw [List.dropWhile_eq_self_iff]
    intro hl
    rw [h _ (List.getElem_mem hl)]
    exact Bool.false_ne_true
  have hr : s.toList.rdropWhile isWhitespace = s.toList := by
    rw [List.rdropWhile_eq_self_iff]
    intro hl
    rw [h _ (List.getLast_mem hl)]
    exact Bool.false_ne_true
  rw [trim, hd, hr, String.ofList_toList]

theorem trim_trim (s : String) : trim (trim s) = trim s := by
  have hd : (trim s).toList.dropWhile isWhitespace = (trim s).toList := by
    rw [trim, String.toList_ofList, List.dropWhile_eq_self_iff]
    intro hl
    have hp := List.rdropWhile_prefix isWhitespace (l := s.toList.dropWhile isWhitespace)
    rw [hp.getElem hl]
    exact List.dropWhile_get_zero_not _ _ _
  rw [trim, hd, trim, String.toList_ofList, List.rdropWhile_idempotent]

theorem splitOnce_some {sep : Char} {s a b : String} (h : splitOnce sep s = some (a, b)) :
    s = a ++ String.singleton sep ++ b ∧ sep ∉ a.toList := by
  unfold splitOnce at h
  split at h
  · cases h
  · rename_i c r hr
    simp only [Option.some.injEq, Prod.mk.injEq] at h
    obtain ⟨rfl, rfl⟩ := h
    have hc : c = sep := by
      have := List.head?_dropWhile_not (fun x => decide (x ≠ sep)) s.toList
      rw [hr] at this
      simpa using this
    subst hc
    refine ⟨?_, fun hm => ?_⟩
    · rw [← String.toList_inj]
      simp only [String.toList_append, String.toList_ofList, String.toList_singleton, List.append_assoc,
        List.singleton_append]
      rw [← hr, List.takeWhile_append_dropWhile]
    · rw [String.toList_ofList] at hm
      simpa using List.mem_takeWhile_imp hm

/-- A piece without the separator comes off the front. -/
theorem splitTerminator_append {sep : Char} {a : String} (h : sep ∉ a.toList) (b : String) :
    splitTerminator sep (a ++ String.singleton sep ++ b) = a :: splitTerminator sep b := by
  have hs : (a ++ String.singleton sep ++ b).toList.splitOn sep = a.toList :: b.toList.splitOn sep := by
    rw [String.toList_append, String.toList_append, String.toList_singleton, List.append_assoc, List.singleton_append,
      List.splitOn_append_cons_self_of_not_mem h]
  have hne : b.toList.splitOn sep ≠ [] := List.splitOn_ne_nil sep _
  unfold splitTerminator
  dsimp only
  rw [hs, List.getLast?_cons_of_ne_nil hne]
  split
  · rw [List.dropLast_cons_of_ne_nil hne, List.map_cons, String.ofList_toList]
  · rw [List.map_cons, String.ofList_toList]

theorem startsWith_iff {s pre : String} : startsWith s pre = true ↔ ∃ rest, s = pre ++ rest := by
  unfold startsWith
  rw [List.isPrefixOf_iff_prefix]
  constructor
  · rintro ⟨l, hl⟩
    exact ⟨String.ofList l, by rw [← String.toList_inj, String.toList_append, String.toList_ofList, hl]⟩
  · rintro ⟨rest, rfl⟩
    exact ⟨rest.toList, by rw [String.toList_append]⟩

theorem startsWith_eq_false_iff {s pre : String} : startsWith s pre = false ↔ ∀ rest, s ≠ pre ++ rest := by
  rw [Bool.eq_false_iff, Ne, startsWith_iff, not_exists]

/-- A front that lacks the first character of the pattern is passed over. -/
theorem cutAt_append_of_not_mem {c : Char} {pat front : List Char} (h : c ∉ front) (l : List Char) :
    cutAt (c :: pat) (front ++ l) = (cutAt (c :: pat) l).map fun p => (front ++ p.1, p.2) := by
  induction front with
  | nil => simp
  | cons d front ih =>
    rw [List.mem_cons, not_or] at h
    rw [List.cons_append, cutAt, if_neg (by simp [List.isPrefixOf, h.1]), ih h.2, Option.map_map]
    rfl

theorem cutAt_append (pat l : List Char) : cutAt pat (pat ++ l) = some ([], l) := by
  cases hl : pat ++ l with
  | nil =>
    obtain ⟨rfl, rfl⟩ := List.append_eq_nil_iff.1 hl
    rfl
  | cons c cs =>
    rw [cutAt, if_pos (by rw [← hl]; exact List.isPrefixOf_iff_prefix.2 (List.prefix_append ..)), ← hl,
      List.drop_left]

/-- A cut is at the first place where the pattern occurs. -/
theorem cutAt_some {pat l : List Char} {p : List Char × List Char} (h : cutAt pat l = some p) :
    l = p.1 ++ pat ++ p.2 ∧ ∀ a b, l = a ++ pat ++ b → p.1.length ≤ a.length := by
  induction l generalizing p with
  | nil =>
    rw [cutAt] at h
    split at h
    · rename_i hp
      cases h
      subst hp
      exact ⟨rfl, fun a b _ => Nat.zero_le _⟩
    · cases h
  | cons c cs ih =>
    rw [cutAt] at h
    split at h
    · rename_i hp
      cases h
      refine ⟨?_, fun a b _ => Nat.zero_le _⟩
      obtain ⟨t, ht⟩ := List.isPrefixOf_iff_prefix.1 hp
      rw [← ht, List.drop_left, List.nil_append]
    · rename_i hp
      obtain ⟨q, hq, rfl⟩ := Option.map_eq_some_iff.1 h
      obtain ⟨hcut, hfirst⟩ := ih hq
      refine ⟨by rw [List.cons_append, List.cons_append, ← hcut], fun a b hab => ?_⟩
      cases a with
      | nil =>
        rw [hab, List.nil_append] at hp
        exact absurd (List.isPrefixOf_iff_prefix.2 (List.prefix_append ..)) hp
      | cons d a =>
        rw [List.cons_append, List.cons_append, List.cons.injEq] at hab
        exact Nat.succ_le_succ (hfirst a b hab.2)

theorem cutAt_none_iff {pat l : List Char} : cutAt pat l = none ↔ ¬ pat <:+: l := by
  induction l with
  | nil => 
    rw [cutAt, List.infix_nil]
    split <;> simp [*]
  | cons c cs ih =>
    rw [cutAt, List.infix_cons_iff, not_or, ← List.isPrefixOf_iff_prefix, ← ih]
    split <;> simp [*]

/-- Where the pattern first occurs, the text is cut. -/
theorem cutAt_of_first {pat a b : List Char} (h : ∀ a' b', a ++ pat ++ b = a' ++ pat ++ b' → a.length ≤ a'.length) :
    cutAt pat (a ++ pat ++ b) = some (a, b) := by
  cases hc : cutAt pat (a ++ pat ++ b) with
  | none => exact absurd ⟨a, b, rfl⟩ (cutAt_none_iff.1 hc)
  | some p =>
    obtain ⟨hp, hfirst⟩ := cutAt_some hc
    have hl : a.length = p.1.length := le_antisymm (h _ _ hp) (hfirst _ _ rfl)
    obtain ⟨hab, hb⟩ := List.append_inj hp (by rw [List.length_append, List.length_append, hl])
    rw [(List.append_inj hab hl).1, hb]

/-- Trimming at the end stops at the last character that stays. -/
theorem rdropWhile_append_of_last {α : Type*} {p : α → Bool} {x y : List α} (h : ∀ c ∈ x.getLast?, p c = false) :
    (x ++ y).rdropWhile p = x ++ y.rdropWhile p := by
  have hx : x.reverse.dropWhile p = x.reverse := by
    rw [List.dropWhile_eq_self_iff]
    intro hl
    rw [h _ (by rw [← List.head?_reverse, List.head?_eq_getElem?, List.getElem?_eq_getElem hl]; rfl)]
    exact Bool.false_ne_true
  unfold List.rdropWhile
  rw [List.reverse_append, List.dropWhile_append, hx]
  split
  · rename_i he
    rw [List.isEmpty_iff.1 he, List.reverse_reverse, List.reverse_nil, List.append_nil]
  · rw [List.reverse_append, List.reverse_reverse]

theorem rdropWhile_append_of_pos {α : Type*} {p : α → Bool} {x y : List α} (h : ∀ c ∈ y, p c = true) :
    (x ++ y).rdropWhile p = x.rdropWhile p := by
  unfold List.rdropWhile
  rw [List.reverse_append, List.dropWhile_append_of_pos fun c hc => h c (List.mem_reverse.1 hc)]

/-- Trimming at the front stops at the first character that stays. -/
theorem dropWhile_append_cons {α : Type*} {p : α → Bool} {x y : List α} {c : α} (h : p c = false) :
    (x ++ c :: y).dropWhile p = x.dropWhile p ++ c :: y := by
  have hc : (c :: y).dropWhile p = c :: y := by rw [List.dropWhile_cons, if_neg (Bool.eq_false_iff.1 h)]
  rw [List.dropWhile_append, hc]
  split
  · rename_i he
    rw [List.isEmpty_iff.1 he, List.nil_append]
  · rfl

theorem stripPrefix_append (pre s : String) : stripPrefix pre (pre ++ s) = some s := by
  rw [stripPrefix, if_pos (startsWith_iff.2 ⟨s, rfl⟩), String.toList_append, List.drop_left, String.ofList_toList]

theorem stripPrefix_eq_none {pre s : String} (h : startsWith s pre = false) : stripPrefix pre s = none := by
  rw [stripPrefix, if_neg (Bool.eq_false_iff.1 h)]

/-- One occurrence in front is taken off once. -/
theorem trimStartText_append {pat s : String} (hpat : pat ≠ "") (h : startsWith s pat = false) :
    trimStartText pat (pat ++ s) = s := by
  have hstop : ∀ n, dropRepeats pat.toList n s.toList = s.toList := by
    intro n
    cases n with
    | zero => rfl
    | succ n => rw [dropRepeats, if_neg (by rw [← startsWith, h]; exact Bool.false_ne_true)]
  obtain ⟨c, cs, hc⟩ := List.exists_cons_of_ne_nil fun hn => hpat (String.toList_eq_nil_iff.1 hn)
  have hlen : (pat ++ s).toList.length = (cs.length + s.toList.length) + 1 := by
    rw [String.toList_append, List.length_append, hc, List.length_cons]
    omega
  rw [trimStartText, hlen, dropRepeats, String.toList_append,
    if_pos (List.isPrefixOf_iff_prefix.2 (List.prefix_append ..)), List.drop_left, hstop, String.ofList_toList]

theorem firstPart_append {sep : Char} {a rest : String} (ha : sep ∉ a.toList) :
    firstPart sep (a ++ rest) = a ++ firstPart sep rest := by
  unfold firstPart
  rw [String.toList_append, List.takeWhile_append_of_pos, String.ofList_append, String.ofList_toList]
  intro c hc
  rw [decide_eq_true_iff]
  rintro rfl
  exact ha hc

theorem firstPart_cons (sep : Char) (s : String) : firstPart sep (String.singleton sep ++ s) = "" := by
  simp [firstPart]

theorem firstPart_of_not_mem {sep : Char} {s : String} (h : sep ∉ s.toList) : firstPart sep s = s := by
  have hs : firstPart sep (s ++ "") = s ++ firstPart sep "" := firstPart_append h
  rwa [String.append_empty, show firstPart sep "" = "" from rfl, String.append_empty] at hs

/-- The first part does not depend on what follows a separator. -/
theorem firstPart_append_sep (sep : Char) (s rest : String) :
    firstPart sep (s ++ (String.singleton sep ++ rest)) = firstPart sep s := by
  by_cases h : sep ∈ s.toList
  · obtain ⟨as, bs, hs, hm⟩ := List.eq_append_cons_of_mem h
    have he : s = String.ofList as ++ (String.singleton sep ++ String.ofList bs) := by
      rw [← String.toList_inj, hs]
      simp
    have ha : sep ∉ (String.ofList as).toList := by rwa [String.toList_ofList]
    rw [he, String.append_assoc, firstPart_append ha, firstPart_append ha, String.append_assoc, firstPart_cons,
      firstPart_cons]
  · rw [firstPart_append h, firstPart_cons, String.append_empty, firstPart_of_not_mem h]

theorem isWhitespace_letter {c : Char} (h1 : 65 ≤ c.toNat) (h2 : c.toNat ≤ 122) : isWhitespace c = false := by
  unfold isWhitespace
  simp only [Bool.or_eq_false_iff, Bool.and_eq_false_iff, decide_eq_false_iff_not, beq_eq_false_iff_ne]
  omega

/-- The case of an ASCII letter makes no white space. -/
theorem isWhitespace_toLower (c : Char) : isWhitespace c.toLower = isWhitespace c := by
  unfold Char.toLower
  split
  · rename_i h
    have h1 : 65 ≤ c.toNat := UInt32.le_iff_toNat_le.1 h.1
    have h2 : c.toNat ≤ 90 := UInt32.le_iff_toNat_le.1 h.2
    have hn : (c.val + ('a'.val - 'A'.val)).toNat = c.toNat + 32 := by
      rw [UInt32.toNat_add]
      show (c.toNat + 32) % 2 ^ 32 = _
      omega
    rw [isWhitespace_letter h1 (by omega)]
    refine isWhitespace_letter ?_ ?_
    · show 65 ≤ (c.val + ('a'.val - 'A'.val)).toNat
      omega
    · show (c.val + ('a'.val - 'A'.val)).toNat ≤ 122
      omega
  · rfl

theorem trim_pad {l p r : String} (hl : isBlank l = true) (hr : isBlank r = true) : trim (l ++ p ++ r) = trim p := by
  rw [isBlank_iff] at hl hr
  unfold trim
  rw [String.toList_append, String.toList_append, List.append_assoc, List.dropWhile_append_of_pos hl,
    List.dropWhile_append]
  split
  · rename_i hp
    have hd : r.toList.dropWhile isWhitespace = [] := List.dropWhile_eq_nil_iff.2 hr
    rw [List.isEmpty_iff.1 hp, hd]
  · rw [rdropWhile_append_of_pos hr]

/-- What stands between separators is part of the text. -/
theorem mem_of_mem_splitOn {sep c : Char} {l piece : List Char} (hp : piece ∈ l.splitOn sep) (hc : c ∈ piece) :
    c ∈ l := by
  induction l generalizing piece with
  | nil =>
    rw [List.splitOn_nil, List.mem_singleton] at hp
    subst hp
    cases hc
  | cons d l ih =>
    rw [List.splitOn_cons_eq_if_modifyHead] at hp
    split at hp
    · rcases List.mem_cons.1 hp with rfl | hp
      · cases hc
      · exact List.mem_cons_of_mem _ (ih hp hc)
    · cases hs : l.splitOn sep with
      | nil =>
        rw [hs] at hp
        cases hp
      | cons first rest =>
        rw [hs, List.modifyHead_cons, List.mem_cons] at hp
        rcases hp with rfl | hp
        · rcases List.mem_cons.1 hc with rfl | hc
          · exact List.mem_cons_self
          · exact List.mem_cons_of_mem _ (ih (hs ▸ List.mem_cons_self) hc)
        · exact List.mem_cons_of_mem _ (ih (hs ▸ List.mem_cons_of_mem _ hp) hc)

end Text
