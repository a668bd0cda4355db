/-
Percent-decoding of bytes: a `%` before two hexadecimal digits and the digits stand for one byte, every
other byte for itself. A sequence decodes to itself exactly when it has no such escape.
-/
import Mathlib.Data.List.Basic

namespace Percent

def mark : UInt8 := 0x25

/-- The value of a hexadecimal digit, of either case. -/
def hexValue (b : UInt8) : Option UInt8 :=
  if 0x30 ≤ b ∧ b ≤ 0x39 then some (b - 0x30)
  else if 0x41 ≤ b ∧ b ≤ 0x46 then some (b - 0x37)
  else if 0x61 ≤ b ∧ b ≤ 0x66 then some (b - 0x57)
  else none

/-- The byte that two digits stand for. -/
def hexPair (a b : UInt8) : Option UInt8 :=
  match hexValue a, hexValue b with
  | some x, some y => some (x * 16 + y)
  | _, _ => none

/-- The byte that an escape at the front stands for. -/
def escape (c a b : UInt8) : Option UInt8 := if c = mark then hexPair a b else none

def decode : List UInt8 → List UInt8
  | [] => []
  | [a] => [a]
  | [a, b] => [a, b]
  | c :: a :: b :: rest =>
    match escape c a b with
    | some x => x :: decode rest
    | none => c :: decode (a :: b :: rest)

/-- Whether some `%` stands before two digits. -/
def HasEscape (l : List UInt8) : Prop := ∃ front a b rest, l = front ++ mark :: a :: b :: rest ∧ (hexPair a b).isSome

theorem hasEscape_cons {c a b : UInt8} {rest : List UInt8} :
    HasEscape (c :: a :: b :: rest) ↔ (escape c a b).isSome ∨ HasEscape (a :: b :: rest) := by
  unfold escape
  constructor
  · rintro ⟨front, a', b', rest', hl, hs⟩
    cases front with
    | nil =>
      simp only [List.nil_append, List.cons.injEq] at hl
      obtain ⟨rfl, rfl, rfl, -⟩ := hl
      exact .inl (by rwa [if_pos rfl])
    | cons d front => exact .inr ⟨front, a', b', rest', (List.cons.inj hl).2, hs⟩
  · rintro (hs | ⟨front, a', b', rest', hl, hs⟩)
    · split at hs
      · rename_i hc
        exact ⟨[], a, b, rest, by rw [hc, List.nil_append], hs⟩
      · cases hs
    · exact ⟨c :: front, a', b', rest', by rw [hl, List.cons_append], hs⟩

theorem not_hasEscape_short {l : List UInt8} (h : l.length ≤ 2) : ¬ HasEscape l := by
  rintro ⟨front, a, b, rest, rfl, -⟩
  simp only [List.length_append, List.length_cons] at h
  omega

theorem length_decode_le (l : List UInt8) : (decode l).length ≤ l.length := by
  fun_induction decode l with
  | case1 | case2 | case3 => exact Nat.le_refl _
  | case4 c a b rest x hx ih =>
    simp only [List.length_cons]
    omega
  | case5 c a b rest hx ih => exact Nat.succ_le_succ ih

/-- An escape makes the bytes fewer. -/
theorem length_decode_lt {l : List UInt8} (h : HasEscape l) : (decode l).length < l.length := by
  fun_induction decode l with
  | case1 | case2 | case3 => exact absurd h (not_hasEscape_short (by simp))
  | case4 c a b rest x hx ih =>
    have := length_decode_le rest
    simp only [List.length_cons]
    omega
  | case5 c a b rest hx ih =>
    rw [hasEscape_cons, hx] at h
    exact Nat.succ_lt_succ (ih (h.resolve_left (by decide)))

theorem decode_eq_self {l : List UInt8} (h : ¬ HasEscape l) : decode l = l := by
  fun_induction decode l with
  | case1 | case2 | case3 => rfl
  | case4 c a b rest x hx ih =>
    rw [hasEscape_cons, hx] at h
    exact absurd (.inl rfl) h
  | case5 c a b rest hx ih =>
    rw [hasEscape_cons, not_or] at h
    rw [ih h.2]

/-- Only bytes without an escape decode to themselves. -/
theorem decode_eq_self_iff {l : List UInt8} : decode l = l ↔ ¬ HasEscape l :=
  ⟨fun h he => absurd (congrArg List.length h) (Nat.ne_of_lt (length_decode_lt he)), decode_eq_self⟩

end Percent
