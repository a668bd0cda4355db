/-
Unsigned numbers in decimal, as `str::parse` reads them: digits from left to right, each checked
before the bound, after one `+` at most.
-/
import Mathlib.Data.List.Basic
import Mathlib.Tactic.SplitIfs

namespace Decimal

inductive ParseIntError
  | empty
  | invalidDigit
  | posOverflow
  deriving DecidableEq, Repr

def ParseIntError.text : ParseIntError → String
  | .empty => "cannot parse integer from empty string"
  | .invalidDigit => "invalid digit found in string"
  | .posOverflow => "number too large to fit in target type"

/-- The digits left, after those that make `acc`. -/
def parseDigits (max : Nat) (acc : Nat) : List Char → Except ParseIntError Nat
  | [] => .ok acc
  | c :: cs =>
    if c.isDigit = false then .error .invalidDigit
    else if max < 10 * acc + (c.toNat - '0'.toNat) then .error .posOverflow
    else parseDigits max (10 * acc + (c.toNat - '0'.toNat)) cs

/-- `str::parse` of an unsigned type with this maximum. -/
def parseUnsigned (max : Nat) (s : String) : Except ParseIntError Nat :=
  match s.toList with
  | [] => .error .empty
  | ['+'] => .error .invalidDigit
  | '+' :: cs => parseDigits max 0 cs
  | cs => parseDigits max 0 cs

/-- A text of digits, at least one, with a `+` before them or none. -/
def IsNumeral (s : String) (ds : List Char) : Prop :=
  (s.toList = ds ∨ s.toList = '+' :: ds) ∧ ds ≠ [] ∧ ∀ c ∈ ds, c.isDigit = true

theorem le_ofDigitChars (cs : List Char) : ∀ acc, acc ≤ Nat.ofDigitChars 10 cs acc := by
  induction cs with
  | nil => intro acc; simp
  | cons c cs ih =>
    intro acc
    rw [Nat.ofDigitChars_cons]
    exact Nat.le_trans (by omega) (ih _)

theorem parseDigits_ok_iff {max n : Nat} (cs : List Char) : ∀ acc ≤ max,
    (parseDigits max acc cs = .ok n ↔ (∀ c ∈ cs, c.isDigit = true) ∧ Nat.ofDigitChars 10 cs acc = n ∧ n ≤ max) := by
  induction cs with
  | nil =>
    intro acc hacc
    simp only [parseDigits, Nat.ofDigitChars_nil, Except.ok.injEq]
    constructor
    · rintro rfl
      exact ⟨by simp, rfl, hacc⟩
    · exact fun h => h.2.1
  | cons c cs ih =>
    intro acc hacc
    rw [parseDigits, Nat.ofDigitChars_cons, List.forall_mem_cons]
    have hle := le_ofDigitChars cs (10 * acc + (c.toNat - '0'.toNat))
    split_ifs with hd hover
    · simp [hd]
    · refine ⟨(fun h => by cases h), fun ⟨_, hn, hm⟩ => ?_⟩
      omega
    · have hd : c.isDigit = true := by simpa using hd
      rw [ih _ (by omega), hd]
      simp

theorem isDigit_plus : '+'.isDigit = false := by decide

/-- Exactly the numerals within the bound are read, each as its value. -/
theorem parseUnsigned_ok_iff {max n : Nat} {s : String} :
    parseUnsigned max s = .ok n ↔ ∃ ds, IsNumeral s ds ∧ Nat.ofDigitChars 10 ds 0 = n ∧ n ≤ max := by
  have hplus : ∀ cs : List Char, '+' :: cs = [] ∨ ¬ ∀ c ∈ '+' :: cs, c.isDigit = true := fun cs =>
    .inr fun h => by have := h '+' List.mem_cons_self; rw [isDigit_plus] at this; cases this
  unfold parseUnsigned IsNumeral
  split
  · rename_i hs
    simp [hs]
  · rename_i hs
    rw [hs]
    constructor
    · intro h; cases h
    · rintro ⟨ds, ⟨h | h, hne, hd⟩, -⟩
      · subst h
        exact absurd hd ((hplus []).resolve_left (by simp))
      · exact absurd (List.cons.inj h).2.symm hne
  · rename_i cs hne hs
    rw [hs, parseDigits_ok_iff cs 0 (Nat.zero_le _)]
    constructor
    · rintro ⟨hd, hn, hm⟩
      exact ⟨cs, ⟨.inr rfl, fun h => hne (by rw [h]), hd⟩, hn, hm⟩
    · rintro ⟨ds, ⟨h | h, -, hd⟩, hn, hm⟩
      · subst h
        exact absurd hd ((hplus cs).resolve_left (by simp))
      · obtain rfl : cs = ds := (List.cons.inj h).2
        exact ⟨hd, hn, hm⟩
  · rename_i cs hne hp hs
    rw [parseDigits_ok_iff _ 0 (Nat.zero_le _)]
    constructor
    · rintro ⟨hd, hn, hm⟩
      exact ⟨s.toList, ⟨.inl rfl, hne, hd⟩, hn, hm⟩
    · rintro ⟨ds, ⟨h | h, -, hd⟩, hn, hm⟩
      · subst h
        exact ⟨hd, hn, hm⟩
      · exact absurd h (hs ds)

end Decimal
