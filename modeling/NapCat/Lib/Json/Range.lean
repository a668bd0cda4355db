/-
The numbers that a JSON reader takes: a literal is read as a significand of 64 bits and a decimal
exponent, and refused where their product rounds to no finite double. Integers of 64 bits are
never refused, and so are no values built of them.
-/
import NapCat.Lib.Json.Basic

namespace Json

/-! ## Significand and exponent -/

-- unfolded in a comparison, a numeral of this size is counted down
/-- `2 ^ 64`. -/
@[irreducible] def significandLimit : Nat := Nat.pow 2 64

/-- The significand with one more digit, as long as it fits 64 bits. -/
def pushDigit (significand : Nat) (c : Char) : Option Nat :=
  let next := 10 * significand + (c.toNat - '0'.toNat)
  if next < significandLimit then some next else none

/-- The digits of the integer part: the significand, and how many digits it has no room for. -/
def integerPart (significand : Nat) : List Char → Nat × Nat
  | [] => (significand, 0)
  | c :: cs =>
    match pushDigit significand c with
    | some next => integerPart next cs
    | none => (significand, cs.length + 1)

/-- The digits of the fraction: the significand, and how many digits it has taken before one did not fit. -/
def fractionPart (significand : Nat) : List Char → Nat × Nat
  | [] => (significand, 0)
  | c :: cs =>
    match pushDigit significand c with
    | some next => ((fractionPart next cs).1, (fractionPart next cs).2 + 1)
    | none => (significand, 0)

/-- What follows `e` or `E`; without it the exponent is zero. -/
def exponentPart : List Char → Int
  | '-' :: cs => -(Nat.ofDigitChars 10 cs 0 : Int)
  | '+' :: cs => Nat.ofDigitChars 10 cs 0
  | cs => Nat.ofDigitChars 10 cs 0

/-- The significand and the decimal exponent that an unsigned literal is read with. -/
def parts (cs : List Char) : Nat × Int :=
  let (significand, dropped) := integerPart 0 (cs.takeWhile Char.isDigit)
  match cs.dropWhile Char.isDigit with
  | '.' :: r =>
    let (significand, taken) := fractionPart significand (r.takeWhile Char.isDigit)
    (significand, dropped - taken + exponentPart (r.dropWhile Char.isDigit).tail)
  | r => (significand, dropped + exponentPart r.tail)

/-! ## Doubles -/

/-- The nearest number of 53 significant bits, of two the even one. -/
def roundToDouble (n : Nat) : Nat :=
  let unit := Nat.pow 2 (n.log2 - 52)
  let floor := n / unit * unit
  if unit < 2 * (n % unit) ∨ (2 * (n % unit) = unit ∧ n / unit % 2 = 1) then floor + unit else floor

/-- The least number that rounds to no finite double: the largest one and half a unit. -/
@[irreducible] def doubleLimit : Nat := Nat.pow 2 1024 - Nat.pow 2 970

/-- The significand is rounded, multiplied by the rounded power of ten, and the product rounded. -/
def overflows (significand : Nat) (exponent : Int) : Bool :=
  significand ≠ 0 && (decide (308 < exponent) || (decide (0 ≤ exponent) &&
    decide (doubleLimit ≤ roundToDouble significand * roundToDouble (Nat.pow 10 exponent.toNat))))

/-- The literal without its sign. -/
def Num.magnitude (n : Num) : List Char := if n.lit.head? = some '-' then n.lit.tail else n.lit

/-- The number is read: it is no float beyond the range of a double. -/
def Num.inRange (n : Num) : Bool := !overflows (parts n.magnitude).1 (parts n.magnitude).2

mutual

/-- Every number of the value is in range. -/
def inRange : Json → Bool
  | .num n => n.inRange
  | .arr xs => inRangeItems xs
  | .obj fs => inRangeFields fs
  | _ => true

def inRangeItems : List Json → Bool
  | [] => true
  | x :: xs => inRange x && inRangeItems xs

def inRangeFields : List (String × Json) → Bool
  | [] => true
  | (_, v) :: fs => inRange v && inRangeFields fs

end

theorem inRangeItems_eq_all (xs : List Json) : inRangeItems xs = xs.all inRange := by
  induction xs with
  | nil => rfl
  | cons x xs ih => rw [inRangeItems, ih, List.all_cons]

theorem inRangeFields_eq_all (fs : List (String × Json)) : inRangeFields fs = fs.all fun f => inRange f.2 := by
  induction fs with
  | nil => rfl
  | cons f fs ih => rw [inRangeFields, ih, List.all_cons]

/-! ## Integers -/

/-- The digits of a number of 64 bits all fit. -/
theorem integerPart_ofDigitChars (cs : List Char) (significand : Nat)
    (h : Nat.ofDigitChars 10 cs significand < significandLimit) :
    integerPart significand cs = (Nat.ofDigitChars 10 cs significand, 0) := by
  induction cs generalizing significand with
  | nil => rw [integerPart, Nat.ofDigitChars_nil]
  | cons c cs ih =>
    rw [Nat.ofDigitChars_cons] at h ⊢
    have hle : ∀ (cs : List Char) (n : Nat), n ≤ Nat.ofDigitChars 10 cs n := by
      intro cs
      induction cs with
      | nil => exact fun n => (Nat.ofDigitChars_nil (b := 10)).ge
      | cons c cs ih =>
        intro n
        rw [Nat.ofDigitChars_cons]
        exact Nat.le_trans (by omega) (ih _)
    have hfits : pushDigit significand c = some (10 * significand + (c.toNat - '0'.toNat)) :=
      if_pos (Nat.lt_of_le_of_lt (hle cs _) h)
    rw [integerPart, hfits]
    exact ih _ h

theorem roundToDouble_le (n : Nat) : roundToDouble n ≤ 2 * n := by
  have hsplit : n % Nat.pow 2 (n.log2 - 52) + Nat.pow 2 (n.log2 - 52) * (n / Nat.pow 2 (n.log2 - 52)) = n :=
    Nat.mod_add_div n _
  unfold roundToDouble
  dsimp only
  rw [Nat.mul_comm (n / _)]
  generalize Nat.pow 2 (n.log2 - 52) * (n / Nat.pow 2 (n.log2 - 52)) = floor at hsplit ⊢
  split <;> omega

/-- An integer of 64 bits does not overflow. -/
theorem not_overflows {n : Nat} (h : n < significandLimit) : overflows n 0 = false := by
  have hone : roundToDouble (Nat.pow 10 (Int.toNat 0)) = 1 := by decide +kernel
  have hlimit : 2 * significandLimit ≤ doubleLimit := by decide +kernel
  have hlt : ¬ doubleLimit ≤ roundToDouble n * 1 := by
    have := roundToDouble_le n
    omega
  rw [overflows, hone, decide_eq_false hlt]
  simp

-- the largest finite double is read, and zero with any exponent
example : (["1e999", "1.8e308", "1.7976931348623157e308", "0e999"].map fun t =>
    overflows (parts t.toList).1 (parts t.toList).2) = [true, true, false, false] := by decide +kernel

/-- A literal of digits alone, with or without a sign, for a number of 64 bits. -/
theorem Num.inRange_of_digits {n : Num} (hd : ∀ c ∈ n.magnitude, c.isDigit = true)
    (h : Nat.ofDigitChars 10 n.magnitude 0 < significandLimit) : n.inRange = true := by
  have htake : n.magnitude.takeWhile Char.isDigit = n.magnitude := List.takeWhile_eq_self_iff.2 hd
  have hdrop : n.magnitude.dropWhile Char.isDigit = [] := List.dropWhile_eq_nil_iff.2 hd
  have hparts : parts n.magnitude = (Nat.ofDigitChars 10 n.magnitude 0, 0) := by
    rw [parts, htake, hdrop, integerPart_ofDigitChars _ 0 h]
    rfl
  rw [inRange, hparts, not_overflows h]
  rfl

end Json
