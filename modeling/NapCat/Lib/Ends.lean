/-
Ends of lists that are put together from parts: such an end starts where a part starts, or inside of one.
-/
import Mathlib.Data.List.Basic

namespace Ends

variable {α β : Type}

/-- An end of two lists is an end of the second one, or goes past it into the first. -/
theorem suffix_append_cases {t a b : List α} (h : t <:+ a ++ b) : t <:+ b ∨ ∃ x, x <:+ a ∧ x ≠ [] ∧ t = x ++ b := by
  rcases List.suffix_or_suffix_of_suffix h (List.suffix_append a b) with hb | ⟨x, rfl⟩
  · exact .inl hb
  · by_cases hx : x = []
    · subst hx
      exact .inl List.suffix_rfl
    · exact .inr ⟨x, List.suffix_append_self_iff.1 h, hx, rfl⟩

/-- An end of the parts of a list's elements: the parts of its last elements, or these and an end of the part before. -/
theorem suffix_flatMap {f : α → List β} {l : List α} {u : List β} (h : u <:+ l.flatMap f) :
    ∃ s, (s <:+ l ∧ u = s.flatMap f) ∨
      ∃ c x, c :: s <:+ l ∧ x <:+ f c ∧ x ≠ [] ∧ x ≠ f c ∧ u = x ++ s.flatMap f := by
  induction l with
  | nil => exact ⟨[], .inl ⟨List.suffix_rfl, List.suffix_nil.1 h⟩⟩
  | cons c l ih =>
    rw [List.flatMap_cons] at h
    rcases suffix_append_cases h with hl | ⟨x, hx, hne, rfl⟩
    · obtain ⟨s, ⟨hs, hu⟩ | ⟨d, x, hs, hx⟩⟩ := ih hl
      · exact ⟨s, .inl ⟨hs.trans (List.suffix_cons c l), hu⟩⟩
      · exact ⟨s, .inr ⟨d, x, hs.trans (List.suffix_cons c l), hx⟩⟩
    · by_cases hc : x = f c
      · exact ⟨c :: l, .inl ⟨List.suffix_rfl, by rw [List.flatMap_cons, hc]⟩⟩
      · exact ⟨l, .inr ⟨c, x, List.suffix_rfl, hx, hne, hc, rfl⟩⟩

theorem getLast?_suffix {t l : List α} (h : t <:+ l) (hne : t ≠ []) : t.getLast? = l.getLast? := by
  obtain ⟨a, rfl⟩ := h
  rw [List.getLast?_append_of_ne_nil a hne]

end Ends
