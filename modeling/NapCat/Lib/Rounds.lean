/-
What a loop over a list gets to see. A loop of `n` rounds that skips some elements sees the part of
the first `n` that it does not skip; a loop that leaves at its first failure sees the list up to that
element. When that is as much as one asked for is settled for both.
-/
import Mathlib.Data.List.Basic

namespace Rounds

variable {α : Type}

/-! ## A bounded loop that skips -/

/-- The elements that pass, of the whole list, are those of the first `n` and then the rest. -/
theorem filter_take_append (p : α → Bool) (n : Nat) (l : List α) :
    l.filter p = (l.take n).filter p ++ (l.drop n).filter p := by
  rw [← List.filter_append, List.take_append_drop]

theorem length_filter_take_le (p : α → Bool) (n : Nat) (l : List α) : ((l.take n).filter p).length ≤ n :=
  Nat.le_trans (List.length_filter_le ..) (List.length_take_le ..)

theorem filter_take_prefix_of (p : α → Bool) (n : Nat) (l : List α) : (l.take n).filter p <+: (l.filter p).take n := by
  rw [filter_take_append p n l, List.take_append, List.take_of_length_le (length_filter_take_le p n l)]
  exact List.prefix_append ..

/-- `n` rounds find the first `n` elements that pass exactly if no round is spent on one that does not
pass, or nothing that passes comes after them. -/
theorem filter_take_eq_iff (p : α → Bool) (n : Nat) (l : List α) :
    (l.take n).filter p = (l.filter p).take n ↔ (∀ a ∈ l.take n, p a = true) ∨ ∀ a ∈ l.drop n, p a = false := by
  rw [filter_take_append p n l, List.take_append, List.take_of_length_le (length_filter_take_le p n l)]
  constructor
  · intro h
    have hrest : ((l.drop n).filter p).take (n - ((l.take n).filter p).length) = [] := List.self_eq_append_right.1 h
    rcases List.take_eq_nil_iff.1 hrest with hfull | hnone
    · -- every round has found an element
      left
      refine List.filter_eq_self.1 (List.Sublist.eq_of_length List.filter_sublist ?_)
      have := List.length_take_le n l
      have := List.length_filter_le p (l.take n)
      omega
    · right
      simpa [List.filter_eq_nil_iff] using hnone
  · rintro (hall | hnone)
    · rw [List.filter_eq_self.2 hall]
      by_cases hn : n ≤ l.length
      · simp [List.length_take, hn]
      · simp [List.drop_eq_nil_of_le (Nat.le_of_not_le hn)]
    · have hrest : (l.drop n).filter p = [] := List.filter_eq_nil_iff.2 fun a ha => by simp [hnone a ha]
      rw [hrest, List.take_nil, List.append_nil]

/-! ## A loop that leaves at the first failure -/

/-- The list up to the first element at which the loop leaves, that element included. -/
def upTo (leave : α → Bool) : List α → List α
  | [] => []
  | a :: as => a :: if leave a then [] else upTo leave as

variable {leave : α → Bool}

theorem upTo_prefix_of : ∀ l : List α, upTo leave l <+: l
  | [] => List.prefix_rfl
  | a :: as => by
    rw [upTo]
    split_ifs
    · exact ⟨as, rfl⟩
    · obtain ⟨t, ht⟩ := upTo_prefix_of as
      exact ⟨t, congrArg (a :: ·) ht⟩

/-- The loop sees all of the list exactly if it does not leave before the last element. -/
theorem upTo_eq_self_iff : ∀ l : List α, upTo leave l = l ↔ ∀ a ∈ l.dropLast, leave a = false
  | [] => by simp [upTo]
  | [a] => by simp [upTo]
  | a :: b :: as => by
    rw [upTo, List.dropLast_cons_cons, List.forall_mem_cons, ← upTo_eq_self_iff (b :: as)]
    by_cases ha : leave a = true <;> simp [ha]

/-- It reaches every element, in whatever order it takes them, exactly if it sees the whole list. -/
theorem upTo_perm_iff {l m : List α} (h : l.Perm m) : (upTo leave l).Perm m ↔ upTo leave l = l := by
  constructor
  · intro hp
    exact (upTo_prefix_of l).eq_of_length (hp.length_eq.trans h.length_eq.symm)
  · intro he
    rw [he]
    exact h

end Rounds
