/-
Two logs woven into a third: each entry of the third is the next one of the first or of the second. Both are kept in
order, nothing is added, and a cut of the third is a cut of both.
-/
import Mathlib.Data.List.Basic

variable {α β : Type}

/-- The third list is the first two, each in its order. -/
inductive Woven : List α → List α → List α → Prop
  | nil : Woven [] [] []
  | left {xs ys zs : List α} (a : α) (h : Woven xs ys zs) : Woven (xs ++ [a]) ys (zs ++ [a])
  | right {xs ys zs : List α} (a : α) (h : Woven xs ys zs) : Woven xs (ys ++ [a]) (zs ++ [a])

namespace Woven

variable {xs ys zs : List α}

/-- More entries of the second list. -/
theorem append_right (more : List α) (h : Woven xs ys zs) : Woven xs (ys ++ more) (zs ++ more) := by
  induction more generalizing ys zs with
  | nil => rwa [List.append_nil, List.append_nil]
  | cons a more ih =>
    rw [List.append_cons ys, List.append_cons zs]
    exact ih (h.right a)

theorem length (h : Woven xs ys zs) : zs.length = xs.length + ys.length := by
  induction h with
  | nil => rfl
  | left a _ ih | right a _ ih =>
    simp only [List.length_append, List.length_singleton]
    omega

theorem eq_of_nil (h : Woven xs ys zs) (hxs : xs = []) : zs = ys := by
  induction h with
  | nil => rfl
  | left a _ _ => exact absurd hxs (List.append_ne_nil_of_right_ne_nil _ (List.cons_ne_nil a []))
  | right a _ ih => rw [ih hxs]

/-- What is picked of the third is picked of the first two. -/
theorem filterMap (f : α → Option β) (h : Woven xs ys zs) :
    Woven (xs.filterMap f) (ys.filterMap f) (zs.filterMap f) := by
  induction h with
  | nil => exact .nil
  | left a _ ih =>
    rw [List.filterMap_append, List.filterMap_append, List.filterMap_cons, List.filterMap_nil]
    cases f a with
    | none => simpa only [List.append_nil] using ih
    | some b => exact ih.left b
  | right a _ ih =>
    rw [List.filterMap_append, List.filterMap_append, List.filterMap_cons, List.filterMap_nil]
    cases f a with
    | none => simpa only [List.append_nil] using ih
    | some b => exact ih.right b

/-- A list with one more entry is cut at its end or before the entry. -/
theorem cut_snoc {front back : List α} {a : α} (h : zs ++ [a] = front ++ back) :
    (front = zs ++ [a] ∧ back = []) ∨ ∃ back', back = back' ++ [a] ∧ zs = front ++ back' := by
  rcases List.eq_nil_or_concat' back with rfl | ⟨back', b, rfl⟩
  · exact .inl ⟨(h.trans (List.append_nil _)).symm, rfl⟩
  · rw [← List.append_assoc] at h
    obtain ⟨hz, hb⟩ := List.append_inj' h rfl
    cases hb
    exact .inr ⟨back', rfl, hz⟩

/-- A cut of the third list cuts both. -/
theorem cut (h : Woven xs ys zs) : ∀ {front back : List α}, zs = front ++ back →
    ∃ xs₁ xs₂ ys₁ ys₂, xs = xs₁ ++ xs₂ ∧ ys = ys₁ ++ ys₂ ∧ Woven xs₁ ys₁ front ∧ Woven xs₂ ys₂ back := by
  induction h with
  | nil =>
    intro front back he
    obtain ⟨rfl, rfl⟩ := List.append_eq_nil_iff.1 he.symm
    exact ⟨[], [], [], [], rfl, rfl, .nil, .nil⟩
  | @left xs ys zs a h ih =>
    intro front back he
    rcases cut_snoc he with ⟨rfl, rfl⟩ | ⟨back, rfl, hz⟩
    · exact ⟨xs ++ [a], [], ys, [], (List.append_nil _).symm, (List.append_nil _).symm, h.left a, .nil⟩
    · obtain ⟨xs₁, xs₂, ys₁, ys₂, rfl, rfl, h₁, h₂⟩ := ih hz
      exact ⟨xs₁, xs₂ ++ [a], ys₁, ys₂, List.append_assoc .., rfl, h₁, h₂.left a⟩
  | @right xs ys zs a h ih =>
    intro front back he
    rcases cut_snoc he with ⟨rfl, rfl⟩ | ⟨back, rfl, hz⟩
    · exact ⟨xs, [], ys ++ [a], [], (List.append_nil _).symm, (List.append_nil _).symm, h.right a, .nil⟩
    · obtain ⟨xs₁, xs₂, ys₁, ys₂, rfl, rfl, h₁, h₂⟩ := ih hz
      exact ⟨xs₁, xs₂, ys₁, ys₂ ++ [a], rfl, List.append_assoc .., h₁, h₂.right a⟩

end Woven
