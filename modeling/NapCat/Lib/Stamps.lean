/-
Stores that stamp their records with the times of their first and their last write. A change that
stamps a stored record no earlier than its last write keeps the two times in order, and over a run of
such changes the time of the last write never goes back while the record stays stored.
-/
import NapCat.Lib.Run
import Mathlib.Order.Basic

namespace Stamps

variable {κ τ σ α : Type}

structure Stamp (τ : Type) where
  created : τ
  updated : τ
  deriving DecidableEq

/-- The stamps of the slots that hold a record. -/
abbrev Book (κ τ : Type) := κ → Option (Stamp τ)

/-- One slot is stamped, and the others are as before. -/
structure Sets (b : Book κ τ) (k : κ) (s : Stamp τ) (b' : Book κ τ) : Prop where
  self : b' k = some s
  other : ∀ j, j ≠ k → b' j = b j

/-- Slots are cleared or left alone. -/
def Keeps (b b' : Book κ τ) : Prop := ∀ k, b' k = none ∨ b' k = b k

theorem Keeps.refl (b : Book κ τ) : Keeps b b := fun _ => .inr rfl

section

variable [LE τ]

def Ordered (b : Book κ τ) : Prop := ∀ k s, b k = some s → s.created ≤ s.updated

/-- A change that takes no time back. -/
inductive Change (b b' : Book κ τ) : Prop
  | insert (k : κ) (t : τ) (hnew : b k = none) (h : Sets b k ⟨t, t⟩ b')
  | update (k : κ) (s : Stamp τ) (t : τ) (hold : b k = some s) (hle : s.updated ≤ t) (h : Sets b k ⟨s.created, t⟩ b')
  | keep (h : Keeps b b')

end

variable [Preorder τ]

theorem Sets.ordered {b b' : Book κ τ} {k : κ} {s : Stamp τ} (h : Sets b k s b') (hb : Ordered b)
    (hs : s.created ≤ s.updated) : Ordered b' := by
  intro j t hj
  by_cases hjk : j = k
  · subst hjk
    cases h.self.symm.trans hj
    exact hs
  · rw [h.other j hjk] at hj
    exact hb j t hj

theorem Change.ordered {b b' : Book κ τ} (h : Change b b') (hb : Ordered b) : Ordered b' := by
  cases h with
  | insert k t hnew h => exact h.ordered hb le_rfl
  | update k s t hold hle h => exact h.ordered hb ((hb k s hold).trans hle)
  | keep h =>
    intro k s hk
    rcases h k with hnone | hsame
    · rw [hnone] at hk
      cases hk
    · exact hb k s (hsame ▸ hk)

theorem Change.updated_le {b b' : Book κ τ} (h : Change b b') {k : κ} {s s' : Stamp τ} (hs : b k = some s)
    (hs' : b' k = some s') : s.updated ≤ s'.updated := by
  have hsame : b' k = b k → s.updated ≤ s'.updated := by
    intro he
    cases hs.symm.trans (he.symm.trans hs')
    exact le_rfl
  cases h with
  | insert j t hnew h =>
    by_cases hjk : k = j
    · subst hjk
      cases hnew.symm.trans hs
    · exact hsame (h.other k hjk)
  | update j r t hold hle h =>
    by_cases hjk : k = j
    · subst hjk
      cases hold.symm.trans hs
      cases h.self.symm.trans hs'
      exact hle
    · exact hsame (h.other k hjk)
  | keep h =>
    rcases h k with hnone | he
    · cases hnone.symm.trans hs'
    · exact hsame he

/-! ## Runs of changes -/

variable {step : σ → α → Option σ} {C : σ → α → Prop} {book : σ → Book κ τ}

/-- A slot holds a record before every step. -/
def Stays (step : σ → α → Option σ) (book : σ → Book κ τ) (k : κ) : σ → List α → Prop :=
  Run.Along step fun s _ => (book s k).isSome

theorem run_ordered (hstep : ∀ s a s', C s a → step s a = some s' → Change (book s) (book s')) {as : List α}
    {s s' : σ} (hc : Run.Along step C s as) (hs : Run.exec step s as = some s') (h : Ordered (book s)) :
    Ordered (book s') :=
  Run.exec_inv (I := fun s => Ordered (book s)) (fun s a s' hb hca hsa => (hstep s a s' hca hsa).ordered hb) as s s' h
    hc hs

theorem run_updated_le (hstep : ∀ s a s', C s a → step s a = some s' → Change (book s) (book s')) {k : κ} :
    ∀ (as : List α) (s s' : σ) (x y : Stamp τ), Run.Along step C s as → Stays step book k s as →
      Run.exec step s as = some s' → book s k = some x → book s' k = some y → x.updated ≤ y.updated
  | [], s, s', x, y, _, _, hs, hx, hy => by
    cases hs
    cases hx.symm.trans hy
    exact le_rfl
  | a :: as, s, s', x, y, hc, hstays, hs, hx, hy => by
    obtain ⟨m, hm, hs⟩ := Option.bind_eq_some_iff.1 hs
    -- the slot still holds a record after the first step
    obtain ⟨z, hz⟩ : ∃ z, book m k = some z := by
      cases as with
      | nil =>
        cases hs
        exact ⟨y, hy⟩
      | cons b bs => exact Option.isSome_iff_exists.1 (hstays.2 m hm).1
    have hfirst := (hstep s a m hc.1 hm).updated_le hx hz
    exact hfirst.trans (run_updated_le hstep as m s' z y (hc.2 m hm) (hstays.2 m hm) hs hz hy)

end Stamps
