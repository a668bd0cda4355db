/-
One party of a system on its way out: it asks for nothing more, and after a number of its own steps it has ended.
A count of the steps it has left, which its own steps lower and no step raises, shows this of every run; a party
that can always take another step is on no such way.
-/
import NapCat.Lib.Run

namespace Leaving

open Run

variable {σ α : Type}

/-- What is seen of the party: its own steps, whether it asks for more, whether it has ended, and what is to hold
when it has. -/
structure Party (σ α : Type) where
  own : α → Bool
  asks : σ → Prop
  ended : σ → Prop
  settled : σ → Prop

/-- All along the run the party asks for nothing, has a step to take unless it has ended, has ended once it has taken
`n` of them, and where it ends the state is settled. -/
structure Leaves (step : σ → α → Option σ) (p : Party σ α) (n : Nat) (s : σ) (as : List α) : Prop where
  silent : ∀ bs, bs <+: as → ∀ s' ∈ exec step s bs, ¬ p.asks s'
  able : ∀ bs, bs <+: as → ∀ s' ∈ exec step s bs, p.ended s' ∨ ∃ a, p.own a = true ∧ (step s' a).isSome = true
  bounded : ∀ bs, bs <+: as → ∀ s' ∈ exec step s bs, n ≤ bs.countP p.own → p.ended s'
  settled : ∀ bs, bs <+: as → ∀ s' ∈ exec step s bs, p.ended s' →
    (∀ cs, cs <+: bs → cs ≠ bs → ∀ m ∈ exec step s cs, ¬ p.ended m) → p.settled s'

/-- A count of the steps the party has left, where it is on its way out. -/
structure Countdown (step : σ → α → Option σ) (C : σ → α → Prop) (p : Party σ α) (left : σ → Option Nat) : Prop where
  lowers : ∀ s a s' k, left s = some k → C s a → step s a = some s' →
    ∃ k', left s' = some k' ∧ k' + (if p.own a then 1 else 0) ≤ k
  silent : ∀ s k, left s = some k → ¬ p.asks s
  ended : ∀ s k, left s = some k → (p.ended s ↔ k = 0)
  able : ∀ s k, left s = some (k + 1) → ∃ a, p.own a = true ∧ (step s a).isSome = true
  settles : ∀ s a s' k, left s = some (k + 1) → step s a = some s' → left s' = some 0 → p.settled s'

variable {step : σ → α → Option σ} {C : σ → α → Prop} {p : Party σ α} {left : σ → Option Nat}

/-- The count after a run. -/
theorem Countdown.exec (h : Countdown step C p left) : ∀ {as : List α} {s s' : σ} {k : Nat}, left s = some k →
    Along step C s as → exec step s as = some s' → ∃ k', left s' = some k' ∧ k' + as.countP p.own ≤ k
  | [], s, s', k, hk, _, hs => by
    cases hs
    exact ⟨k, hk, Nat.le_refl k⟩
  | a :: as, s, s', k, hk, hc, hs => by
    rw [exec_cons] at hs
    obtain ⟨m, hm, hs⟩ := Option.bind_eq_some_iff.1 hs
    obtain ⟨k₁, hk₁, hle₁⟩ := h.lowers s a m k hk hc.1 hm
    obtain ⟨k₂, hk₂, hle₂⟩ := h.exec hk₁ (hc.2 m hm) hs
    refine ⟨k₂, hk₂, ?_⟩
    rw [List.countP_cons]
    omega

/-- A party that is counted down leaves, if the state is settled where it has no step left to take. -/
theorem Countdown.leaves (h : Countdown step C p left) {s : σ} {as : List α} {n : Nat} (hn : left s = some n)
    (h0 : n = 0 → p.settled s) (hc : Along step C s as) : Leaves step p n s as where
  silent bs hbs s' hs := by
    obtain ⟨k, hk, -⟩ := h.exec hn (hc.firstSteps hbs) hs
    exact h.silent s' k hk
  able bs hbs s' hs := by
    obtain ⟨k, hk, -⟩ := h.exec hn (hc.firstSteps hbs) hs
    cases k with
    | zero => exact .inl ((h.ended s' 0 hk).2 rfl)
    | succ k => exact .inr (h.able s' k hk)
  bounded bs hbs s' hs hle := by
    obtain ⟨k, hk, hle'⟩ := h.exec hn (hc.firstSteps hbs) hs
    exact (h.ended s' k hk).2 (by omega)
  settled bs hbs s' hs hend hfirst := by
    obtain rfl | ⟨cs, a, rfl⟩ := bs.eq_nil_or_concat
    · cases hs
      exact h0 ((h.ended s n hn).1 hend)
    · -- the last step is the one that ends it
      rw [List.concat_eq_append] at *
      have hs : Run.exec step s (cs ++ [a]) = some s' := hs
      rw [exec_append] at hs
      obtain ⟨m, hm, hstep⟩ := Option.bind_eq_some_iff.1 hs
      rw [exec_singleton] at hstep
      have hcs : cs <+: as := (List.prefix_append cs [a]).trans hbs
      obtain ⟨k, hk, -⟩ := h.exec hn (hc.firstSteps hcs) hm
      obtain ⟨k', hk', -⟩ := h.exec hn (hc.firstSteps hbs) (exec_append cs [a] s ▸ hs)
      cases k with
      | zero => exact absurd ((h.ended m 0 hk).2 rfl) (hfirst cs (List.prefix_append cs [a]) (by simp) m hm)
      | succ k => exact h.settles m a s' k hk hstep (hk'.trans (congrArg some ((h.ended s' k' hk').1 hend)))

open scoped Classical in
/-- A party leaves from where an invariant holds with a measure that its own steps lower and no step raises. -/
theorem leaves_of_measure {I : σ → Prop} {m : σ → Nat}
    (hstep : ∀ s a s', I s → C s a → step s a = some s' → I s' ∧ m s' + (if p.own a then 1 else 0) ≤ m s)
    (hsilent : ∀ s, I s → ¬ p.asks s) (hended : ∀ s, I s → (p.ended s ↔ m s = 0))
    (hable : ∀ s, I s → ¬ p.ended s → ∃ a, p.own a = true ∧ (step s a).isSome = true)
    (hsettled : ∀ s, I s → p.ended s → p.settled s) {s : σ} {as : List α} (hs : I s) (hc : Along step C s as) :
    Leaves step p (m s) s as := by
  let left : σ → Option Nat := fun s => if I s then some (m s) else none
  have hleft : ∀ s k, left s = some k ↔ I s ∧ m s = k := by
    intro s k
    show (if I s then some (m s) else none) = some k ↔ _
    split_ifs with hI
    · rw [Option.some.injEq, and_iff_right hI]
    · exact iff_of_false (fun h => by cases h) fun h => hI h.1
  have hcount : Countdown step C p left := by
    refine ⟨fun s a s' k hk ha hs => ?_, fun s k hk => hsilent s ((hleft s k).1 hk).1, fun s k hk => ?_,
      fun s k hk => ?_, fun s a s' k _ _ hk => ?_⟩
    · obtain ⟨hI, rfl⟩ := (hleft s k).1 hk
      obtain ⟨hI', hle⟩ := hstep s a s' hI ha hs
      exact ⟨m s', (hleft s' _).2 ⟨hI', rfl⟩, hle⟩
    · obtain ⟨hI, rfl⟩ := (hleft s k).1 hk
      exact hended s hI
    · obtain ⟨hI, hm⟩ := (hleft s _).1 hk
      exact hable s hI fun he => Nat.succ_ne_zero k (hm.symm.trans ((hended s hI).1 he))
    · obtain ⟨hI, hm⟩ := (hleft s' 0).1 hk
      exact hsettled s' hI ((hended s' hI).2 hm)
  exact hcount.leaves ((hleft s _).2 ⟨hs, rfl⟩) (fun h0 => hsettled s hs ((hended s hs).2 h0)) hc

/-- Where the party can always take another step of its own, it need not have ended after any number of them. -/
theorem exists_not_leaves {P : σ → Prop} (hgoes : ∀ s, P s → ∃ a s', p.own a = true ∧ C s a ∧ step s a = some s' ∧ P s')
    (hend : ∀ s, P s → ¬ p.ended s) {s : σ} (hs : P s) (n : Nat) :
    ∃ as, Along step C s as ∧ ¬ Leaves step p n s as := by
  have hrun : ∀ (n : Nat) (s : σ), P s → ∃ as s', Along step C s as ∧ exec step s as = some s' ∧ P s' ∧
      as.countP p.own = n := by
    intro n
    induction n with
    | zero => exact fun s hs => ⟨[], s, trivial, rfl, hs, rfl⟩
    | succ n ih =>
      intro s hs
      obtain ⟨a, m, hown, hc, hstep, hm⟩ := hgoes s hs
      obtain ⟨as, s', has, hexec, hs', hcount⟩ := ih m hm
      refine ⟨a :: as, s', ⟨hc, fun m' hm' => ?_⟩, ?_, hs', ?_⟩
      · obtain rfl : m = m' := Option.some.inj (hstep.symm.trans hm')
        exact has
      · rw [exec_cons, hstep]
        exact hexec
      · rw [List.countP_cons_of_pos hown, hcount]
  obtain ⟨as, s', has, hexec, hs', hcount⟩ := hrun n s hs
  exact ⟨as, has, fun h => hend s' hs' (h.bounded as List.prefix_rfl s' hexec (Nat.le_of_eq hcount.symm))⟩

end Leaving
