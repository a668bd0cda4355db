/-
Two implementations of one interface, called in the same way: when related states answer a call alike
exactly under a condition, and stay related under it, the two give the same answers along exactly
those sequences of calls that meet the condition at every call.
-/
import NapCat.Lib.Run

namespace Lockstep

variable {σ τ α β : Type}

/-- The answers to a sequence of calls. -/
def answers (f : σ → α → σ × β) : σ → List α → List β
  | _, [] => []
  | s, a :: as => (f s a).2 :: answers f (f s a).1 as

/-- The answers of an implementation that may fail to return. -/
def answers? (g : τ → α → Option (τ × β)) : τ → List α → Option (List β)
  | _, [] => some []
  | t, a :: as => (g t a).bind fun r => (answers? g r.1 as).map (r.2 :: ·)

/-- The states after each call. -/
def next (f : σ → α → σ × β) (s : σ) (a : α) : Option σ := some (f s a).1

/-- Related states answer a call of the domain `D` alike exactly under `C`, and are related after it. -/
structure Agrees (f : σ → α → σ × β) (g : τ → α → Option (τ × β)) (R : σ → τ → Prop) (D : α → Prop)
    (C : σ → α → Prop) : Prop where
  step : ∀ s t a, R s t → D a → ∃ t' b, g t a = some (t', b) ∧ (b = (f s a).2 ↔ C s a) ∧ (C s a → R (f s a).1 t')

theorem Agrees.answers_iff {f : σ → α → σ × β} {g : τ → α → Option (τ × β)} {R : σ → τ → Prop} {D : α → Prop}
    {C : σ → α → Prop} (h : Agrees f g R D C) : ∀ (as : List α) (s : σ) (t : τ), R s t → (∀ a ∈ as, D a) →
      (answers? g t as = some (answers f s as) ↔ Run.Along (next f) C s as)
  | [], _, _, _, _ => ⟨fun _ => trivial, fun _ => rfl⟩
  | a :: as, s, t, hR, hD => by
    obtain ⟨t', b, hg, hb, hR'⟩ := h.step s t a hR (hD a List.mem_cons_self)
    have ih := fun hC => h.answers_iff as (f s a).1 t' (hR' hC) fun x hx => hD x (List.mem_cons_of_mem a hx)
    have hs : answers? g t (a :: as) = (answers? g t' as).map (b :: ·) := by
      rw [answers?, hg]
      rfl
    rw [hs, answers]
    constructor
    · intro heq
      obtain ⟨bs, hbs, he⟩ := Option.map_eq_some_iff.1 heq
      obtain ⟨rfl, rfl⟩ := List.cons.inj he
      have hC := hb.1 rfl
      refine ⟨hC, fun s' hs' => ?_⟩
      cases hs'
      exact (ih hC).1 hbs
    · rintro ⟨hC, hrest⟩
      rw [(ih hC).2 (hrest _ rfl), hb.2 hC]
      rfl

end Lockstep
