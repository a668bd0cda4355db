/-
Runs of a labelled step function. `exec` follows a list of labels from a state and stops at the
first label that is not enabled; `Along` says that every step of the run is taken where a condition
on the state and the label holds; the invariant rule carries a property along every such run.
-/
import Mathlib.Data.List.Forall2
import Mathlib.Data.List.Induction
import Mathlib.Data.Option.Basic

namespace Run

variable {σ α : Type}

/-- The state after following the labels, if each one is enabled where it is taken. -/
def exec (step : σ → α → Option σ) : σ → List α → Option σ
  | s, [] => some s
  | s, a :: as => (step s a).bind fun s' => exec step s' as

/-- Every step of the run is taken from a state and with a label that satisfy `C`. -/
def Along (step : σ → α → Option σ) (C : σ → α → Prop) : σ → List α → Prop
  | _, [] => True
  | s, a :: as => C s a ∧ ∀ s' ∈ step s a, Along step C s' as

instance Along.decidable (step : σ → α → Option σ) (C : σ → α → Prop) [∀ s a, Decidable (C s a)] :
    ∀ (s : σ) (as : List α), Decidable (Along step C s as)
  | _, [] => .isTrue trivial
  | s, a :: as => by
    have : ∀ s', Decidable (Along step C s' as) := fun s' => Along.decidable step C s' as
    unfold Along; infer_instance

variable {step : σ → α → Option σ} {C : σ → α → Prop}

/-- A condition on the labels alone. -/
theorem along_of_forall {D : α → Prop} : ∀ (as : List α) (s : σ), (∀ a ∈ as, D a) → Along step (fun _ => D) s as
  | [], _, _ => trivial
  | a :: as, _, h => by
    refine ⟨h a List.mem_cons_self, fun s' _ => along_of_forall as s' fun b hb => ?_⟩
    exact h b (List.mem_cons_of_mem a hb)

/-- A condition that holds everywhere. -/
theorem along_of_always (h : ∀ s a, C s a) : ∀ (as : List α) (s : σ), Along step C s as
  | [], _ => trivial
  | a :: as, s => ⟨h s a, fun s' _ => along_of_always h as s'⟩

theorem Along.and {D : σ → α → Prop} : ∀ (as : List α) (s : σ), Along step C s as → Along step D s as →
    Along step (fun s a => C s a ∧ D s a) s as
  | [], _, _, _ => trivial
  | _ :: as, _, hc, hd => ⟨⟨hc.1, hd.1⟩, fun s' hs => Along.and as s' (hc.2 s' hs) (hd.2 s' hs)⟩

/-- A run in two parts is along the condition in both. -/
theorem Along.append : ∀ (as bs : List α) (s s' : σ), Along step C s (as ++ bs) → exec step s as = some s' →
    Along step C s as ∧ Along step C s' bs
  | [], bs, s, s', h, hs => by
    cases hs
    exact ⟨trivial, h⟩
  | a :: as, bs, s, s', h, hs => by
    obtain ⟨m, hm, hs⟩ := Option.bind_eq_some_iff.1 hs
    obtain ⟨ha, hb⟩ := Along.append as bs m s' (h.2 m hm) hs
    refine ⟨⟨h.1, fun m' hm' => ?_⟩, hb⟩
    obtain rfl : m = m' := Option.some.inj (hm.symm.trans hm')
    exact ha

theorem exec_cons (s : σ) (a : α) (as : List α) :
    exec step s (a :: as) = (step s a).bind fun s' => exec step s' as := rfl

theorem exec_append : ∀ (as bs : List α) (s : σ), exec step s (as ++ bs) = (exec step s as).bind fun m => exec step m bs
  | [], _, _ => rfl
  | a :: as, bs, s => by
    rw [List.cons_append, exec_cons, exec_cons, Option.bind_assoc]
    exact congrArg _ (funext fun m => exec_append as bs m)

theorem exec_singleton (s : σ) (a : α) : exec step s [a] = step s a := by
  rw [exec_cons]
  exact Option.bind_fun_some _

/-- The first part of a run along a condition. -/
theorem Along.firstSteps : ∀ {as bs : List α} {s : σ}, Along step C s as → bs <+: as → Along step C s bs
  | _, [], _, _, _ => trivial
  | [], b :: bs, _, _, h => by cases List.prefix_nil.1 h
  | a :: as, b :: bs, s, hc, h => by
    obtain ⟨rfl, hbs⟩ := List.cons_prefix_cons.1 h
    exact ⟨hc.1, fun s' hs => (hc.2 s' hs).firstSteps hbs⟩

/-- The invariant rule: what one step preserves under `C` holds at the end of every run along `C`. -/
theorem exec_inv {I : σ → Prop} (hstep : ∀ s a s', I s → C s a → step s a = some s' → I s') :
    ∀ (as : List α) (s s' : σ), I s → Along step C s as → exec step s as = some s' → I s'
  | [], s, s', hi, _, h => by
    cases h; exact hi
  | a :: as, s, s', hi, hc, h => by
    rw [exec_cons] at h
    obtain ⟨m, hm, h⟩ := Option.bind_eq_some_iff.1 h
    exact exec_inv hstep as m s' (hstep s a m hi hc.1 hm) (hc.2 m hm) h

/-- The rule for a step that preserves the invariant under no condition. -/
theorem exec_inv_always {I : σ → Prop} (hstep : ∀ s a s', I s → step s a = some s' → I s') :
    ∀ (as : List α) (s s' : σ), I s → exec step s as = some s' → I s'
  | [], s, s', hi, h => by
    cases h; exact hi
  | a :: as, s, s', hi, h => by
    rw [exec_cons] at h
    obtain ⟨m, hm, h⟩ := Option.bind_eq_some_iff.1 h
    exact exec_inv_always hstep as m s' (hstep s a m hi hm) h

/-- The rule for a log that each step appends to: in a run it is what the labels append, one after the other. -/
theorem exec_log {β : Type} {log : σ → List β} {out : α → List β}
    (hstep : ∀ s a s', step s a = some s' → log s' = log s ++ out a) :
    ∀ (as : List α) (s s' : σ), exec step s as = some s' → log s' = log s ++ as.flatMap out
  | [], s, s', h => by
    cases h; exact (List.append_nil _).symm
  | a :: as, s, s', h => by
    rw [exec_cons] at h
    obtain ⟨m, hm, h⟩ := Option.bind_eq_some_iff.1 h
    rw [exec_log hstep as m s' h, hstep s a m hm, List.flatMap_cons, List.append_assoc]

/-- The rule for a property of the state and of all that led to it. -/
theorem exec_history {I : List α → σ → Prop} {s₀ : σ} (hinit : I [] s₀)
    (hstep : ∀ as s a s', exec step s₀ as = some s → I as s → C s a → step s a = some s' → I (as ++ [a]) s')
    (as : List α) : ∀ s, Along step C s₀ as → exec step s₀ as = some s → I as s := by
  induction as using List.reverseRecOn with
  | nil =>
    intro s _ h
    cases h
    exact hinit
  | append_singleton as a ih =>
    intro s hc h
    rw [exec_append] at h
    obtain ⟨m, hm, ha⟩ := Option.bind_eq_some_iff.1 h
    obtain ⟨hfirst, hlast⟩ := Along.append as [a] s₀ m hc hm
    rw [exec_singleton] at ha
    exact hstep as m a s hm (ih m hfirst hm) hlast.1 ha

/-- What the steps of a run are seen to do, one after the other. -/
def trace {β : Type} (step : σ → α → Option σ) (out : σ → α → σ → List β) : σ → List α → List β
  | _, [] => []
  | s, a :: as => (step s a).elim [] fun s' => out s a s' ++ trace step out s' as

/-- One more step. -/
theorem trace_snoc {β : Type} {out : σ → α → σ → List β} {a : α} {m s' : σ} (hlast : step m a = some s') :
    ∀ (as : List α) (s : σ), exec step s as = some m → trace step out s (as ++ [a]) = trace step out s as ++ out m a s'
  | [], s, h => by
    cases h
    show (step m a).elim [] (fun s' => out m a s' ++ []) = out m a s'
    rw [hlast, Option.elim_some, List.append_nil]
  | b :: as, s, h => by
    rw [exec_cons] at h
    obtain ⟨x, hx, h⟩ := Option.bind_eq_some_iff.1 h
    simp only [List.cons_append, trace, hx, Option.elim_some]
    rw [trace_snoc hlast as x h, List.append_assoc]

/-- Two conditions that agree where the invariant holds hold along the same runs. -/
theorem along_iff_of_inv {I : σ → Prop} {D : σ → α → Prop}
    (hstep : ∀ s a s', I s → C s a → step s a = some s' → I s') (h : ∀ s a, I s → (C s a ↔ D s a)) :
    ∀ (as : List α) (s : σ), I s → (Along step C s as ↔ Along step D s as)
  | [], _, _ => Iff.rfl
  | a :: as, s, hi => by
    constructor
    · intro hc
      exact ⟨(h s a hi).1 hc.1, fun s' hs =>
        (along_iff_of_inv hstep h as s' (hstep s a s' hi hc.1 hs)).1 (hc.2 s' hs)⟩
    · intro hd
      have hc : C s a := (h s a hi).2 hd.1
      exact ⟨hc, fun s' hs => (along_iff_of_inv hstep h as s' (hstep s a s' hi hc hs)).2 (hd.2 s' hs)⟩

/-- The runs along a condition are those that reach the property's states only: what one step preserves under the
condition has the property, and a step outside the condition leaves it. -/
theorem along_iff_reached {I P : σ → Prop} (hP : ∀ s, I s → P s)
    (hstep : ∀ s a s', I s → C s a → step s a = some s' → I s')
    (hleave : ∀ s a, I s → ¬ C s a → ∃ s' ∈ step s a, ¬ P s') :
    ∀ (as : List α) (s : σ), I s →
      (Along step C s as ↔ ∀ bs, bs <+: as → ∀ s' ∈ exec step s bs, P s')
  | [], s, hi => by
    refine ⟨fun _ bs hbs s' hs => ?_, fun _ => trivial⟩
    obtain rfl := List.prefix_nil.1 hbs
    cases hs
    exact hP s hi
  | a :: as, s, hi => by
    constructor
    · rintro ⟨hc, hrest⟩ bs hbs s' hs
      rcases List.prefix_cons_iff.1 hbs with rfl | ⟨cs, rfl, hcs⟩
      · cases hs
        exact hP s hi
      · obtain ⟨m, hm, hs⟩ := Option.bind_eq_some_iff.1 hs
        have hmi : I m := hstep s a m hi hc hm
        exact (along_iff_reached hP hstep hleave as m hmi).1 (hrest m hm) cs hcs s' hs
    · intro h
      have hc : C s a := by
        by_contra hc
        obtain ⟨m, hm, hbad⟩ := hleave s a hi hc
        exact hbad (h [a] (by simp) m ((exec_singleton s a).trans hm))
      refine ⟨hc, fun m hm => ?_⟩
      refine (along_iff_reached hP hstep hleave as m (hstep s a m hi hc hm)).2 fun cs hcs s' hs => ?_
      refine h (a :: cs) (List.cons_prefix_cons.2 ⟨rfl, hcs⟩) s' ?_
      rw [exec_cons, hm]
      exact hs

/-- The rule for a step that also lowers a measure: a run is no longer than what it takes off it. -/
theorem exec_bounded {I : σ → Prop} {μ : σ → Nat}
    (hstep : ∀ s a s', I s → step s a = some s' → I s' ∧ μ s' < μ s) :
    ∀ (as : List α) (s s' : σ), I s → exec step s as = some s' → I s' ∧ as.length + μ s' ≤ μ s
  | [], s, s', hi, h => by
    cases h
    exact ⟨hi, by simp⟩
  | a :: as, s, s', hi, h => by
    rw [exec_cons] at h
    obtain ⟨m, hm, h⟩ := Option.bind_eq_some_iff.1 h
    obtain ⟨hmi, hlt⟩ := hstep s a m hi hm
    obtain ⟨hs', hle⟩ := exec_bounded hstep as m s' hmi h
    refine ⟨hs', ?_⟩
    rw [List.length_cons]
    omega

/-- A run whose steps are each a step of another system, or none, is a run of that system. -/
theorem exec_refines {τ β : Type} {step' : τ → β → Option τ} {f : σ → τ}
    (h : ∀ s a s', step s a = some s' → f s' = f s ∨ ∃ b, step' (f s) b = some (f s')) :
    ∀ (as : List α) (s s' : σ), exec step s as = some s' → ∃ bs, exec step' (f s) bs = some (f s')
  | [], s, s', hs => by
    cases hs
    exact ⟨[], rfl⟩
  | a :: as, s, s', hs => by
    rw [exec_cons] at hs
    obtain ⟨m, hm, hs⟩ := Option.bind_eq_some_iff.1 hs
    obtain ⟨bs, hbs⟩ := exec_refines h as m s' hs
    rcases h s a m hm with he | ⟨b, hb⟩
    · exact ⟨bs, by rw [← he]; exact hbs⟩
    · exact ⟨b :: bs, by rw [exec_cons, hb]; exact hbs⟩

/-- Two runs side by side: steps that keep the states related, under related labels, keep them related all along. -/
theorem exec_related {τ β : Type} {step' : τ → β → Option τ} {R : σ → τ → Prop} {Q : α → β → Prop}
    (h : ∀ s t a b, R s t → Q a b → Option.Rel R (step s a) (step' t b)) {as : List α} {bs : List β}
    (hq : List.Forall₂ Q as bs) : ∀ {s : σ} {t : τ}, R s t → Option.Rel R (exec step s as) (exec step' t bs) := by
  induction hq with
  | nil => exact fun hr => .some hr
  | @cons a b as bs hab _ ih =>
    intro s t hr
    have hstep := h s t a b hr hab
    rw [exec_cons, exec_cons]
    generalize step s a = x at hstep
    generalize step' t b = y at hstep
    cases hstep with
    | none => exact .none
    | some hr' => exact ih hr'

end Run
