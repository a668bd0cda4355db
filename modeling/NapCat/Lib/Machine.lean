/-
Machines that answer one call at a time. Two machines whose states stay related answer every
sequence of admissible calls alike; the relation is what a refinement proof supplies.
-/
import Mathlib.Data.Option.Basic

namespace Machine

variable {Op Res S T : Type}

/-- The answers to a sequence of calls. -/
def results (call : S → Op → Res × S) : S → List Op → List Res
  | _, [] => []
  | s, op :: ops => (call s op).1 :: results call (call s op).2 ops

/-- The state after a sequence of calls. -/
def after (call : S → Op → Res × S) : S → List Op → S
  | s, [] => s
  | s, op :: ops => after call (call s op).2 ops

/-- Under `R`, an admissible call is answered alike by both machines, and `R` holds again. -/
def Simulates (f : S → Op → Res × S) (g : T → Op → Res × T) (C : Op → Prop) (R : S → T → Prop) : Prop :=
  ∀ s t op, R s t → C op → (f s op).1 = (g t op).1 ∧ R (f s op).2 (g t op).2

variable {f : S → Op → Res × S} {g : T → Op → Res × T} {C : Op → Prop} {R : S → T → Prop}

/-- The relation is kept over every sequence of admissible calls. -/
theorem Simulates.after (h : Simulates f g C R) :
    ∀ (ops : List Op) (s : S) (t : T), R s t → (∀ op ∈ ops, C op) → R (after f s ops) (after g t ops)
  | [], _, _, hR, _ => hR
  | op :: ops, s, t, hR, hC =>
    Simulates.after h ops _ _ (h s t op hR (hC op List.mem_cons_self)).2 fun o ho => hC o (List.mem_cons_of_mem _ ho)

/-- Every sequence of admissible calls is answered alike. -/
theorem Simulates.results (h : Simulates f g C R) :
    ∀ (ops : List Op) (s : S) (t : T), R s t → (∀ op ∈ ops, C op) → results f s ops = results g t ops
  | [], _, _, _, _ => rfl
  | op :: ops, s, t, hR, hC => by
    obtain ⟨hres, hR'⟩ := h s t op hR (hC op List.mem_cons_self)
    have := Simulates.results h ops _ _ hR' fun o ho => hC o (List.mem_cons_of_mem _ ho)
    simp only [Machine.results, hres, this]

end Machine
