/-
Calls that hold one lock from their first await to their return. The lock is granted in the order it
was asked for, so the calls in progress are a queue: the first one has the lock or may take it, the
others wait. One event begins a call, takes one step of the first call, or is a step of the
surroundings.
-/
import Mathlib.Data.Option.Basic
import Mathlib.Data.List.Basic

namespace Turns

variable {G P R Op A E : Type}

/-- A call goes on, or returns and gives up its turn. -/
inductive Next (P R : Type)
  | call (p : P)
  | ret (r : R)
  deriving DecidableEq

/-- The shared state, the calls in progress in the order of their turns, and what the others
returned. -/
structure Sys (G P R : Type) where
  shared : G
  queue : List P := []
  returned : List R := []

inductive Event (Op A E : Type)
  | start (op : Op)
  | act (a : A)
  | env (e : E)

structure Program (G P R Op A E : Type) where
  start : G → Op → G × Next P R
  act : G → P → A → Option (G × Next P R)
  env : G → E → Option G

/-- The state after the call before `rest` has taken a step. -/
def Sys.after (rest : List P) (returned : List R) : G × Next P R → Sys G P R
  | (g, .call p) => ⟨g, p :: rest, returned⟩
  | (g, .ret r) => ⟨g, rest, returned ++ [r]⟩

def step (pr : Program G P R Op A E) (s : Sys G P R) : Event Op A E → Option (Sys G P R)
  | .start op =>
    match pr.start s.shared op with
    | (g, .call p) => some ⟨g, s.queue ++ [p], s.returned⟩
    | (g, .ret r) => some ⟨g, s.queue, s.returned ++ [r]⟩
  | .act a =>
    match s.queue with
    | [] => none
    | p :: rest => (pr.act s.shared p a).map (Sys.after rest s.returned)
  | .env e => (pr.env s.shared e).map fun g => { s with shared := g }

variable {pr : Program G P R Op A E} {s s' : Sys G P R}

/-- A call that begins joins the queue or returns at once. -/
theorem step_start {op : Op} (h : step pr s (.start op) = some s') :
    (∃ g p, pr.start s.shared op = (g, .call p) ∧ s' = ⟨g, s.queue ++ [p], s.returned⟩) ∨
    (∃ g r, pr.start s.shared op = (g, .ret r) ∧ s' = ⟨g, s.queue, s.returned ++ [r]⟩) := by
  simp only [step] at h
  split at h
  · rename_i g p hr
    cases h
    exact .inl ⟨g, p, hr, rfl⟩
  · rename_i g r hr
    cases h
    exact .inr ⟨g, r, hr, rfl⟩

/-- The first call goes on or leaves the queue. -/
theorem step_act {a : A} (h : step pr s (.act a) = some s') :
    ∃ p rest r, s.queue = p :: rest ∧ pr.act s.shared p a = some r ∧ s' = Sys.after rest s.returned r := by
  simp only [step] at h
  split at h
  · cases h
  · rename_i p rest hq
    obtain ⟨r, hr, rfl⟩ := Option.map_eq_some_iff.1 h
    exact ⟨p, rest, r, hq, hr, rfl⟩

@[simp] theorem after_shared (rest : List P) (returned : List R) (r : G × Next P R) :
    (Sys.after rest returned r).shared = r.1 := by
  obtain ⟨g, p | x⟩ := r <;> rfl

/-- Whether the call joins the queue or returns at once, the shared state is what its first step makes of it. -/
theorem shared_start {op : Op} (h : step pr s (.start op) = some s') : s'.shared = (pr.start s.shared op).1 := by
  rcases step_start h with ⟨g, p, hr, rfl⟩ | ⟨g, r, hr, rfl⟩ <;> rw [hr]

theorem step_env {e : E} (h : step pr s (.env e) = some s') :
    ∃ g, pr.env s.shared e = some g ∧ s' = { s with shared := g } := by
  obtain ⟨g, hr, rfl⟩ := Option.map_eq_some_iff.1 h
  exact ⟨g, hr, rfl⟩

end Turns
