/-
The lifecycle of the runtime: as long as no start overlaps a shutdown, its state changes along the
four edges of the lifecycle only, and no shutdown is in progress while it is `Running`.
-/
import NapCat.Core.Runtime

namespace NapCat.Core.Runtime

open Threads

/-- Between the first state write and the return of a shutdown. -/
def Pc.inShutdown : Pc → Bool
  | .draining | .joining _ _ _ => true
  | _ => false

namespace Lifecycle

/-- The edges of the lifecycle. -/
inductive Edge : RuntimeState → RuntimeState → Prop
  | start : Edge .initialized .running
  | shutdown : Edge .running .stopping
  | stop : Edge .stopping .stopped
  | restart : Edge .stopped .running

/-- The state stays, or changes along an edge. -/
def Legal (a b : RuntimeState) : Prop := b = a ∨ Edge a b

/-- A stopped runtime is started only while no shutdown is in progress. -/
def Orderly (s : Sys) : Event → Prop
  | .start .start => s.shared.state = .stopped → ∀ p ∈ s.calls, p.inShutdown = false
  | _ => True

instance (s : Sys) (e : Event) : Decidable (Orderly s e) := by
  unfold Orderly
  split <;> infer_instance

/-- A shutdown in progress has left `Running` behind. -/
def Inv (s : Sys) : Prop :=
  ∀ p ∈ s.calls, p.inShutdown = true → s.shared.state = .stopping ∨ s.shared.state = .stopped

/-! ## One step -/

/-- A new call: the state changes along an edge, or not at all. -/
theorem begin_legal {g g' : Shared} {op : Op} {p : Pc} (h : begin g op = some (g', p)) : Legal g.state g'.state := by
  cases op with
  | start =>
    obtain ⟨rfl, rfl⟩ := Prod.ext_iff.1 (Option.some.inj h)
    unfold Runtime.start
    split
    · rename_i hst
      exact .inr (hst ▸ .start)
    · rename_i hst
      exact .inr (hst ▸ .restart)
    · exact .inl rfl
  | registerService name | spawnTask name =>
    obtain ⟨rfl, rfl⟩ := Prod.ext_iff.1 (Option.some.inj h)
    unfold register
    split <;> exact .inl rfl
  | shutdown =>
    obtain ⟨rfl, rfl⟩ := Prod.ext_iff.1 (Option.some.inj h)
    unfold beginShutdown
    split
    · exact .inl rfl
    · exact .inl rfl
    · rename_i hst
      exact .inr (hst ▸ .shutdown)
    · rename_i hst
      exact .inl hst.symm

/-- A later step: the state is kept, or a shutdown that has nothing left to wait for writes `Stopped`. -/
theorem act_state {g g' : Shared} {p q : Pc} {a : Act} (h : act g p a = some (g', q)) :
    (g'.state = g.state ∧ (q.inShutdown = true → p.inShutdown = true)) ∨
      (p.inShutdown = true ∧ g'.state = .stopped ∧ q.inShutdown = false) := by
  unfold act at h
  split at h
  · obtain ⟨rfl, rfl⟩ := Prod.ext_iff.1 (Option.some.inj h)
    left
    unfold insert
    split <;> exact ⟨rfl, fun hin => by cases hin⟩
  · cases h
    exact .inl ⟨rfl, fun _ => rfl⟩
  · cases h
    exact .inr ⟨rfl, rfl, rfl⟩
  · obtain ⟨q', -, hq⟩ := Option.map_eq_some_iff.1 h
    cases hq
    exact .inl ⟨rfl, fun _ => rfl⟩
  · obtain ⟨q', -, hq⟩ := Option.map_eq_some_iff.1 h
    cases hq
    exact .inl ⟨rfl, fun _ => rfl⟩
  · cases h

theorem env_state {g g' : Shared} {e : Env} (h : env g e = some g') : g'.state = g.state := by
  rw [(env_cases h).2]

theorem step_legal {s s' : Sys} {e : Event} (h : Inv s) (hs : step s e = some s') :
    Legal s.shared.state s'.shared.state := by
  cases e with
  | start op =>
    obtain ⟨g, p, hr, rfl⟩ := step_start hs
    exact begin_legal hr
  | act i a =>
    obtain ⟨p, g, q, hi, hr, rfl⟩ := step_act hs
    rcases act_state hr with ⟨hst, -⟩ | ⟨hp, hst, -⟩
    · exact .inl hst
    · -- the shutdown that writes `Stopped` finds `Stopping`, or `Stopped` already
      rcases h p (mem_of_get hi) hp with hold | hold
      · refine .inr ?_
        show Edge s.shared.state g.state
        rw [hold, hst]
        exact .stop
      · exact .inl (hst.trans hold.symm)
  | env e =>
    obtain ⟨g, hr, rfl⟩ := step_env hs
    exact .inl (env_state hr)

/-- A new call that leaves the state alone and is no shutdown in progress. -/
theorem Inv.append {s : Sys} {g : Shared} {p : Pc} (h : Inv s) (hst : g.state = s.shared.state)
    (hp : p.inShutdown = false) : Inv ⟨g, s.calls ++ [p]⟩ := by
  refine forall_append (fun q hq hin => ?_) fun hin => ?_
  · show g.state = _ ∨ g.state = _
    rw [hst]
    exact h q hq hin
  · rw [hp] at hin; cases hin

/-- A start succeeds only with no shutdown in progress. -/
theorem Inv.start {s : Sys} (h : Inv s) (hc : Orderly s (.start .start)) :
    Inv ⟨(start s.shared).1, s.calls ++ [(start s.shared).2]⟩ := by
  unfold Runtime.start
  split
  · rename_i hst
    refine forall_append (fun q hq hin => ?_) fun hin => by cases hin
    rcases h q hq hin with hold | hold <;> rw [hst] at hold <;> cases hold
  · rename_i hst
    refine forall_append (fun q hq hin => ?_) fun hin => by cases hin
    rw [hc hst q hq] at hin; cases hin
  · exact h.append rfl rfl

theorem Inv.register {s : Sys} (h : Inv s) (kind : Kind) (name : String) :
    Inv ⟨(register s.shared kind name).1, s.calls ++ [(register s.shared kind name).2]⟩ := by
  unfold Runtime.register
  split <;> exact h.append rfl rfl

theorem Inv.beginShutdown {s : Sys} (h : Inv s) :
    Inv ⟨(beginShutdown s.shared).1, s.calls ++ [(beginShutdown s.shared).2]⟩ := by
  unfold Runtime.beginShutdown
  split
  · exact h.append rfl rfl
  · exact h.append rfl rfl
  all_goals exact fun _ _ _ => .inl rfl

theorem step_inv (s : Sys) (e : Event) (s' : Sys) (h : Inv s) (hc : Orderly s e) (hs : step s e = some s') :
    Inv s' := by
  cases e with
  | start op =>
    obtain ⟨g, p, hr, rfl⟩ := step_start hs
    cases op <;> obtain ⟨rfl, rfl⟩ := Prod.ext_iff.1 (Option.some.inj hr)
    · exact h.start hc
    · exact h.register _ _
    · exact h.register _ _
    · exact h.beginShutdown
  | act i a =>
    obtain ⟨p, g, q, hi, hr, rfl⟩ := step_act hs
    rcases act_state hr with ⟨hst, hq⟩ | ⟨-, hst, hq⟩
    · refine forall_set (fun x hx hin => ?_) fun hin => ?_
      · show g.state = _ ∨ g.state = _
        rw [hst]
        exact h x hx hin
      · show g.state = _ ∨ g.state = _
        rw [hst]
        exact h p (mem_of_get hi) (hq hin)
    · exact fun _ _ _ => .inr hst
  | env e =>
    obtain ⟨g, hr, rfl⟩ := step_env hs
    intro p hp hin
    show g.state = _ ∨ g.state = _
    rw [env_state hr]
    exact h p hp hin

theorem Inv.init : Inv init := fun p hp => by cases hp

/-! ## Runs -/

/-- In every orderly run each step changes the state along an edge of the lifecycle or not at all, and
whenever the runtime is `Running` no shutdown is in progress that could turn it into `Stopped`. -/
theorem legal_edges {es : List Event} {e : Event} {s s' : Sys} (hc : Run.Along step Orderly Runtime.init es)
    (hs : Run.exec step Runtime.init es = some s) (he : step s e = some s') :
    Legal s.shared.state s'.shared.state ∧
      (s.shared.state = .running → ∀ p ∈ s.calls, p.inShutdown = false) := by
  have h : Inv s := Run.exec_inv step_inv es _ _ Inv.init hc hs
  refine ⟨step_legal h he, fun hrun p hp => ?_⟩
  rw [← Bool.not_eq_true]
  intro hin
  rcases h p hp hin with hold | hold <;> rw [hrun] at hold <;> cases hold

/-- Two overlapping shutdowns, both of which return, and a start after them. -/
def restart : List Event :=
  [.start .start, .start .shutdown, .start .shutdown, .act 1 .go, .act 1 .go, .act 2 .go, .act 2 .go]

theorem legal_edges_restart : ∃ s s', Run.exec step Runtime.init restart = some s ∧
    step s (.start .start) = some s' ∧ Legal s.shared.state s'.shared.state := by
  have hk : ((Run.exec step Runtime.init restart).bind fun s => step s (.start .start)).isSome := by decide +kernel
  obtain ⟨s', hs'⟩ := Option.isSome_iff_exists.1 hk
  obtain ⟨s, hs, he⟩ := Option.bind_eq_some_iff.1 hs'
  exact ⟨s, s', hs, he, (legal_edges (by decide +kernel) hs he).1⟩

/-- Two overlapping shutdowns, one of which returns; a start; and the rest of the other shutdown. -/
def staleShutdown : List Event :=
  [.start .start, .start .shutdown, .start .shutdown, .act 1 .go, .act 2 .go, .act 1 .go, .start .start]

/-- The shutdown that began before the start turns `Running` into `Stopped`. -/
theorem stale_shutdown_stops : ∃ s s', Run.exec step Runtime.init staleShutdown = some s ∧
    step s (.act 2 .go) = some s' ∧ ¬ Legal s.shared.state s'.shared.state := by
  have hk : ((Run.exec step Runtime.init staleShutdown).bind fun s =>
      (step s (.act 2 .go)).map fun s' => (s.shared.state, s'.shared.state)) = some (.running, .stopped) := by
    decide +kernel
  obtain ⟨s, hs, hk⟩ := Option.bind_eq_some_iff.1 hk
  obtain ⟨s', he, hk⟩ := Option.map_eq_some_iff.1 hk
  rw [Prod.mk.injEq] at hk
  refine ⟨s, s', hs, he, ?_⟩
  rw [hk.1, hk.2]
  rintro (h | h) <;> cases h

end Lifecycle

end NapCat.Core.Runtime
