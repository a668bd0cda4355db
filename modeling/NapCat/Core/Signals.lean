/-
The shutdown signal: with one shutdown call among any number of other calls, every task it waits for
subscribed before it sent its signal, so the task's receiver holds the signal.
-/
import NapCat.Core.Lifecycle

namespace NapCat.Core.Runtime

open Threads

/-- The tasks a call holds handles of. -/
def Pc.tasks : Pc → List Nat
  | .inserting _ _ t => [t]
  | .joining pending _ _ => pending
  | _ => []

namespace Signals

def isShutdown : Event → Bool
  | .start .shutdown => true
  | _ => false

/-- Every handle is the handle of a spawned task, and no task subscribed to signals yet to come. -/
structure Sound (s : Sys) : Prop where
  handles : ∀ t ∈ s.shared.handles, t < s.shared.spawned.length
  calls : ∀ p ∈ s.calls, ∀ t ∈ p.tasks, t < s.shared.spawned.length
  subscribed : ∀ task ∈ s.shared.spawned, task.subscribedAt ≤ s.shared.signals

/-- What stays true from the beginning of the shutdown in `g` to its end: nothing is spawned, and a
task that still holds its receiver subscribed before a signal that has been sent since. -/
structure Told (g g' : Shared) : Prop where
  stopping : g'.state = .stopping
  spawned : g'.spawned.length = g.spawned.length
  subscribed : ∀ task ∈ g'.spawned, task.subscribedAt ≤ g.signals
  sent : ∀ task ∈ g'.spawned, task.receiver = true → g.signals < g'.signals

/-- Since the shutdown began in `g`: it has ended, or it is the only one in progress and has told
every task. -/
def Inv (g : Shared) (s : Sys) : Prop :=
  s.calls.countP Pc.inShutdown = 0 ∨ s.calls.countP Pc.inShutdown = 1 ∧ Told g s.shared

/-! ## What a step can do -/

/-- The first step of a call other than a shutdown: it spawns and subscribes one task in a running
runtime, or none. -/
structure Quiet (g g' : Shared) (p : Pc) : Prop where
  inShutdown : p.inShutdown = false
  tasks : g'.tasks = g.tasks
  signals : g'.signals = g.signals
  spawned : (g'.spawned = g.spawned ∧ p.tasks = [] ∧ (g.state = .stopping → g'.state = .stopping)) ∨
    (g.state = .running ∧ p.tasks = [g.spawned.length] ∧
      ∃ task : Task, task.subscribedAt = g.signals ∧ g'.spawned = g.spawned ++ [task])

theorem start_quiet (g : Shared) : Quiet g (start g).1 (start g).2 := by
  unfold start
  split
  · rename_i hst
    exact ⟨rfl, rfl, rfl, .inl ⟨rfl, rfl, fun h => by rw [hst] at h; cases h⟩⟩
  · rename_i hst
    exact ⟨rfl, rfl, rfl, .inl ⟨rfl, rfl, fun h => by rw [hst] at h; cases h⟩⟩
  · exact ⟨rfl, rfl, rfl, .inl ⟨rfl, rfl, id⟩⟩

theorem register_quiet (g : Shared) (kind : Kind) (name : String) :
    Quiet g (register g kind name).1 (register g kind name).2 := by
  unfold register
  split
  · exact ⟨rfl, rfl, rfl, .inl ⟨rfl, rfl, id⟩⟩
  · rename_i hst
    exact ⟨rfl, rfl, rfl, .inr ⟨not_not.1 hst, rfl, _, rfl, rfl⟩⟩

theorem begin_quiet {g g' : Shared} {op : Op} {p : Pc} (h : begin g op = some (g', p)) (hop : op ≠ .shutdown) :
    Quiet g g' p := by
  cases op with
  | start =>
    obtain ⟨rfl, rfl⟩ := Prod.ext_iff.1 (Option.some.inj h)
    exact start_quiet g
  | registerService name =>
    obtain ⟨rfl, rfl⟩ := Prod.ext_iff.1 (Option.some.inj h)
    exact register_quiet g _ _
  | spawnTask name =>
    obtain ⟨rfl, rfl⟩ := Prod.ext_iff.1 (Option.some.inj h)
    exact register_quiet g _ _
  | shutdown => exact absurd rfl hop

/-- A later step: handles move between the map and the calls, nothing is spawned or sent, and only
the end of a shutdown writes the state. -/
structure Moves (g g' : Shared) (p q : Pc) : Prop where
  spawned : g'.spawned = g.spawned
  signals : g'.signals = g.signals
  handles : ∀ t ∈ g'.handles, t ∈ g.handles ∨ t ∈ p.tasks
  tasks : ∀ t ∈ q.tasks, t ∈ g.handles ∨ t ∈ p.tasks
  state : (q.inShutdown = p.inShutdown ∧ g'.state = g.state) ∨ (p.inShutdown = true ∧ q.inShutdown = false)

theorem insert_moves (g : Shared) (kind : Kind) (name : String) (t : Nat) :
    Moves g (insert g kind name t).1 (.inserting kind name t) (insert g kind name t).2 := by
  unfold insert
  split
  · exact ⟨rfl, rfl, fun _ => .inl, (fun _ h => by cases h), .inl ⟨rfl, rfl⟩⟩
  · rename_i hname
    refine ⟨rfl, rfl, fun u hu => ?_, (fun _ h => by cases h), .inl ⟨rfl, rfl⟩⟩
    rw [Shared.handles, AList.entries_insert_of_notMem hname, List.map_cons, List.mem_cons] at hu
    rcases hu with rfl | hu
    · exact .inr (List.mem_singleton.2 rfl)
    · exact .inl hu

theorem join_moves {g : Shared} {pending expired : List Nat} {n t : Nat} {text : String} {q : Pc}
    (h : join g pending expired n t text = some q) : Moves g g (.joining pending expired n) q := by
  unfold join at h
  split_ifs at h
  · cases h
    exact ⟨rfl, rfl, fun _ => .inl, (fun _ h => by cases h), .inr ⟨rfl, rfl⟩⟩
  · split at h
    · cases h
      exact ⟨rfl, rfl, fun _ => .inl, fun _ hu => .inr (List.mem_of_mem_erase hu), .inl ⟨rfl, rfl⟩⟩
    · cases h
      exact ⟨rfl, rfl, fun _ => .inl, (fun _ h => by cases h), .inr ⟨rfl, rfl⟩⟩
    · cases h

theorem act_moves {g g' : Shared} {p q : Pc} {a : Act} (h : act g p a = some (g', q)) : Moves g g' p q := by
  unfold act at h
  split at h
  · obtain ⟨rfl, rfl⟩ := Prod.ext_iff.1 (Option.some.inj h)
    exact insert_moves g _ _ _
  · cases h
    exact ⟨rfl, rfl, (fun _ h => by cases h), fun _ => .inl, .inl ⟨rfl, rfl⟩⟩
  · cases h
    exact ⟨rfl, rfl, fun _ => .inl, (fun _ h => by cases h), .inr ⟨rfl, rfl⟩⟩
  · obtain ⟨q', hj, hq⟩ := Option.map_eq_some_iff.1 h
    cases hq
    exact join_moves hj
  · obtain ⟨q', he, hq⟩ := Option.map_eq_some_iff.1 h
    cases hq
    unfold expire at he
    split at he
    · cases he
      exact ⟨rfl, rfl, fun _ => .inl, fun _ => .inr, .inl ⟨rfl, rfl⟩⟩
    · cases he
  · cases h

/-- A task keeps the place and the time of its subscription, and takes no receiver back. -/
structure Runs (g g' : Shared) : Prop where
  state : g'.state = g.state
  tasks : g'.tasks = g.tasks
  signals : g'.signals = g.signals
  length : g'.spawned.length = g.spawned.length
  spawned : ∀ task' ∈ g'.spawned, ∃ task ∈ g.spawned,
    task'.subscribedAt = task.subscribedAt ∧ (task'.receiver = true → task.receiver = true)

theorem env_runs {g g' : Shared} {e : Env} (h : env g e = some g') : Runs g g' := by
  obtain ⟨-, rfl⟩ := env_cases h
  refine ⟨rfl, rfl, rfl, List.length_modify .., fun task' hm => ?_⟩
  obtain ⟨i, hi⟩ := List.mem_iff_getElem?.1 hm
  rw [List.getElem?_modify] at hi
  obtain ⟨task, htask, hi⟩ := Option.map_eq_some_iff.1 hi
  refine ⟨task, List.mem_of_getElem? htask, ?_⟩
  split at hi
  · rw [← hi, Env.update_subscribedAt, Env.update_receiver]
    exact ⟨rfl, fun h => by cases h⟩
  · exact ⟨congrArg _ hi.symm, fun h => hi ▸ h⟩

/-! ## Soundness -/

theorem Sound.begin {s : Sys} {op : Op} {g : Shared} {p : Pc} (h : Sound s) (hb : begin s.shared op = some (g, p)) :
    Sound ⟨g, s.calls ++ [p]⟩ := by
  by_cases hop : op = .shutdown
  · subst hop
    obtain ⟨rfl, rfl⟩ := Prod.ext_iff.1 (Option.some.inj hb)
    unfold beginShutdown
    split
    · exact ⟨h.handles, forall_append h.calls (fun _ ht => by cases ht), h.subscribed⟩
    · exact ⟨h.handles, forall_append h.calls (fun _ ht => by cases ht), h.subscribed⟩
    all_goals
      refine ⟨h.handles, forall_append h.calls (fun _ ht => by cases ht), fun task hm => ?_⟩
      refine Nat.le_trans (h.subscribed task hm) ?_
      show s.shared.signals ≤ if 0 < s.shared.receiverCount then s.shared.signals + 1 else s.shared.signals
      split <;> omega
  · have hq := begin_quiet hb hop
    have hhandles : g.handles = s.shared.handles := by rw [Shared.handles, hq.tasks]; rfl
    rcases hq.spawned with ⟨hsp, hp, -⟩ | ⟨-, hp, task, hsub, hsp⟩
    · refine ⟨?_, forall_append ?_ ?_, ?_⟩
      · rw [hhandles, hsp]; exact h.handles
      · rw [hsp]; exact h.calls
      · rw [hp]; exact fun _ ht => by cases ht
      · rw [hsp, hq.signals]; exact h.subscribed
    · have hlen : g.spawned.length = s.shared.spawned.length + 1 := by rw [hsp, List.length_append]; rfl
      refine ⟨fun t ht => ?_, forall_append (fun q hm t ht => ?_) fun t ht => ?_, ?_⟩
      · rw [hhandles] at ht
        exact hlen ▸ Nat.lt_succ_of_lt (h.handles t ht)
      · exact hlen ▸ Nat.lt_succ_of_lt (h.calls q hm t ht)
      · rw [hp, List.mem_singleton] at ht
        show t < g.spawned.length
        omega
      · show ∀ task ∈ g.spawned, task.subscribedAt ≤ g.signals
        rw [hsp, hq.signals]
        exact forall_append h.subscribed (Nat.le_of_eq hsub)

theorem Sound.step {s s' : Sys} {e : Event} (h : Sound s) (hs : step s e = some s') : Sound s' := by
  cases e with
  | start op =>
    obtain ⟨g, p, hb, rfl⟩ := step_start hs
    exact h.begin hb
  | act i a =>
    obtain ⟨p, g, q, hi, ha, rfl⟩ := step_act hs
    have hm := act_moves ha
    have hlt : ∀ t, t ∈ s.shared.handles ∨ t ∈ p.tasks → t < g.spawned.length := by
      intro t ht
      rw [hm.spawned]
      exact ht.elim (h.handles t) (h.calls p (mem_of_get hi) t)
    refine ⟨fun t ht => hlt t (hm.handles t ht), forall_set ?_ fun t ht => hlt t (hm.tasks t ht), ?_⟩
    · rw [hm.spawned]; exact h.calls
    · rw [hm.spawned, hm.signals]; exact h.subscribed
  | env e =>
    obtain ⟨g, he, rfl⟩ := step_env hs
    have hr := env_runs he
    have hhandles : g.handles = s.shared.handles := by rw [Shared.handles, hr.tasks]; rfl
    refine ⟨?_, ?_, fun task' hm => ?_⟩
    · rw [hhandles, hr.length]; exact h.handles
    · rw [hr.length]; exact h.calls
    · obtain ⟨task, hm', hsub, -⟩ := hr.spawned task' hm
      rw [hsub, hr.signals]
      exact h.subscribed task hm'

theorem Sound.init : Sound init :=
  ⟨fun t h => (by cases h), fun p h => (by cases h), fun task h => (by cases h)⟩

/-! ## One shutdown -/

/-- Only a new shutdown adds to the shutdowns in progress. -/
theorem countP_step {s s' : Sys} {e : Event} (he : isShutdown e = false) (hs : step s e = some s') :
    s'.calls.countP Pc.inShutdown ≤ s.calls.countP Pc.inShutdown := by
  cases e with
  | start op =>
    obtain ⟨g, p, hb, rfl⟩ := step_start hs
    have hop : op ≠ .shutdown := by
      rintro rfl
      cases he
    show (s.calls ++ [p]).countP _ ≤ _
    rw [countP_append_one, (begin_quiet hb hop).inShutdown]
    rfl
  | act i a =>
    obtain ⟨p, g, q, hi, ha, rfl⟩ := step_act hs
    have hc := countP_set Pc.inShutdown q hi
    rcases (act_moves ha).state with ⟨hin, -⟩ | ⟨hp, hq⟩
    · rw [hin] at hc
      exact Nat.le_of_eq (Nat.add_right_cancel hc)
    · rw [hp, hq] at hc
      show (s.calls.set i q).countP _ ≤ _
      simp at hc
      omega
  | env e =>
    obtain ⟨g, -, rfl⟩ := step_env hs
    exact Nat.le_refl _

/-- While the shutdown is in progress, a step that does not end it leaves every task told. -/
theorem Told.step {g : Shared} {s s' : Sys} {e : Event} (h : Told g s.shared) (hone : s.calls.countP Pc.inShutdown = 1)
    (hone' : s'.calls.countP Pc.inShutdown = 1) (he : isShutdown e = false) (hs : step s e = some s') :
    Told g s'.shared := by
  cases e with
  | start op =>
    obtain ⟨g', p, hb, rfl⟩ := step_start hs
    have hq := begin_quiet hb (by rintro rfl; cases he)
    rcases hq.spawned with ⟨hsp, -, hst⟩ | ⟨hrun, -⟩
    · refine ⟨hst h.stopping, ?_, ?_, ?_⟩
      · rw [hsp]; exact h.spawned
      · rw [hsp]; exact h.subscribed
      · rw [hsp, hq.signals]; exact h.sent
    · rw [h.stopping] at hrun; cases hrun
  | act i a =>
    obtain ⟨p, g', q, hi, ha, rfl⟩ := step_act hs
    have hm := act_moves ha
    rcases hm.state with ⟨-, hst⟩ | ⟨hp, hq⟩
    · refine ⟨hst.trans h.stopping, ?_, ?_, ?_⟩
      · rw [hm.spawned]; exact h.spawned
      · rw [hm.spawned]; exact h.subscribed
      · rw [hm.spawned, hm.signals]; exact h.sent
    · -- this step would end the only shutdown in progress
      have hc := countP_set Pc.inShutdown q hi
      rw [hp, hq, hone] at hc
      change (s.calls.set i q).countP _ = 1 at hone'
      rw [hone'] at hc
      cases hc
  | env e =>
    obtain ⟨g', hr, rfl⟩ := step_env hs
    have hr := env_runs hr
    refine ⟨hr.state.trans h.stopping, hr.length.trans h.spawned, fun task' hm => ?_, fun task' hm hrec => ?_⟩
    · obtain ⟨task, hm', hsub, -⟩ := hr.spawned task' hm
      exact hsub ▸ h.subscribed task hm'
    · obtain ⟨task, hm', -, hkeep⟩ := hr.spawned task' hm
      rw [hr.signals]
      exact h.sent task hm' (hkeep hrec)

theorem inv_step {g : Shared} (s : Sys) (e : Event) (s' : Sys) (h : Inv g s) (he : isShutdown e = false)
    (hs : step s e = some s') : Inv g s' := by
  have hle := countP_step he hs
  rcases h with h0 | ⟨h1, htold⟩
  · exact .inl (Nat.le_zero.1 (h0 ▸ hle))
  · rcases Nat.le_one_iff_eq_zero_or_eq_one.1 (h1 ▸ hle) with h0' | h1'
    · exact .inl h0'
    · exact .inr ⟨h1', htold.step h1 h1' he hs⟩

/-- The signal goes to every task that holds its receiver. -/
theorem inv_shutdown {s s' : Sys} (h : Sound s) (h0 : s.calls.countP Pc.inShutdown = 0)
    (hs : step s (.start .shutdown) = some s') : Inv s.shared s' := by
  obtain ⟨g, p, hb, rfl⟩ := step_start hs
  obtain ⟨rfl, rfl⟩ := Prod.ext_iff.1 (Option.some.inj hb)
  have hsent : ∀ task ∈ s.shared.spawned, task.receiver = true →
      s.shared.signals < if 0 < s.shared.receiverCount then s.shared.signals + 1 else s.shared.signals := by
    intro task hm hrec
    have hpos : 0 < s.shared.receiverCount := List.length_pos_of_mem (List.mem_filter.2 ⟨hm, hrec⟩)
    rw [if_pos hpos]
    exact Nat.lt_succ_self _
  have hcount : ∀ p, (s.calls ++ [p]).countP Pc.inShutdown = if p.inShutdown then 1 else 0 := by
    intro p
    rw [countP_append_one, h0, Nat.zero_add]
  unfold Inv beginShutdown
  split
  · exact .inl (hcount _)
  · exact .inl (hcount _)
  all_goals exact .inr ⟨hcount _, rfl, rfl, h.subscribed, hsent⟩

/-- With one shutdown among any number of other calls, whatever the shutdown waits for was spawned and
subscribed before it began, and a task that still holds its receiver got a signal after it had
subscribed. -/
theorem awaited_are_told {es es' : List Event} {s₀ s₁ s : Sys} (hes : ∀ e ∈ es, isShutdown e = false)
    (hes' : ∀ e ∈ es', isShutdown e = false) (h₀ : Run.exec step Runtime.init es = some s₀)
    (h₁ : step s₀ (.start .shutdown) = some s₁) (hs : Run.exec step s₁ es' = some s) {pending expired : List Nat}
    {n : Nat} (hj : .joining pending expired n ∈ s.calls) : ∀ t ∈ pending, t < s₀.shared.spawned.length ∧
      ∀ task, s.shared.spawned[t]? = some task →
        task.subscribedAt ≤ s₀.shared.signals ∧ (task.receiver = true → s₀.shared.signals < s.shared.signals) := by
  have hsound₀ : Sound s₀ := Run.exec_inv_always (fun _ _ _ h hs => h.step hs) es _ _ Sound.init h₀
  have hidle : s₀.calls.countP Pc.inShutdown = 0 := by
    refine Run.exec_inv (I := fun s => s.calls.countP Pc.inShutdown = 0) (fun s e s' h he hs => ?_) es _ _ rfl
      (Run.along_of_forall es _ hes) h₀
    exact Nat.le_zero.1 (h ▸ countP_step he hs)
  have hinv : Inv s₀.shared s :=
    Run.exec_inv inv_step es' _ _ (inv_shutdown hsound₀ hidle h₁) (Run.along_of_forall es' _ hes') hs
  have hsound : Sound s := Run.exec_inv_always (fun _ _ _ h hs => h.step hs) es' _ _ (hsound₀.step h₁) hs
  rcases hinv with hnone | ⟨-, htold⟩
  · cases List.countP_eq_zero.1 hnone _ hj rfl
  · intro t ht
    refine ⟨htold.spawned ▸ hsound.calls _ hj t ht, fun task htask => ?_⟩
    have hm := List.mem_of_getElem? htask
    exact ⟨htold.subscribed task hm, htold.sent task hm⟩

/-- A service whose handle is inserted after the shutdown has sent its signal. -/
def beforeShutdown : List Event := [.start .start, .start (.registerService "a"), .start (.spawnTask "b"), .act 2 .go]

def sinceShutdown : List Event := [.act 1 .go, .act 3 .go]

theorem awaited_are_told_lateHandle : ∃ s₀ s₁ s, Run.exec step Runtime.init beforeShutdown = some s₀ ∧
    step s₀ (.start .shutdown) = some s₁ ∧ Run.exec step s₁ sinceShutdown = some s ∧
    .joining [0, 1] [] 0 ∈ s.calls ∧ ∀ t ∈ [0, 1], t < s₀.shared.spawned.length := by
  have hk : ((Run.exec step Runtime.init beforeShutdown).bind fun s₀ => (step s₀ (.start .shutdown)).bind fun s₁ =>
      (Run.exec step s₁ sinceShutdown).bind fun s => s.calls[3]?) = some (.joining [0, 1] [] 0) := by rfl
  obtain ⟨s₀, h₀, hk⟩ := Option.bind_eq_some_iff.1 hk
  obtain ⟨s₁, h₁, hk⟩ := Option.bind_eq_some_iff.1 hk
  obtain ⟨s, hs, hk⟩ := Option.bind_eq_some_iff.1 hk
  have hj := mem_of_get hk
  refine ⟨s₀, s₁, s, h₀, h₁, hs, hj, fun t ht => ?_⟩
  exact (awaited_are_told (by decide) (by decide) h₀ h₁ hs hj t ht).1

end Signals

end NapCat.Core.Runtime
