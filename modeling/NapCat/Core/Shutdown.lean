/-
Stopped means stopped: when no task is spawned while a shutdown waits, and no shutdown takes the map
while a registration is half done or a running task has no handle in it, a runtime whose state is
`Stopped` has an empty task map and no running task.
-/
import NapCat.Core.Runtime

namespace NapCat.Core.Runtime

open Threads

/-- A shutdown that has taken the map and waits for the tasks. -/
def Pc.isJoining : Pc → Bool
  | .joining _ _ _ => true
  | _ => false

/-- Between the spawn of a task and the insertion of its handle. -/
def Pc.isInserting : Pc → Bool
  | .inserting _ _ _ => true
  | _ => false

/-- A registration spawns its task only when no shutdown is waiting, and a shutdown takes the map
only when no registration is between its spawn and its insertion and every running task has its
handle in the map. -/
def Orderly (s : Sys) : Event → Prop
  | .start (.registerService _) | .start (.spawnTask _) =>
    s.shared.state = .running → ∀ p ∈ s.calls, p.isJoining = false
  | .act i _ =>
    match s.calls[i]? with
    | some .draining => (∀ p ∈ s.calls, p.isInserting = false) ∧
        ∀ t < s.shared.spawned.length, s.shared.isRunning t = true → t ∈ s.shared.handles
    | _ => True
  | _ => True

instance (s : Sys) (e : Event) : Decidable (Orderly s e) := by
  unfold Orderly
  split
  · infer_instance
  · infer_instance
  · split <;> infer_instance
  · infer_instance

/-- From the moment a shutdown has taken the map nothing is added to it, and what runs is what each
waiting shutdown waits for. -/
structure Inv (s : Sys) : Prop where
  settled : (s.shared.state = .stopped ∨ ∃ p ∈ s.calls, p.isJoining = true) →
    s.shared.tasks = ∅ ∧ ∀ p ∈ s.calls, p.isInserting = false
  awaited : ∀ pending expired n, .joining pending expired n ∈ s.calls → ∀ t, s.shared.isRunning t = true → t ∈ pending
  stopped : s.shared.state = .stopped → ∀ t, s.shared.isRunning t = false

theorem isRunning_iff {g : Shared} {t : Nat} : g.isRunning t = true ↔ (g.spawned[t]?).map Task.status = some .running :=
  decide_eq_true_iff

theorem lt_of_isRunning {g : Shared} {t : Nat} (h : g.isRunning t = true) : t < g.spawned.length := by
  obtain ⟨task, ht, -⟩ := Option.map_eq_some_iff.1 (isRunning_iff.1 h)
  exact (List.getElem?_eq_some_iff.1 ht).1

/-- Without a waiting shutdown there is nothing to keep but in a stopped runtime. -/
theorem Inv.of_idle {s : Sys} (h : ∀ p ∈ s.calls, p.isJoining = false) (hs : s.shared.state ≠ .stopped) : Inv s where
  settled := by
    rintro (hst | ⟨p, hp, hj⟩)
    · exact absurd hst hs
    · rw [h p hp] at hj; cases hj
  awaited pending expired n hm := by cases h _ hm
  stopped hst := absurd hst hs

/-! ## The first step of a call -/

/-- A new call that neither waits nor inserts, where the state is the old one or not `Stopped`. -/
theorem Inv.append {s : Sys} {g : Shared} {p : Pc} (h : Inv s) (hj : p.isJoining = false) (hi : p.isInserting = false)
    (hst : g.state = .stopped → s.shared.state = .stopped) (htasks : g.tasks = s.shared.tasks)
    (hrun : g.spawned = s.shared.spawned) : Inv ⟨g, s.calls ++ [p]⟩ := by
  have hr : ∀ t, g.isRunning t = s.shared.isRunning t := by
    intro t
    rw [Shared.isRunning, Shared.statusOf, hrun]
    rfl
  refine ⟨fun hs => ?_, fun pending expired n hm t ht => ?_, fun hs t => (hr t).trans (h.stopped (hst hs) t)⟩
  · have hs' : s.shared.state = .stopped ∨ ∃ q ∈ s.calls, q.isJoining = true := by
      refine hs.imp hst fun ⟨q, hq, hqj⟩ => ?_
      rcases List.mem_append.1 hq with hq | hq
      · exact ⟨q, hq, hqj⟩
      · rw [List.mem_singleton.1 hq, hj] at hqj; cases hqj
    exact ⟨htasks.trans (h.settled hs').1, forall_append (h.settled hs').2 hi⟩
  · rcases List.mem_append.1 hm with hm | hm
    · exact h.awaited pending expired n hm t ((hr t).symm.trans ht)
    · rw [← List.mem_singleton.1 hm] at hj; cases hj

theorem Inv.start {s : Sys} (h : Inv s) : Inv ⟨(start s.shared).1, s.calls ++ [(start s.shared).2]⟩ := by
  unfold Runtime.start
  split
  · exact h.append rfl rfl RuntimeState.noConfusion rfl rfl
  · exact h.append rfl rfl RuntimeState.noConfusion rfl rfl
  · exact h.append rfl rfl id rfl rfl

theorem Inv.register {s : Sys} (h : Inv s) (kind : Kind) (name : String)
    (hc : s.shared.state = .running → ∀ p ∈ s.calls, p.isJoining = false) :
    Inv ⟨(register s.shared kind name).1, s.calls ++ [(register s.shared kind name).2]⟩ := by
  unfold Runtime.register
  split
  · exact h.append rfl rfl id rfl rfl
  · rename_i hst
    rw [ne_eq, not_not] at hst
    refine Inv.of_idle (forall_append (hc hst) rfl) ?_
    show s.shared.state ≠ .stopped
    rw [hst]; decide

theorem Inv.beginShutdown {s : Sys} (h : Inv s) :
    Inv ⟨(beginShutdown s.shared).1, s.calls ++ [(beginShutdown s.shared).2]⟩ := by
  unfold Runtime.beginShutdown
  split
  · exact h.append rfl rfl id rfl rfl
  · exact h.append rfl rfl id rfl rfl
  all_goals exact h.append rfl rfl RuntimeState.noConfusion rfl rfl

/-! ## Later steps -/

/-- A call goes on to a point where it does not insert, and where it waits, it waits for every
running task. -/
theorem Inv.set {s : Sys} {i : Nat} {p q : Pc} (h : Inv s) (hi : s.calls[i]? = some p) (hq : q.isInserting = false)
    (hj : q.isJoining = true → p.isJoining = true)
    (hw : ∀ pending expired n, q = .joining pending expired n → ∀ t, s.shared.isRunning t = true → t ∈ pending) :
    Inv ⟨s.shared, s.calls.set i q⟩ := by
  refine ⟨fun hs => ?_, fun pending expired n hm => ?_, h.stopped⟩
  · have hs' : s.shared.state = .stopped ∨ ∃ x ∈ s.calls, x.isJoining = true := by
      refine hs.imp_right fun ⟨x, hx, hxj⟩ => ?_
      rcases List.mem_or_eq_of_mem_set hx with hx | rfl
      · exact ⟨x, hx, hxj⟩
      · exact ⟨p, mem_of_get hi, hj hxj⟩
    exact ⟨(h.settled hs').1, forall_set (h.settled hs').2 hq⟩
  · rcases List.mem_or_eq_of_mem_set hm with hm | hm
    · exact h.awaited pending expired n hm
    · exact hw pending expired n hm.symm

/-- An insertion happens outside the waits of shutdowns and outside `Stopped`. -/
theorem Inv.insert {s : Sys} {i : Nat} {kind : Kind} {name : String} {t : Nat} (h : Inv s)
    (hi : s.calls[i]? = some (.inserting kind name t)) :
    Inv ⟨(insert s.shared kind name t).1, s.calls.set i (insert s.shared kind name t).2⟩ := by
  have hns : ¬ (s.shared.state = .stopped ∨ ∃ p ∈ s.calls, p.isJoining = true) := fun hs => by
    cases (h.settled hs).2 _ (mem_of_get hi)
  obtain ⟨hst, hnj⟩ := not_or.1 hns
  have hdone : (Runtime.insert s.shared kind name t).2.isJoining = false := by
    unfold Runtime.insert; split <;> rfl
  have hstate : (Runtime.insert s.shared kind name t).1.state = s.shared.state := by
    unfold Runtime.insert; split <;> rfl
  refine Inv.of_idle (forall_set (fun p hp => ?_) hdone) fun hs => hst (hstate ▸ hs)
  rw [← Bool.not_eq_true]
  exact fun hj => hnj ⟨p, hp, hj⟩

theorem Inv.drain {s : Sys} {i : Nat} (h : Inv s) (hins : ∀ p ∈ s.calls, p.isInserting = false)
    (hall : ∀ t < s.shared.spawned.length, s.shared.isRunning t = true → t ∈ s.shared.handles) :
    Inv ⟨(drain s.shared).1, s.calls.set i (drain s.shared).2⟩ := by
  refine ⟨fun _ => ⟨rfl, forall_set hins rfl⟩, fun pending expired n hm t ht => ?_, h.stopped⟩
  rcases List.mem_or_eq_of_mem_set hm with hm | hm
  · exact h.awaited pending expired n hm t ht
  · cases hm
    exact hall t (lt_of_isRunning ht) ht

/-- A shutdown goes on waiting, for every task that it waited for and that has not ended. -/
theorem Inv.waiting {s : Sys} {i : Nat} {pending pending' expired expired' : List Nat} {n n' : Nat} (h : Inv s)
    (hi : s.calls[i]? = some (.joining pending expired n))
    (hsub : ∀ t ∈ pending, s.shared.isRunning t = true → t ∈ pending') :
    Inv ⟨s.shared, s.calls.set i (.joining pending' expired' n')⟩ := by
  refine h.set hi rfl (fun _ => rfl) fun _ _ _ he t ht => ?_
  cases he
  exact hsub t (h.awaited pending expired n (mem_of_get hi) t ht) ht

/-- A shutdown returns an error: the state stays as it is. -/
theorem Inv.failed {s : Sys} {i : Nat} {p : Pc} (h : Inv s) (hi : s.calls[i]? = some p) (e : RuntimeError) :
    Inv ⟨s.shared, s.calls.set i (fail e)⟩ :=
  h.set hi rfl (fun hj => by cases hj) fun _ _ _ he => by cases he

/-- A shutdown that has nothing left to wait for writes `Stopped`. -/
theorem Inv.finish {s : Sys} {i n : Nat} {expired : List Nat} (h : Inv s)
    (hi : s.calls[i]? = some (.joining [] expired n)) :
    Inv ⟨(finish s.shared n).1, s.calls.set i (finish s.shared n).2⟩ := by
  have hm := mem_of_get hi
  have hset := h.settled (.inr ⟨_, hm, rfl⟩)
  refine ⟨fun _ => ⟨hset.1, forall_set hset.2 rfl⟩, fun pending' expired' k hk => ?_, fun _ t => ?_⟩
  · rcases List.mem_or_eq_of_mem_set hk with hk | hk
    · exact h.awaited pending' expired' k hk
    · cases hk
  · rw [← Bool.not_eq_true]
    intro ht
    cases h.awaited [] expired n hm t ht

/-- A task whose status becomes running under the change was running before it. -/
theorem isRunning_of_modify {g : Shared} {t u : Nat} {f : Task → Task}
    (hf : ∀ task, (f task).status = .running → task.status = .running)
    (h : Shared.isRunning { g with spawned := g.spawned.modify t f } u = true) : g.isRunning u = true := by
  rw [isRunning_iff] at h ⊢
  rw [List.getElem?_modify] at h
  cases hold : g.spawned[u]? with
  | none => rw [hold] at h; cases h
  | some old =>
    rw [hold] at h
    simp only [Option.map_some, Option.map_eq_map, Option.some.injEq] at h ⊢
    split at h
    · exact hf old h
    · exact h

/-- Tasks end and are never restarted; nothing else changes. -/
theorem env_effect {g g' : Shared} {e : Env} (h : env g e = some g') :
    g'.state = g.state ∧ g'.tasks = g.tasks ∧ ∀ t, g'.isRunning t = true → g.isRunning t = true := by
  obtain ⟨-, rfl⟩ := env_cases h
  exact ⟨rfl, rfl, fun u => isRunning_of_modify fun task => Env.running_of_update⟩

theorem Inv.env {s : Sys} {g : Shared} {e : Env} (h : Inv s) (he : env s.shared e = some g) : Inv ⟨g, s.calls⟩ := by
  obtain ⟨hst, htk, hrun⟩ := env_effect he
  constructor
  · intro hs
    have hset := h.settled (hs.imp_left fun hs => hst.symm.trans hs)
    exact ⟨htk.trans hset.1, hset.2⟩
  · intro pending expired n hm t ht
    exact h.awaited pending expired n hm t (hrun t ht)
  · intro hs t
    have hended := h.stopped (hst.symm.trans hs) t
    rw [← Bool.not_eq_true] at hended ⊢
    exact fun ht => hended (hrun t ht)

/-! ## Every step -/

theorem Inv.act {s : Sys} {i : Nat} {a : Act} {p q : Pc} {g : Shared} (h : Inv s) (hc : Orderly s (.act i a))
    (hi : s.calls[i]? = some p) (hs : act s.shared p a = some (g, q)) : Inv ⟨g, s.calls.set i q⟩ := by
  unfold Runtime.act at hs
  split at hs
  · obtain ⟨rfl, rfl⟩ := Prod.ext_iff.1 (Option.some.inj hs)
    exact h.insert hi
  · cases hs
    simp only [Orderly, hi] at hc
    exact h.drain hc.1 hc.2
  · cases hs; exact h.finish hi
  · obtain ⟨p', hj, he⟩ := Option.map_eq_some_iff.1 hs
    cases he
    unfold join at hj
    split_ifs at hj with hmem hexp
    · cases hj; exact h.failed hi _
    · split at hj
      · rename_i t _ _ hst
        cases hj
        refine h.waiting hi fun u hu hrun => ?_
        -- the joined task has ended, so a running one is another
        have hne : u ≠ t := by
          rintro rfl
          rw [Shared.isRunning, hst] at hrun
          cases hrun
        exact (List.mem_erase_of_ne hne).2 hu
      · cases hj; exact h.failed hi _
      · cases hj
  · obtain ⟨p', hj, he⟩ := Option.map_eq_some_iff.1 hs
    cases he
    unfold expire at hj
    split at hj
    · cases hj; exact h.waiting hi fun _ hu _ => hu
    · cases hj
  · cases hs

theorem step_inv (s : Sys) (e : Event) (s' : Sys) (h : Inv s) (hc : Orderly s e) (hs : step s e = some s') :
    Inv s' := by
  cases e with
  | start op =>
    obtain ⟨g, p, hr, rfl⟩ := step_start hs
    cases op <;> obtain ⟨rfl, rfl⟩ := Prod.ext_iff.1 (Option.some.inj hr)
    · exact h.start
    · exact h.register _ _ hc
    · exact h.register _ _ hc
    · exact h.beginShutdown
  | act i a =>
    obtain ⟨p, g, q, hi, hr, rfl⟩ := step_act hs
    exact h.act hc hi hr
  | env e =>
    obtain ⟨g, hr, rfl⟩ := step_env hs
    exact h.env hr

theorem Inv.init : Inv init := Inv.of_idle (fun p hp => by cases hp) RuntimeState.noConfusion

/-- In every orderly run, whenever the state is `Stopped` the task map is empty and every task ever
spawned has ended. -/
theorem stopped_means_stopped {es : List Event} {s : Sys} (hc : Run.Along step Orderly init es)
    (hs : Run.exec step init es = some s) (hst : s.shared.state = .stopped) :
    s.shared.tasks = ∅ ∧ ∀ task ∈ s.shared.spawned, task.status ≠ .running := by
  have h : Inv s := Run.exec_inv step_inv es _ _ Inv.init hc hs
  refine ⟨(h.settled (.inl hst)).1, fun task hm hrun => ?_⟩
  obtain ⟨t, ht⟩ := List.mem_iff_getElem?.1 hm
  have := h.stopped hst t
  simp [Shared.isRunning, Shared.statusOf, ht, hrun] at this

/-- Two services; a shutdown that times out on the second one, and a shutdown after it has ended. -/
def lateTask : List Event :=
  [.start .start, .start (.registerService "a"), .act 1 .go, .start (.spawnTask "b"), .act 2 .go,
    .start .shutdown, .act 3 .go, .env (.finish 0), .act 3 (.join 0 ""), .act 3 (.expire 1), .env (.finish 1),
    .act 3 (.join 1 ""), .start .shutdown, .act 4 .go, .act 4 .go]

theorem stopped_means_stopped_lateTask : ∃ s, Run.exec step init lateTask = some s ∧
    s.shared.state = .stopped ∧ s.shared.tasks = ∅ := by
  have hk : (Run.exec step init lateTask).map (fun s => s.shared.state) = some .stopped := by decide +kernel
  obtain ⟨s, hs, hk⟩ := Option.map_eq_some_iff.1 hk
  exact ⟨s, hs, hk, (stopped_means_stopped (by decide +kernel) hs hk).1⟩

/-- A service that outlives the timeout of one shutdown, and a second shutdown at once after it. -/
def secondShutdown : List Event :=
  [.start .start, .start (.registerService "a"), .act 1 .go, .start .shutdown, .act 2 .go, .act 2 (.expire 0),
    .act 2 (.join 0 ""), .start .shutdown, .act 3 .go, .act 3 .go]

/-- The first shutdown dropped the handle, so the second one finds nothing to wait for: the runtime
is stopped and the service runs. -/
theorem stopped_with_running_task : ∃ s, Run.exec step init secondShutdown = some s ∧
    s.shared.state = .stopped ∧ ∃ task ∈ s.shared.spawned, task.status = .running := by
  have hk : (Run.exec step init secondShutdown).map
      (fun s => (s.shared.state, s.shared.spawned.any fun task => decide (task.status = .running)))
      = some (.stopped, true) := by decide +kernel
  obtain ⟨s, hs, hk⟩ := Option.map_eq_some_iff.1 hk
  rw [Prod.mk.injEq] at hk
  obtain ⟨task, hm, hrun⟩ := List.any_eq_true.1 hk.2
  exact ⟨s, hs, hk.1, task, hm, of_decide_eq_true hrun⟩

end NapCat.Core.Runtime
