/-
One shutdown of a running runtime while its tasks end. `shutdown` counts the receivers of its channel
and then sends; no await lies between the two, but tasks run on other threads, so here they are two
steps. The shutdown succeeds unless the last receiver goes between them.
-/
import NapCat.Core.Signals

namespace NapCat.Core.Runtime

namespace OneShutdown

/-- The steps before the map is taken, each on its own, and from there those of `Runtime`. -/
inductive Point
  | entering
  | counting
  | sending
  | later (p : Pc)

/-- The runtime and its one shutdown. -/
structure Sys where
  shared : Shared
  point : Point := .entering

/-- A step of the shutdown, or one of a task. -/
inductive Event
  | call (a : Act)
  | env (e : Env)

/-- The write of the state. -/
def enter (g : Shared) : Shared × Point :=
  match g.state with
  | .stopped => (g, .later (.done (.ok (.stopped 0))))
  | .initialized => (g, .later (fail (.invalidState ("cannot shutdown from " ++ g.state.debug ++ " state"))))
  | .running | .stopping => ({ g with state := .stopping }, .counting)

def count (g : Shared) : Point := if 0 < g.receiverCount then .sending else .later .draining

/-- A broadcast send fails when no receiver is alive at that moment. -/
def send (g : Shared) : Shared × Point :=
  if 0 < g.receiverCount then ({ g with signals := g.signals + 1 }, .later .draining)
  else (g, .later (fail (.taskFailure "channel closed")))

def call (g : Shared) : Point → Act → Option (Shared × Point)
  | .entering, .go => some (enter g)
  | .counting, .go => some (g, count g)
  | .sending, .go => some (send g)
  | .later p, a => (act g p a).map fun r => (r.1, .later r.2)
  | _, _ => none

def step (s : Sys) : Event → Option Sys
  | .call a => (call s.shared s.point a).map fun r => ⟨r.1, r.2⟩
  | .env e => (env s.shared e).map fun g => { s with shared := g }

/-- With no task in between, the first steps are the first step of `Runtime`'s shutdown. -/
theorem begin_steps {g : Shared} (h : g.state = .running ∨ g.state = .stopping) :
    ∃ n, Run.exec step ⟨g, .entering⟩ (List.replicate n (.call .go)) =
      some ⟨(beginShutdown g).1, .later (beginShutdown g).2⟩ := by
  have henter : enter g = ({ g with state := .stopping }, .counting) := by
    unfold enter
    rcases h with h | h <;> rw [h]
  have hbegin : beginShutdown g = ({ g with
      state := .stopping
      signals := if 0 < g.receiverCount then g.signals + 1 else g.signals }, .draining) := by
    unfold beginShutdown
    rcases h with h | h <;> rw [h]
  rw [hbegin]
  by_cases hpos : 0 < g.receiverCount
  · refine ⟨3, ?_⟩
    have hpos' : 0 < Shared.receiverCount { g with state := .stopping } := hpos
    simp [List.replicate, Run.exec, step, call, henter, count, send, hpos', hpos]
  · refine ⟨2, ?_⟩
    have hpos' : ¬ 0 < Shared.receiverCount { g with state := .stopping } := hpos
    simp [List.replicate, Run.exec, step, call, henter, count, hpos', hpos]

/-! ## Success -/

def Event.isCall : Event → Bool
  | .call _ => true
  | .env _ => false

/-- No registered task panics, and none is still running when its timeout is over. -/
def InTime (g : Shared) : Event → Prop
  | .call (.expire _) => False
  | .env (.panic t) => t ∉ g.handles
  | _ => True

/-- A shutdown succeeds on a run from `g`: it returns nothing but the number of registered tasks, it can
go on when these have ended, and it takes no more steps than there are tasks and five. -/
structure Succeeds (g : Shared) (es : List Event) (s : Sys) : Prop where
  returned : ∀ r, s.point = .later (.done r) →
    r = .ok (.stopped g.tasks.keys.length) ∧ s.shared.state = .stopped
  goesOn : (∀ t ∈ g.handles, s.shared.isRunning t = false) → (∀ r, s.point ≠ .later (.done r)) →
    ∃ a, InTime g (.call a) ∧ (step s (.call a)).isSome
  bounded : es.countP Event.isCall ≤ g.tasks.keys.length + 5

/-- Between the count of the receivers and the send, no task drops the last receiver. -/
def Orderly (s : Sys) : Event → Prop
  | .env e => s.point = .sending → ∀ g ∈ env s.shared e, 0 < g.receiverCount
  | .call _ => True

instance (s : Sys) (e : Event) : Decidable (Orderly s e) := by
  unfold Orderly
  split
  · cases s.point with
    | sending => exact decidable_of_iff (∀ g ∈ env s.shared _, 0 < g.receiverCount) ⟨fun h _ => h, fun h => h rfl⟩
    | entering => exact .isTrue fun h => by cases h
    | counting => exact .isTrue fun h => by cases h
    | later p => exact .isTrue fun h => by cases h
  · infer_instance

instance (g : Shared) (e : Event) : Decidable (InTime g e) := by
  unfold InTime
  split <;> infer_instance

/-- What holds at a point of a shutdown of the tasks in `handles`. -/
def Holds (handles : List Nat) (g : Shared) : Point → Prop
  | .entering => g.state = .running ∧ g.handles = handles
  | .counting => g.state = .stopping ∧ g.handles = handles
  | .sending => g.state = .stopping ∧ g.handles = handles ∧ 0 < g.receiverCount
  | .later .draining => g.state = .stopping ∧ g.handles = handles
  | .later (.joining pending expired n) => (∀ t ∈ pending, t ∈ handles) ∧ expired = [] ∧
      pending.length + n = handles.length
  | .later (.done r) => r = .ok (.stopped handles.length) ∧ g.state = .stopped
  | .later (.inserting _ _ _) => False

structure Inv (handles : List Nat) (s : Sys) : Prop where
  spawned : ∀ t ∈ handles, ∃ st, s.shared.statusOf t = some st ∧ st ≠ .panicked
  point : Holds handles s.shared s.point

/-- How many steps the shutdown has to go at most. -/
def left (n : Nat) : Point → Nat
  | .entering => n + 5
  | .counting => n + 4
  | .sending => n + 3
  | .later .draining => n + 2
  | .later (.joining pending _ _) => pending.length + 1
  | .later _ => 0

/-! ## Steps of the tasks -/

/-- A task of a known status has one after the step, and has panicked only if it had or does now. -/
theorem env_status {g g' : Shared} {e : Env} (h : env g e = some g') {t : Nat} {st : TaskStatus}
    (ht : g.statusOf t = some st) :
    ∃ st', g'.statusOf t = some st' ∧ (st' = .panicked → st = .panicked ∨ e = .panic t) := by
  obtain ⟨-, rfl⟩ := env_cases h
  obtain ⟨task, htask, rfl⟩ := Option.map_eq_some_iff.1 ht
  have hstatus : Shared.statusOf { g with spawned := g.spawned.modify e.task e.update } t =
      some (if e.task = t then (e.update task).status else task.status) := by
    simp only [Shared.statusOf, List.getElem?_modify, htask, Option.map_eq_map, Option.map_some]
    split <;> rfl
  refine ⟨_, hstatus, fun hpanicked => ?_⟩
  split at hpanicked
  · rename_i he
    exact he ▸ Env.panicked_of_update hpanicked
  · exact .inl hpanicked

theorem Inv.env {g₀ : Shared} {s : Sys} {e : Env} {g : Shared} (h : Inv g₀.handles s) (hin : InTime g₀ (.env e))
    (hc : Orderly s (.env e)) (hs : env s.shared e = some g) : Inv g₀.handles { s with shared := g } := by
  have hruns := Signals.env_runs hs
  have hstate := hruns.state
  have hhandles : g.handles = s.shared.handles := by
    rw [Shared.handles, hruns.tasks]
    rfl
  constructor
  · intro t ht
    obtain ⟨st, hst, hne⟩ := h.spawned t ht
    obtain ⟨st', hst', himp⟩ := env_status hs hst
    refine ⟨st', hst', fun hp => ?_⟩
    rcases himp hp with hold | hpanic
    · exact hne hold
    · subst hpanic
      exact hin ht
  · have hpoint := h.point
    obtain ⟨shared, point⟩ := s
    cases point with
    | entering => exact ⟨hstate.trans hpoint.1, hhandles.trans hpoint.2⟩
    | counting => exact ⟨hstate.trans hpoint.1, hhandles.trans hpoint.2⟩
    | sending => exact ⟨hstate.trans hpoint.1, hhandles.trans hpoint.2.1, hc rfl g hs⟩
    | later p =>
      cases p with
      | inserting kind name t => exact hpoint
      | draining => exact ⟨hstate.trans hpoint.1, hhandles.trans hpoint.2⟩
      | joining pending expired n => exact hpoint
      | done r => exact ⟨hpoint.1, hstate.trans hpoint.2⟩

/-! ## Steps of the shutdown -/

theorem act_statusOf {g g' : Shared} {p q : Pc} {a : Act} (h : act g p a = some (g', q)) (t : Nat) :
    g'.statusOf t = g.statusOf t := by
  rw [Shared.statusOf, (Signals.act_moves h).spawned]
  rfl

/-- A wait for the tasks that are left gets the outcome of one of them. -/
theorem join_finished {handles : List Nat} {g : Shared} {pending : List Nat} {n t : Nat} {text : String} {p : Pc}
    (hspawned : ∀ t ∈ handles, ∃ st, g.statusOf t = some st ∧ st ≠ .panicked) (hsub : ∀ t ∈ pending, t ∈ handles)
    (h : join g pending [] n t text = some p) : t ∈ pending ∧ p = .joining (pending.erase t) [] (n + 1) := by
  unfold join at h
  split_ifs at h with hmem hexp
  · cases hexp
  · have hmem : t ∈ pending := by simpa using hmem
    split at h
    · cases h
      exact ⟨hmem, rfl⟩
    · rename_i hpanic
      obtain ⟨st, hst, hne⟩ := hspawned t (hsub t hmem)
      cases hst.symm.trans hpanic
      exact absurd rfl hne
    · cases h

/-- A step from the taking of the map on. -/
theorem Inv.act {handles : List Nat} {g g' : Shared} {p q : Pc} {a : Act} (h : Inv handles ⟨g, .later p⟩)
    (ha : ∀ t, a ≠ .expire t) (hs : act g p a = some (g', q)) :
    Inv handles ⟨g', .later q⟩ ∧ left handles.length (.later q) < left handles.length (.later p) := by
  have hspawned : ∀ t ∈ handles, ∃ st, g'.statusOf t = some st ∧ st ≠ .panicked := by
    intro t ht
    rw [act_statusOf hs]
    exact h.spawned t ht
  have hpoint := h.point
  unfold Runtime.act at hs
  split at hs
  · exact hpoint.elim
  · cases hs
    have hhandles : g.handles = handles := hpoint.2
    refine ⟨⟨hspawned, ?_, rfl, ?_⟩, ?_⟩
    · rw [hhandles]
      exact fun _ ht => ht
    · rw [hhandles]
      rfl
    · show g.handles.length + 1 < handles.length + 2
      rw [hhandles]
      exact Nat.lt_succ_self _
  · cases hs
    obtain ⟨-, -, hn⟩ := hpoint
    rw [List.length_nil, Nat.zero_add] at hn
    exact ⟨⟨hspawned, by rw [← hn], rfl⟩, Nat.zero_lt_one⟩
  · obtain ⟨p', hjoin, he⟩ := Option.map_eq_some_iff.1 hs
    cases he
    obtain ⟨hsub, rfl, hn⟩ := hpoint
    obtain ⟨hmem, rfl⟩ := join_finished h.spawned hsub hjoin
    have hlen := List.length_erase_add_one hmem
    refine ⟨⟨hspawned, fun t ht => hsub t (List.mem_of_mem_erase ht), rfl, ?_⟩, ?_⟩
    · omega
    · simp only [left]
      omega
  · exact absurd rfl (ha _)
  · cases hs

/-- A step of the shutdown keeps the invariant and leaves less to do. -/
theorem Inv.call {handles : List Nat} {s : Sys} {a : Act} {g : Shared} {pt : Point} (h : Inv handles s)
    (ha : ∀ t, a ≠ .expire t) (hs : call s.shared s.point a = some (g, pt)) :
    Inv handles ⟨g, pt⟩ ∧ left handles.length pt < left handles.length s.point := by
  obtain ⟨shared, point⟩ := s
  have hpoint : Holds handles shared point := h.point
  change OneShutdown.call shared point a = _ at hs
  unfold OneShutdown.call at hs
  split at hs
  · -- the runtime is running
    obtain ⟨hstate, hhandles⟩ := hpoint
    simp only [enter, hstate, Option.some.injEq, Prod.mk.injEq] at hs
    obtain ⟨rfl, rfl⟩ := hs
    exact ⟨⟨h.spawned, rfl, hhandles⟩, Nat.lt_succ_self _⟩
  · cases hs
    unfold count
    split_ifs with hpos
    · exact ⟨⟨h.spawned, hpoint.1, hpoint.2, hpos⟩, Nat.lt_succ_self _⟩
    · refine ⟨⟨h.spawned, hpoint⟩, ?_⟩
      simp only [left]
      omega
  · -- a receiver is still alive
    rw [send, if_pos hpoint.2.2] at hs
    cases hs
    exact ⟨⟨h.spawned, hpoint.1, hpoint.2.1⟩, Nat.lt_succ_self _⟩
  · obtain ⟨⟨g', q⟩, hact, he⟩ := Option.map_eq_some_iff.1 hs
    cases he
    exact Inv.act h ha hact
  · cases hs

/-! ## Runs -/

/-- A step of the run: the invariant is kept, and a step of the shutdown leaves less to do. -/
theorem Inv.step {g₀ : Shared} {s s' : Sys} {e : Event} (h : Inv g₀.handles s) (hin : InTime g₀ e) (hc : Orderly s e)
    (hs : step s e = some s') : Inv g₀.handles s' ∧
      (if e.isCall then 1 else 0) + left g₀.handles.length s'.point ≤ left g₀.handles.length s.point := by
  cases e with
  | call a =>
    obtain ⟨⟨g, pt⟩, hcall, rfl⟩ := Option.map_eq_some_iff.1 hs
    have ha : ∀ t, a ≠ .expire t := by
      rintro t rfl
      exact hin
    obtain ⟨hinv, hlt⟩ := h.call ha hcall
    refine ⟨hinv, ?_⟩
    rw [Nat.add_comm]
    exact hlt
  | env e =>
    obtain ⟨g, henv, rfl⟩ := Option.map_eq_some_iff.1 hs
    exact ⟨h.env hin hc henv, Nat.le_of_eq (Nat.zero_add _)⟩

theorem run_bounded {g₀ : Shared} : ∀ (es : List Event) (s s' : Sys), Inv g₀.handles s →
    Run.Along OneShutdown.step (fun s e => InTime g₀ e ∧ Orderly s e) s es →
    Run.exec OneShutdown.step s es = some s' → Inv g₀.handles s' ∧
      es.countP Event.isCall + left g₀.handles.length s'.point ≤ left g₀.handles.length s.point
  | [], s, s', h, _, hs => by
    cases hs
    exact ⟨h, Nat.le_of_eq (Nat.zero_add _)⟩
  | e :: es, s, s', h, hc, hs => by
    obtain ⟨m, hm, hs⟩ := Option.bind_eq_some_iff.1 hs
    obtain ⟨hinv, hle⟩ := h.step hc.1.1 hc.1.2 hm
    obtain ⟨hinv', hle'⟩ := run_bounded es m s' hinv (hc.2 m hm) hs
    refine ⟨hinv', ?_⟩
    rw [List.countP_cons]
    omega

/-- When the registered tasks have ended, a shutdown that has not returned can take a step. -/
theorem Inv.goesOn {g₀ : Shared} {s : Sys} (h : Inv g₀.handles s)
    (hended : ∀ t ∈ g₀.handles, s.shared.isRunning t = false) (hdone : ∀ r, s.point ≠ .later (.done r)) :
    ∃ a, InTime g₀ (.call a) ∧ (OneShutdown.step s (.call a)).isSome := by
  have hpoint := h.point
  obtain ⟨shared, point⟩ := s
  cases point with
  | entering => exact ⟨.go, trivial, rfl⟩
  | counting => exact ⟨.go, trivial, rfl⟩
  | sending => exact ⟨.go, trivial, rfl⟩
  | later p =>
    cases p with
    | inserting kind name t => exact hpoint.elim
    | draining => exact ⟨.go, trivial, rfl⟩
    | done r => exact absurd rfl (hdone r)
    | joining pending expired n =>
      obtain ⟨hsub, rfl, -⟩ := hpoint
      cases pending with
      | nil => exact ⟨.go, trivial, rfl⟩
      | cons t ts =>
        -- the wait for the first task left ends, for it has finished
        have ht := hsub t List.mem_cons_self
        obtain ⟨st, hst, hne⟩ := h.spawned t ht
        have hrun := hended t ht
        have hfinished : shared.statusOf t = some .finished := by
          cases st with
          | running =>
            rw [Shared.isRunning, hst] at hrun
            cases hrun
          | finished => exact hst
          | panicked => exact absurd rfl hne
        refine ⟨.join t "", trivial, ?_⟩
        simp [OneShutdown.step, OneShutdown.call, Runtime.act, join, hfinished]

theorem handles_length (g : Shared) : g.handles.length = g.tasks.keys.length := by
  simp [Shared.handles, AList.keys, List.keys]

/-- From a running runtime whose tasks end in time and without a panic, a shutdown succeeds in every run
in which the last receiver does not go between the count and the send; other calls take no step. -/
theorem shutdown_succeeds {es₀ : List Runtime.Event} {s₀ : Runtime.Sys}
    (h₀ : Run.exec Runtime.step Runtime.init es₀ = some s₀) (hrun : s₀.shared.state = .running)
    (hpanic : ∀ t ∈ s₀.shared.handles, s₀.shared.statusOf t ≠ some .panicked) {es : List Event} {s : Sys}
    (hin : ∀ e ∈ es, InTime s₀.shared e) (hc : Run.Along step Orderly ⟨s₀.shared, .entering⟩ es)
    (hs : Run.exec step ⟨s₀.shared, .entering⟩ es = some s) : Succeeds s₀.shared es s := by
  have hsound : Signals.Sound s₀ :=
    Run.exec_inv_always (fun _ _ _ h hs => h.step hs) es₀ _ _ Signals.Sound.init h₀
  have hinit : Inv s₀.shared.handles ⟨s₀.shared, .entering⟩ := by
    refine ⟨fun t ht => ?_, hrun, rfl⟩
    have hlt : t < s₀.shared.spawned.length := hsound.handles t ht
    have hstatus : s₀.shared.statusOf t = some s₀.shared.spawned[t].status := by
      rw [Shared.statusOf, List.getElem?_eq_getElem hlt]
      rfl
    exact ⟨_, hstatus, fun he => hpanic t ht (hstatus.trans (congrArg some he))⟩
  have hboth := Run.Along.and es _ (Run.along_of_forall es _ hin) hc
  obtain ⟨hinv, hle⟩ := run_bounded es _ s hinit hboth hs
  have hcalls : es.countP Event.isCall + left s₀.shared.handles.length s.point ≤
    s₀.shared.handles.length + 5 := hle
  refine ⟨fun r hr => ?_, hinv.goesOn, ?_⟩
  · have hpoint := hinv.point
    rw [hr, Holds, handles_length] at hpoint
    exact hpoint
  · rw [← handles_length]
    omega

/-- A runtime with one service. -/
def oneService : List Runtime.Event := [.start .start, .start (.registerService "a"), .act 1 .go]

/-- The service ends while the shutdown waits for it. -/
def awaited : List Event :=
  [.call .go, .call .go, .call .go, .call .go, .env (.finish 0), .call (.join 0 ""), .call .go]

theorem shutdown_succeeds_awaited : ∃ s₀ s, Run.exec Runtime.step Runtime.init oneService = some s₀ ∧
    s₀.shared.tasks.keys = ["a"] ∧ Run.exec step ⟨s₀.shared, .entering⟩ awaited = some s ∧
    s.point = .later (.done (.ok (.stopped 1))) ∧ Succeeds s₀.shared awaited s := by
  have h₀ : Run.exec Runtime.step Runtime.init oneService = some _ := rfl
  refine ⟨_, _, rfl, rfl, rfl, rfl, shutdown_succeeds h₀ rfl ?_ ?_ ?_ rfl⟩
  all_goals decide +kernel

/-- The service ends between the count and the send. -/
def lastReceiver : List Event := [.call .go, .call .go, .env (.finish 0), .call .go]

/-- The channel has no receiver any more, and the shutdown fails and leaves the runtime stopping. -/
theorem send_finds_no_receiver : ∃ s₀ s, Run.exec Runtime.step Runtime.init oneService = some s₀ ∧
    s₀.shared.state = .running ∧ (∀ t ∈ s₀.shared.handles, s₀.shared.statusOf t ≠ some .panicked) ∧
    (∀ e ∈ lastReceiver, InTime s₀.shared e) ∧ Run.exec step ⟨s₀.shared, .entering⟩ lastReceiver = some s ∧
    s.point = .later (.done (.error (.taskFailure "channel closed"))) ∧ s.shared.state = .stopping ∧
    ¬ Succeeds s₀.shared lastReceiver s := by
  refine ⟨_, _, rfl, rfl, by decide +kernel, by decide +kernel, rfl, rfl, rfl, fun h => ?_⟩
  have hreply := (h.returned _ rfl).1
  cases hreply

end OneShutdown

end NapCat.Core.Runtime
