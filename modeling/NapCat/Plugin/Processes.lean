/-
The processes behind the manager's calls. The hook of a rust or wasm plugin spawns a child and runs
until the host is back; what the host leaves of a child that has not exited then stays, since dropping
a child does not kill it.
-/
import NapCat.Plugin.RunPlugin
import NapCat.Plugin.Registry

namespace NapCat.Plugin.Processes

/-- The plugin whose hook a call is at, and the event it hands to the hook. -/
def hookCall : Manager.Pc → Option (Nat × Option PluginEvent)
  | .loading _ plugin => some (plugin, none)
  | .unloading _ plugin => some (plugin, none)
  | .dispatching event ((_, plugin) :: _) _ => some (plugin, some event)
  | _ => none

/-- The run that the hook of a backend starts; that of an HTTP plugin has no process. -/
def runOf (pipes : Pipes) (event : Option PluginEvent) : PluginBackend → Option PluginRun
  | .rust _ _ _ timeout => some (RustPlugin.runPlugin pipes timeout event)
  | .wasm _ _ _ timeout => some (WasmPlugin.runPlugin pipes timeout event)
  | .http _ _ _ => none

/-- The manager, the run of each call that is in one, and the runs that are over, for their children. -/
structure Sys where
  manager : Manager.Sys
  running : Nat → Option PluginRun
  left : List PluginRun

/-- A call begins, goes on by itself, or ends a hook without a process; a hook spawns its child, its run
takes a step, an error of the system ends the run, or it is over; and a child left behind exits. -/
inductive Event
  | start (op : Manager.Op)
  | go (i : Nat)
  | hook (i : Nat) (r : Except PluginError (Option PluginAction))
  | spawn (i : Nat) (pipes : Pipes)
  | run (i : Nat) (e : PluginRun.Event)
  | breaks (i : Nat) (e : PluginError)
  | finish (i : Nat)
  | exit (k : Nat) (success : Bool)

def manage (s : Sys) (e : Manager.Event) : Option Sys := (Manager.step s.manager e).map fun m => { s with manager := m }

/-- The backend whose hook call `i` is at, and the event for it. -/
def backendAt (s : Sys) (i : Nat) : Option (PluginBackend × Option PluginEvent) :=
  (s.manager.calls[i]?.bind hookCall).bind fun h => s.manager.shared.backends[h.1]?.map fun backend => (backend, h.2)

/-- The host drops the run of a call and returns from its hook. -/
def drop (s : Sys) (i : Nat) (run : PluginRun) (r : Except PluginError (Option PluginAction)) : Option Sys :=
  (Manager.step s.manager (.act i (.hook r))).map fun m =>
    { manager := m, running := Function.update s.running i none, left := s.left ++ [run] }

def step (s : Sys) : Event → Option Sys
  | .start op => manage s (.start op)
  | .go i => manage s (.act i .go)
  -- without a process a hook of a plugin that runs one can only fail: the spawn did
  | .hook i r => (backendAt s i).bind fun b =>
      if (s.running i).isNone ∧ (b.1.kind = .http ∨ r.isOk = false) then manage s (.act i (.hook r)) else none
  | .spawn i pipes => (backendAt s i).bind fun b =>
      if (s.running i).isNone then
        (runOf pipes b.2 b.1).map fun run => { s with running := Function.update s.running i (some run) }
      else none
  | .run i e => (s.running i).bind fun run =>
      (run.step e).map fun run' => { s with running := Function.update s.running i (some run') }
  | .breaks i e => (s.running i).bind fun run => if run.host.result.isNone then drop s i run (.error e) else none
  | .finish i => (s.running i).bind fun run => run.host.result.bind fun r => drop s i run r
  | .exit k success => s.left[k]?.bind fun run =>
      (run.childStep (.exit success {})).map fun run' => { s with left := s.left.set k run' }

/-- A new manager. -/
def init : Sys := ⟨Manager.init, fun _ => none, []⟩

def returned : Manager.Pc → Bool
  | .loaded _ _ | .unloaded _ _ _ | .dispatched _ | .failed _ => true
  | _ => false

/-- No call is in progress. -/
def Idle (s : Sys) : Prop := ∀ p ∈ s.manager.calls, returned p = true

/-- A child that a run has spawned is still alive. -/
def Alive (s : Sys) : Prop :=
  (∃ i run, s.running i = some run ∧ run.child = .running) ∨ ∃ run ∈ s.left, run.child = .running

/-- A poll at this point does not give up: the event can be written, and the timeout has not passed. -/
def Patient (run : PluginRun) : RunPoint → Prop
  | .writing _ => run.stdinOpen = true
  | .waiting since => run.now < since + run.timeoutMs.toNat
  | _ => True

instance (run : PluginRun) (p : RunPoint) : Decidable (Patient run p) := by
  unfold Patient
  split <;> infer_instance

/-- The step does not end the run of a child that is alive. -/
def EndsAfterChild (run : PluginRun) (e : PluginRun.Event) : Prop :=
  e = .poll → run.child = .running → Patient run run.host

/-- No run ends before its child does. -/
def RunsEndAfterChild (s : Sys) : Event → Prop
  | .run i e => ∀ run ∈ s.running i, EndsAfterChild run e
  | .breaks i _ => ∀ run ∈ s.running i, run.child ≠ .running
  | _ => True

instance (s : Sys) (e : Event) : Decidable (RunsEndAfterChild s e) := by
  unfold RunsEndAfterChild EndsAfterChild
  split <;> infer_instance

/-! ## One run -/

theorem write_done {run : PluginRun} {left : Nat} {r : Except PluginError (Option PluginAction)}
    (h : (run.write left).host = .done r) : run.stdinOpen = false := by
  unfold PluginRun.write at h
  split_ifs at h with ho
  exact ho

/-- A run that has returned after its child leaves no child alive. -/
theorem done_of_step {run run' : PluginRun} {e : PluginRun.Event} {r : Except PluginError (Option PluginAction)}
    (h : run.step e = some run') (he : EndsAfterChild run e) (hr : run'.host = .done r) : run'.child ≠ .running := by
  obtain ⟨hres, ⟨rfl, hp⟩ | ⟨rfl, -, rfl⟩ | hch⟩ := PluginRun.step_some h
  · intro hc
    cases hh : run.host with
    | writing left =>
      simp only [PluginRun.poll, hh, Option.some.injEq] at hp
      subst hp
      rw [PluginRun.write_child] at hc
      have hopen := he rfl hc
      rw [hh, Patient, write_done hr] at hopen
      cases hopen
    | blocked left =>
      simp only [PluginRun.poll, hh] at hp
      split_ifs at hp
      cases hp
      cases hr
    | waiting since =>
      rw [PluginRun.poll_waiting hh] at hp
      obtain ⟨_, _, hex, _, rfl⟩ | ⟨-, hlate, rfl⟩ | ⟨_, _, rfl⟩ := PluginRun.wait_some hp
      · rw [show run.child = .running from hc] at hex
        cases hex
      · have hlt := he rfl hc
        rw [hh, Patient] at hlt
        omega
      · rw [show run.host = .done r from hr] at hh
        cases hh
    | done r' =>
      rw [hh] at hres
      cases hres
  · rw [show run.host = .done r from hr] at hres
    cases hres
  · rw [← (PluginRun.childStep_keeps hch).1, hr] at hres
    cases hres

/-! ## Every process is accounted for -/

structure Accounted (s : Sys) : Prop where
  inHook : ∀ i run, s.running i = some run → ∃ p, s.manager.calls[i]? = some p ∧ (hookCall p).isSome = true
  ended : ∀ i run r, s.running i = some run → run.host = .done r → run.child ≠ .running
  left : ∀ run ∈ s.left, run.child ≠ .running

theorem not_returned_of_hookCall {p : Manager.Pc} (h : (hookCall p).isSome = true) : returned p = false := by
  cases p with
  | loading | unloading | dispatching => rfl
  | _ => cases h

/-- A call at a hook goes on when the hook ends, not by itself. -/
theorem not_go_of_hookCall {g : Manager.Shared} {p : Manager.Pc} (h : (hookCall p).isSome = true) :
    Manager.act g p .go = none := by
  cases p with
  | loading | unloading => rfl
  | dispatching event rest actions =>
    cases rest with
    | nil => cases h
    | cons => rfl
  | _ => cases h

/-- The other calls stay where they are. -/
theorem calls_of_act {m m' : Manager.Sys} {i j : Nat} {a : Manager.Act} (h : Manager.step m (.act i a) = some m')
    (hj : j ≠ i) : m'.calls[j]? = m.calls[j]? := by
  obtain ⟨p, g, q, -, -, rfl⟩ := Threads.step_act h
  exact List.getElem?_set_ne hj.symm

theorem manage_some {s s' : Sys} {e : Manager.Event} (h : manage s e = some s') :
    ∃ m, Manager.step s.manager e = some m ∧ s' = { s with manager := m } := by
  obtain ⟨m, hm, rfl⟩ := Option.map_eq_some_iff.1 h
  exact ⟨m, hm, rfl⟩

/-- A hook that ends while its call has no run. -/
theorem Accounted.hook {s s' : Sys} {i : Nat} {a : Manager.Act} (h : Accounted s) (hi : s.running i = none)
    (hs : manage s (.act i a) = some s') : Accounted s' := by
  obtain ⟨m, hm, rfl⟩ := manage_some hs
  refine ⟨fun j run hj => ?_, h.ended, h.left⟩
  have hne : j ≠ i := fun he => by
    rw [he, hi] at hj
    cases hj
  obtain ⟨p, hp, hhook⟩ := h.inHook j run hj
  exact ⟨p, (calls_of_act hm hne).trans hp, hhook⟩

theorem Accounted.drop {s s' : Sys} {i : Nat} {run : PluginRun} {r : Except PluginError (Option PluginAction)}
    (h : Accounted s) (hrun : run.child ≠ .running) (hs : drop s i run r = some s') : Accounted s' := by
  obtain ⟨m, hm, rfl⟩ := Option.map_eq_some_iff.1 hs
  have other : ∀ {j run'}, Function.update s.running i none j = some run' → j ≠ i ∧ s.running j = some run' := by
    intro j run' hj
    by_cases hji : j = i
    · rw [hji, Function.update_self] at hj
      cases hj
    · rw [Function.update_of_ne hji] at hj
      exact ⟨hji, hj⟩
  refine ⟨fun j run' hj => ?_, fun j run' r' hj => h.ended j run' r' (other hj).2, ?_⟩
  · obtain ⟨hne, hj⟩ := other hj
    obtain ⟨p, hp, hhook⟩ := h.inHook j run' hj
    exact ⟨p, (calls_of_act hm hne).trans hp, hhook⟩
  · exact Threads.forall_append h.left hrun

/-- A call takes a run, or its run goes on. -/
theorem Accounted.update {s : Sys} {i : Nat} {run : PluginRun} (h : Accounted s)
    (hhook : ∃ p, s.manager.calls[i]? = some p ∧ (hookCall p).isSome = true)
    (hended : ∀ r, run.host = .done r → run.child ≠ .running) :
    Accounted { s with running := Function.update s.running i (some run) } := by
  have other : ∀ {j run'}, Function.update s.running i (some run) j = some run' →
      (j = i ∧ run' = run) ∨ s.running j = some run' := by
    intro j run' hj
    by_cases hji : j = i
    · rw [hji, Function.update_self] at hj
      exact .inl ⟨hji, (Option.some.inj hj).symm⟩
    · rw [Function.update_of_ne hji] at hj
      exact .inr hj
  refine ⟨fun j run' hj => ?_, fun j run' r hj => ?_, h.left⟩
  · obtain ⟨rfl, -⟩ | hj := other hj
    · exact hhook
    · exact h.inHook j run' hj
  · obtain ⟨-, rfl⟩ | hj := other hj
    · exact hended r
    · exact h.ended j run' r hj

theorem Accounted.not_alive {s : Sys} (h : Accounted s) (hidle : Idle s) : ¬ Alive s := by
  rintro (⟨i, run, hi, -⟩ | ⟨run, hmem, hrun⟩)
  · obtain ⟨p, hp, hhook⟩ := h.inHook i run hi
    have hret := hidle p (Threads.mem_of_get hp)
    rw [not_returned_of_hookCall hhook] at hret
    cases hret
  · exact h.left run hmem hrun

theorem host_runOf {pipes : Pipes} {event : Option PluginEvent} {backend : PluginBackend} {run : PluginRun}
    (h : runOf pipes event backend = some run) (r : Except PluginError (Option PluginAction)) :
    run.host ≠ .done r := by
  cases backend with
  | rust metadata executable args timeout =>
    cases h
    cases event <;> exact RunPoint.noConfusion
  | wasm metadata module entrypoint timeout =>
    cases h
    exact RunPoint.noConfusion
  | http metadata endpoint timeout => cases h

theorem Accounted.step {s s' : Sys} {e : Event} (h : Accounted s) (he : RunsEndAfterChild s e)
    (hs : step s e = some s') : Accounted s' := by
  cases e with
  | start op =>
    obtain ⟨m, hm, rfl⟩ := manage_some hs
    obtain ⟨g, p, -, rfl⟩ := Threads.step_start hm
    refine ⟨fun i run hi => ?_, h.ended, h.left⟩
    obtain ⟨q, hq, hhook⟩ := h.inHook i run hi
    exact ⟨q, (List.getElem?_append_left (List.getElem?_eq_some_iff.1 hq).1).trans hq, hhook⟩
  | go i =>
    cases hi : s.running i with
    | none => exact h.hook hi hs
    | some run =>
      obtain ⟨m, hm, rfl⟩ := manage_some hs
      obtain ⟨p, hp, hhook⟩ := h.inHook i run hi
      obtain ⟨p', g, q, hp', hact, -⟩ := Threads.step_act hm
      obtain rfl : p = p' := Option.some.inj (hp.symm.trans hp')
      have hact : Manager.act s.manager.shared p .go = some (g, q) := hact
      rw [not_go_of_hookCall hhook] at hact
      cases hact
  | hook i r =>
    obtain ⟨b, hb, hs⟩ := Option.bind_eq_some_iff.1 hs
    split_ifs at hs with hc
    exact h.hook (Option.isNone_iff_eq_none.1 hc.1) hs
  | spawn i pipes =>
    obtain ⟨b, hb, hs⟩ := Option.bind_eq_some_iff.1 hs
    split_ifs at hs with hc
    obtain ⟨run, hrun, rfl⟩ := Option.map_eq_some_iff.1 hs
    refine h.update ?_ fun r hr => absurd hr (host_runOf hrun r)
    obtain ⟨c, hc, -⟩ := Option.bind_eq_some_iff.1 hb
    obtain ⟨p, hp, hhook⟩ := Option.bind_eq_some_iff.1 hc
    exact ⟨p, hp, by rw [hhook]; rfl⟩
  | run i e =>
    obtain ⟨run, hi, hs⟩ := Option.bind_eq_some_iff.1 hs
    obtain ⟨run', hrun, rfl⟩ := Option.map_eq_some_iff.1 hs
    exact h.update (h.inHook i run hi) fun r hr => done_of_step hrun (he run hi) hr
  | breaks i error =>
    obtain ⟨run, hi, hs⟩ := Option.bind_eq_some_iff.1 hs
    split_ifs at hs
    exact h.drop (he run hi) hs
  | finish i =>
    obtain ⟨run, hi, hs⟩ := Option.bind_eq_some_iff.1 hs
    obtain ⟨r, hr, hs⟩ := Option.bind_eq_some_iff.1 hs
    exact h.drop (h.ended i run r hi (RunPoint.eq_of_result hr)) hs
  | exit k success =>
    obtain ⟨run, hk, hs⟩ := Option.bind_eq_some_iff.1 hs
    obtain ⟨run', hrun, -⟩ := Option.map_eq_some_iff.1 hs
    exact absurd (Option.ite_none_right_eq_some.1 hrun).1 (h.left run (Threads.mem_of_get hk))

/-- The manager takes the steps of a manager. -/
theorem step_manager {s s' : Sys} {e : Event} (h : step s e = some s') :
    s'.manager = s.manager ∨ ∃ me, Manager.step s.manager me = some s'.manager := by
  have hdrop : ∀ {i run r}, drop s i run r = some s' → ∃ me, Manager.step s.manager me = some s'.manager := by
    intro i run r h
    obtain ⟨m, hm, rfl⟩ := Option.map_eq_some_iff.1 h
    exact ⟨_, hm⟩
  have hmanage : ∀ {me}, manage s me = some s' → ∃ me, Manager.step s.manager me = some s'.manager := by
    intro me h
    obtain ⟨m, hm, rfl⟩ := manage_some h
    exact ⟨_, hm⟩
  cases e with
  | start op => exact .inr (hmanage h)
  | go i => exact .inr (hmanage h)
  | hook i r =>
    obtain ⟨b, -, h⟩ := Option.bind_eq_some_iff.1 h
    split_ifs at h
    exact .inr (hmanage h)
  | spawn i pipes =>
    obtain ⟨b, -, h⟩ := Option.bind_eq_some_iff.1 h
    split_ifs at h
    obtain ⟨run, -, rfl⟩ := Option.map_eq_some_iff.1 h
    exact .inl rfl
  | run i e =>
    obtain ⟨run, -, h⟩ := Option.bind_eq_some_iff.1 h
    obtain ⟨run', -, rfl⟩ := Option.map_eq_some_iff.1 h
    exact .inl rfl
  | breaks i error =>
    obtain ⟨run, -, h⟩ := Option.bind_eq_some_iff.1 h
    split_ifs at h
    exact .inr (hdrop h)
  | finish i =>
    obtain ⟨run, -, h⟩ := Option.bind_eq_some_iff.1 h
    obtain ⟨r, -, h⟩ := Option.bind_eq_some_iff.1 h
    exact .inr (hdrop h)
  | exit k success =>
    obtain ⟨run, -, h⟩ := Option.bind_eq_some_iff.1 h
    obtain ⟨run', -, rfl⟩ := Option.map_eq_some_iff.1 h
    exact .inl rfl

/-- A run of the manager with its processes is a run of the manager. -/
theorem exec_manager {s s' : Sys} {es : List Event} (h : Run.exec step s es = some s') :
    ∃ ms, Run.exec Manager.step s.manager ms = some s'.manager :=
  Run.exec_refines (f := Sys.manager) (fun _ _ _ => step_manager) es s s' h

theorem accounted_init : Accounted init where
  inHook _ _ h := by cases h
  ended _ _ _ h := by cases h
  left _ h := by cases h

/-- In a run in which every plugin run ends after its child, no child is alive while no call is in progress. -/
theorem no_process_outlives {s : Sys} {es : List Event} (hes : Run.Along step RunsEndAfterChild init es)
    (hs : Run.exec step init es = some s) (hidle : Idle s) : ¬ Alive s :=
  (Run.exec_inv (fun _ _ _ => Accounted.step) es init s accounted_init hes hs).not_alive hidle

/-- A poll that gives up on a child that is alive ends the run, and leaves the child. -/
theorem poll_of_impatient {run : PluginRun} (hrun : run.child = .running) (h : ¬ Patient run run.host) :
    ∃ run', run.poll = some run' ∧ run'.child = .running := by
  cases hh : run.host with
  | writing left =>
    refine ⟨run.write left, by simp only [PluginRun.poll, hh], ?_⟩
    rw [PluginRun.write_child, hrun]
  | waiting since =>
    rw [hh, Patient, Nat.not_lt] at h
    refine ⟨{ run with host := .done (.error (.timeout run.timeoutMs)) }, ?_, hrun⟩
    simp only [PluginRun.poll_waiting hh, PluginRun.wait, hrun, if_pos h]
  | _ =>
    rw [hh] at h
    exact absurd trivial h

/-- So the child is alive when the call has ended its hook. -/
theorem alive_of_impatient {s s' : Sys} {i : Nat} {run : PluginRun} (hi : s.running i = some run)
    (h : ¬ EndsAfterChild run .poll) (hs : Run.exec step s [.run i .poll, .finish i] = some s') : Alive s' := by
  obtain ⟨hrun, hp⟩ : run.child = .running ∧ ¬ Patient run run.host := by simpa [EndsAfterChild] using h
  obtain ⟨m, hm, hs⟩ := Option.bind_eq_some_iff.1 hs
  obtain ⟨run₁, hi₁, hm⟩ := Option.bind_eq_some_iff.1 hm
  obtain rfl : run = run₁ := Option.some.inj (hi.symm.trans hi₁)
  obtain ⟨run', hstep, rfl⟩ := Option.map_eq_some_iff.1 hm
  have hrun' : run'.child = .running := by
    obtain ⟨hres, ⟨-, hpoll⟩ | ⟨he, -⟩ | hch⟩ := PluginRun.step_some hstep
    · obtain ⟨run₂, hpoll₂, hrun₂⟩ := poll_of_impatient hrun hp
      obtain rfl : run₂ = run' := Option.some.inj (hpoll₂.symm.trans hpoll)
      exact hrun₂
    · cases he
    · cases hch
  obtain ⟨m, hm, hs⟩ := Option.bind_eq_some_iff.1 hs
  cases hs
  obtain ⟨run₃, hi₃, hm⟩ := Option.bind_eq_some_iff.1 hm
  obtain rfl : run' = run₃ := Option.some.inj ((Function.update_self i (some run') s.running).symm.trans hi₃)
  obtain ⟨r, -, hd⟩ := Option.bind_eq_some_iff.1 hm
  obtain ⟨m', -, rfl⟩ := Option.map_eq_some_iff.1 hd
  exact .inr ⟨run', List.mem_append_right _ (List.mem_singleton_self _), hrun'⟩

/-- A plugin is loaded, gets an event, and exits each time within its timeout. -/
def loadAndDispatch : List Event :=
  [.start (.load Manager.sampleDefinition Manager.sampleHost), .spawn 0 ⟨65536, 65536⟩, .run 0 .tick,
    .run 0 (.exit true {}), .run 0 .poll, .finish 0, .go 0, .start (.dispatch .healthCheck [("dup", 0)]),
    .spawn 1 ⟨65536, 65536⟩, .run 1 .poll, .run 1 (.read 23), .run 1 (.exit true {}), .run 1 .poll, .finish 1, .go 1]

theorem no_process_outlives_loadAndDispatch :
    ∃ s, Run.exec step init loadAndDispatch = some s ∧ Idle s ∧ ¬ Alive s := by
  have hk : (Run.exec step init loadAndDispatch).map (fun s => s.manager.calls.map returned) =
      some [true, true] := by decide +kernel
  obtain ⟨s, hs, hk⟩ := Option.map_eq_some_iff.1 hk
  have hidle : Idle s := fun p hp => by
    have hmem := List.mem_map_of_mem (f := returned) hp
    rw [hk] at hmem
    simpa using hmem
  exact ⟨s, hs, hidle, no_process_outlives (by decide +kernel) hs hidle⟩

/-- A load whose child does not exit within the timeout. -/
def loadTimesOut : List Event :=
  [.start (.load { Manager.sampleDefinition with source := .rust "/bin/sh" ["-c", "sleep 60"] 10 } Manager.sampleHost),
    .spawn 0 ⟨65536, 65536⟩] ++ List.replicate 10 (.run 0 .tick) ++ [.run 0 .poll, .finish 0]

/-- The load has failed, no call is in progress, and the child is alive. -/
theorem timed_out_child_outlives : ∃ s, Run.exec step init loadTimesOut = some s ∧
    s.manager.calls = [.failed (.timeout 10)] ∧ Idle s ∧ Alive s := by
  refine ⟨_, rfl, rfl, ?_, ?_⟩
  · intro p hp
    rw [List.mem_singleton.1 hp]
    rfl
  · exact .inr ⟨_, List.mem_singleton_self _, rfl⟩

end NapCat.Plugin.Processes
