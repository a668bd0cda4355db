/-
A rejected registration. `register_service` and `spawn_task` look at the names in the map after they
have subscribed and spawned, so only the check of the state rejects a call before it has started
anything.
-/
import NapCat.Core.Runtime

namespace NapCat.Core.Runtime

namespace Rejection

/-- The call that registers a task in one of the two ways. -/
def opOf : Kind → String → Op
  | .service, name => .registerService name
  | .task, name => .spawnTask name

/-- A registration from its call to its return, with no step of another call or a task between its
own. -/
def registerCall (g : Shared) (kind : Kind) (name : String) : Shared × Pc :=
  match register g kind name with
  | (g', .inserting kind name task) => insert g' kind name task
  | r => r

/-- The same tasks run, the map is the same, the shutdown channel has the same receivers, and nothing
was spawned: a service's `start` is invoked by the task spawned for it. -/
structure StartsNothing (g g' : Shared) : Prop where
  running : ∀ t, g'.isRunning t = g.isRunning t
  tasks : g'.tasks = g.tasks
  receivers : g'.receiverCount = g.receiverCount
  spawned : g'.spawned = g.spawned

/-- A registration that returns an error has started nothing. -/
def RejectedCleanly (g : Shared) (kind : Kind) (name : String) : Prop :=
  ∀ e, (registerCall g kind name).2 = fail e → StartsNothing g (registerCall g kind name).1

/-- What the three kinds of registration do. -/
theorem registerCall_cases (g : Shared) (kind : Kind) (name : String) :
    (g.state ≠ .running ∧ ∃ e, registerCall g kind name = (g, fail e)) ∨
    (g.state = .running ∧ name ∉ g.tasks ∧ (registerCall g kind name).2 = .done (.ok .unit)) ∨
    (g.state = .running ∧ name ∈ g.tasks ∧ registerCall g kind name =
      ({ g with spawned := g.spawned ++ [⟨name, .running, true, g.signals⟩] },
        fail (.taskFailure (kind.noun ++ " already registered: " ++ name)))) := by
  unfold registerCall register
  by_cases hrun : g.state = .running
  · rw [if_neg (not_not.2 hrun)]
    by_cases hname : name ∈ g.tasks
    · exact .inr (.inr ⟨hrun, hname, if_pos hname⟩)
    · exact .inr (.inl ⟨hrun, hname, congrArg Prod.snd (if_neg hname)⟩)
  · rw [if_pos hrun]
    exact .inl ⟨hrun, _, rfl⟩

/-- A registration made alone is a run of the runtime. -/
theorem registerCall_run (g : Shared) (calls : List Pc) (kind : Kind) (name : String) :
    ∃ es, Run.exec step ⟨g, calls⟩ (.start (opOf kind name) :: es) =
      some ⟨(registerCall g kind name).1, calls ++ [(registerCall g kind name).2]⟩ := by
  have hbegin : begin g (opOf kind name) = some (register g kind name) := by cases kind <;> rfl
  have hstart : step ⟨g, calls⟩ (.start (opOf kind name)) =
      some ⟨(register g kind name).1, calls ++ [(register g kind name).2]⟩ := by
    simp [step, Threads.step, program, hbegin]
  by_cases hrun : g.state = .running
  · refine ⟨[.act calls.length .go], ?_⟩
    rw [Run.exec_cons, hstart, registerCall, register, if_neg (not_not.2 hrun)]
    simp [Run.exec, step, Threads.step, program, act]
  · refine ⟨[], ?_⟩
    rw [Run.exec_cons, hstart, registerCall, register, if_pos hrun]
    rfl

theorem StartsNothing.refl (g : Shared) : StartsNothing g g := ⟨fun _ => rfl, rfl, rfl, rfl⟩

/-- A registration is rejected cleanly exactly if it is not one of a registered name in a running
runtime: that one is rejected when its task runs already. -/
theorem rejectedCleanly_iff (g : Shared) (kind : Kind) (name : String) :
    RejectedCleanly g kind name ↔ ¬ (g.state = .running ∧ name ∈ g.tasks) := by
  rcases registerCall_cases g kind name with ⟨hstate, e, hcall⟩ | ⟨-, hname, hcall⟩ | ⟨hstate, hname, hcall⟩
  · refine iff_of_true (fun _ _ => ?_) fun h => hstate h.1
    rw [hcall]
    exact .refl g
  · refine iff_of_true (fun e he => ?_) fun h => hname h.2
    rw [hcall] at he
    cases he
  · refine iff_of_false (fun h => ?_) fun h => h ⟨hstate, hname⟩
    have hspawned := (h _ (congrArg Prod.snd hcall)).spawned
    rw [hcall] at hspawned
    simp at hspawned

/-- A running runtime with one registered service. -/
def oneService : Shared where
  state := .running
  tasks := AList.insert "a" 0 ∅
  spawned := [⟨"a", .running, true, 0⟩]

/-- A second service of that name is rejected, and its task runs. -/
theorem duplicate_runs : ¬ RejectedCleanly oneService .service "a" ∧
    (registerCall oneService .service "a").1.isRunning 1 = true := by
  refine ⟨fun h => ?_, by decide⟩
  have hreceivers := (h (.taskFailure "service already registered: a") rfl).receivers
  revert hreceivers
  decide

end Rejection

end NapCat.Core.Runtime
