/-
`Runtime` of `napcat-core`: a lifecycle state, a map of task handles and the tasks themselves. A
step is what a call does between two await points. A task runs on its own once spawned; dropping
its handle detaches it, so a task is gone only when it has ended.
-/
import NapCat.Lib.Threads
import Mathlib.Data.List.AList

namespace NapCat.Core

/-- Core error type for runtime orchestration. -/
inductive RuntimeError
  | invalidState (text : String)
  | taskFailure (text : String)
  | shutdownTimeout
  deriving DecidableEq, Repr

def RuntimeError.text : RuntimeError → String
  | .invalidState t => "invalid runtime state transition: " ++ t
  | .taskFailure t => "runtime task failed: " ++ t
  | .shutdownTimeout => "shutdown timeout while waiting for tasks"

/-- Runtime lifecycle states. -/
inductive RuntimeState
  | initialized
  | running
  | stopping
  | stopped
  deriving DecidableEq, Repr

/-- The `Debug` form. -/
def RuntimeState.debug : RuntimeState → String
  | .initialized => "Initialized"
  | .running => "Running"
  | .stopping => "Stopping"
  | .stopped => "Stopped"

namespace Runtime

inductive TaskStatus
  | running
  | finished
  | panicked
  deriving DecidableEq, Repr

/-- A spawned task: its shutdown receiver while it holds it, and how many signals had been sent when
it subscribed. -/
structure Task where
  name : String
  status : TaskStatus
  receiver : Bool
  subscribedAt : Nat
  deriving DecidableEq, Repr

/-- The fields of the runtime, and every task ever spawned. A handle is the index of its task. -/
structure Shared where
  state : RuntimeState := .initialized
  signals : Nat := 0
  tasks : AList (fun _ : String => Nat) := ∅
  spawned : List Task := []

/-- `receiver_count` of the shutdown channel: the tasks are its only subscribers. -/
def Shared.receiverCount (g : Shared) : Nat := (g.spawned.filter Task.receiver).length

def Shared.statusOf (g : Shared) (t : Nat) : Option TaskStatus := (g.spawned[t]?).map Task.status

def Shared.isRunning (g : Shared) (t : Nat) : Bool := g.statusOf t = some .running

/-- The handles in the map. -/
def Shared.handles (g : Shared) : List Nat := g.tasks.entries.map Sigma.snd

/-- Which of the two ways of registering a task, with the words of its errors. -/
inductive Kind
  | service
  | task
  deriving DecidableEq

def Kind.noun : Kind → String
  | .service => "service"
  | .task => "task"

def Kind.refusal : Kind → String
  | .service => "cannot register service in "
  | .task => "cannot spawn task in "

inductive Op
  | start
  | registerService (name : String)
  | spawnTask (name : String)
  | shutdown

inductive Reply
  | unit
  | stopped (n : Nat)
  deriving DecidableEq, Repr

inductive Pc
  | inserting (kind : Kind) (name : String) (task : Nat)
  | draining
  | joining (pending expired : List Nat) (stopped : Nat)
  | done (r : Except RuntimeError Reply)

inductive Act
  | go
  | join (task : Nat) (text : String)
  | expire (task : Nat)

inductive Env
  | finish (task : Nat)
  | panic (task : Nat)
  | dropReceiver (task : Nat)

def fail (e : RuntimeError) : Pc := .done (.error e)

/-! ## The operations -/

def start (g : Shared) : Shared × Pc :=
  match g.state with
  | .initialized | .stopped => ({ g with state := .running }, .done (.ok .unit))
  | s => (g, fail (.invalidState ("cannot start from " ++ s.debug ++ " state")))

/-- The first step of `register_service` and `spawn_task`: check the state, subscribe, spawn. -/
def register (g : Shared) (kind : Kind) (name : String) : Shared × Pc :=
  if g.state ≠ .running then (g, fail (.invalidState (kind.refusal ++ g.state.debug ++ " state")))
  else
    let task : Task := ⟨name, .running, true, g.signals⟩
    ({ g with spawned := g.spawned ++ [task] }, .inserting kind name g.spawned.length)

/-- The second step: the handle goes into the map, or is dropped when the name is taken. -/
def insert (g : Shared) (kind : Kind) (name : String) (task : Nat) : Shared × Pc :=
  -- a refused task has been spawned and runs on without its handle
  if name ∈ g.tasks then (g, fail (.taskFailure (kind.noun ++ " already registered: " ++ name)))
  else ({ g with tasks := g.tasks.insert name task }, .done (.ok .unit))

/-- The first step of `shutdown`: the state becomes `Stopping` and the signal is sent. -/
def beginShutdown (g : Shared) : Shared × Pc :=
  match g.state with
  | .stopped => (g, .done (.ok (.stopped 0)))
  | .initialized => (g, fail (.invalidState ("cannot shutdown from " ++ g.state.debug ++ " state")))
  | .running | .stopping =>
    -- without a receiver nothing is sent
    ({ g with state := .stopping, signals := if 0 < g.receiverCount then g.signals + 1 else g.signals }, .draining)

/-- The second step: the map is taken and every handle in it is awaited under the timeout. -/
def drain (g : Shared) : Shared × Pc := ({ g with tasks := ∅ }, .joining g.handles [] 0)

/-- The shutdown gets the outcome of one wait: the task has ended, or its timeout came first. A panic
and a timeout end the shutdown with an error and drop the other handles; `text` is what the join
error says. -/
def join (g : Shared) (pending expired : List Nat) (stopped t : Nat) (text : String) : Option Pc :=
  if t ∉ pending then none
  else if t ∈ expired then some (fail .shutdownTimeout)
  else match g.statusOf t with
    | some .finished => some (.joining (pending.erase t) expired (stopped + 1))
    | some .panicked => some (fail (.taskFailure text))
    | _ => none

/-- The timeout of an awaited task that is still running. The shutdown may see it later, when the
task has ended after all. -/
def expire (g : Shared) (pending expired : List Nat) (stopped t : Nat) : Option Pc :=
  if t ∈ pending ∧ g.isRunning t = true then some (.joining pending (t :: expired) stopped) else none

def finish (g : Shared) (stopped : Nat) : Shared × Pc := ({ g with state := .stopped }, .done (.ok (.stopped stopped)))

/-! ## Steps -/

def begin (g : Shared) : Op → Option (Shared × Pc)
  | .start => some (start g)
  | .registerService name => some (register g .service name)
  | .spawnTask name => some (register g .task name)
  | .shutdown => some (beginShutdown g)

def act (g : Shared) : Pc → Act → Option (Shared × Pc)
  | .inserting kind name task, .go => some (insert g kind name task)
  | .draining, .go => some (drain g)
  | .joining [] _ stopped, .go => some (finish g stopped)
  | .joining pending expired stopped, .join t text => (join g pending expired stopped t text).map fun p => (g, p)
  | .joining pending expired stopped, .expire t => (expire g pending expired stopped t).map fun p => (g, p)
  | _, _ => none

/-- A task ends, or drops its receiver and goes on. -/
def env (g : Shared) (e : Env) : Option Shared :=
  let set (t : Nat) (f : Task → Task) : Option Shared :=
    if g.isRunning t then some { g with spawned := g.spawned.modify t f } else none
  match e with
  | .finish t => set t fun task => { task with status := .finished, receiver := false }
  | .panic t => set t fun task => { task with status := .panicked, receiver := false }
  | .dropReceiver t => set t fun task => { task with receiver := false }

abbrev Sys := Threads.Sys Shared Pc

abbrev Event := Threads.Event Op Act Env

def program : Threads.Program Shared Pc Op Act Env := ⟨begin, act, env⟩

def step : Sys → Event → Option Sys := Threads.step program

/-- A new runtime. -/
def init : Sys := ⟨{}, []⟩

/-! ## Steps of the tasks -/

/-- The task that takes a step. -/
def Env.task : Env → Nat
  | .finish t | .panic t | .dropReceiver t => t

/-- What the step does to it. -/
def Env.update : Env → Task → Task
  | .finish _, task => { task with status := .finished, receiver := false }
  | .panic _, task => { task with status := .panicked, receiver := false }
  | .dropReceiver _, task => { task with receiver := false }

theorem env_cases {g g' : Shared} {e : Env} (h : env g e = some g') :
    g.isRunning e.task = true ∧ g' = { g with spawned := g.spawned.modify e.task e.update } := by
  cases e with
  | finish t | panic t | dropReceiver t =>
    obtain ⟨hrun, hset⟩ := Option.ite_none_right_eq_some.1 h
    exact ⟨hrun, (Option.some.inj hset).symm⟩

@[simp] theorem Env.update_receiver (e : Env) (task : Task) : (e.update task).receiver = false := by
  cases e <;> rfl

@[simp] theorem Env.update_subscribedAt (e : Env) (task : Task) :
    (e.update task).subscribedAt = task.subscribedAt := by
  cases e <;> rfl

/-- Tasks are never restarted. -/
theorem Env.running_of_update {e : Env} {task : Task} (h : (e.update task).status = .running) :
    task.status = .running := by
  cases e with
  | finish t | panic t => cases h
  | dropReceiver t => exact h

theorem Env.panicked_of_update {e : Env} {task : Task} (h : (e.update task).status = .panicked) :
    task.status = .panicked ∨ e = .panic e.task := by
  cases e with
  | finish t => cases h
  | panic t => exact .inr rfl
  | dropReceiver t => exact .inl h

end Runtime

end NapCat.Core
