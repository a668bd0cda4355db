/-
`DesktopRuntime` of `napcat-desktop`: a background task that observes events, and the two handles on it.
A stop gives up the sender before it awaits the send, and the task before it awaits the task's end; the
call can be cancelled at either await, and the task can die on its own.
-/
import NapCat.Lib.Run
import Mathlib.Data.List.Basic

namespace NapCat.Desktop

/-- Desktop runtime error surface. -/
inductive DesktopError
  | alreadyStopped
  | alreadyRunning
  | controlClosed
  deriving DecidableEq

def DesktopError.text : DesktopError → String
  | .alreadyStopped => "desktop runtime already stopped"
  | .alreadyRunning => "desktop runtime already started"
  | .controlClosed => "desktop control channel closed"

/-- Runtime visibility snapshot for dashboards. -/
structure DesktopSnapshot where
  title : String
  totalEvents : UInt64 := 0
  lastEventMs : Option Nat := none
  lastSource : Option String := none
  lastKind : Option String := none
  deriving DecidableEq

/-- What the task reads of an event's envelope. -/
structure Envelope where
  source : String
  kind : String
  atMillis : Nat

def DesktopSnapshot.observe (data : DesktopSnapshot) (e : Envelope) : DesktopSnapshot :=
  { data with
    totalEvents := if data.totalEvents = 0xFFFFFFFFFFFFFFFF then data.totalEvents else data.totalEvents + 1
    lastEventMs := some e.atMillis
    lastSource := some e.source
    lastKind := some e.kind }

/-- A background task: whether it runs, and whether its channel holds a stop. -/
structure Task where
  running : Bool := true
  told : Bool := false
  deriving DecidableEq

/-- The await at which a stop is. -/
inductive StopAt
  | sending (t : Nat)
  | joining (t : Nat)
  deriving DecidableEq

/-- The runtime, every task it has spawned, the stop in progress and the answers given. A sender or a
task handle is the index of its task. -/
structure DesktopRuntime where
  snapshot : DesktopSnapshot := { title := "napcat-desktop" }
  stopTx : Option Nat := none
  task : Option Nat := none
  tasks : List Task := []
  call : Option StopAt := none
  answers : List (Except DesktopError Unit) := []
  deriving DecidableEq

namespace DesktopRuntime

/-- The calls, the two awaits of a stop ending, a cancellation, and what a task does. -/
inductive Event
  | start
  | stop
  | sent
  | joined
  | cancel
  | received (t : Nat) (e : Envelope)
  | stopped (t : Nat)
  | died (t : Nat)

def answer (s : DesktopRuntime) (r : Except DesktopError Unit) : DesktopRuntime :=
  { s with answers := s.answers ++ [r], call := none }

def isRunning (s : DesktopRuntime) (t : Nat) : Bool := s.tasks[t]?.any Task.running

/-- Whether someone still holds a sender to the task. -/
def hasSender (s : DesktopRuntime) (t : Nat) : Bool :=
  s.stopTx = some t ∨ s.call = some (.sending t) ∨ s.call = some (.joining t)

def start (s : DesktopRuntime) : DesktopRuntime :=
  if s.task.isSome then s.answer (.error .alreadyRunning)
  else
    let t := s.tasks.length
    { s with stopTx := some t, task := some t, tasks := s.tasks ++ [({} : Task)] }.answer (.ok ())

/-- A stop up to its first await. -/
def stop (s : DesktopRuntime) : DesktopRuntime :=
  match s.stopTx with
  | none => s.answer (.error .alreadyStopped)
  | some t => { s with stopTx := none, call := some (.sending t) }

/-- The send ends: a channel of one place takes the only stop that is sent to a task, unless the task is gone. -/
def sent (s : DesktopRuntime) (t : Nat) : DesktopRuntime :=
  if s.isRunning t then
    let s := { s with tasks := s.tasks.modify t fun task => { task with told := true } }
    match s.task with
    | none => s.answer (.ok ())
    | some u => { s with task := none, call := some (.joining u) }
  else s.answer (.error .controlClosed)

/-- `&mut self` lets a call begin only when none is in progress. -/
def step (s : DesktopRuntime) : Event → Option DesktopRuntime
  | .start => if s.call = none then some s.start else none
  | .stop => if s.call = none then some s.stop else none
  | .sent =>
    match s.call with
    | some (.sending t) => some (s.sent t)
    | _ => none
  | .joined =>
    match s.call with
    | some (.joining t) => if s.isRunning t then none else some (s.answer (.ok ()))
    | _ => none
  | .cancel => if s.call = none then none else some { s with call := none }
  | .received t e => if s.isRunning t then some { s with snapshot := s.snapshot.observe e } else none
  -- told to, or without anyone who could
  | .stopped t =>
    if s.isRunning t ∧ (s.tasks[t]?.any Task.told ∨ s.hasSender t = false) then
      some { s with tasks := s.tasks.modify t fun task => { task with running := false } }
    else none
  | .died t =>
    if s.isRunning t then some { s with tasks := s.tasks.modify t fun task => { task with running := false } } else none

/-- A new runtime. -/
def new (title : String) : DesktopRuntime := { snapshot := { title } }

/-! ## The two handles -/

/-- Neither call does anything: the runtime is started for the one and stopped for the other. -/
def Wedged (s : DesktopRuntime) : Prop :=
  s.start = s.answer (.error .alreadyRunning) ∧ s.stop = s.answer (.error .alreadyStopped)

/-- Between calls both handles are there or neither, and one of the calls does something. -/
def Paired (s : DesktopRuntime) : Prop :=
  s.call = none → s.stopTx.isSome = s.task.isSome ∧ ¬ s.Wedged

/-- A stop that awaits its send is not cancelled there, and its send does not find the task gone. -/
def Calm (s : DesktopRuntime) (e : Event) : Prop :=
  ∀ t, s.call = some (.sending t) → e ≠ .cancel ∧ (e = .sent → s.isRunning t = true)

/-- Which handles are there at each point of a stop. -/
structure Inv (s : DesktopRuntime) : Prop where
  idle : s.call = none → s.stopTx = s.task
  sending : ∀ t, s.call = some (.sending t) → s.stopTx = none ∧ s.task = some t
  joining : ∀ t, s.call = some (.joining t) → s.stopTx = none ∧ s.task = none

theorem Inv.new (title : String) : Inv (new title) :=
  ⟨fun _ => rfl, nofun, nofun⟩

/-- The handles alone decide. -/
theorem Inv.congr {s s' : DesktopRuntime} (h : Inv s) (hcall : s'.call = s.call) (htx : s'.stopTx = s.stopTx)
    (htask : s'.task = s.task) : Inv s' := by
  refine ⟨?_, ?_, ?_⟩
  · rw [hcall, htx, htask]
    exact h.idle
  · rw [hcall, htx, htask]
    exact h.sending
  · rw [hcall, htx, htask]
    exact h.joining

/-- Back between calls, the handles are a pair. -/
theorem Inv.answer {s : DesktopRuntime} (h : s.stopTx = s.task) (r : Except DesktopError Unit) : Inv (s.answer r) :=
  ⟨fun _ => h, nofun, nofun⟩

theorem Inv.start {s : DesktopRuntime} (h : Inv s) (hc : s.call = none) : Inv s.start := by
  unfold DesktopRuntime.start
  split
  · exact .answer (h.idle hc) _
  · exact .answer rfl _

theorem Inv.stop {s : DesktopRuntime} (h : Inv s) (hc : s.call = none) : Inv s.stop := by
  have hp := h.idle hc
  unfold DesktopRuntime.stop
  split
  · exact .answer hp _
  · rename_i t htx
    refine ⟨nofun, fun u hu => ?_, nofun⟩
    cases hu
    exact ⟨rfl, hp ▸ htx⟩

/-- A send that finds the task lets go of both handles. -/
theorem Inv.sent {s : DesktopRuntime} (h : Inv s) {t : Nat} (hc : s.call = some (.sending t))
    (hr : s.isRunning t = true) : Inv (s.sent t) := by
  obtain ⟨htx, htask⟩ := h.sending t hc
  unfold DesktopRuntime.sent
  rw [if_pos hr]
  simp only [htask]
  exact ⟨nofun, nofun, fun _ _ => ⟨htx, rfl⟩⟩

/-- Once the task has been sent its stop, neither handle is left. -/
theorem Inv.joined {s : DesktopRuntime} (h : Inv s) {t : Nat} (hc : s.call = some (.joining t)) :
    s.stopTx = s.task := by
  obtain ⟨htx, htask⟩ := h.joining t hc
  rw [htx, htask]

/-- So a cancellation does no harm there. -/
theorem Inv.cancel {s : DesktopRuntime} (h : Inv s) {t : Nat} (hc : s.call = some (.joining t)) :
    Inv { s with call := none } :=
  ⟨fun _ => h.joined hc, nofun, nofun⟩

theorem step_inv (s : DesktopRuntime) (e : Event) (s' : DesktopRuntime) (h : Inv s) (hcalm : Calm s e)
    (hs : step s e = some s') : Inv s' := by
  cases e with
  | start =>
    simp only [step, Option.ite_none_right_eq_some, Option.some.injEq] at hs
    obtain ⟨hc, rfl⟩ := hs
    exact h.start hc
  | stop =>
    simp only [step, Option.ite_none_right_eq_some, Option.some.injEq] at hs
    obtain ⟨hc, rfl⟩ := hs
    exact h.stop hc
  | sent =>
    simp only [step] at hs
    split at hs
    · rename_i t hc
      cases hs
      exact h.sent hc ((hcalm t hc).2 rfl)
    · cases hs
  | joined =>
    simp only [step] at hs
    split at hs
    · rename_i t hc
      split at hs
      · cases hs
      · cases hs
        exact .answer (h.joined hc) _
    · cases hs
  | cancel =>
    simp only [step, Option.ite_none_left_eq_some, Option.some.injEq] at hs
    obtain ⟨hne, rfl⟩ := hs
    cases hc : s.call with
    | none => exact absurd hc hne
    | some c =>
      cases c with
      | sending t => exact absurd rfl (hcalm t hc).1
      | joining t => exact h.cancel hc
  | received t e =>
    simp only [step, Option.ite_none_right_eq_some, Option.some.injEq] at hs
    obtain ⟨-, rfl⟩ := hs
    exact h.congr rfl rfl rfl
  | stopped t =>
    simp only [step, Option.ite_none_right_eq_some, Option.some.injEq] at hs
    obtain ⟨-, rfl⟩ := hs
    exact h.congr rfl rfl rfl
  | died t =>
    simp only [step, Option.ite_none_right_eq_some, Option.some.injEq] at hs
    obtain ⟨-, rfl⟩ := hs
    exact h.congr rfl rfl rfl

/-- With both handles a stop gets under way, and with neither a start does. -/
theorem Inv.paired {s : DesktopRuntime} (h : Inv s) : Paired s := by
  intro hc
  have hp := h.idle hc
  refine ⟨congrArg Option.isSome hp, ?_⟩
  rintro ⟨hstart, hstop⟩
  cases ht : s.task with
  | none =>
    have := congrArg answers hstart
    simp [DesktopRuntime.start, ht, DesktopRuntime.answer] at this
  | some t =>
    have := congrArg call hstop
    simp [DesktopRuntime.stop, hp, ht, DesktopRuntime.answer] at this

/-- A stop that ends at its send leaves the task without a sender to it. -/
theorem Inv.not_paired {s : DesktopRuntime} (h : Inv s) {e : Event} (hcalm : ¬ Calm s e) :
    ∃ s' ∈ step s e, ¬ Paired s' := by
  obtain ⟨t, hc, hbad⟩ : ∃ t, s.call = some (.sending t) ∧ (e = .cancel ∨ e = .sent ∧ s.isRunning t = false) := by
    simp only [Calm, not_forall, not_and_or, Bool.not_eq_true, not_not] at hcalm
    obtain ⟨t, hc, hbad⟩ := hcalm
    exact ⟨t, hc, hbad.imp id fun ⟨he, hr⟩ => ⟨he, hr⟩⟩
  obtain ⟨htx, htask⟩ := h.sending t hc
  have apart : ∀ s' : DesktopRuntime, s'.call = none → s'.stopTx = s.stopTx → s'.task = s.task → ¬ Paired s' := by
    intro s' hc' htx' htask' hp
    have := (hp hc').1
    rw [htx', htask', htx, htask] at this
    cases this
  rcases hbad with rfl | ⟨rfl, hr⟩
  · exact ⟨{ s with call := none }, by simp [step, hc], apart _ rfl rfl rfl⟩
  · exact ⟨s.answer (.error .controlClosed), by simp [step, hc, DesktopRuntime.sent, hr], apart _ rfl rfl rfl⟩

/-- Every state of a run is as it should be between calls exactly when no stop of it ends at its send: it is not
cancelled there, and the task it sends to is not gone. -/
theorem paired_iff (title : String) (es : List Event) :
    (∀ es', es' <+: es → ∀ s ∈ Run.exec step (new title) es', Paired s) ↔ Run.Along step Calm (new title) es :=
  (Run.along_iff_reached (fun _ => Inv.paired) step_inv (fun _ _ h => h.not_paired) es (new title) (.new title)).symm

example : (Run.exec step (new "desktop") [.start, .received 0 ⟨"protocol", "message", 7⟩, .stop, .sent, .stopped 0,
    .joined, .stop]).map (fun s => (s.snapshot.totalEvents, s.snapshot.lastSource, s.answers)) =
      some (1, some "protocol", [.ok (), .ok (), .error .alreadyStopped]) := by decide

/-- The task dies, and the next stop gives up the only sender for it: a start still finds the task, a stop no sender. -/
theorem task_left_behind :
    ∃ s ∈ Run.exec step (new "napcat-desktop") [.start, .died 0, .stop, .sent],
      s.call = none ∧ s.Wedged ∧ ¬ s.Paired := by
  refine ⟨_, rfl, rfl, ⟨rfl, rfl⟩, fun h => ?_⟩
  exact (h rfl).2 ⟨rfl, rfl⟩

end DesktopRuntime

end NapCat.Desktop
